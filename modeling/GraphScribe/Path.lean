import GraphScribe.Lexicographic

/-!
# Paths

A path is a text: names with slashes between them. A name is never empty, never `.` or `..`, and
holds no slash. The steps of a path are what a file tree follows, one after the other; its
components are the same without steps that lead nowhere. Paths are ordered by their components, so
`a/b` comes before `a-b`.
-/

namespace GraphScribe

/-! ## Names -/

/-- The text can name a file or a directory. -/
def IsFileName (text : List Char) : Prop :=
  text ≠ [] ∧ text ≠ ['.'] ∧ text ≠ ['.', '.'] ∧ '/' ∉ text

instance (text : List Char) : Decidable (IsFileName text) :=
  inferInstanceAs (Decidable (_ ∧ _))

/-- The name of a file or a directory. -/
abbrev FileName := { text : List Char // IsFileName text }

namespace FileName

/-- A name before its last dot, and after it. A dot at the front of a name divides nothing. -/
def divide (name : List Char) : List Char × Option (List Char) :=
  let last := (name.reverse.takeWhile (· != '.')).reverse
  let front := name.take (name.length - last.length - 1)
  if front.isEmpty then (name, none) else (front, some last)

/-- The name without its extension. -/
def stem (name : FileName) : List Char := (divide name.val).1

/-- What follows the last dot. -/
def extension? (name : FileName) : Option (List Char) := (divide name.val).2

end FileName

/-! ## Components -/

/-- One step of a path. -/
inductive Component where
  /-- To the root of all files. -/
  | root
  /-- To where one is. -/
  | here
  /-- To the directory above. -/
  | up
  /-- To an entry of the directory where one is. -/
  | name (name : FileName)
deriving DecidableEq

namespace Component

/-- The step of a text between slashes; an empty one is no step. -/
def ofPiece? (piece : List Char) : Option Component :=
  if piece = ['.'] then some here
  else if piece = ['.', '.'] then some up
  else if h : IsFileName piece then some (name ⟨piece, h⟩)
  else none

/-- The text of a step. -/
def text : Component → List Char
  | root => ['/']
  | here => ['.']
  | up => ['.', '.']
  | name n => n.val

/-- Steps are ordered like these numbers: the root, then `.`, then `..`, then names by their
characters. -/
def orderKey : Component → List Nat
  | root => [0]
  | here => [1]
  | up => [2]
  | name n => 3 :: n.val.map Char.toNat

end Component

/-! ## Paths -/

/-- The text of a path. -/
structure Path where
  text : List Char
deriving DecidableEq, Repr

namespace Path

/-- The path of a text. -/
def ofString (text : String) : Path := ⟨text.toList⟩

/-- The text of a path, as a string. -/
def toString (p : Path) : String := String.ofList p.text

instance : Inhabited Path := ⟨⟨[]⟩⟩

/-- The texts between slashes. -/
def pieces : List Char → List (List Char)
  | [] => [[]]
  | '/' :: rest => [] :: pieces rest
  | c :: rest =>
    match pieces rest with
    | [] => [[c]]
    | piece :: others => (c :: piece) :: others

/-- The path starts at the root. -/
def isAbsolute (p : Path) : Bool := p.text.head? == some '/'

/-- The path ends in a slash, so it can only name a directory. -/
def endsInSlash (p : Path) : Bool := p.text.getLast? == some '/'

/-- All steps of a path. -/
def steps (p : Path) : List Component :=
  (if p.isAbsolute then [.root] else []) ++ (pieces p.text).filterMap Component.ofPiece?

/-- Leaves out the steps `.` that do not stand at the front. -/
def normalize : List Component → List Component
  | [] => []
  | first :: rest => first :: rest.filter (· != .here)

/-- The steps of a path without idle ones. -/
def components (p : Path) : List Component := normalize p.steps

/-- The name that a path ends in. -/
def fileName? (p : Path) : Option FileName :=
  match p.components.getLast? with
  | some (.name n) => some n
  | _ => none

/-- The name that a path ends in, without its extension. -/
def stem? (p : Path) : Option (List Char) := p.fileName?.map FileName.stem

/-- The extension of the name that a path ends in. -/
def extension? (p : Path) : Option (List Char) := p.fileName?.bind FileName.extension?

/-- The components of the directory that a path lies in. The root lies in none. -/
def parent? (p : Path) : Option (List Component) :=
  match p.components.getLast? with
  | none | some .root => none
  | _ => some p.components.dropLast

/-- The second path as seen from the first one. An absolute path looks the same from everywhere. -/
def join (p q : Path) : Path :=
  if q.isAbsolute then q
  else if p.text.isEmpty || p.endsInSlash then ⟨p.text ++ q.text⟩
  else ⟨p.text ++ '/' :: q.text⟩

/-- The path of some steps. -/
def ofComponents (steps : List Component) : Path :=
  steps.foldl (fun p step => p.join ⟨step.text⟩) ⟨[]⟩

/-- Paths are ordered like these lists, by the first component in which they differ. -/
def orderKey (p : Path) : List (List Nat) := p.components.map Component.orderKey

/-- The order of paths: the first one is not after the second. -/
def before (p q : Path) : Bool :=
  listBefore (listBefore Nat.ble) p.orderKey q.orderKey

/-- Paths in ascending order. -/
def sort (paths : List Path) : List Path := paths.mergeSort before

end Path
end GraphScribe
