import GraphScribe.FileTree
import GraphScribe.Glob
import GraphScribe.Text.Quoted

/-!
# Inputs

The files to convert: those that are given, or else those that a pattern stands for. Only the
directory that a pattern starts with is searched, and no deeper than the pattern can reach.
-/

namespace GraphScribe

/-- A text that was given as a pattern, and why it is none. -/
structure InvalidGlob where
  pattern : String
  fault : GlobFault
deriving DecidableEq, Repr

namespace InvalidGlob

/-- What is wrong. -/
def message (e : InvalidGlob) : String :=
  s!"Invalid glob pattern {Text.quoted e.pattern}"

/-- Why it is wrong. -/
def cause (e : InvalidGlob) : String :=
  s!"error parsing glob '{e.pattern}': {e.fault.message}"

end InvalidGlob

/-- The files to convert, in order, and whether a directory was searched for them. -/
structure Inputs where
  paths : List Path
  searched : Bool := false
deriving DecidableEq, Repr

namespace Inputs

/-- The step of a pattern holds a wildcard. -/
def hasWildcard (step : Component) : Bool :=
  step.text.any fun c => c == '*' || c == '?' || c == '[' || c == '\x7b'

/-- The steps of a pattern before the first one with a wildcard. -/
def literalSteps (pattern : Path) : List Component :=
  pattern.components.takeWhile (!hasWildcard ·)

/-- The steps of a pattern from the first one with a wildcard on. -/
def wildcardSteps (pattern : Path) : List Component :=
  pattern.components.dropWhile (!hasWildcard ·)

/-- The text has two stars in a row. -/
def hasTwoStars : List Char → Bool
  | '*' :: '*' :: _ => true
  | _ :: rest => hasTwoStars rest
  | [] => false

/-- The number of steps below the searched directory that a pattern can reach, if it is limited. -/
def depth? (pattern : Path) : Option Nat :=
  if hasTwoStars pattern.text then none else some (wildcardSteps pattern).length

/-- The number of steps is within a limit. -/
def isWithin (limit? : Option Nat) (steps : Nat) : Bool :=
  match limit? with
  | none => true
  | some limit => steps ≤ limit

/-- The files in a directory, down to a depth, that a pattern stands for. `base` is what their paths
begin with. -/
def search (t : FileTree) (glob : Glob) (base : Path) (directory : Location) (depth? : Option Nat) :
    List Path :=
  let found := (t.filesBelow directory).filterMap fun (names, _) =>
    let path := names.foldl (fun p name => p.join ⟨name.val⟩) base
    if isWithin depth? names.length && glob.accepts path.text then some path else none
  Path.sort found

/-- The files that a pattern stands for. A pattern without wildcards is the path of one file. -/
def expand (t : FileTree) (pattern : String) : Except InvalidGlob Inputs :=
  let path := Path.ofString pattern
  match Glob.read path.text with
  | .error fault => .error ⟨pattern, fault⟩
  | .ok glob =>
    if (wildcardSteps path).isEmpty then .ok ⟨if t.isFile path then [path] else [], false⟩
    else
      let base := Path.ofComponents (literalSteps path)
      match t.follow t.home (literalSteps path) with
      | .error _ => .ok ⟨[], false⟩
      | .ok directory =>
        if t.get? directory = some .directory then
          .ok ⟨search t glob base directory (depth? path), true⟩
        else .ok ⟨[], false⟩

/-- The files to convert: those given, or else those that the pattern stands for. An empty pattern
stands for none. -/
def resolve (t : FileTree) (given : List Path) (pattern? : Option String) :
    Except InvalidGlob Inputs :=
  if !given.isEmpty then .ok ⟨given, false⟩
  else
    match pattern? with
    | none => .ok ⟨[], false⟩
    | some pattern => if pattern.isEmpty then .ok ⟨[], false⟩ else expand t pattern

end Inputs
end GraphScribe
