import GraphScribe.Path
import GraphScribe.Sink
import GraphScribe.Source

/-!
# File trees

All files and directories that a program can see, and its working directory, as a plain value. Every
entry lies in a directory, so a tree has no loose ends, and what is done to one entry leaves all
others as they are.

* `find` says what a path names.
* `slot` finds the place of a file that is about to be written, and `store` fills it.
* `createDirectories` makes a directory and all those above it.
-/

namespace GraphScribe

/-- What stands at a location. -/
inductive FileEntry where
  | file (content : Bytes)
  | directory
deriving DecidableEq, Repr

/-- Where an entry is: its name, then the name of the directory that it lies in, and so on up to the
root, which is the empty list. -/
abbrev Location := List FileName

/-- Files and directories, each with its location. The root is a directory without being listed. -/
structure FileTree where
  entries : List (Location × FileEntry)
  /-- The working directory. -/
  home : Location
  /-- The largest number of bytes that a file can hold. -/
  fileLimit : Option Nat := none
  distinct : (entries.map (·.1)).Nodup
  rooted : ∀ l e, (l, e) ∈ entries →
    ∃ name parent, l = name :: parent ∧ (parent = [] ∨ (parent, .directory) ∈ entries)
  home_directory : home = [] ∨ (home, .directory) ∈ entries

namespace FileTree

/-- The tree that has only the root. -/
def empty : FileTree where
  entries := []
  home := []
  distinct := by simp
  rooted := by simp
  home_directory := .inl rfl

instance : Inhabited FileTree := ⟨empty⟩

/-- What stands at a location. -/
def get? (t : FileTree) (l : Location) : Option FileEntry :=
  if l = [] then some .directory else t.entries.lookup l

theorem lookup_eq_some_iff {entries : List (Location × FileEntry)} {l : Location} {e : FileEntry}
    (distinct : (entries.map (·.1)).Nodup) : entries.lookup l = some e ↔ (l, e) ∈ entries := by
  induction entries with
  | nil => simp
  | cons entry rest ih =>
    obtain ⟨l', e'⟩ := entry
    simp only [List.map_cons, List.nodup_cons, List.mem_map, not_exists] at distinct
    by_cases same : l = l'
    · subst same
      have : (l, e) ∉ rest := fun h => distinct.1 (l, e) ⟨h, rfl⟩
      simp [this, eq_comm]
    · simp [List.lookup_cons, beq_false_of_ne same, same, ih distinct.2]

theorem get?_eq_some_iff {t : FileTree} {l : Location} {e : FileEntry} (ne : l ≠ []) :
    t.get? l = some e ↔ (l, e) ∈ t.entries := by
  simp [get?, ne, lookup_eq_some_iff t.distinct]

/-! ## Storing -/

/-- A place where something can be stored: in a directory, and not in place of one. -/
structure Slot (t : FileTree) where
  name : FileName
  parent : Location
  parent_directory : t.get? parent = some .directory
  not_directory : t.get? (name :: parent) ≠ some .directory

/-- The location of a place. -/
def Slot.location {t : FileTree} (s : t.Slot) : Location := s.name :: s.parent

/-- Stores something, in place of the file that is there. -/
def store (t : FileTree) (s : t.Slot) (e : FileEntry) : FileTree where
  entries := (s.location, e) :: t.entries.filter (·.1 ≠ s.location)
  home := t.home
  fileLimit := t.fileLimit
  distinct := by
    simp only [List.map_cons, List.nodup_cons]
    refine ⟨by simp, t.distinct.sublist (List.filter_sublist.map _)⟩
  rooted := by
    have kept {l : Location} (h : (l, .directory) ∈ t.entries) :
        (l, FileEntry.directory) ∈ t.entries.filter (·.1 ≠ s.location) := by
      simp only [List.mem_filter, h, true_and]
      simp only [ne_eq, decide_not, Bool.not_eq_true', decide_eq_false_iff_not]
      rintro rfl
      exact s.not_directory ((get?_eq_some_iff (by simp)).2 h)
    intro l e' h
    rcases List.mem_cons.1 h with same | h
    · obtain ⟨rfl, rfl⟩ := Prod.mk.inj same
      refine ⟨s.name, s.parent, rfl, ?_⟩
      by_cases top : s.parent = []
      · exact .inl top
      · exact .inr (List.mem_cons_of_mem _
          (kept ((get?_eq_some_iff top).1 s.parent_directory)))
    · obtain ⟨name, parent, rfl, h'⟩ := t.rooted l e' (List.mem_filter.1 h).1
      exact ⟨name, parent, rfl, h'.imp_right fun h' => List.mem_cons_of_mem _ (kept h')⟩
  home_directory := by
    refine t.home_directory.imp_right fun h => List.mem_cons_of_mem _ ?_
    simp only [List.mem_filter, h, true_and]
    simp only [ne_eq, decide_not, Bool.not_eq_true', decide_eq_false_iff_not]
    intro eq
    rw [eq] at h
    exact s.not_directory ((get?_eq_some_iff (by simp)).2 h)

/-- Storing changes one location. -/
theorem get?_store (t : FileTree) (s : t.Slot) (e : FileEntry) (l : Location) :
    (t.store s e).get? l = if l = s.location then some e else t.get? l := by
  have top : s.location ≠ [] := by simp [Slot.location]
  by_cases ne : l = []
  · subst ne
    simp [get?, top.symm]
  · apply Option.ext
    intro e'
    rw [get?_eq_some_iff ne]
    by_cases same : l = s.location
    · subst same
      simp [store, eq_comm]
    · rw [if_neg same, get?_eq_some_iff ne]
      simp [store, same]

/-! ## Following paths -/

/-- Goes step by step from a location. Every step needs a directory to start from; the last one may
lead to nothing. -/
def follow (t : FileTree) : Location → List Component → Except SystemError Location
  | l, [] => .ok l
  | l, step :: rest =>
    match t.get? l with
    | none => .error .notFound
    | some (.file _) => .error .notDirectory
    | some .directory =>
      match step with
      | .root => t.follow [] rest
      | .here => t.follow l rest
      | .up => t.follow l.tail rest
      | .name n => t.follow (n :: l) rest

/-- The location of a path. An empty path leads nowhere. -/
def locate (t : FileTree) (p : Path) : Except SystemError Location :=
  if p.text.isEmpty then .error .notFound else t.follow t.home p.steps

/-- What a path names. -/
def find (t : FileTree) (p : Path) : Except SystemError FileEntry := do
  match t.get? (← t.locate p) with
  | none => .error .notFound
  | some .directory => .ok .directory
  | some (.file content) => if p.endsInSlash then .error .notDirectory else .ok (.file content)

/-- The path names a file. -/
def isFile (t : FileTree) (p : Path) : Bool :=
  match t.find p with
  | .ok (.file _) => true
  | _ => false

/-- The path names a directory. -/
def isDirectory (t : FileTree) (p : Path) : Bool :=
  match t.find p with
  | .ok .directory => true
  | _ => false

/-- What is read from a path. A directory can be opened, but there is nothing to read in it. -/
def openSource (t : FileTree) (p : Path) : Except SystemError Source := do
  match ← t.find p with
  | .file content => return { bytes := content }
  | .directory => return { bytes := [], failure := some .isDirectory }

/-- The bytes of the file at a path. -/
def readFile (t : FileTree) (p : Path) : Except SystemError Bytes := do
  let source ← t.openSource p
  match source.failure with
  | none => return source.bytes
  | some e => .error e

/-! ## Writing -/

/-- The place that steps lead to, if a file can be stored there. -/
def slotAt (t : FileTree) (steps : List Component) : Except SystemError t.Slot := do
  match steps.getLast? with
  | some (.name name) =>
    let parent ← t.follow t.home steps.dropLast
    match hp : t.get? parent with
    | none => .error .notFound
    | some (.file _) => .error .notDirectory
    | some .directory =>
      if hn : t.get? (name :: parent) = some .directory then .error .isDirectory
      else return ⟨name, parent, hp, hn⟩
  | some _ =>
    match t.get? (← t.follow t.home steps) with
    | none => .error .notFound
    | some (.file _) => .error .notDirectory
    | some .directory => .error .isDirectory
  | none => .error .notFound

/-- The place of a file that is about to be written. -/
def slot (t : FileTree) (p : Path) : Except SystemError t.Slot := do
  let slot ← t.slotAt p.steps
  if p.endsInSlash then .error .isDirectory else return slot

/-- A new file, which holds nothing yet. -/
def newFile (t : FileTree) : Sink := { limit := t.fileLimit }

/-- Writes a whole file. -/
def writeFile (t : FileTree) (p : Path) (content : Bytes) : Except SystemError FileTree := do
  return t.store (← t.slot p) (.file content)

/-- Makes one directory. -/
def createDirectory (t : FileTree) (steps : List Component) : Except SystemError FileTree :=
  match t.slotAt steps with
  | .error .isDirectory => .error .alreadyExists
  | .error e => .error e
  | .ok slot =>
    if (t.get? slot.location).isSome then .error .alreadyExists
    else .ok (t.store slot .directory)

/-- Some steps lead to a directory. -/
def leadsToDirectory (t : FileTree) (steps : List Component) : Bool :=
  match t.follow t.home steps with
  | .ok l => t.get? l == some .directory
  | .error _ => false

/-- Makes one directory unless there is one. -/
def ensureDirectory (t : FileTree) (steps : List Component) : Except SystemError Unit × FileTree :=
  match t.createDirectory steps with
  | .ok t => (.ok (), t)
  | .error e => (if t.leadsToDirectory steps then .ok () else .error e, t)

/-- Makes a directory after those above it that are missing. -/
def createAlong (t : FileTree) (steps : List Component) : Except SystemError Unit × FileTree :=
  if steps = [] then (.ok (), t)
  else
    match t.ensureDirectory steps with
    | (.error .notFound, t) =>
      match t.createAlong (Path.normalize steps).dropLast with
      | (.ok (), t) => t.ensureDirectory steps
      | failure => failure
    | outcome => outcome
termination_by steps.length
decreasing_by
  cases steps with
  | nil => contradiction
  | cons first rest =>
    have := List.length_filter_le (· != .here) rest
    simp only [Path.normalize, List.length_dropLast, List.length_cons]
    omega

/-- Makes the directory at a path and those above it that are missing. The empty path needs none. -/
def createDirectories (t : FileTree) (p : Path) : Except SystemError Unit × FileTree :=
  t.createAlong p.steps

/-- Writes a whole file after making the directories above it. -/
def addFile (t : FileTree) (p : Path) (content : Bytes) : Except SystemError FileTree :=
  match t.createAlong ((p.parent?).getD []) with
  | (.ok (), t) => t.writeFile p content
  | (.error e, _) => .error e

/-- Makes the directory at a path the working directory. -/
def enter (t : FileTree) (p : Path) : Except SystemError FileTree := do
  let l ← t.locate p
  match h : t.get? l with
  | some .directory =>
    let inTree : l = [] ∨ (l, .directory) ∈ t.entries := by
      by_cases top : l = []
      · exact .inl top
      · exact .inr ((get?_eq_some_iff top).1 h)
    return { t with home := l, home_directory := inTree }
  | some (.file _) => .error .notDirectory
  | none => .error .notFound

/-! ## Listing -/

/-- The names that lead from a location to one below it. -/
def namesFrom? (base l : Location) : Option (List FileName) :=
  if base.isSuffixOf l then some (l.take (l.length - base.length)).reverse else none

/-- The files at a location and below it, each with the names that lead there and its content. -/
def filesBelow (t : FileTree) (base : Location) : List (List FileName × Bytes) :=
  t.entries.filterMap fun (l, e) =>
    match e, namesFrom? base l with
    | .file content, some names => some (names, content)
    | _, _ => none

end FileTree
end GraphScribe
