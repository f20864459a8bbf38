import GraphScribe.FileTree

/-!
# What writing leaves as it was

Storing a file changes one location and no directory; making directories puts them where nothing
was. Where a path leads depends on directories alone, so neither turns a path that leads somewhere
elsewhere.

* `SameDirectories.locate_iff`: trees with the same directories agree on where paths lead.
* `SameDirectories.slot_of_ok`, `SameDirectories.find_of_ok`: and on what can be written, and on
  what is found at a location where both have the same.
* `addsDirectories_createDirectories`: making a directory keeps everything that was there.
-/

namespace GraphScribe.FileTree

variable {t t' t'' : FileTree}

/-! ## Locations of paths -/

theorem follow_append (t : FileTree) (l : Location) (front rest : List Component) :
    t.follow l (front ++ rest) = (t.follow l front).bind fun l' => t.follow l' rest := by
  induction front generalizing l with
  | nil => rfl
  | cons step front ih =>
    simp only [List.cons_append, follow]
    split
    · rfl
    · rfl
    · cases step <;> exact ih _

/-- Steps lead to a place for a file if the last one is its name and those before lead to its
directory. -/
theorem slotAt_eq_ok {steps : List Component} {s : t.Slot} :
    t.slotAt steps = .ok s ↔
      ∃ front, steps = front ++ [.name s.name] ∧ t.follow t.home front = .ok s.parent := by
  constructor
  · intro h
    unfold slotAt at h
    split at h
    · next name last =>
      obtain ⟨front, rfl⟩ := List.getLast?_eq_some_iff.1 last
      rw [List.dropLast_concat] at h
      rcases followed : t.follow t.home front with e | parent <;> rw [followed] at h
      · cases h
      · simp only [bind, Except.bind] at h
        split at h
        · cases h
        · cases h
        · split at h
          · cases h
          · cases h
            exact ⟨front, rfl, followed⟩
    · rcases followed : t.follow t.home steps with e | l <;> rw [followed] at h
      · cases h
      · simp only [bind, Except.bind] at h
        split at h <;> cases h
    · cases h
  · rintro ⟨front, rfl, followed⟩
    obtain ⟨name, parent, parent_directory, not_directory⟩ := s
    unfold slotAt
    rw [List.getLast?_concat, List.dropLast_concat]
    simp only [followed, bind, Except.bind]
    split
    · next h => cases h.symm.trans parent_directory
    · next h => cases h.symm.trans parent_directory
    · rw [dif_neg not_directory]
      rfl

theorem slot_eq_ok {p : Path} {s : t.Slot} :
    t.slot p = .ok s ↔ t.slotAt p.steps = .ok s ∧ p.endsInSlash = false := by
  unfold slot
  rcases t.slotAt p.steps with e | s' <;> cases p.endsInSlash <;> simp [bind, Except.bind, pure,
    Except.pure]

theorem steps_of_isEmpty {p : Path} (empty : p.text.isEmpty = true) : p.steps = [] := by
  rw [Path.steps, Path.isAbsolute, List.isEmpty_iff.1 empty]
  rfl

/-- A place for a file is where its path leads. -/
theorem locate_of_slot {p : Path} {s : t.Slot} (h : t.slot p = .ok s) :
    t.locate p = .ok s.location := by
  obtain ⟨front, steps, followed⟩ := slotAt_eq_ok.1 (slot_eq_ok.1 h).1
  have notEmpty : ¬ p.text.isEmpty = true := by
    intro empty
    rw [steps_of_isEmpty empty] at steps
    exact absurd steps.symm (by simp)
  rw [locate, if_neg notEmpty, steps, follow_append, followed]
  simp only [Except.bind, follow, s.parent_directory]
  rfl

/-- A path names what stands where it leads, and no file if it ends in a slash. -/
theorem find_eq_ok {p : Path} {e : FileEntry} :
    t.find p = .ok e ↔
      ∃ l, t.locate p = .ok l ∧ t.get? l = some e ∧ (e = .directory ∨ p.endsInSlash = false) := by
  constructor
  · intro h
    unfold find at h
    rcases located : t.locate p with e' | l <;> rw [located] at h
    · cases h
    · simp only [bind, Except.bind] at h
      split at h
      · cases h
      · next found => cases h; exact ⟨l, rfl, found, .inl rfl⟩
      · next found =>
        split at h
        · cases h
        · next noSlash => cases h; exact ⟨l, rfl, found, .inr (by simpa using noSlash)⟩
  · rintro ⟨l, located, found, readable⟩
    unfold find
    simp only [located, bind, Except.bind, found]
    cases e with
    | directory => rfl
    | file content => rw [readable.resolve_left nofun]; rfl

/-! ## Trees with the same directories -/

/-- The trees differ in nothing but files. -/
structure SameDirectories (t t' : FileTree) : Prop where
  home : t'.home = t.home
  fileLimit : t'.fileLimit = t.fileLimit
  directory : ∀ l, t'.get? l = some .directory ↔ t.get? l = some .directory

namespace SameDirectories

theorem refl (t : FileTree) : SameDirectories t t :=
  ⟨rfl, rfl, fun _ => .rfl⟩

theorem symm (same : SameDirectories t t') : SameDirectories t' t :=
  ⟨same.home.symm, same.fileLimit.symm, fun l => (same.directory l).symm⟩

theorem trans (same : SameDirectories t t') (same' : SameDirectories t' t'') :
    SameDirectories t t'' :=
  ⟨same'.home.trans same.home, same'.fileLimit.trans same.fileLimit,
    fun l => (same'.directory l).trans (same.directory l)⟩

theorem store (t : FileTree) (s : t.Slot) (content : Bytes) :
    SameDirectories t (t.store s (.file content)) := by
  refine ⟨rfl, rfl, fun l => ?_⟩
  rw [get?_store]
  split
  · next here =>
    subst here
    exact iff_of_false nofun s.not_directory
  · exact .rfl

theorem follow_of_ok (same : SameDirectories t t') {l l' : Location} {steps : List Component}
    (h : t.follow l steps = .ok l') : t'.follow l steps = .ok l' := by
  induction steps generalizing l with
  | nil => exact h
  | cons step rest ih =>
    simp only [follow] at h ⊢
    split at h
    · cases h
    · cases h
    · next directory =>
      rw [(same.directory l).2 directory]
      cases step <;> exact ih h

theorem locate_of_ok (same : SameDirectories t t') {p : Path} {l : Location}
    (h : t.locate p = .ok l) : t'.locate p = .ok l := by
  unfold locate at h ⊢
  rw [same.home]
  split at h
  · cases h
  · next notEmpty => rw [if_neg notEmpty, same.follow_of_ok h]

theorem locate_iff (same : SameDirectories t t') {p : Path} {l : Location} :
    t'.locate p = .ok l ↔ t.locate p = .ok l :=
  ⟨same.symm.locate_of_ok, same.locate_of_ok⟩

theorem locate_ne (same : SameDirectories t t') {p q : Path} {l : Location}
    (located : t'.locate q = .ok l) (apart : t.locate p ≠ t.locate q) :
    t'.locate p ≠ t'.locate q := by
  intro together
  rw [located, same.locate_iff, ← same.locate_iff.1 located] at together
  exact apart together

/-- What can be written can be written in the other tree too, at the same location. -/
theorem slot_of_ok (same : SameDirectories t t') {p : Path} {s : t.Slot} (h : t.slot p = .ok s) :
    ∃ s' : t'.Slot, t'.slot p = .ok s' ∧ s'.location = s.location := by
  obtain ⟨at_, noSlash⟩ := slot_eq_ok.1 h
  obtain ⟨front, steps, followed⟩ := slotAt_eq_ok.1 at_
  let s' : t'.Slot :=
    ⟨s.name, s.parent, (same.directory _).2 s.parent_directory,
      mt (same.directory _).1 s.not_directory⟩
  have at' : t'.slotAt p.steps = .ok s' :=
    slotAt_eq_ok.2 ⟨front, steps, same.home ▸ same.follow_of_ok followed⟩
  exact ⟨s', slot_eq_ok.2 ⟨at', noSlash⟩, rfl⟩

/-- What a path names is there in the other tree too, if nothing changed where the path leads. -/
theorem find_of_ok (same : SameDirectories t t') {p : Path} {e : FileEntry}
    (h : t.find p = .ok e) (kept : ∀ l, t.locate p = .ok l → t'.get? l = t.get? l) :
    t'.find p = .ok e := by
  obtain ⟨l, located, found, readable⟩ := find_eq_ok.1 h
  exact find_eq_ok.2 ⟨l, same.locate_of_ok located, kept l located ▸ found, readable⟩

theorem find_iff (same : SameDirectories t t') {p : Path} {e : FileEntry}
    (kept : ∀ l, t.locate p = .ok l → t'.get? l = t.get? l) :
    t'.find p = .ok e ↔ t.find p = .ok e := by
  constructor
  · intro found
    exact same.symm.find_of_ok found fun l located => (kept l (same.locate_iff.1 located)).symm
  · intro found
    exact same.find_of_ok found kept

end SameDirectories

/-! ## Making directories -/

/-- The second tree has directories where the first has nothing, and else they are alike. -/
structure AddsDirectories (t t' : FileTree) : Prop where
  home : t'.home = t.home
  fileLimit : t'.fileLimit = t.fileLimit
  entry : ∀ l, t'.get? l = t.get? l ∨ t.get? l = none ∧ t'.get? l = some .directory

namespace AddsDirectories

theorem refl (t : FileTree) : AddsDirectories t t :=
  ⟨rfl, rfl, fun _ => .inl rfl⟩

theorem trans (adds : AddsDirectories t t') (adds' : AddsDirectories t' t'') :
    AddsDirectories t t'' := by
  refine ⟨adds'.home.trans adds.home, adds'.fileLimit.trans adds.fileLimit, fun l => ?_⟩
  rcases adds'.entry l with same' | ⟨missing', made'⟩
  · rw [same']
    exact adds.entry l
  · rcases adds.entry l with same | ⟨missing, made⟩
    · exact .inr ⟨same ▸ missing', made'⟩
    · cases made.symm.trans missing'

theorem file_iff (adds : AddsDirectories t t') {l : Location} {content : Bytes} :
    t'.get? l = some (.file content) ↔ t.get? l = some (.file content) := by
  rcases adds.entry l with same | ⟨missing, made⟩
  · rw [same]
  · rw [missing, made]
    exact iff_of_false nofun nofun

end AddsDirectories

theorem addsDirectories_createDirectory {steps : List Component}
    (h : t.createDirectory steps = .ok t') : AddsDirectories t t' := by
  unfold createDirectory at h
  split at h
  · cases h
  · cases h
  · next s found =>
    split at h
    · cases h
    · next free =>
      cases h
      refine ⟨rfl, rfl, fun l => ?_⟩
      rw [get?_store]
      split
      · next here =>
        subst here
        exact .inr ⟨by simpa using free, rfl⟩
      · exact .inl rfl

theorem addsDirectories_ensureDirectory (t : FileTree) (steps : List Component) :
    AddsDirectories t (t.ensureDirectory steps).2 := by
  unfold ensureDirectory
  split
  · next made => exact addsDirectories_createDirectory made
  · exact .refl t

theorem addsDirectories_createAlong (t : FileTree) (steps : List Component) :
    AddsDirectories t (t.createAlong steps).2 := by
  fun_induction createAlong t steps with
  | case1 => exact .refl _
  | case2 t steps _ t₁ ensured t₂ above ih =>
    have first := addsDirectories_ensureDirectory t steps
    rw [ensured] at first
    rw [above] at ih
    exact (first.trans ih).trans (addsDirectories_ensureDirectory t₂ steps)
  | case3 t steps _ t₁ ensured _ ih =>
    have first := addsDirectories_ensureDirectory t steps
    rw [ensured] at first
    exact first.trans ih
  | case4 t steps => exact addsDirectories_ensureDirectory t steps

/-- Making a directory keeps everything that was there. -/
theorem addsDirectories_createDirectories (t : FileTree) (p : Path) :
    AddsDirectories t (t.createDirectories p).2 :=
  addsDirectories_createAlong t p.steps

/-- The tree of some files, with the directories that they need, as far as each can be added. -/
def ofFiles (files : List (Path × Bytes)) : FileTree :=
  files.foldl (fun t file => (t.addFile file.1 file.2).toOption.getD t) empty

end GraphScribe.FileTree
