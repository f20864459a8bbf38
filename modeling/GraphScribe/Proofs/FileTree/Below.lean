import GraphScribe.FileTree

/-!
# What lies below a location

A file that lies below a location is found there by the names that lead to it, and everything on the
way is a directory.

* `mem_filesBelow`, `nodup_filesBelow`: the list of the files below a location has each of them, and
  none twice.
* `get?_of_below`: on the way to an entry there are directories.
* `follow_names_of_below`, `eq_of_follow_names`: where names lead.
-/

namespace GraphScribe.FileTree

variable {t : FileTree} {base l : Location}

/-! ## Lists of files -/

theorem namesFrom?_eq_some {names : List FileName} :
    namesFrom? base l = some names ↔ l = names.reverse ++ base := by
  unfold namesFrom?
  constructor
  · intro found
    split at found
    · next isSuffix =>
      obtain ⟨front, rfl⟩ := List.isSuffixOf_iff_suffix.1 isSuffix
      cases found
      simp
    · cases found
  · rintro rfl
    simp [List.isSuffixOf_iff_suffix]

/-- The root is not listed. -/
theorem ne_nil_of_mem {e : FileEntry} (listed : (l, e) ∈ t.entries) : l ≠ [] := by
  obtain ⟨name, parent, rfl, -⟩ := t.rooted l e listed
  simp

/-- The files below a location are those that names lead to. -/
theorem mem_filesBelow {names : List FileName} {content : Bytes} :
    (names, content) ∈ t.filesBelow base ↔ t.get? (names.reverse ++ base) = some (.file content) := by
  simp only [filesBelow, List.mem_filterMap, Prod.exists]
  constructor
  · rintro ⟨l, e, listed, found⟩
    split at found
    · next from? =>
      cases found
      rw [← namesFrom?_eq_some.1 from?]
      exact (get?_eq_some_iff (ne_nil_of_mem listed)).2 listed
    · cases found
  · intro stands
    have ne : names.reverse ++ base ≠ [] := by
      intro top
      rw [top] at stands
      cases stands
    refine ⟨_, _, (get?_eq_some_iff ne).1 stands, ?_⟩
    simp [namesFrom?_eq_some.2 rfl]

theorem nodup_filesBelow (t : FileTree) (base : Location) :
    ((t.filesBelow base).map (·.1)).Nodup := by
  refine List.pairwise_map.2 (List.Pairwise.filterMap _ ?_ (List.pairwise_map.1 t.distinct))
  rintro ⟨l, e⟩ ⟨l', e'⟩ different ⟨names, content⟩ found ⟨names', content'⟩ found' same
  have names_eq : names = names' := same
  dsimp only at found found'
  split at found
  · next from? =>
    cases found
    split at found'
    · next from?' =>
      cases found'
      rw [namesFrom?_eq_some.1 from?, namesFrom?_eq_some.1 from?', names_eq] at different
      exact different rfl
    · cases found'
  · cases found

/-! ## On the way -/

/-- What holds an entry is a directory. -/
theorem get?_of_below {names : List FileName} {e : FileEntry} (some : names ≠ [])
    (stands : t.get? (names ++ l) = .some e) : t.get? l = .some .directory := by
  induction names generalizing e with
  | nil => exact absurd rfl some
  | cons name rest ih =>
    have parent : t.get? (rest ++ l) = .some .directory := by
      obtain ⟨_, _, same, inTree⟩ := t.rooted _ _ ((get?_eq_some_iff (List.cons_ne_nil _ _)).1 stands)
      obtain ⟨rfl, rfl⟩ := List.cons.inj same
      rcases inTree with top | listed
      · exact if_pos top
      · exact (get?_eq_some_iff (ne_nil_of_mem listed)).2 listed
    cases rest with
    | nil => exact parent
    | cons next rest => exact ih (List.cons_ne_nil _ _) parent

theorem get?_home (t : FileTree) : t.get? t.home = some .directory := by
  rcases t.home_directory with top | listed
  · exact if_pos top
  · exact (get?_eq_some_iff (ne_nil_of_mem listed)).2 listed

/-- Names lead down to an entry. -/
theorem follow_names_of_below {names : List FileName} {e : FileEntry}
    (stands : t.get? (names.reverse ++ l) = some e) :
    t.follow l (names.map .name) = .ok (names.reverse ++ l) := by
  induction names generalizing l with
  | nil => rfl
  | cons name rest ih =>
    rw [List.reverse_cons, List.append_assoc] at stands ⊢
    have below : t.get? ((rest.reverse ++ [name]) ++ l) = some e := by simpa using stands
    have above : t.get? l = some .directory := get?_of_below (by simp) below
    rw [List.map_cons, follow, above]
    exact ih stands

/-- Names lead nowhere else. -/
theorem eq_of_follow_names {names : List FileName} {l' : Location}
    (followed : t.follow l (names.map .name) = .ok l') : l' = names.reverse ++ l := by
  induction names generalizing l with
  | nil => exact (Except.ok.inj followed).symm
  | cons name rest ih =>
    rw [List.map_cons, follow] at followed
    split at followed
    · cases followed
    · cases followed
    · simpa using ih followed

end GraphScribe.FileTree
