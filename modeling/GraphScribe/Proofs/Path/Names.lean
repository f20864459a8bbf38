import GraphScribe.Path

/-!
# Paths that are nothing but names

The text of such a path is its names with slashes between them, and the names are found again
between the slashes. So these paths are as good as lists of names, and their order is that of the
lists.

* `pieces_append_slash`, `intercalate_pieces`: texts between slashes, taken apart and put together.
* `ofNames_append`, `components_ofNames`: the path of names, and what it consists of.
* `IsOrder.list`, `pairwise_sort`: the order of lists, and what it means for paths to be sorted.
-/

namespace GraphScribe

namespace Path

/-! ## Texts between slashes -/

theorem pieces_cons_of_ne {c : Char} (text : List Char) (ne : c ≠ '/') :
    ∃ piece others, pieces text = piece :: others ∧ pieces (c :: text) = (c :: piece) :: others := by
  have notEmpty : pieces text ≠ [] := by
    unfold pieces
    split
    · simp
    · simp
    · split <;> simp
  obtain ⟨piece, others, found⟩ := List.exists_cons_of_ne_nil notEmpty
  refine ⟨piece, others, found, ?_⟩
  rw [pieces.eq_3 c text (by simpa using ne), found]

/-- A slash parts the texts before it from those behind. -/
theorem pieces_append_slash (front rest : List Char) :
    pieces (front ++ '/' :: rest) = pieces front ++ pieces rest := by
  induction front with
  | nil => rfl
  | cons c front ih =>
    by_cases slash : c = '/'
    · subst slash
      simp only [List.cons_append, pieces, ih]
    · obtain ⟨piece, others, found, whole⟩ := pieces_cons_of_ne front slash
      obtain ⟨piece', others', found', whole'⟩ := pieces_cons_of_ne (front ++ '/' :: rest) slash
      rw [ih, found, List.cons_append] at found'
      cases found'
      rw [List.cons_append, whole', whole, List.cons_append]

theorem pieces_of_not_mem {text : List Char} (free : '/' ∉ text) : pieces text = [text] := by
  induction text with
  | nil => rfl
  | cons c text ih =>
    rw [List.mem_cons, not_or] at free
    obtain ⟨piece, others, found, whole⟩ := pieces_cons_of_ne text (Ne.symm free.1)
    rw [ih free.2] at found
    cases found
    exact whole

theorem length_pieces (text : List Char) : (pieces text).length = text.count '/' + 1 := by
  induction text with
  | nil => rfl
  | cons c text ih =>
    by_cases slash : c = '/'
    · subst slash
      rw [pieces, List.length_cons, ih, List.count_cons_self]
    · obtain ⟨piece, others, found, whole⟩ := pieces_cons_of_ne text slash
      rw [whole, List.count_cons_of_ne slash, ← ih, found, List.length_cons, List.length_cons]

/-- The texts between slashes, with slashes between them, are the text. -/
theorem intercalate_pieces (text : List Char) : ['/'].intercalate (pieces text) = text := by
  induction text with
  | nil => rfl
  | cons c text ih =>
    by_cases slash : c = '/'
    · subst slash
      rw [pieces]
      cases found : pieces text with
      | nil => simpa [found] using length_pieces text
      | cons piece others =>
        rw [List.intercalate_cons_cons, ← found, ih]
        rfl
    · obtain ⟨piece, others, found, whole⟩ := pieces_cons_of_ne text slash
      rw [found] at ih
      rw [whole]
      cases others with
      | nil => simpa using ih
      | cons next others =>
        rw [List.intercalate_cons_cons] at ih ⊢
        rw [List.cons_append, List.cons_append, ih]

/-! ## Names -/

/-- The path of names, each one in the directory before it. -/
def ofNames (names : List FileName) : Path :=
  names.foldl (fun p name => p.join ⟨name.val⟩) ⟨[]⟩

theorem ofNames_append (front rest : List FileName) :
    ofNames (front ++ rest) = rest.foldl (fun p name => p.join ⟨name.val⟩) (ofNames front) :=
  List.foldl_append

theorem ofComponents_names (names : List FileName) :
    ofComponents (names.map .name) = ofNames names :=
  List.foldl_map

theorem isAbsolute_name (name : FileName) : (Path.mk name.val).isAbsolute = false := by
  have noSlash := name.property.2.2.2
  cases text : name.val with
  | nil => rfl
  | cons c rest =>
    rw [text, List.mem_cons, not_or] at noSlash
    simpa [isAbsolute] using Ne.symm noSlash.1

theorem getLast?_name (name : FileName) : ∃ c, name.val.getLast? = some c ∧ c ≠ '/' := by
  obtain ⟨text, notEmpty, -, -, noSlash⟩ := name
  exact ⟨text.getLast notEmpty, List.getLast?_eq_some_getLast notEmpty,
    fun same => noSlash (same ▸ List.getLast_mem notEmpty)⟩

/-- A name is put behind a path that does not end in a slash. -/
theorem join_name {p : Path} {c : Char} (name : FileName) (ends : p.text.getLast? = some c)
    (ne : c ≠ '/') : (p.join ⟨name.val⟩).text = p.text ++ '/' :: name.val := by
  have notEmpty : p.text ≠ [] := by
    intro empty
    rw [empty] at ends
    cases ends
  simp [join, isAbsolute_name, endsInSlash, ends, ne, notEmpty]

theorem text_foldl_join {p : Path} {c : Char} (names : List FileName)
    (ends : p.text.getLast? = some c) (ne : c ≠ '/') :
    (names.foldl (fun p name => p.join ⟨name.val⟩) p).text =
      p.text ++ names.flatMap fun name => '/' :: name.val := by
  induction names generalizing p c with
  | nil => simp
  | cons name rest ih =>
    have joined := join_name name ends ne
    obtain ⟨d, last, ne'⟩ := getLast?_name name
    have ends' : (p.join ⟨name.val⟩).text.getLast? = some d := by
      rw [joined, List.getLast?_append, List.getLast?_cons, last]
      rfl
    rw [List.foldl_cons, ih ends' ne', joined, List.flatMap_cons, List.append_assoc]

theorem text_ofNames (first : FileName) (rest : List FileName) :
    (ofNames (first :: rest)).text = first.val ++ rest.flatMap fun name => '/' :: name.val := by
  have alone : (Path.mk []).join ⟨first.val⟩ = ⟨first.val⟩ := by
    simp [join, isAbsolute_name]
  obtain ⟨c, last, ne⟩ := getLast?_name first
  rw [ofNames, List.foldl_cons, alone]
  exact text_foldl_join rest last ne

/-- A slash stands between the path of some names and that of the names behind. -/
theorem text_ofNames_append {front rest : List FileName} (some : front ≠ []) (some' : rest ≠ []) :
    (ofNames (front ++ rest)).text = (ofNames front).text ++ '/' :: (ofNames rest).text := by
  obtain ⟨first, front, rfl⟩ := List.exists_cons_of_ne_nil some
  obtain ⟨next, rest, rfl⟩ := List.exists_cons_of_ne_nil some'
  rw [List.cons_append, text_ofNames, text_ofNames, text_ofNames, List.flatMap_append,
    List.flatMap_cons]
  simp

/-- The characters of a path of names are those of the names, and slashes. -/
theorem mem_text_ofNames {names : List FileName} {c : Char} (ne : c ≠ '/') :
    c ∈ (ofNames names).text ↔ ∃ name ∈ names, c ∈ name.val := by
  cases names with
  | nil => simp [ofNames]
  | cons first rest => simp [text_ofNames, ne]

/-- Between the slashes of a path of names are the names. -/
theorem pieces_ofNames {names : List FileName} (some : names ≠ []) :
    pieces (ofNames names).text = names.map (·.val) := by
  obtain ⟨first, rest, rfl⟩ := List.exists_cons_of_ne_nil some
  rw [text_ofNames]
  clear some
  induction rest generalizing first with
  | nil => simpa using pieces_of_not_mem first.property.2.2.2
  | cons next rest ih =>
    rw [List.flatMap_cons, List.cons_append, pieces_append_slash, ih,
      pieces_of_not_mem first.property.2.2.2]
    rfl

/-- A text with nothing but names between its slashes is the path of these names. -/
theorem eq_ofNames_of_pieces {text : List Char} (plain : ∀ piece ∈ pieces text, IsFileName piece) :
    ∃ names : List FileName, names ≠ [] ∧ Path.mk text = ofNames names := by
  let names : List FileName := (pieces text).pmap Subtype.mk plain
  have values : names.map (·.val) = pieces text := by simp [names, List.map_pmap]
  have some : names ≠ [] := by
    intro none
    have := length_pieces text
    rw [← values, none] at this
    simp at this
  refine ⟨names, some, ?_⟩
  have same : pieces (ofNames names).text = pieces text := (pieces_ofNames some).trans values
  rw [← intercalate_pieces text, ← same, intercalate_pieces]

theorem ofPiece?_val (name : FileName) : Component.ofPiece? name.val = some (.name name) := by
  obtain ⟨text, isName⟩ := name
  simp [Component.ofPiece?, isName, isName.2.1, isName.2.2.1]

/-- A path of names consists of these names. -/
theorem components_ofNames (names : List FileName) :
    (ofNames names).components = names.map .name := by
  by_cases none : names = []
  · subst none
    rfl
  have found := pieces_ofNames none
  have relative : (ofNames names).isAbsolute = false := by
    cases text : (ofNames names).text with
    | nil => simp [isAbsolute, text]
    | cons c rest =>
      by_cases slash : c = '/'
      · subst slash
        rw [text, pieces] at found
        have empty : [] ∈ names.map (·.val) := by simp [← found]
        obtain ⟨name, -, isEmpty⟩ := List.mem_map.1 empty
        exact absurd isEmpty name.property.1
      · simp [isAbsolute, text, slash]
  have steps : (ofNames names).steps = names.map .name := by
    have each : Component.ofPiece? ∘ Subtype.val = some ∘ .name := funext ofPiece?_val
    rw [Path.steps, relative, found, List.filterMap_map, each, List.filterMap_eq_map]
    rfl
  rw [components, steps]
  cases names with
  | nil => rfl
  | cons first rest =>
    have noneIdle : ∀ step ∈ rest.map Component.name, (step != .here) = true := by
      intro step isStep
      obtain ⟨name, -, rfl⟩ := List.mem_map.1 isStep
      rfl
    rw [List.map_cons, normalize, List.filter_eq_self.2 noneIdle]

theorem ofNames_injective {names names' : List FileName} (same : ofNames names = ofNames names') :
    names = names' := by
  have components := congrArg components same
  rw [components_ofNames, components_ofNames] at components
  exact (List.map_inj_right fun _ _ => Component.name.inj).1 components

end Path

/-! ## Order -/

/-- A test of two values is a total order. -/
structure IsOrder {α : Type} (before : α → α → Bool) : Prop where
  total : ∀ a b, before a b = true ∨ before b a = true
  trans : ∀ {a b c}, before a b = true → before b c = true → before a c = true
  antisymm : ∀ {a b}, before a b = true → before b a = true → a = b

theorem isOrder_ble : IsOrder Nat.ble where
  total a b := by simpa using Nat.le_total a b
  trans first second :=
    Nat.ble_eq_true_of_le (Nat.le_trans (Nat.le_of_ble_eq_true first) (Nat.le_of_ble_eq_true second))
  antisymm first second :=
    Nat.le_antisymm (Nat.le_of_ble_eq_true first) (Nat.le_of_ble_eq_true second)

section
variable {α : Type} [DecidableEq α] {before : α → α → Bool}

theorem IsOrder.total_list (order : IsOrder before) (as bs : List α) :
    listBefore before as bs = true ∨ listBefore before bs as = true := by
  induction as generalizing bs with
  | nil => exact .inl (by cases bs <;> rfl)
  | cons a as ih =>
    cases bs with
    | nil => exact .inr rfl
    | cons b bs =>
      by_cases same : a = b
      · subst same
        simpa [listBefore] using ih bs
      · simpa [listBefore, same, Ne.symm same] using order.total a b

theorem IsOrder.trans_list (order : IsOrder before) {as bs cs : List α}
    (first : listBefore before as bs = true) (second : listBefore before bs cs = true) :
    listBefore before as cs = true := by
  induction as generalizing bs cs with
  | nil => cases cs <;> rfl
  | cons a as ih =>
    obtain _ | ⟨b, bs⟩ := bs
    · cases first
    obtain _ | ⟨c, cs⟩ := cs
    · cases second
    simp only [listBefore] at first second ⊢
    by_cases left : a = b
    · subst left
      by_cases right : a = c
      · subst right
        simp only [↓reduceIte] at first second ⊢
        exact ih first second
      · simpa only [if_neg right] using second
    · by_cases right : b = c
      · subst right
        simpa only [if_neg left] using first
      · rw [if_neg left] at first
        rw [if_neg right] at second
        have through := order.trans first second
        by_cases same : a = c
        · subst same
          exact absurd (order.antisymm first second) left
        · rwa [if_neg same]

theorem IsOrder.antisymm_list (order : IsOrder before) {as bs : List α}
    (first : listBefore before as bs = true) (second : listBefore before bs as = true) :
    as = bs := by
  induction as generalizing bs with
  | nil =>
    cases bs with
    | nil => rfl
    | cons b bs => cases second
  | cons a as ih =>
    obtain _ | ⟨b, bs⟩ := bs
    · cases first
    simp only [listBefore] at first second
    by_cases same : a = b
    · subst same
      simp only [↓reduceIte] at first second
      rw [ih first second]
    · rw [if_neg same] at first
      rw [if_neg (Ne.symm same)] at second
      exact absurd (order.antisymm first second) same

/-- Lists of ordered values are ordered by the first place where they differ. -/
theorem IsOrder.list (order : IsOrder before) : IsOrder (listBefore before) where
  total := order.total_list
  trans := order.trans_list
  antisymm := order.antisymm_list

end

namespace Path

theorem isOrder_keys : IsOrder (listBefore (listBefore Nat.ble)) := isOrder_ble.list.list

theorem orderKey_name_injective {a b : FileName}
    (same : (Component.name a).orderKey = (Component.name b).orderKey) : a = b := by
  simp only [Component.orderKey, List.cons.injEq, true_and] at same
  exact Subtype.ext ((List.map_inj_right fun _ _ => Char.toNat_inj.1).1 same)

/-- The first path comes before the second, and is not the same. -/
def Precedes (p q : Path) : Prop := p.before q = true ∧ q.before p = false

theorem precedes_of_ne {names names' : List FileName} (ne : names ≠ names')
    (before : (ofNames names).before (ofNames names') = true) :
    (ofNames names).Precedes (ofNames names') := by
  refine ⟨before, Bool.eq_false_iff.2 fun back => ne ?_⟩
  have same : (ofNames names).orderKey = (ofNames names').orderKey :=
    isOrder_keys.antisymm before back
  rw [orderKey, orderKey, components_ofNames, components_ofNames, List.map_map, List.map_map] at same
  exact (List.map_inj_right fun _ _ => orderKey_name_injective).1 same

/-- Sorted, the paths of different names ascend. -/
theorem pairwise_sort {lists : List (List FileName)} (distinct : lists.Nodup) :
    (sort (lists.map ofNames)).Pairwise Precedes := by
  have trans (p q r : Path) : p.before q = true → q.before r = true → p.before r = true :=
    isOrder_keys.trans
  have total (p q : Path) : (p.before q || q.before p) = true :=
    Bool.or_eq_true_iff.2 (isOrder_keys.total p.orderKey q.orderKey)
  have ascends : (sort (lists.map ofNames)).Pairwise fun p q => p.before q = true :=
    List.pairwise_mergeSort trans total _
  have unequal : (sort (lists.map ofNames)).Nodup := by
    refine (List.mergeSort_perm _ _).nodup_iff.2 (List.pairwise_map.2 ?_)
    exact distinct.imp fun ne same => ne (ofNames_injective same)
  refine (ascends.and unequal).imp_of_mem ?_
  intro p q isP isQ both
  obtain ⟨names, -, rfl⟩ := List.mem_map.1 (List.mem_mergeSort.1 isP)
  obtain ⟨names', -, rfl⟩ := List.mem_map.1 (List.mem_mergeSort.1 isQ)
  exact precedes_of_ne (fun same => both.2 (congrArg ofNames same)) both.1

end Path
end GraphScribe
