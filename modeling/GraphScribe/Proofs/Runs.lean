/-!
# Runs

Readers take the longest run of bytes or characters that pass a test off the front of what is left.
The run and what follows it are given together: where one reading finds the same run as another, it
goes on from the same place.
-/

namespace GraphScribe

variable {α : Type} {p q : α → Bool}

/-- A longest run ends where the next character does not belong to it. -/
theorem span_append {run rest : List α} (all : ∀ a ∈ run, p a = true)
    (stops : ∀ a, rest.head? = some a → p a = false) :
    (run ++ rest).takeWhile p = run ∧ (run ++ rest).dropWhile p = rest := by
  rw [List.takeWhile_append_of_pos all, List.dropWhile_append_of_pos all]
  cases rest with
  | nil => exact ⟨List.append_nil run, rfl⟩
  | cons a others =>
    have stop : ¬ p a = true := by
      rw [stops a rfl]
      exact Bool.false_ne_true
    rw [List.takeWhile_cons_of_neg stop, List.dropWhile_cons_of_neg stop, List.append_nil]
    exact ⟨rfl, rfl⟩

theorem span_all {run : List α} (all : ∀ a ∈ run, p a = true) :
    run.takeWhile p = run ∧ run.dropWhile p = [] := by
  have whole := @span_append α p run [] all fun a head => nomatch head
  rwa [List.append_nil] at whole

/-- A longest run that something ends stays the longest, whatever follows. -/
theorem span_append_of_stop {text rest : List α} {a : α} (stop : text.dropWhile p = a :: rest)
    (more : List α) :
    (text ++ more).takeWhile p = text.takeWhile p ∧
      (text ++ more).dropWhile p = a :: (rest ++ more) := by
  have stops : ∀ d, (a :: (rest ++ more)).head? = some d → p d = false := by
    intro d head
    cases head
    have ends := List.head?_dropWhile_not p text
    rwa [stop] at ends
  have whole : text ++ more = text.takeWhile p ++ (a :: (rest ++ more)) := by
    rw [← List.cons_append, ← stop, ← List.append_assoc, List.takeWhile_append_dropWhile]
  rw [whole]
  exact span_append (List.all_eq_true.1 List.all_takeWhile) stops

theorem take_takeWhile (p : α → Bool) (text : List α) :
    text.take (text.takeWhile p).length = text.takeWhile p :=
  (List.prefix_iff_eq_take.1 (List.takeWhile_prefix p)).symm

theorem drop_takeWhile (p : α → Bool) (text : List α) :
    text.drop (text.takeWhile p).length = text.dropWhile p := by
  have parts := @List.drop_left _ (text.takeWhile p) (text.dropWhile p)
  rwa [List.takeWhile_append_dropWhile] at parts

/-! ## Two tests -/

theorem takeWhile_subset_of_imp (weaker : ∀ a, p a = true → q a = true) (text : List α) :
    ∀ a ∈ text.takeWhile p, a ∈ text.takeWhile q := by
  induction text with
  | nil => exact fun _ held => held
  | cons first rest ih =>
    intro a held
    by_cases passes : p first = true
    · rw [List.takeWhile_cons_of_pos passes] at held
      rw [List.takeWhile_cons_of_pos (weaker first passes)]
      rcases List.mem_cons.1 held with rfl | later
      · exact List.mem_cons_self
      · exact List.mem_cons_of_mem first (ih a later)
    · rw [List.takeWhile_cons_of_neg passes] at held
      cases held

theorem dropWhile_of_imp (weaker : ∀ a, p a = true → q a = true) (text : List α) :
    (text.dropWhile p).dropWhile q = text.dropWhile q := by
  induction text with
  | nil => rfl
  | cons a rest ih =>
    by_cases passes : p a = true
    · rw [List.dropWhile_cons_of_pos passes, List.dropWhile_cons_of_pos (weaker a passes), ih]
    · rw [List.dropWhile_cons_of_neg passes]

theorem mem_takeWhile_of_dropWhile (weaker : ∀ a, p a = true → q a = true) {text : List α} {a : α}
    (held : a ∈ (text.dropWhile p).takeWhile q) : a ∈ text.takeWhile q := by
  induction text with
  | nil => exact held
  | cons first rest ih =>
    by_cases passes : p first = true
    · rw [List.dropWhile_cons_of_pos passes] at held
      rw [List.takeWhile_cons_of_pos (weaker first passes)]
      exact List.mem_cons_of_mem first (ih held)
    · rwa [List.dropWhile_cons_of_neg passes] at held

/-- A stronger test that all members of a run pass ends the run at the same place. -/
theorem span_eq (weaker : ∀ a, p a = true → q a = true) {text : List α}
    (all : ∀ a ∈ text.takeWhile q, p a = true) :
    text.takeWhile p = text.takeWhile q ∧ text.dropWhile p = text.dropWhile q := by
  induction text with
  | nil => exact ⟨rfl, rfl⟩
  | cons a rest ih =>
    by_cases passes : q a = true
    · rw [List.takeWhile_cons_of_pos passes] at all
      have passes' : p a = true := all a List.mem_cons_self
      rw [List.takeWhile_cons_of_pos passes, List.takeWhile_cons_of_pos passes',
        List.dropWhile_cons_of_pos passes, List.dropWhile_cons_of_pos passes']
      have later := ih fun a held => all a (List.mem_cons_of_mem _ held)
      exact ⟨congrArg (a :: ·) later.1, later.2⟩
    · have fails : ¬ p a = true := passes ∘ weaker a
      rw [List.takeWhile_cons_of_neg passes, List.takeWhile_cons_of_neg fails,
        List.dropWhile_cons_of_neg passes, List.dropWhile_cons_of_neg fails]
      exact ⟨rfl, rfl⟩

end GraphScribe
