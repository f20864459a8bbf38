/-!
# Forests of markup

A signal says what a piece of markup does to the open elements; an element that opens and closes in
one tag gives two signals. A sequence of signals in which every element closes is the traversal of a
`Forest`; one that stops inside some elements is the traversal of an `Outline`, which lists the
elements that are still open, each with the forest that stands before it.

`Outline.exists_of_openAfter`: signals that close nothing that is not open traverse an outline.
-/

namespace GraphScribe.Markup

variable {τ δ : Type}

/-- What a piece of markup does to the open elements. -/
inductive Signal (τ δ : Type) where
  | enter (tag : τ)
  | leave
  | data (piece : δ)

/-- The number of open elements after some signals that begin inside `depth` elements, or `none` if
one of them closes an element where none is open. -/
def Signal.openAfter (depth : Nat) : List (Signal τ δ) → Option Nat
  | [] => some depth
  | .enter _ :: rest => openAfter (depth + 1) rest
  | .data _ :: rest => openAfter depth rest
  | .leave :: rest =>
    match depth with
    | 0 => none
    | depth + 1 => openAfter depth rest

/-- The content of a document or of an element: character data and elements, in order. -/
inductive Forest (τ δ : Type) where
  | done
  | data (piece : δ) (rest : Forest τ δ)
  | element (tag : τ) (content rest : Forest τ δ)

namespace Forest

/-- The traversal of a forest. -/
def signals : Forest τ δ → List (Signal τ δ)
  | done => []
  | data piece rest => .data piece :: rest.signals
  | element tag content rest => .enter tag :: (content.signals ++ .leave :: rest.signals)

/-- The elements of a forest that lie in no other element of it, each with its content. -/
def branches : Forest τ δ → List (τ × Forest τ δ)
  | done => []
  | data _ rest => rest.branches
  | element tag content rest => (tag, content) :: rest.branches

/-- The character data of a forest that lies in no element of it. -/
def pieces : Forest τ δ → List δ
  | done => []
  | data piece rest => piece :: rest.pieces
  | element _ _ rest => rest.pieces

/-- One forest after another. -/
def append (f g : Forest τ δ) : Forest τ δ :=
  match f with
  | done => g
  | data piece rest => data piece (rest.append g)
  | element tag content rest => element tag content (rest.append g)

theorem signals_append (f g : Forest τ δ) : (f.append g).signals = f.signals ++ g.signals := by
  induction f with
  | done => rfl
  | data piece rest ih => simp only [append, signals, ih, List.cons_append]
  | element tag content rest _ ih =>
    simp only [append, signals, ih, List.cons_append, List.append_assoc]

/-- A forest closes what it opens. -/
theorem openAfter_signals (f : Forest τ δ) : ∀ (depth : Nat) (rest : List (Signal τ δ)),
    Signal.openAfter depth (f.signals ++ rest) = Signal.openAfter depth rest := by
  induction f with
  | done => exact fun _ _ => rfl
  | data piece others ih => exact ih
  | element tag content others ihContent ihOthers =>
    intro depth rest
    rw [signals, List.cons_append, List.append_assoc, List.cons_append]
    exact (ihContent (depth + 1) _).trans (ihOthers depth rest)

end Forest

/-- A document up to a place inside some elements: these elements, the outermost first, each with
the forest that stands before its tag, and the forest that stands after the last tag. -/
structure Outline (τ δ : Type) where
  openings : List (Forest τ δ × τ)
  inner : Forest τ δ

namespace Outline

/-- The number of open elements. -/
def depth (o : Outline τ δ) : Nat := o.openings.length

/-- The traversal of what stands before the last tag. -/
def openSignals (openings : List (Forest τ δ × τ)) : List (Signal τ δ) :=
  openings.flatMap fun (before, tag) => before.signals ++ [.enter tag]

theorem openSignals_cons (before : Forest τ δ) (tag : τ) (openings : List (Forest τ δ × τ)) :
    openSignals ((before, tag) :: openings) =
      before.signals ++ .enter tag :: openSignals openings := by
  simp only [openSignals, List.flatMap_cons, List.append_assoc, List.singleton_append]

/-- The traversal of an outline. -/
def signals (o : Outline τ δ) : List (Signal τ δ) :=
  openSignals o.openings ++ o.inner.signals

/-- A document of which nothing was seen. -/
def start : Outline τ δ := ⟨[], .done⟩

/-- The outline after more content. -/
def extend (o : Outline τ δ) (content : Forest τ δ) : Outline τ δ :=
  { o with inner := o.inner.append content }

/-- The outline after a tag that opens an element. -/
def enter (o : Outline τ δ) (tag : τ) : Outline τ δ :=
  ⟨o.openings ++ [(o.inner, tag)], .done⟩

theorem signals_extend (o : Outline τ δ) (content : Forest τ δ) :
    (o.extend content).signals = o.signals ++ content.signals := by
  simp only [signals, extend, Forest.signals_append, List.append_assoc]

theorem signals_enter (o : Outline τ δ) (tag : τ) :
    (o.enter tag).signals = o.signals ++ [.enter tag] := by
  simp only [signals, enter, openSignals, Forest.signals, List.flatMap_append,
    List.flatMap_cons, List.flatMap_nil, List.append_nil, List.append_assoc]

theorem depth_enter (o : Outline τ δ) (tag : τ) : (o.enter tag).depth = o.depth + 1 :=
  List.length_append

theorem openAfter_openSignals (openings : List (Forest τ δ × τ)) :
    ∀ (depth : Nat) (rest : List (Signal τ δ)),
      Signal.openAfter depth (openSignals openings ++ rest) =
        Signal.openAfter (depth + openings.length) rest := by
  induction openings with
  | nil => exact fun _ _ => rfl
  | cons opening others ih =>
    intro depth rest
    obtain ⟨before, tag⟩ := opening
    rw [openSignals_cons, List.append_assoc, Forest.openAfter_signals, List.cons_append,
      List.length_cons, ← Nat.add_assoc, Nat.add_right_comm]
    exact ih (depth + 1) rest

/-- An outline leaves open the elements that it lists. -/
theorem openAfter_signals (o : Outline τ δ) : Signal.openAfter 0 o.signals = some o.depth := by
  rw [signals, openAfter_openSignals, ← List.append_nil o.inner.signals,
    Forest.openAfter_signals, Nat.zero_add]
  rfl

/-- Where an element is open, a signal that closes one leads to an outline with one open element
less. -/
theorem exists_leave {o : Outline τ δ} {n : Nat} (depth : o.depth = n + 1) :
    ∃ closed : Outline τ δ, closed.depth = n ∧ closed.signals = o.signals ++ [.leave] := by
  obtain ⟨openings, inner⟩ := o
  rcases openings.eq_nil_or_concat with rfl | ⟨others, ⟨before, tag⟩, rfl⟩
  · cases depth
  · refine ⟨⟨others, before.append (.element tag inner .done)⟩, ?_, ?_⟩
    · simpa only [Outline.depth, List.concat_eq_append, List.length_append, List.length_cons,
        List.length_nil, Nat.zero_add, Nat.add_right_cancel_iff] using depth
    · simp only [signals, openSignals, Forest.signals_append, Forest.signals,
        List.concat_eq_append, List.flatMap_append, List.flatMap_cons, List.flatMap_nil,
        List.append_nil, List.append_assoc, List.cons_append, List.nil_append]

/-- Signals that close nothing that is not open lead from one outline to another. -/
theorem exists_append_of_openAfter {signals : List (Signal τ δ)} {n : Nat} :
    ∀ {o : Outline τ δ}, Signal.openAfter o.depth signals = some n →
      ∃ o' : Outline τ δ, o'.depth = n ∧ o'.signals = o.signals ++ signals := by
  induction signals with
  | nil =>
    intro o opened
    exact ⟨o, Option.some.inj opened, (List.append_nil _).symm⟩
  | cons signal rest ih =>
    intro o opened
    have step {o₁ : Outline τ δ} (first : o₁.signals = o.signals ++ [signal])
        (later : Signal.openAfter o₁.depth rest = some n) :
        ∃ o' : Outline τ δ, o'.depth = n ∧ o'.signals = o.signals ++ signal :: rest := by
      obtain ⟨o', depth, all⟩ := ih later
      refine ⟨o', depth, ?_⟩
      rw [all, first, List.append_assoc, List.singleton_append]
    cases signal with
    | enter tag =>
      refine step (o.signals_enter tag) ?_
      rw [depth_enter]
      exact opened
    | data piece => exact step (o.signals_extend (.data piece .done)) opened
    | leave =>
      unfold Signal.openAfter at opened
      split at opened
      · cases opened
      · next n' depth =>
        obtain ⟨closed, closedDepth, first⟩ := exists_leave depth
        exact step first (closedDepth ▸ opened)

/-- Signals that close nothing that is not open traverse an outline. -/
theorem exists_of_openAfter {signals : List (Signal τ δ)} {n : Nat}
    (opened : Signal.openAfter 0 signals = some n) :
    ∃ o : Outline τ δ, o.depth = n ∧ o.signals = signals :=
  exists_append_of_openAfter (o := start) opened

end Outline
end GraphScribe.Markup
