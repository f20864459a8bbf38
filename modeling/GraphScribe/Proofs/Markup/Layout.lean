import GraphScribe.Markup.Token

/-!
# Layout of documents

`Cursor.layout` lists the constructs of a document with the offsets at which they begin and end, and
`elements` pairs their tags: an element reaches from its start tag to the end tag that closes it, or
is one empty tag.

* `Cursor.layout_bounds`: constructs are not empty and lie behind the place where they are listed.
* `mem_elements`: an element begins with a construct that is listed, or was open before.
* `countP_closes`: what one construct does to the number of elements that are open at an offset.
-/

namespace GraphScribe.Markup

/-- A construct with the offsets at which it begins and ends. -/
structure Placed where
  construct : Construct
  start : Nat
  stop : Nat
deriving DecidableEq

/-- A start tag that an end tag is to close, with the offsets at which it begins and ends. -/
structure Opening where
  start : Nat
  tagStop : Nat
deriving DecidableEq

/-- An element: its start tag, and the offset at which its end tag ends. An empty element ends with
its only tag. -/
structure Extent extends Opening where
  stop : Nat
deriving DecidableEq

/-- The constructs from a place on, up to the end of the document or to the first fault. -/
def Cursor.layout (c : Cursor) : List Placed :=
  match c with
  | ⟨[], _⟩ => []
  | ⟨b :: rest, position⟩ =>
    match h : readConstruct (b :: rest) with
    | .error _ => []
    | .ok (construct, n) =>
      have := readConstruct_pos h
      ⟨construct, position, position + n⟩ :: layout (advance ⟨b :: rest, position⟩ n)
termination_by c.rest.length
decreasing_by simp only [advance, List.length_drop, List.length_cons]; omega

namespace Placed

/-- The start tags that wait for their end tags after a construct, the innermost first. -/
def opens (s : Placed) (opened : List Opening) : List Opening :=
  match s.construct with
  | .token (.start _ _ false) => ⟨s.start, s.stop⟩ :: opened
  | .token (.finish _) => opened.tail
  | _ => opened

/-- The element that a construct completes, if it does. -/
def closes (s : Placed) (opened : List Opening) : List Extent :=
  match s.construct, opened with
  | .token (.start _ _ true), _ => [⟨⟨s.start, s.stop⟩, s.stop⟩]
  | .token (.finish _), o :: _ => [⟨o, s.stop⟩]
  | _, _ => []

end Placed

/-- The elements that some constructs complete, in the order in which they end, where start tags wait
for their end tags. -/
def elements (opened : List Opening) : List Placed → List Extent
  | [] => []
  | s :: rest => s.closes opened ++ elements (s.opens opened) rest

/-- At an offset the start tag of an element is complete and its end tag is not. -/
def Extent.OpenAt (offset : Nat) (e : Extent) : Prop :=
  e.tagStop ≤ offset ∧ offset < e.stop

instance (offset : Nat) : DecidablePred (Extent.OpenAt offset) :=
  fun _ => inferInstanceAs (Decidable (_ ∧ _))

/-! ## Constructs in order -/

namespace Cursor

variable {c : Cursor} {b : UInt8} {rest : Bytes} {construct : Construct} {n : Nat}

theorem layout_of_nil (left : c.rest = []) : c.layout = [] := by
  obtain ⟨_, position⟩ := c
  cases left
  rw [layout]

theorem layout_of_construct (left : c.rest = b :: rest)
    (read : readConstruct (b :: rest) = .ok (construct, n)) :
    c.layout = ⟨construct, c.position, c.position + n⟩ :: (c.advance n).layout := by
  obtain ⟨_, position⟩ := c
  cases left
  rw [layout]
  split <;> simp_all

/-- Constructs are not empty and lie behind the place where they are listed. -/
theorem layout_bounds (c : Cursor) :
    ∀ s ∈ c.layout, c.position ≤ s.start ∧ s.start < s.stop := by
  fun_induction layout c with
  | case1 => simp
  | case2 => simp
  | case3 b rest position construct n read pos ih =>
    intro s held
    rcases List.mem_cons.1 held with rfl | later
    · exact ⟨Nat.le_refl _, Nat.lt_add_of_pos_right pos⟩
    · obtain ⟨behind, filled⟩ := ih s later
      exact ⟨Nat.le_trans (Nat.le_add_right position n) behind, filled⟩

end Cursor

/-! ## Elements -/

namespace Placed

variable {s : Placed} {opened : List Opening} {offset : Nat}

theorem mem_opens {o : Opening} (held : o ∈ s.opens opened) :
    o ∈ opened ∨ o = ⟨s.start, s.stop⟩ := by
  unfold opens at held
  split at held
  · exact (List.mem_cons.1 held).symm
  · exact .inl (List.mem_of_mem_tail held)
  · exact .inl held

theorem mem_closes {e : Extent} (held : e ∈ s.closes opened) :
    e.stop = s.stop ∧ (e.toOpening ∈ opened ∨ e.start = s.start) := by
  unfold closes at held
  split at held
  · cases List.mem_singleton.1 held
    exact ⟨rfl, .inr rfl⟩
  · cases List.mem_singleton.1 held
    exact ⟨rfl, .inl List.mem_cons_self⟩
  · cases held

/-- A start tag that waits goes on waiting, or its element is complete. -/
theorem opens_or_closes {o : Opening} (waiting : o ∈ opened) :
    o ∈ s.opens opened ∨ ∃ e ∈ s.closes opened, e.toOpening = o := by
  unfold opens closes
  split
  · exact .inl (List.mem_cons_of_mem _ waiting)
  · obtain ⟨o', outer, rfl⟩ := List.exists_cons_of_ne_nil (List.ne_nil_of_mem waiting)
    rcases List.mem_cons.1 waiting with rfl | outside
    · exact .inr ⟨⟨o, s.stop⟩, by simp_all, rfl⟩
    · exact .inl outside
  · exact .inl waiting

/-- A start tag waits for its end tag, or is its element. -/
theorem mem_of_start {name attributes : Bytes} {isEmpty : Bool}
    (start : s.construct = .token (.start name attributes isEmpty)) :
    (⟨s.start, s.stop⟩ : Opening) ∈ s.opens opened ∨
      ∃ e ∈ s.closes opened, e.toOpening = ⟨s.start, s.stop⟩ := by
  unfold opens closes
  rw [start]
  cases isEmpty with
  | false => exact .inl List.mem_cons_self
  | true => exact .inr ⟨_, List.mem_singleton_self _, rfl⟩

/-- A construct that ends behind an offset leaves as many elements open there as there were. An end
tag has to have its start tag. -/
theorem countP_closes (behind : offset < s.stop)
    (closable : ∀ name, s.construct = .token (.finish name) → opened ≠ []) :
    (s.closes opened).countP (·.OpenAt offset) + (s.opens opened).countP (·.tagStop ≤ offset) =
      opened.countP (·.tagStop ≤ offset) := by
  obtain ⟨construct, start, stop⟩ := s
  rcases construct with (⟨name, attributes, _ | _⟩ | name | piece) | _
  · have unread : ¬ stop ≤ offset := Nat.not_le_of_lt behind
    simp [closes, opens, unread]
  · have unread : ¬ stop ≤ offset := Nat.not_le_of_lt behind
    simp [closes, opens, Extent.OpenAt, unread]
  · obtain ⟨o, outer, rfl⟩ := List.exists_cons_of_ne_nil (closable name rfl)
    have unclosed : offset < stop := behind
    simp only [closes, opens, Extent.OpenAt, unclosed, and_true, List.countP_cons, List.countP_nil,
      List.tail_cons]
    omega
  · simp [closes, opens]
  · simp [closes, opens]

end Placed

/-- An element begins with one of the constructs, or its start tag was waiting. -/
theorem mem_elements {e : Extent} {layout : List Placed} : ∀ {opened : List Opening},
    e ∈ elements opened layout → e.toOpening ∈ opened ∨ ∃ s ∈ layout, e.start = s.start := by
  induction layout with
  | nil =>
    intro opened held
    cases held
  | cons s rest ih =>
    intro opened held
    rcases List.mem_append.1 held with here | later
    · rcases (Placed.mem_closes here).2 with waiting | begun
      · exact .inl waiting
      · exact .inr ⟨s, List.mem_cons_self, begun⟩
    · rcases ih later with waiting | ⟨s', held', begun⟩
      · rcases Placed.mem_opens waiting with before | new
        · exact .inl before
        · exact .inr ⟨s, List.mem_cons_self, congrArg Opening.start new⟩
      · exact .inr ⟨s', List.mem_cons_of_mem s held', begun⟩

end GraphScribe.Markup
