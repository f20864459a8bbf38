import GraphScribe.Proofs.Decode.TreeMeaning
import GraphScribe.Proofs.Markup.Feed

/-!
# Collectors

A collector follows signals with a counter of open elements and at most one member in hand: it takes
up a member at its tag, hands the character data directly in a child to the child and the child to
the member, and asks what the member stands for when it closes. Both decoders are collectors; they
differ in what they keep of a member and of a child.

The counter is enough: `Collector.run_outline` says that a collector finds what the members of the
outline stand for, whatever else lies around them.
-/

namespace GraphScribe

open Markup

/-- What a decoder keeps of a member (`ε`) and of an open child (`φ`). -/
structure Collector (τ δ ε φ : Type) where
  /-- Takes up a member at its tag; other elements are passed over. -/
  begin? : τ → Option (Except DecodeError ε)
  /-- Takes up a child of a member; other children are passed over. -/
  child? : ε → τ → Option φ
  add : φ → δ → φ
  close : ε → φ → ε
  meaning : ε → Except DecodeError GraphElement

/-- The number of open elements, whether any was seen, the results so far (the last one first), the
member in hand and its child in hand. -/
structure Progress (ε φ : Type) where
  depth : Nat := 0
  sawRoot : Bool := false
  elements : List GraphElement := []
  pending : Option ε := none
  field : Option φ := none

variable {τ δ ε φ : Type}

namespace Progress

/-- What was found up to an error that stops the collector. -/
def stopped (s : Progress ε φ) (e : DecodeError) : Decoded :=
  ⟨s.elements.reverse, some e⟩

/-- What was found at the end of a document. -/
def result (s : Progress ε φ) : Decoded :=
  if 0 < s.depth then s.stopped (.truncated s.depth)
  else if s.sawRoot then ⟨s.elements.reverse, none⟩
  else s.stopped .noRoot

/-- Takes some results into account and goes on, unless one of them is an error. -/
def absorb (s : Progress ε φ) (results : Results) (next : Progress ε φ → Decoded) : Decoded :=
  match results with
  | [] => next s
  | .error e :: _ => s.stopped e
  | .ok element :: rest => absorb { s with elements := element :: s.elements } rest next

theorem absorb_append (results later : Results) (s : Progress ε φ)
    (next : Progress ε φ → Decoded) :
    s.absorb (results ++ later) next = s.absorb results fun s' => s'.absorb later next := by
  induction results generalizing s with
  | nil => rfl
  | cons result rest ih =>
    cases result with
    | error e => rfl
    | ok element => exact ih { s with elements := element :: s.elements }

/-- Results change nothing but the list of elements. -/
theorem absorb_congr {next next' : Progress ε φ → Decoded} (results : Results) :
    ∀ {s t : Progress ε φ}, s.elements = t.elements →
      (∀ elements, next { s with elements } = next' { t with elements }) →
      s.absorb results next = t.absorb results next' := by
  induction results with
  | nil =>
    intro s t same agree
    have ends := agree s.elements
    rw [show { t with elements := s.elements } = t from same ▸ rfl] at ends
    exact ends
  | cons result rest ih =>
    intro s t same agree
    cases result with
    | error e => exact congrArg (fun elements => Decoded.mk elements.reverse (some e)) same
    | ok element => exact ih (congrArg (element :: ·) same) agree

end Progress

namespace Collector

variable (C : Collector τ δ ε φ)

/-- An element opens. -/
def enter (s : Progress ε φ) (tag : τ) : Except DecodeError (Progress ε φ) :=
  match s.depth with
  | 0 => .ok { s with depth := 1, sawRoot := true }
  | 1 =>
    match C.begin? tag with
    | none => .ok { s with depth := 2 }
    | some begun => begun.map fun member => { s with depth := 2, pending := some member }
  | 2 =>
    match s.pending with
    | none => .ok { s with depth := 3 }
    | some member => .ok { s with depth := 3, field := C.child? member tag }
  | depth => .ok { s with depth := depth + 1 }

/-- The innermost element closes. -/
def leave (s : Progress ε φ) : Except DecodeError (Progress ε φ) :=
  let s := { s with depth := s.depth - 1 }
  match s.depth with
  | 2 =>
    match s.pending, s.field with
    | some member, some child =>
      .ok { s with pending := some (C.close member child), field := none }
    | _, _ => .ok s
  | 1 =>
    match s.pending with
    | none => .ok s
    | some member =>
      (C.meaning member).map fun element =>
        { s with elements := element :: s.elements, pending := none }
  | _ => .ok s

/-- Adds character data to the child in hand, if it lies directly in it. -/
def data (s : Progress ε φ) (piece : δ) : Progress ε φ :=
  match s.field with
  | some child => if s.depth = 3 then { s with field := some (C.add child piece) } else s
  | none => s

/-- Follows one signal. -/
def step (s : Progress ε φ) : Signal τ δ → Except DecodeError (Progress ε φ)
  | .enter tag => C.enter s tag
  | .leave => C.leave s
  | .data piece => .ok (C.data s piece)

/-- Follows a feed of signals to its end or to the first error. -/
def run (s : Progress ε φ) : Feed (Signal τ δ) → Decoded
  | .finished => s.result
  | .unclosed => s.stopped (.truncated s.depth)
  | .broken e => s.stopped e
  | .item signal rest =>
    match C.step s signal with
    | .error e => s.stopped e
    | .ok s' => run s' rest

variable {C}

theorem run_enter {s opened : Progress ε φ} {tag : τ} (opens : C.enter s tag = .ok opened)
    (rest : Feed (Signal τ δ)) : C.run s (.item (.enter tag) rest) = C.run opened rest := by
  rw [run, step, opens]

theorem run_leave {s closed : Progress ε φ} (closes : C.leave s = .ok closed)
    (rest : Feed (Signal τ δ)) : C.run s (.item .leave rest) = C.run closed rest := by
  rw [run, step, closes]

theorem run_data (s : Progress ε φ) (piece : δ) (rest : Feed (Signal τ δ)) :
    C.run s (.item (.data piece) rest) = C.run (C.data s piece) rest :=
  rfl

/-- The graph that is found from a signal on. -/
theorem graph_run (s : Progress ε φ) (signal : Signal τ δ) (rest : Feed (Signal τ δ)) :
    (C.run s (.item signal rest)).graph =
      (C.step s signal).bind fun s' => (C.run s' rest).graph := by
  rw [run]
  cases C.step s signal <;> rfl

theorem data_of_none {s : Progress ε φ} (field : s.field = none) (piece : δ) :
    C.data s piece = s := by
  rw [data, field]

theorem data_direct {s : Progress ε φ} {child : φ} (depth : s.depth = 3)
    (field : s.field = some child) (piece : δ) :
    C.data s piece = { s with field := some (C.add child piece) } := by
  rw [data, field]
  exact if_pos depth

theorem data_elsewhere {s : Progress ε φ} (depth : s.depth ≠ 3) (piece : δ) :
    C.data s piece = s := by
  unfold data
  split
  · exact if_neg depth
  · rfl

/-- The content of an element that opens, to its end. -/
theorem run_element {s opened : Progress ε φ} {tag : τ} (opens : C.enter s tag = .ok opened)
    (content others : Forest τ δ) (rest : Feed (Signal τ δ)) :
    C.run s (Feed.prepend (Forest.element tag content others).signals rest) =
      C.run opened
        (Feed.prepend content.signals (.item .leave (Feed.prepend others.signals rest))) := by
  rw [Forest.signals, ← List.cons_append, Feed.prepend_append]
  exact run_enter opens _

/-! ## Single signals -/

theorem enter_deep {s : Progress ε φ} (deep : 3 ≤ s.depth) (tag : τ) :
    C.enter s tag = .ok { s with depth := s.depth + 1 } := by
  unfold enter
  split
  · omega
  · omega
  · omega
  · rfl

theorem leave_deep {s : Progress ε φ} (deep : 4 ≤ s.depth) :
    C.leave s = .ok { s with depth := s.depth - 1 } := by
  unfold leave
  dsimp only
  split
  · omega
  · omega
  · rfl

theorem enter_member {s : Progress ε φ} {tag : τ} {begun : Except DecodeError ε}
    (depth : s.depth = 1) (taken : C.begin? tag = some begun) :
    C.enter s tag = begun.map fun member => { s with depth := 2, pending := some member } := by
  unfold enter
  rw [depth, taken]
  rfl

theorem enter_child {s : Progress ε φ} {member : ε} (depth : s.depth = 2)
    (pending : s.pending = some member) (tag : τ) :
    C.enter s tag = .ok { s with depth := 3, field := C.child? member tag } := by
  unfold enter
  rw [depth, pending]
  rfl

theorem leave_child {s : Progress ε φ} {member : ε} {child : φ} (depth : s.depth = 3)
    (pending : s.pending = some member) (field : s.field = some child) :
    C.leave s = .ok { s with
      depth := 2, pending := some (C.close member child), field := none } := by
  unfold leave
  rw [depth, pending, field]
  rfl

theorem leave_childless {s : Progress ε φ} (depth : s.depth = 3) (field : s.field = none) :
    C.leave s = .ok { s with depth := 2 } := by
  unfold leave
  rw [depth, field]
  cases s.pending with
  | none => rfl
  | some member => rfl

theorem leave_member {s : Progress ε φ} {member : ε} (depth : s.depth = 2)
    (pending : s.pending = some member) :
    C.leave s = (C.meaning member).map fun element =>
      { s with depth := 1, elements := element :: s.elements, pending := none } := by
  unfold leave
  rw [depth, pending]
  rfl

/-- Where nothing is in hand, only the elements that open are counted. -/
theorem enter_outside {s : Progress ε φ} {tag : τ} (pending : s.pending = none)
    (passed : s.depth = 1 → C.begin? tag = none) :
    C.enter s tag = .ok { s with
      depth := s.depth + 1, sawRoot := s.sawRoot || s.depth == 0 } := by
  obtain ⟨depth, sawRoot, elements, _, field⟩ := s
  cases pending
  unfold enter
  dsimp only at passed ⊢
  split
  · rw [Bool.or_comm]
    rfl
  · rw [passed rfl, Bool.or_comm]
    rfl
  · rw [Bool.or_comm]
    rfl
  · next zero _ _ =>
    have open? : (depth == 0) = false := beq_false_of_ne zero
    rw [open?, Bool.or_false]

theorem leave_outside {s : Progress ε φ} (pending : s.pending = none) :
    C.leave s = .ok { s with depth := s.depth - 1 } := by
  obtain ⟨depth, sawRoot, elements, _, field⟩ := s
  cases pending
  unfold leave
  dsimp only
  split <;> rfl

theorem depth_of_enter {s opened : Progress ε φ} {tag : τ} (opens : C.enter s tag = .ok opened) :
    opened.depth = s.depth + 1 := by
  unfold enter at opens
  split at opens
  · next zero =>
    cases opens
    rw [zero]
  · next one =>
    rw [one]
    split at opens
    · cases opens
      rfl
    · next begun _ =>
      cases begun with
      | error e => cases opens
      | ok member =>
        cases opens
        rfl
  · next two =>
    rw [two]
    split at opens <;> cases opens <;> rfl
  · cases opens
    rfl

theorem depth_of_leave {s closed : Progress ε φ} (closes : C.leave s = .ok closed) :
    closed.depth = s.depth - 1 := by
  unfold leave at closes
  dsimp only at closes
  split at closes
  · split at closes <;> cases closes <;> rfl
  · split at closes
    · cases closes
      rfl
    · next member _ =>
      cases meant : C.meaning member with
      | error e =>
        rw [meant] at closes
        cases closes
      | ok element =>
        rw [meant] at closes
        cases closes
        rfl
  · cases closes
    rfl

/-! ## Passing over -/

/-- Nothing is collected at this place or further inside. -/
def Idle (s : Progress ε φ) : Prop :=
  3 < s.depth ∨ (s.depth = 3 ∧ s.field = none) ∨
    (s.depth = 2 ∧ s.pending = none ∧ s.field = none)

theorem Idle.enter {s : Progress ε φ} (idle : Idle s) (tag : τ) :
    C.enter s tag = .ok { s with depth := s.depth + 1 } := by
  rcases idle with deep | ⟨three, -⟩ | ⟨two, none, -⟩
  · exact enter_deep (Nat.le_of_lt deep) tag
  · exact enter_deep (Nat.le_of_eq three.symm) tag
  · unfold Collector.enter
    rw [two, none]
    rfl

theorem Idle.entered {s : Progress ε φ} (idle : Idle s) :
    Idle { s with depth := s.depth + 1 } := by
  rcases idle with deep | ⟨three, -⟩ | ⟨two, -, none⟩
  · exact .inl (Nat.lt_succ_of_lt deep)
  · exact .inl (Nat.lt_succ_of_le (Nat.le_of_eq three.symm))
  · exact .inr (.inl ⟨congrArg Nat.succ two, none⟩)

theorem Idle.leave {s : Progress ε φ} (idle : Idle s) :
    C.leave { s with depth := s.depth + 1 } = .ok s := by
  rcases idle with deep | ⟨three, none⟩ | ⟨two, none, -⟩
  · exact leave_deep (Nat.lt_succ_of_lt deep)
  · exact leave_deep (Nat.succ_le_succ (Nat.le_of_eq three.symm))
  · obtain ⟨_, sawRoot, elements, _, field⟩ := s
    cases two
    cases none
    rfl

theorem Idle.data {s : Progress ε φ} (idle : Idle s) (piece : δ) : C.data s piece = s := by
  unfold Collector.data
  split
  · next child field =>
    refine if_neg fun three => ?_
    rcases idle with deep | ⟨-, none⟩ | ⟨two, -⟩
    · omega
    · rw [field] at none
      cases none
    · omega
  · rfl

/-- A forest where nothing is collected changes nothing. -/
theorem run_idle (f : Forest τ δ) : ∀ {s : Progress ε φ}, Idle s →
    ∀ rest, C.run s (Feed.prepend f.signals rest) = C.run s rest := by
  induction f with
  | done => exact fun _ _ => rfl
  | data piece others ih =>
    intro s idle rest
    refine (run_data s piece _).trans ?_
    rw [idle.data piece]
    exact ih idle rest
  | element tag content others ihContent ihOthers =>
    intro s idle rest
    rw [run_element (idle.enter tag), ihContent idle.entered, run_leave idle.leave,
      ihOthers idle]

/-! ## Children and members -/

section Members

variable (C)

/-- A child with the character data directly in it. -/
def fill (child : φ) (content : Forest τ δ) : φ :=
  content.pieces.foldl C.add child

/-- A member with one more child. -/
def receive (member : ε) (branch : τ × Forest τ δ) : ε :=
  match C.child? member branch.1 with
  | none => member
  | some child => C.close member (C.fill child branch.2)

/-- A member with the children in its content. -/
def gather (member : ε) (content : Forest τ δ) : ε :=
  content.branches.foldl C.receive member

/-- What an element stands for where members are, if it is one. -/
def meaning? (tag : τ) (content : Forest τ δ) : Option (Except DecodeError GraphElement) :=
  (C.begin? tag).map fun begun => begun.bind fun member => C.meaning (C.gather member content)

/-- The fault in the tag of a member. -/
def openFault? (tag : τ) : Option DecodeError :=
  match C.begin? tag with
  | some (.error e) => some e
  | _ => none

end Members

/-- Inside a child in hand its direct character data is added to it. -/
theorem run_child (content : Forest τ δ) : ∀ {s : Progress ε φ} {child : φ},
    s.depth = 3 → s.field = some child → ∀ rest,
      C.run s (Feed.prepend content.signals rest) =
        C.run { s with field := some (C.fill child content) } rest := by
  induction content with
  | done =>
    intro s child _ field rest
    rw [show s = { s with field := some child } from field ▸ rfl]
    rfl
  | data piece others ih =>
    intro s child depth field rest
    refine (run_data s piece _).trans ?_
    rw [data_direct depth field]
    exact ih (s := { s with field := some (C.add child piece) }) depth rfl rest
  | element tag content others _ ih =>
    intro s child depth field rest
    obtain ⟨_, sawRoot, elements, pending, inHand⟩ := s
    cases depth
    have opens : C.enter ⟨3, sawRoot, elements, pending, inHand⟩ tag =
        .ok ⟨4, sawRoot, elements, pending, inHand⟩ := rfl
    rw [run_element opens, run_idle content (.inl (Nat.lt_succ_self 3)), run_leave rfl]
    exact ih rfl field rest

/-- Inside a member in hand its children are handed to it. -/
theorem run_member (content : Forest τ δ) : ∀ {s : Progress ε φ} {member : ε},
    s.depth = 2 → s.pending = some member → s.field = none → ∀ rest,
      C.run s (Feed.prepend content.signals rest) =
        C.run { s with pending := some (C.gather member content) } rest := by
  induction content with
  | done =>
    intro s member _ pending _ rest
    rw [show s = { s with pending := some member } from pending ▸ rfl]
    rfl
  | data piece others ih =>
    intro s member depth pending field rest
    refine (run_data s piece _).trans ?_
    rw [data_of_none field]
    exact ih depth pending field rest
  | element tag content others _ ih =>
    intro s member depth pending field rest
    obtain ⟨_, sawRoot, elements, _, _⟩ := s
    cases depth
    cases pending
    cases field
    have opens : C.enter ⟨2, sawRoot, elements, some member, none⟩ tag =
        .ok ⟨3, sawRoot, elements, some member, C.child? member tag⟩ := rfl
    rw [run_element opens]
    have received : C.gather member (.element tag content others) =
        C.gather (C.receive member (tag, content)) others := rfl
    rw [received]
    cases taken : C.child? member tag with
    | none =>
      have kept : C.receive member (tag, content) = member := by rw [receive, taken]
      rw [run_idle content (.inr (.inl ⟨rfl, rfl⟩)), run_leave rfl, kept]
      exact ih rfl rfl rfl rest
    | some child =>
      have closed : C.receive member (tag, content) = C.close member (C.fill child content) := by
        rw [receive, taken]
      rw [run_child content rfl rfl, run_leave rfl, closed]
      exact ih rfl rfl rfl rest

/-- Inside a top-level element a member is taken into account when it closes, and another element
is passed over. -/
theorem run_branch (tag : τ) (content : Forest τ δ) {s : Progress ε φ} (depth : s.depth = 1)
    (pending : s.pending = none) (field : s.field = none) (rest : Feed (Signal τ δ)) :
    C.run s (.item (.enter tag) (Feed.prepend content.signals (.item .leave rest))) =
      s.absorb (C.meaning? tag content).toList fun s' => C.run s' rest := by
  obtain ⟨_, sawRoot, elements, _, _⟩ := s
  cases depth
  cases pending
  cases field
  unfold meaning?
  cases begun : C.begin? tag with
  | none =>
    have opens : C.enter ⟨1, sawRoot, elements, none, none⟩ tag =
        .ok ⟨2, sawRoot, elements, none, none⟩ := by
      simp only [enter, begun]
    rw [run_enter opens, run_idle content (.inr (.inr ⟨rfl, rfl, rfl⟩)), run_leave rfl]
    rfl
  | some result =>
    have opens : C.enter ⟨1, sawRoot, elements, none, none⟩ tag =
        result.map fun member => ⟨2, sawRoot, elements, some member, none⟩ := by
      simp only [enter, begun]
    cases result with
    | error e =>
      rw [run, step, opens]
      rfl
    | ok member =>
      rw [run_enter opens, run_member content rfl rfl rfl]
      have closes : C.leave ⟨2, sawRoot, elements, some (C.gather member content), none⟩ =
          (C.meaning (C.gather member content)).map fun element =>
            ⟨1, sawRoot, element :: elements, none, none⟩ := leave_member rfl rfl
      show C.run _ _ = Progress.absorb _ [C.meaning (C.gather member content)] _
      rw [run, step, closes]
      cases C.meaning (C.gather member content) <;> rfl

/-- Inside a top-level element its members are taken into account. -/
theorem run_root (content : Forest τ δ) : ∀ {s : Progress ε φ},
    s.depth = 1 → s.pending = none → s.field = none → ∀ rest,
      C.run s (Feed.prepend content.signals rest) =
        s.absorb (content.members C.meaning?) fun s' => C.run s' rest := by
  induction content with
  | done => exact fun _ _ _ _ => rfl
  | data piece others ih =>
    intro s depth pending field rest
    refine (run_data s piece _).trans ?_
    rw [data_of_none field]
    exact ih depth pending field rest
  | element tag content others _ ih =>
    intro s depth pending field rest
    obtain ⟨_, sawRoot, elements, _, _⟩ := s
    cases depth
    cases pending
    cases field
    rw [Forest.signals, ← List.cons_append, Feed.prepend_append, Forest.members_element,
      Progress.absorb_append]
    refine (run_branch tag content rfl rfl rfl _).trans ?_
    exact Progress.absorb_congr _ rfl fun elements => ih rfl rfl rfl rest

/-- At the top level the members of all elements are taken into account. -/
theorem run_top (f : Forest τ δ) : ∀ {s : Progress ε φ},
    s.depth = 0 → s.pending = none → s.field = none → ∀ rest,
      C.run s (Feed.prepend f.signals rest) =
        s.absorb (f.rootMembers C.meaning?) fun s' =>
          C.run { s' with sawRoot := s'.sawRoot || !f.branches.isEmpty } rest := by
  induction f with
  | done =>
    intro s _ _ _ rest
    show C.run s rest = C.run { s with sawRoot := s.sawRoot || false } rest
    rw [Bool.or_false]
  | data piece others ih =>
    intro s depth pending field rest
    refine (run_data s piece _).trans ?_
    rw [data_of_none field]
    exact ih depth pending field rest
  | element tag content others _ ih =>
    intro s depth pending field rest
    obtain ⟨_, sawRoot, elements, _, _⟩ := s
    cases depth
    cases pending
    cases field
    have members : (Forest.element tag content others).rootMembers C.meaning? =
        content.members C.meaning? ++ others.rootMembers C.meaning? := rfl
    have opens : C.enter ⟨0, sawRoot, elements, none, none⟩ tag =
        .ok ⟨1, true, elements, none, none⟩ := rfl
    rw [run_element opens, run_root content rfl rfl rfl, members, Progress.absorb_append]
    refine Progress.absorb_congr _ rfl fun elements => ?_
    rw [run_leave rfl, ih rfl rfl rfl rest]
    refine Progress.absorb_congr _ rfl fun elements => ?_
    exact congrArg (fun saw => C.run ⟨0, saw, elements, none, none⟩ rest)
      (Bool.or_true sawRoot).symm

/-! ## Outlines -/

/-- Inside a member nothing is decided: only the depth and what is in hand change. -/
structure Inside (s s' : Progress ε φ) (depth : Nat) : Prop where
  depth : s'.depth = depth
  sawRoot : s'.sawRoot = s.sawRoot
  elements : s'.elements = s.elements

theorem Inside.trans {s s' s'' : Progress ε φ} {n m : Nat} (first : Inside s s' n)
    (second : Inside s' s'' m) : Inside s s'' m :=
  ⟨second.depth, second.sawRoot.trans first.sawRoot, second.elements.trans first.elements⟩

theorem exists_enter {s : Progress ε φ} (deep : 2 ≤ s.depth) (tag : τ) :
    ∃ s', C.enter s tag = .ok s' ∧ Inside s s' (s.depth + 1) := by
  unfold enter
  split
  · omega
  · omega
  · next two =>
    cases s.pending with
    | none => exact ⟨_, rfl, congrArg Nat.succ two.symm, rfl, rfl⟩
    | some member => exact ⟨_, rfl, congrArg Nat.succ two.symm, rfl, rfl⟩
  · exact ⟨_, rfl, rfl, rfl, rfl⟩

theorem exists_leave {s : Progress ε φ} (deep : 3 ≤ s.depth) :
    ∃ s', C.leave s = .ok s' ∧ Inside s s' (s.depth - 1) := by
  unfold leave
  dsimp only
  split
  · cases s.pending with
    | none => exact ⟨_, rfl, rfl, rfl, rfl⟩
    | some member =>
      cases s.field with
      | none => exact ⟨_, rfl, rfl, rfl, rfl⟩
      | some child => exact ⟨_, rfl, rfl, rfl, rfl⟩
  · omega
  · exact ⟨_, rfl, rfl, rfl, rfl⟩

theorem inside_data (s : Progress ε φ) (piece : δ) : Inside s (C.data s piece) s.depth := by
  unfold data
  split
  · split <;> exact ⟨rfl, rfl, rfl⟩
  · exact ⟨rfl, rfl, rfl⟩

theorem exists_run_forest (f : Forest τ δ) : ∀ {s : Progress ε φ}, 2 ≤ s.depth →
    ∃ s', Inside s s' s.depth ∧
      ∀ rest, C.run s (Feed.prepend f.signals rest) = C.run s' rest := by
  induction f with
  | done => exact fun {s} _ => ⟨s, ⟨rfl, rfl, rfl⟩, fun _ => rfl⟩
  | data piece others ih =>
    intro s deep
    have added := inside_data (C := C) s piece
    obtain ⟨s', inside, later⟩ := ih (added.depth.symm ▸ deep)
    exact ⟨s', added.trans (added.depth ▸ inside), fun rest => later rest⟩
  | element tag content others ihContent ihOthers =>
    intro s deep
    obtain ⟨opened, opens, entered⟩ := exists_enter (C := C) deep tag
    obtain ⟨filled, inner, content_run⟩ := ihContent (s := opened) (by rw [entered.depth]; omega)
    have filled_depth : filled.depth = s.depth + 1 := inner.depth.trans entered.depth
    obtain ⟨closed, closes, left⟩ := exists_leave (C := C) (s := filled) (by omega)
    have closed_depth : closed.depth = s.depth := by rw [left.depth, filled_depth]; rfl
    obtain ⟨s', others_inside, others_run⟩ := ihOthers (s := closed) (by omega)
    refine ⟨s', ?_, fun rest => ?_⟩
    · exact closed_depth ▸ ((entered.trans inner).trans left).trans others_inside
    · rw [run_element opens, content_run, run_leave closes, others_run]

theorem exists_run_openings (inner : Forest τ δ) (openings : List (Forest τ δ × τ)) :
    ∀ {s : Progress ε φ}, 2 ≤ s.depth →
      ∃ s', Inside s s' (s.depth + openings.length) ∧ ∀ rest,
        C.run s (Feed.prepend (Outline.openSignals openings ++ inner.signals) rest) =
          C.run s' rest := by
  induction openings with
  | nil => exact fun deep => exists_run_forest inner deep
  | cons opening others ih =>
    intro s deep
    obtain ⟨before, tag⟩ := opening
    obtain ⟨s₁, aside, before_run⟩ := exists_run_forest (C := C) before deep
    obtain ⟨s₂, opens, entered⟩ := exists_enter (C := C) (s := s₁) (by rw [aside.depth]; omega) tag
    have depth₂ : s₂.depth = s.depth + 1 := entered.depth.trans (congrArg Nat.succ aside.depth)
    obtain ⟨s', inside, later⟩ := ih (s := s₂) (by omega)
    have whole := (aside.trans entered).trans inside
    refine ⟨s', ⟨?_, whole.sawRoot, whole.elements⟩, fun rest => ?_⟩
    · rw [whole.depth, depth₂, List.length_cons]
      omega
    · rw [Outline.openSignals_cons, List.append_assoc, Feed.prepend_append, before_run]
      exact (run_enter opens _).trans (later rest)

theorem absorb_ends (results : Results) (fault : Option DecodeError) :
    ∀ s : Progress ε φ, s.absorb results (fun s' => ⟨s'.elements.reverse, fault⟩) =
      ⟨s.elements.reverse ++ (Decoded.ofResults results fault).elements,
        (Decoded.ofResults results fault).fault⟩ := by
  induction results with
  | nil => exact fun s => congrArg (Decoded.mk · fault) (List.append_nil _).symm
  | cons result rest ih =>
    intro s
    cases result with
    | error e => exact congrArg (Decoded.mk · (some e)) (List.append_nil _).symm
    | ok element =>
      refine (ih { s with elements := element :: s.elements }).trans ?_
      simp only [Decoded.ofResults, List.reverse_cons, List.append_assoc, List.singleton_append]

/-- Once a top-level element and a child of it are open, only a fault in the child's tag can still
be found before the end. -/
theorem run_opened (tag : τ) (others : List (Forest τ δ × τ)) (inner : Forest τ δ)
    {s : Progress ε φ} (depth : s.depth = 1) (root : s.sawRoot = true)
    {rest : Feed (Signal τ δ)} {fault : Option DecodeError}
    (ends : ∀ s' : Progress ε φ, s'.depth = others.length + 2 → s'.sawRoot = true →
      C.run s' rest = ⟨s'.elements.reverse, fault⟩) :
    C.run s (.item (.enter tag)
        (Feed.prepend (Outline.openSignals others ++ inner.signals) rest)) =
      s.absorb ((C.openFault? tag).toList.map .error) fun s' =>
        ⟨s'.elements.reverse, fault⟩ := by
  have opened (s₁ : Progress ε φ) (opens : C.enter s tag = .ok s₁) (deep : s₁.depth = 2)
      (same : s₁.elements = s.elements) (saw : s₁.sawRoot = s.sawRoot) :
      C.run s (.item (.enter tag)
        (Feed.prepend (Outline.openSignals others ++ inner.signals) rest)) =
        ⟨s.elements.reverse, fault⟩ := by
    obtain ⟨s', inside, runs⟩ := exists_run_openings (C := C) inner others
      (Nat.le_of_eq deep.symm)
    rw [run_enter opens, runs, ends s', inside.elements, same]
    · rw [inside.depth, deep, Nat.add_comm]
    · rw [inside.sawRoot, saw, root]
  unfold openFault?
  cases begun : C.begin? tag with
  | none =>
    refine opened { s with depth := 2 } ?_ rfl rfl rfl
    rw [enter, depth]
    simp only [begun]
  | some result =>
    cases result with
    | error e =>
      rw [run, step, enter, depth]
      simp only [begun]
      rfl
    | ok member =>
      refine opened { s with depth := 2, pending := some member } ?_ rfl rfl rfl
      rw [enter, depth]
      simp only [begun]
      rfl

/-- A collector finds what the members of an outline stand for, up to the first error among them;
what follows the outline decides the rest. -/
theorem run_outline (o : Outline τ δ) {rest : Feed (Signal τ δ)} {fault : Option DecodeError}
    (ends : ∀ s : Progress ε φ, s.depth = o.depth → s.sawRoot = o.hasElement →
      C.run s rest = ⟨s.elements.reverse, fault⟩) :
    C.run {} (Feed.prepend o.signals rest) =
      .ofResults (o.members C.meaning? C.openFault?) fault := by
  refine Eq.trans ?_ (absorb_ends _ fault ({} : Progress ε φ))
  obtain ⟨openings, inner⟩ := o
  rcases openings with _ | ⟨⟨before, tag⟩, _ | ⟨⟨siblings, second⟩, others⟩⟩
  · -- no element is open
    rw [Outline.signals, Outline.openSignals, List.flatMap_nil, List.nil_append,
      run_top inner rfl rfl rfl]
    refine Progress.absorb_congr _ rfl fun elements => ?_
    exact ends ⟨0, !inner.branches.isEmpty, elements, none, none⟩ rfl rfl
  · -- a top-level element is open
    rw [Outline.signals, Outline.openSignals_cons, List.append_assoc, Feed.prepend_append,
      run_top before rfl rfl rfl, Outline.members, Progress.absorb_append]
    refine Progress.absorb_congr _ rfl fun elements => ?_
    refine (run_enter (s := ⟨0, _, elements, none, none⟩) rfl _).trans ?_
    refine (run_root inner rfl rfl rfl rest).trans ?_
    refine Progress.absorb_congr _ rfl fun elements => ?_
    exact ends ⟨1, true, elements, none, none⟩ rfl rfl
  · -- a child of a top-level element is open
    have traversed : Outline.signals ⟨(before, tag) :: (siblings, second) :: others, inner⟩ =
        before.signals ++ .enter tag :: (siblings.signals ++
          .enter second :: (Outline.openSignals others ++ inner.signals)) := by
      simp only [Outline.signals, Outline.openSignals_cons, List.append_assoc, List.cons_append]
    rw [traversed, Feed.prepend_append, run_top before rfl rfl rfl, Outline.members,
      Progress.absorb_append, Progress.absorb_append]
    refine Progress.absorb_congr _ rfl fun elements => ?_
    refine (run_enter (s := ⟨0, _, elements, none, none⟩) rfl _).trans ?_
    refine (congrArg _ (Feed.prepend_append siblings.signals _ rest)).trans ?_
    refine (run_root siblings rfl rfl rfl _).trans ?_
    refine Progress.absorb_congr _ rfl fun elements => ?_
    refine (run_opened second others inner rfl rfl ends).trans ?_
    exact Progress.absorb_congr _ rfl fun _ => rfl

theorem run_finished (o : Outline τ δ) :
    C.run {} (Feed.prepend o.signals .finished) =
      .ofResults (o.members C.meaning? C.openFault?) o.endFault? := by
  refine run_outline o fun s depth saw => ?_
  rw [run, Progress.result, Outline.endFault?, depth, saw]
  split
  · rfl
  · split <;> rfl

theorem run_broken (o : Outline τ δ) (e : DecodeError) :
    C.run {} (Feed.prepend o.signals (.broken e)) =
      .ofResults (o.members C.meaning? C.openFault?) (some e) :=
  run_outline o fun _ _ _ => rfl

end Collector
end GraphScribe
