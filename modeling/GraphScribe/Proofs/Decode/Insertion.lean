import GraphScribe.Proofs.Decode.Likeness
import GraphScribe.Proofs.Decode.Truncation
import GraphScribe.Proofs.Markup.Nesting

/-!
# Content that is not looked at

Comments and instructions say nothing, text counts only inside the children of members, and an
element counts only where its name is asked for. So a document gives the same graph with any of
these put between two of its constructs.

* `Place.Steady`: what the reader has in hand is told by the elements that are open.
* `Passing`: what is collected inside an element that does not count.
* `Leads.insert`: bytes that do not count, put where a construct begins.
* `Streaming.decode_insert`: the same for documents.
-/

namespace GraphScribe

open Markup

/-- An element with a name does not count inside elements with these names, the innermost first. -/
def Unread (name : Bytes) : List Bytes → Prop
  | [] => False
  | [_] => name ∉ ElementKind.tags
  | [parent, _] => name ∉ ElementKind.fieldNames parent
  | _ => True

/-- The bytes do not count inside elements with these names, the innermost first. -/
inductive Ignored (names : List Bytes) : Bytes → Prop
  | comment {body : Bytes} (free : ¬ Bytes.ofAscii "-->" <:+: body) : Ignored names (comment body)
  | instruction {body : Bytes} (free : ¬ Bytes.ofAscii "?>" <:+: body) :
    Ignored names (instruction body)
  | text {raw : Bytes} (shallow : names.length ≤ 2) (plain : opener ∉ raw) : Ignored names raw
  | element {name bytes : Bytes} (element : IsElement name bytes) (unread : Unread name names) :
    Ignored names bytes

namespace Place

open ElementReader (collector)

/-! ## What is in hand -/

/-- What may be in hand inside elements with these names, the innermost first: a member inside the
element with its name that lies directly in a top-level element, and a child only further inside. -/
inductive Holds : List Bytes → Option Element → Option (Bytes × RawText) → Prop
  | outside (names : List Bytes) : Holds names none none
  | member {m : Element} (asked : m.name ∈ ElementKind.tags) (root : Bytes) :
    Holds [m.name, root] (some m) none
  | inside {m : Element} (asked : m.name ∈ ElementKind.tags) (root name : Bytes)
      (inner : List Bytes) (child? : Option (Bytes × RawText)) :
    Holds (name :: inner ++ [m.name, root]) (some m) child?

/-- The open elements are counted, and tell what may be in hand. -/
structure Steady (p : Place) : Prop where
  sound : p.Sound
  holds : Holds p.openNames p.progress.pending p.progress.field

variable {p p' : Place}

theorem steady_start (start : Nat) : Steady { start } := ⟨rfl, .outside []⟩

theorem name_of_beginMember? {tag : StartTag} {m : Element}
    (begun : ElementReader.beginMember? tag = some (.ok m)) :
    m.name = tag.name ∧ tag.name ∈ ElementKind.tags := by
  unfold ElementReader.beginMember? at begun
  split at begun
  · next asked =>
    have read := Option.some.inj begun
    split at read
    · cases read
    · cases read
      exact ⟨rfl, List.contains_iff_mem.1 asked⟩
  · cases begun

section Signals

variable {names : List Bytes} {start stop : Nat} {s s' : Progress Element (Bytes × RawText)}

theorem Steady.opened {tag : StartTag} (steady : Steady ⟨names, start, s⟩)
    (opens : collector.enter s tag = .ok s') : Steady ⟨tag.name :: names, stop, s'⟩ := by
  have deeper := Collector.depth_of_enter opens
  obtain ⟨sound, holds⟩ := steady
  change s.depth = names.length at sound
  refine ⟨deeper.trans (congrArg Nat.succ sound), ?_⟩
  obtain ⟨depth, sawRoot, elements, member?, child?⟩ := s
  dsimp only at holds sound
  cases holds with
  | outside =>
    by_cases taken : depth = 1 ∧ ElementReader.beginMember? tag ≠ none
    · obtain ⟨one, begun⟩ := taken
      obtain ⟨begun?, begun⟩ := Option.ne_none_iff_exists'.1 begun
      rw [Collector.enter_member one begun] at opens
      cases begun? with
      | error e => cases opens
      | ok m =>
        cases opens
        obtain ⟨name, asked⟩ := name_of_beginMember? begun
        obtain ⟨root, rfl⟩ := List.length_eq_one_iff.1 (sound.symm.trans one)
        exact name ▸ .member (name ▸ asked) root
    · have other : depth = 1 → ElementReader.beginMember? tag = none :=
        fun one => of_not_not fun begun => taken ⟨one, begun⟩
      rw [Collector.enter_outside rfl other] at opens
      cases opens
      exact .outside _
  | @member m asked root =>
    rw [Collector.enter_child sound rfl] at opens
    cases opens
    exact .inside asked root tag.name [] _
  | @inside m asked root name inner child? =>
    rw [Collector.enter_deep (by simp [sound])] at opens
    cases opens
    exact .inside asked root tag.name (name :: inner) child?

theorem Steady.closed {name : Bytes} (steady : Steady ⟨name :: names, start, s⟩)
    (closes : collector.leave s = .ok s') : Steady ⟨names, stop, s'⟩ := by
  have shallower := Collector.depth_of_leave closes
  obtain ⟨sound, holds⟩ := steady
  change s.depth = names.length + 1 at sound
  refine ⟨shallower.trans (congrArg Nat.pred sound), ?_⟩
  obtain ⟨depth, sawRoot, elements, member?, child?⟩ := s
  dsimp only at holds sound
  generalize whole : name :: names = all at holds
  cases holds with
  | outside =>
    rw [Collector.leave_outside rfl] at closes
    cases closes
    exact .outside _
  | @member m asked root =>
    cases whole
    rw [Collector.leave_member sound rfl] at closes
    cases meant : collector.meaning m with
    | error e =>
      rw [meant] at closes
      cases closes
    | ok element =>
      rw [meant] at closes
      cases closes
      exact .outside _
  | @inside m asked root _ inner child? =>
    cases whole
    cases inner with
    | nil =>
      cases child? with
      | none =>
        rw [Collector.leave_childless sound rfl] at closes
        cases closes
        exact .member asked root
      | some child =>
        rw [Collector.leave_child sound rfl rfl] at closes
        cases closes
        exact .member (m := collector.close m child) asked root
    | cons next inner =>
      rw [Collector.leave_deep (by simp [sound])] at closes
      cases closes
      exact .inside asked root next inner child?

theorem pending_of_data (s : Progress Element (Bytes × RawText)) (piece : Piece) :
    (collector.data s piece).pending = s.pending := by
  unfold Collector.data
  split
  · split <;> rfl
  · rfl

theorem Steady.data (steady : Steady ⟨names, start, s⟩) (piece : Piece) :
    Steady ⟨names, stop, collector.data s piece⟩ := by
  obtain ⟨sound, holds⟩ := steady
  refine ⟨(depth_of_data s piece).trans sound, ?_⟩
  show Holds names (collector.data s piece).pending _
  rw [pending_of_data]
  obtain ⟨depth, sawRoot, elements, member?, child?⟩ := s
  dsimp only at holds
  cases holds with
  | outside => exact .outside _
  | member asked root => exact .member asked root
  | inside asked root name inner child? => exact .inside asked root name inner _

end Signals

/-- A construct that is read leaves a place steady and opens and closes what it says. -/
theorem Steady.read {stop : Nat} {construct : Construct} (steady : p.Steady)
    (next : p.read stop construct = .ok p') :
    p'.Steady ∧ p'.openNames = construct.nest p.openNames := by
  obtain ⟨names, start, s⟩ := p
  rcases construct with (⟨name, attributes, isEmpty⟩ | name | piece) | _
  · change (collector.enter s ⟨start, name, attributes⟩).bind _ = _ at next
    cases opens : collector.enter s ⟨start, name, attributes⟩ with
    | error e =>
      rw [opens] at next
      cases next
    | ok opened =>
      rw [opens] at next
      have within : Steady ⟨name :: names, stop, opened⟩ := steady.opened opens
      cases isEmpty with
      | false =>
        cases next
        exact ⟨within, rfl⟩
      | true =>
        change (collector.leave opened).map _ = _ at next
        cases closes : collector.leave opened with
        | error e =>
          rw [closes] at next
          cases next
        | ok closed =>
          rw [closes] at next
          cases next
          exact ⟨within.closed closes, rfl⟩
  · cases names with
    | nil => cases next
    | cons expected others =>
      change (if expected == name then (collector.leave s).map _ else _) = _ at next
      split at next
      · cases closes : collector.leave s with
        | error e =>
          rw [closes] at next
          cases next
        | ok closed =>
          rw [closes] at next
          cases next
          exact ⟨steady.closed closes, rfl⟩
      · cases next
  · cases next
    exact ⟨steady.data piece, rfl⟩
  · cases next
    exact ⟨steady, rfl⟩

/-- A place that is steady is like itself. -/
theorem Steady.refl (steady : p.Steady) : p.progress.Like p.progress := by
  obtain ⟨names, start, ⟨depth, sawRoot, elements, member?, child?⟩⟩ := p
  obtain ⟨-, holds⟩ := steady
  refine ⟨rfl, rfl, rfl, ?_, ?_⟩
  · dsimp only at holds ⊢
    cases holds with
    | outside => exact .none
    | member asked root => exact .some (.refl asked)
    | inside asked root name inner child? => exact .some (.refl asked)
  · dsimp only
    cases child? with
    | none => exact .none
    | some child => exact .some ⟨rfl, rfl⟩

end Place

/-- What is found in bytes from a place on is what is found after their first construct. -/
theorem Place.run_bytes {p : Place} {bytes : Bytes} {position n : Nat} {construct : Construct}
    (filled : bytes ≠ []) (read : readConstruct bytes = .ok (construct, n)) :
    p.run ⟨bytes, position⟩ =
      (p.read (position + n) construct).bind (·.run ⟨bytes.drop n, position + n⟩) := by
  obtain ⟨b, rest, rfl⟩ := List.exists_cons_of_ne_nil filled
  exact Place.run_of_construct (c := ⟨b :: rest, position⟩) rfl read

/-! ## Inside an element that does not count -/

open ElementReader (collector)

/-- What is collected inside an element that does not count and lies directly where `base` was
collected. -/
inductive Passing (base : Progress Element (Bytes × RawText)) :
    Progress Element (Bytes × RawText) → Prop
  /-- Nothing is in hand, or what is in hand is passed over so far inside. -/
  | skipped {depth : Nat} (deeper : base.depth < depth)
    (idle : 3 ≤ base.depth ∨ 1 ≤ base.depth ∧ base.pending = none ∧ base.field = none) :
    Passing base { base with depth }
  /-- The element is a child of a member that does not look for it. -/
  | unread {depth : Nat} {m : Element} {child : Bytes × RawText} (deeper : base.depth < depth)
    (two : base.depth = 2) (pending : base.pending = some m)
    (asked : m.name ∈ ElementKind.tags) (empty : base.field = none)
    (unread : child.1 ∉ ElementKind.fieldNames m.name) :
    Passing base { base with depth, field := some child }

namespace Passing

variable {base s : Progress Element (Bytes × RawText)}

theorem idle_of_quiet {depth : Nat} (deeper : base.depth < depth)
    (idle : 3 ≤ base.depth ∨ 1 ≤ base.depth ∧ base.pending = none ∧ base.field = none) :
    Collector.Idle { base with depth } := by
  rcases idle with deep | ⟨inside, pending, field⟩
  · exact .inl (Nat.lt_of_le_of_lt deep deeper)
  · by_cases two : depth = 2
    · exact .inr (.inr ⟨two, pending, field⟩)
    · by_cases three : depth = 3
      · exact .inr (.inl ⟨three, field⟩)
      · left
        show 3 < depth
        omega

theorem enter (passing : Passing base s) (tag : StartTag) :
    ∃ s', collector.enter s tag = .ok s' ∧ Passing base s' ∧ s'.depth = s.depth + 1 := by
  cases passing with
  | @skipped depth deeper idle =>
    exact ⟨_, (idle_of_quiet deeper idle).enter tag, .skipped (Nat.lt_succ_of_lt deeper) idle, rfl⟩
  | @unread depth m child deeper two pending asked empty unread =>
    have deep : 3 ≤ depth := by omega
    exact ⟨_, Collector.enter_deep deep tag,
      .unread (Nat.lt_succ_of_lt deeper) two pending asked empty unread, rfl⟩

theorem data (passing : Passing base s) (piece : Piece) :
    Passing base (collector.data s piece) := by
  cases passing with
  | @skipped depth deeper idle =>
    rw [(idle_of_quiet deeper idle).data piece]
    exact .skipped deeper idle
  | @unread depth m child deeper two pending asked empty unread =>
    by_cases three : depth = 3
    · rw [Collector.data_direct three rfl]
      exact .unread deeper two pending asked empty unread
    · rw [Collector.data_elsewhere three]
      exact .unread deeper two pending asked empty unread

/-- An element further inside closes. -/
theorem leave_inner (passing : Passing base s) (inner : base.depth + 1 < s.depth) :
    ∃ s', collector.leave s = .ok s' ∧ Passing base s' ∧ s'.depth + 1 = s.depth := by
  cases passing with
  | @skipped depth deeper idle =>
    obtain ⟨depth, rfl⟩ := Nat.exists_eq_add_one_of_ne_zero (Nat.ne_zero_of_lt inner)
    have inside := Nat.lt_of_succ_lt_succ inner
    exact ⟨_, (idle_of_quiet inside idle).leave, .skipped inside idle, rfl⟩
  | @unread depth m child deeper two pending asked empty unread =>
    obtain ⟨depth, rfl⟩ := Nat.exists_eq_add_one_of_ne_zero (Nat.ne_zero_of_lt inner)
    have inside := Nat.lt_of_succ_lt_succ inner
    have deep : 4 ≤ depth + 1 := by omega
    exact ⟨_, Collector.leave_deep deep, .unread inside two pending asked empty unread, rfl⟩

/-- The element itself closes. -/
theorem leave_outer (passing : Passing base s) (outer : s.depth = base.depth + 1)
    (refl : base.Like base) : ∃ s', collector.leave s = .ok s' ∧ base.Like s' := by
  cases passing with
  | @skipped depth deeper idle =>
    change depth = base.depth + 1 at outer
    subst outer
    rcases idle with deep | ⟨-, pending, -⟩
    · exact ⟨_, Collector.leave_deep (Nat.succ_le_succ deep), refl⟩
    · exact ⟨_, Collector.leave_outside pending, refl⟩
  | @unread depth m child deeper two pending asked empty unread =>
    have three : depth = 3 := outer.trans (congrArg Nat.succ two)
    refine ⟨_, Collector.leave_child three pending rfl, two.symm, rfl, rfl, ?_, ?_⟩
    · rw [pending]
      exact .some (.close_unread asked unread child.2)
    · rw [empty]
      exact .none

/-- The tag of an element that does not count where the reader is. -/
theorem of_unread {p : Place} (steady : p.Steady) (tag : StartTag)
    (unread : Unread tag.name p.openNames) :
    ∃ s, collector.enter p.progress tag = .ok s ∧ Passing p.progress s := by
  obtain ⟨names, start, ⟨depth, sawRoot, elements, member?, child?⟩⟩ := p
  obtain ⟨sound, holds⟩ := steady
  change depth = names.length at sound
  dsimp only at unread holds ⊢
  cases holds with
  | outside =>
    have inside : 1 ≤ depth := by
      cases names with
      | nil => exact unread.elim
      | cons name others => exact sound ▸ Nat.succ_pos _
    have passed : depth = 1 → collector.begin? tag = none := by
      intro one
      obtain ⟨root, rfl⟩ := List.length_eq_one_iff.1 (sound.symm.trans one)
      exact if_neg fun asked => unread (List.contains_iff_mem.1 asked)
    have rooted : (sawRoot || depth == 0) = sawRoot := by
      rw [beq_false_of_ne (Nat.ne_of_gt inside), Bool.or_false]
    have skipped : Passing ⟨depth, sawRoot, elements, none, none⟩
        ⟨depth + 1, sawRoot, elements, none, none⟩ :=
      .skipped (Nat.lt_succ_self depth) (.inr ⟨inside, rfl, rfl⟩)
    refine ⟨_, Collector.enter_outside rfl passed, ?_⟩
    dsimp only
    rw [rooted]
    exact skipped
  | @member m asked root =>
    have two : depth = 2 := sound
    subst two
    exact ⟨_, Collector.enter_child rfl rfl tag,
      .unread (Nat.lt_succ_self 2) rfl rfl asked rfl unread⟩
  | @inside m asked root name inner child? =>
    have deep : 3 ≤ depth := by simp [sound]
    exact ⟨_, Collector.enter_deep deep tag, .skipped (Nat.lt_succ_self depth) (.inl deep)⟩

/-- The open elements are those that the element was put inside, and those that it has opened. -/
structure Within (base : Progress Element (Bytes × RawText)) (outer names : List Bytes)
    (p : Place) : Prop where
  openNames : p.openNames = names ++ outer
  sound : p.Sound
  passing : if names = [] then base.Like p.progress else Passing base p.progress

/-- One construct inside the element. -/
theorem Within.read {outer names : List Bytes} {p : Place} (within : Within base outer names p)
    (depth : base.depth = outer.length) (refl : base.Like base) (inside : names ≠ [])
    {construct : Construct}
    (fits : ∀ name, construct = .token (.finish name) → names.head? = some name) (stop : Nat) :
    ∃ p', p.read stop construct = .ok p' ∧ Within base outer (construct.nest names) p' := by
  obtain ⟨names', start, s⟩ := p
  obtain ⟨rfl, sound, passing⟩ := within
  change s.depth = (names ++ outer).length at sound
  rw [if_neg inside] at passing
  change Passing base s at passing
  rw [List.length_append, ← depth] at sound
  have open? : 0 < names.length := List.length_pos_iff.2 inside
  rcases construct with (⟨name, attributes, isEmpty⟩ | name | piece) | _
  · obtain ⟨s', enters, deeper, counted⟩ := passing.enter ⟨start, name, attributes⟩
    cases isEmpty with
    | false =>
      refine ⟨⟨name :: names ++ outer, stop, s'⟩, ?_, rfl, ?_, deeper⟩
      · show (collector.enter s _).bind _ = _
        rw [enters]
        rfl
      · show s'.depth = (name :: names ++ outer).length
        rw [counted, sound, depth, List.cons_append, List.length_cons, List.length_append]
    | true =>
      obtain ⟨s'', leaves, same, counted'⟩ := deeper.leave_inner (by omega)
      refine ⟨⟨names ++ outer, stop, s''⟩, ?_, rfl, ?_, ?_⟩
      · show (collector.enter s _).bind _ = _
        rw [enters]
        show (collector.leave s').map _ = _
        rw [leaves]
        rfl
      · show s''.depth = (names ++ outer).length
        rw [List.length_append]
        omega
      · exact (if_neg inside).symm ▸ same
  · obtain ⟨others, rfl⟩ := List.head?_eq_some_iff.1 (fits name rfl)
    have closes {s' : Progress Element (Bytes × RawText)} (leaves : collector.leave s = .ok s') :
        Place.read ⟨name :: others ++ outer, start, s⟩ stop (.token (.finish name)) =
          .ok ⟨others ++ outer, stop, s'⟩ := by
      show (if name == name then (collector.leave s).map _ else _) = _
      rw [if_pos (beq_self_eq_true name), leaves]
      rfl
    cases others with
    | nil =>
      rw [List.length_singleton, Nat.add_comm] at sound
      obtain ⟨s', leaves, same⟩ := passing.leave_outer sound refl
      exact ⟨_, closes leaves, rfl, same.depth.trans depth, same⟩
    | cons next others =>
      rw [List.length_cons, List.length_cons] at sound
      obtain ⟨s', leaves, same, counted⟩ := passing.leave_inner (by omega)
      refine ⟨_, closes leaves, rfl, ?_, same⟩
      show s'.depth = (next :: others ++ outer).length
      rw [List.length_append, List.length_cons]
      omega
  · refine ⟨⟨names ++ outer, stop, collector.data s piece⟩, rfl, rfl, ?_,
      (if_neg inside).symm ▸ passing.data piece⟩
    show (collector.data s piece).depth = _
    rw [Place.depth_of_data, sound, depth, List.length_append]
  · refine ⟨⟨names ++ outer, start, s⟩, rfl, rfl, ?_, (if_neg inside).symm ▸ passing⟩
    show s.depth = _
    rw [sound, depth, List.length_append]

/-- What closes an element that does not count is passed over. -/
theorem Within.run {outer names : List Bytes} (depth : base.depth = outer.length)
    (refl : base.Like base) {bytes : Bytes} (closes : Closes names bytes) (rest : Bytes) :
    ∀ {p : Place} {position : Nat}, Within base outer names p →
      ∃ (p' : Place) (position' : Nat), p'.openNames = outer ∧ base.Like p'.progress ∧
        p.run ⟨bytes ++ rest, position⟩ = p'.run ⟨rest, position'⟩ := by
  induction closes with
  | done => exact fun {p position} within => ⟨p, position, within.openNames, within.passing, rfl⟩
  | @construct names bytes construct n inside filled read fits later ih =>
    intro p position within
    obtain ⟨p₁, next, within₁⟩ := within.read depth refl inside fits (position + n)
    obtain ⟨p', position', closed, same, runs⟩ := @ih p₁ (position + n) within₁
    refine ⟨p', position', closed, same, ?_⟩
    have read' := later.read_append inside read filled rest
    rw [Place.run_bytes (List.append_ne_nil_of_left_ne_nil filled rest) read', next,
      List.drop_append_of_le_length (readConstruct_le filled read)]
    exact runs

/-- The tag of an element that does not count leads inside it. -/
theorem within_of_unread {p : Place} (steady : p.Steady) {name : Bytes}
    (unread : Unread name p.openNames) (attributes : Bytes) (isEmpty : Bool) (stop : Nat) :
    ∃ p', p.read stop (.token (.start name attributes isEmpty)) = .ok p' ∧
      Within p.progress p.openNames (if isEmpty then [] else [name]) p' := by
  obtain ⟨s, enters, passing⟩ := of_unread steady ⟨p.start, name, attributes⟩ unread
  have deeper := Collector.depth_of_enter enters
  cases isEmpty with
  | false =>
    refine ⟨⟨name :: p.openNames, stop, s⟩, ?_, rfl, ?_, passing⟩
    · show (collector.enter p.progress _).bind _ = _
      rw [enters]
      rfl
    · exact deeper.trans (congrArg Nat.succ steady.sound)
  | true =>
    obtain ⟨s', leaves, same⟩ := passing.leave_outer deeper steady.refl
    refine ⟨⟨p.openNames, stop, s'⟩, ?_, rfl, same.depth.trans steady.sound, same⟩
    show (collector.enter p.progress _).bind _ = _
    rw [enters]
    show (collector.leave s).map _ = _
    rw [leaves]
    rfl

end Passing

/-! ## Bytes that do not count -/

theorem dropWhile_plain {raw : Bytes} (plain : opener ∉ raw) (rest : Bytes) :
    (raw ++ rest).dropWhile isPlain = rest.dropWhile isPlain :=
  List.dropWhile_append_of_pos fun _ held => bne_iff_ne.2 fun same => plain (same ▸ held)

namespace Place

variable {p : Place}

/-- Text that lies in no child is passed over. -/
theorem run_plain (steady : p.Steady) (shallow : p.openNames.length ≤ 2) (bytes : Bytes)
    (position position' : Nat) :
    SameOutcome (p.run ⟨bytes, position⟩) (p.run ⟨bytes.dropWhile isPlain, position'⟩) := by
  by_cases opens : bytes = [] ∨ bytes.head? = some opener
  · have same : bytes.dropWhile isPlain = bytes := by
      rcases opens with rfl | opens
      · rfl
      · obtain ⟨rest, rfl⟩ := List.head?_eq_some_iff.1 opens
        rfl
    exact run_alike ⟨rfl, steady.refl⟩ same
  · obtain ⟨filled, plain⟩ := not_or.1 opens
    have elsewhere : p.progress.depth ≠ 3 := by
      rw [steady.sound]
      omega
    have passed (stop : Nat) (raw : Bytes) :
        p.read stop (.token (.piece (.text raw))) = .ok ⟨p.openNames, stop, p.progress⟩ := by
      show Except.ok (Place.mk p.openNames stop (collector.data p.progress (.text raw))) = _
      rw [Collector.data_elsewhere elsewhere]
    rw [run_bytes filled (readConstruct_plain plain), drop_takeWhile, passed]
    refine run_alike ?_ rfl
    exact ⟨rfl, steady.refl⟩

/-- Bytes that are equal after their texts give the same where no child is open. -/
theorem run_plain_congr (steady : p.Steady) (shallow : p.openNames.length ≤ 2)
    {bytes bytes' : Bytes} (same : bytes.dropWhile isPlain = bytes'.dropWhile isPlain)
    (position position' : Nat) :
    SameOutcome (p.run ⟨bytes, position⟩) (p.run ⟨bytes', position'⟩) :=
  (same ▸ p.run_plain steady shallow bytes position 0).trans
    (sameOutcome_comm.1 (p.run_plain steady shallow bytes' position' 0))

/-- A silent construct is passed over. -/
theorem run_silent (steady : p.Steady) {front rest : Bytes} (filled : front ≠ [])
    (read : readConstruct (front ++ rest) = .ok (.silent, front.length))
    (position position' : Nat) :
    SameOutcome (p.run ⟨rest, position⟩) (p.run ⟨front ++ rest, position'⟩) := by
  rw [run_bytes (List.append_ne_nil_of_left_ne_nil filled rest) read, List.drop_left]
  exact run_alike ⟨rfl, steady.refl⟩ rfl

/-- An element that does not count is passed over. -/
theorem run_element (steady : p.Steady) {name bytes : Bytes} (element : IsElement name bytes)
    (unread : Unread name p.openNames) (rest : Bytes) (position position' : Nat) :
    SameOutcome (p.run ⟨rest, position⟩) (p.run ⟨bytes ++ rest, position'⟩) := by
  have opens := element.opens
  obtain ⟨attributes, isEmpty, n, read, closes⟩ := element
  have filled : bytes ≠ [] := by
    rintro rfl
    cases opens
  obtain ⟨p₁, next, within⟩ :=
    Passing.within_of_unread steady unread attributes isEmpty (position' + n)
  obtain ⟨p', _, closed, same, runs⟩ :=
    Passing.Within.run steady.sound steady.refl closes rest within
  rw [run_bytes (List.append_ne_nil_of_left_ne_nil filled rest)
    (readConstruct_append filled read (.inl opens) rest),
    List.drop_append_of_le_length (readConstruct_le filled read), next]
  show SameOutcome _ (p₁.run _)
  rw [runs]
  exact run_alike ⟨closed, same⟩ rfl

/-- Bytes that do not count are passed over. -/
theorem run_ignored (steady : p.Steady) {noise : Bytes} (ignored : Ignored p.openNames noise)
    (rest : Bytes) (position position' : Nat) :
    SameOutcome (p.run ⟨rest, position⟩) (p.run ⟨noise ++ rest, position'⟩) := by
  cases ignored with
  | @comment body free =>
    exact run_silent steady (by simp [Markup.comment, Bytes.ofAscii])
      (readConstruct_comment free rest) position position'
  | @instruction body free =>
    exact run_silent steady (by simp [Markup.instruction, Bytes.ofAscii])
      (readConstruct_instruction free rest) position position'
  | text shallow plain =>
    exact run_plain_congr steady shallow (dropWhile_plain plain rest).symm position position'
  | element element unread => exact run_element steady element unread rest position position'

end Place

/-! ## Bytes between two constructs -/

/-- A construct is read again before bytes that are put behind it, unless both are text. -/
theorem readConstruct_insert {front rest : Bytes} {construct : Construct} {n : Nat}
    (filled : front ≠ []) (read : readConstruct (front ++ rest) = .ok (construct, n))
    (within : n ≤ front.length) (noise : Bytes) :
    readConstruct (front ++ (noise ++ rest)) = .ok (construct, n) ∨
      noise.head? ≠ some opener ∧ opener ∉ front ∧ n = front.length ∧
        ∃ raw, construct = .token (.piece (.text raw)) := by
  have alone := readConstruct_take (List.append_ne_nil_of_left_ne_nil filled rest) read within
  rw [List.take_left] at alone
  by_cases opens : front.head? = some opener
  · exact .inl (readConstruct_append filled alone (.inl opens) _)
  rcases Nat.lt_or_eq_of_le within with short | whole
  · exact .inl (readConstruct_append filled alone (.inr short) _)
  · have same := (readConstruct_plain opens).symm.trans alone
    cases same
    have plain : front.takeWhile isPlain = front :=
      (List.takeWhile_prefix isPlain).eq_of_length whole
    have bytes : ∀ b ∈ front, isPlain b = true := by
      rw [← plain]
      exact List.all_eq_true.1 List.all_takeWhile
    by_cases marked : noise.head? = some opener
    · left
      obtain ⟨others, rfl⟩ := List.head?_eq_some_iff.1 marked
      rw [plain]
      exact readConstruct_text filled bytes fun b first => (Option.some.inj first).symm
    · exact .inr ⟨marked, fun held => absurd (bytes opener held) (by decide), whole, _, rfl⟩

theorem Ignored.opens {names : List Bytes} {noise : Bytes} (ignored : Ignored names noise)
    (plain : noise.head? ≠ some opener) : names.length ≤ 2 ∧ opener ∉ noise := by
  cases ignored with
  | comment _ => exact absurd rfl plain
  | instruction _ => exact absurd rfl plain
  | text shallow free => exact ⟨shallow, free⟩
  | element element _ => exact absurd element.opens plain

/-- Bytes that do not count where they are put, after constructs that are read in front of them. -/
theorem Markup.Leads.insert {rest noise front : Bytes} {names after : List Bytes}
    (leads : Leads rest names front after) (ignored : Ignored after noise) :
    ∀ {p : Place}, p.Steady → p.openNames = names → ∀ position position' : Nat,
      SameOutcome (p.run ⟨front ++ rest, position⟩)
        (p.run ⟨front ++ (noise ++ rest), position'⟩) := by
  induction leads with
  | here names =>
    rintro p steady rfl position position'
    exact p.run_ignored steady ignored rest position position'
  | @construct names after front construct n filled read within later ih =>
    rintro p steady rfl position position'
    rcases readConstruct_insert filled read within noise with read' | ⟨plain, free, whole, raw, rfl⟩
    · rw [Place.run_bytes (List.append_ne_nil_of_left_ne_nil filled _) read,
        Place.run_bytes (List.append_ne_nil_of_left_ne_nil filled _) read',
        List.drop_append_of_le_length within, List.drop_append_of_le_length within]
      have alike : Place.AlikePlace (p.read (position + n) construct)
          (p.read (position' + n) construct) :=
        Place.read_alike ⟨rfl, steady.refl⟩ _ _ construct
      refine alike.bind_of fun q q' next same => ?_
      obtain ⟨steady', names⟩ := steady.read next
      exact (ih ignored steady' names _ 0).trans (Place.run_alike same rfl)
    · -- The two texts become one, where no text counts.
      rw [whole, List.drop_length] at later
      cases later with
      | construct filled _ _ _ => exact absurd rfl filled
      | here =>
        obtain ⟨shallow, free'⟩ := ignored.opens plain
        refine p.run_plain_congr steady shallow ?_ position position'
        rw [dropWhile_plain free, dropWhile_plain free, dropWhile_plain free']

/-- An accepted document is read construct by construct up to every place where one begins. -/
theorem Runs.leads {document : Bytes} {p : Place} {offset i : Nat}
    {outcome : Except DecodeError Graph} {g : Graph} (runs : Runs document p offset outcome)
    (accepted : outcome = .ok g) (reached : offset ≤ i)
    (boundary : i = document.length ∨ ∃ s ∈ (Cursor.within document offset).layout, s.start = i) :
    ∀ names : List Bytes, Leads (document.drop i) names ((document.drop offset).take (i - offset))
      (openNames i names (Cursor.within document offset).layout) := by
  induction runs with
  | @ended p offset left =>
    intro names
    rw [Cursor.layout_of_nil (c := .within document offset) left, left, List.take_nil]
    exact .here names
  | faulty _ _ => cases accepted
  | refused _ _ _ => cases accepted
  | @step p p' offset n b rest construct outcome left constructed next later ih =>
    intro names
    have layout := layout_of_step left constructed
    have filled : n ≤ (document.drop offset).length :=
      left ▸ readConstruct_le (List.cons_ne_nil _ _) constructed
    rcases Nat.eq_or_lt_of_le reached with here | past
    · have behind : ∀ s ∈ (Cursor.within document offset).layout, i < s.stop := by
        intro s held
        obtain ⟨after, filled⟩ := (Cursor.within document offset).layout_bounds s held
        exact here ▸ Nat.lt_of_le_of_lt after filled
      rw [openNames_behind names behind, here, Nat.sub_self, List.take_zero]
      exact .here names
    · have boundary' : i = document.length ∨
          ∃ s ∈ (Cursor.within document (offset + n)).layout, s.start = i := by
        rw [layout] at boundary
        refine boundary.imp_right fun ⟨s, held, begins⟩ => ?_
        rcases List.mem_cons.1 held with rfl | later
        · exact absurd begins (Nat.ne_of_lt past)
        · exact ⟨s, later, begins⟩
      have reached' : offset + n ≤ i := by
        rcases boundary' with rfl | ⟨s, held, rfl⟩
        · rw [List.length_drop] at filled
          have := readConstruct_pos constructed
          omega
        · exact ((Cursor.within document (offset + n)).layout_bounds s held).1
      have whole : (document.drop offset).take (i - offset) ++ document.drop i =
          document.drop offset := by
        have parts := List.take_append_drop (i - offset) (document.drop offset)
        rwa [List.drop_drop, Nat.add_sub_cancel' reached] at parts
      have count : (document.drop offset).take (i - offset) ≠ [] := by
        rw [left]
        obtain ⟨k, length⟩ : ∃ k, i - offset = k + 1 := ⟨i - offset - 1, by omega⟩
        rw [length, List.take_succ_cons]
        exact List.cons_ne_nil _ _
      rw [layout, openNames, if_pos reached']
      refine .construct count (by rw [whole, left]; exact constructed) ?_ ?_
      · rw [List.length_take]
        omega
      · have tail : ((document.drop offset).take (i - offset)).drop n =
            (document.drop (offset + n)).take (i - (offset + n)) := by
          rw [List.drop_take, List.drop_drop, Nat.sub_sub]
        rw [tail]
        exact ih accepted reached' boundary' _

namespace Streaming

variable {document : Bytes}

/-- The places between two constructs of a document, its beginning and its end. -/
def IsBoundary (document : Bytes) (offset : Nat) : Prop :=
  offset = document.length ∨ ∃ s ∈ layout document, s.start = offset

/-- The names of the elements that are open at a place in a document, the innermost first. -/
def openNamesAt (document : Bytes) (offset : Nat) : List Bytes :=
  openNames offset [] (layout document)

theorem plain_mark (document : Bytes) : opener ∉ document.take (bodyOffset document) := by
  unfold bodyOffset
  split
  · next marked =>
    obtain ⟨rest, rfl⟩ := List.isPrefixOf_iff_prefix.1 marked
    rw [List.take_left' (show byteOrderMark.length = 3 from rfl)]
    decide
  · simp

theorem bodyOffset_le (document : Bytes) : bodyOffset document ≤ document.length := by
  unfold bodyOffset
  split
  · next marked => exact (List.isPrefixOf_iff_prefix.1 marked).length_le
  · exact Nat.zero_le _

/-- Text at the front of a document is passed over, and so is a byte order mark. -/
theorem decode_alike_run {mark : Bytes} (plain : opener ∉ mark) (rest : Bytes)
    (start position : Nat) :
    SameOutcome (decode (mark ++ rest)) (Place.run { start } ⟨rest, position⟩) := by
  have marked := dropWhile_plain (plain_mark (mark ++ rest))
    ((mark ++ rest).drop (bodyOffset (mark ++ rest)))
  rw [List.take_append_drop, dropWhile_plain plain] at marked
  have steady := Place.steady_start (bodyOffset (mark ++ rest))
  rw [decode_eq]
  refine (Place.run_plain_congr steady (Nat.zero_le 2) marked.symm _ 0).trans ?_
  refine Place.run_alike ?_ rfl
  exact ⟨rfl, steady.refl⟩

/-- Content that is not looked at does not change the graph of a document. -/
theorem decode_insert {document noise : Bytes} {g : Graph} {offset : Nat}
    (accepted : decode document = .ok g) (boundary : IsBoundary document offset)
    (ignored : Ignored (openNamesAt document offset) noise) :
    decode (document.take offset ++ noise ++ document.drop offset) = .ok g := by
  have reached : bodyOffset document ≤ offset := by
    rcases boundary with rfl | ⟨s, held, rfl⟩
    · exact bodyOffset_le document
    · exact (Cursor.layout_bounds _ s held).1
  have leads := (runs_decode document).leads accepted reached boundary []
  have before : document.take offset = document.take (bodyOffset document) ++
      (document.drop (bodyOffset document)).take (offset - bodyOffset document) := by
    rw [← List.take_add, Nat.add_sub_cancel' reached]
  have plain := plain_mark document
  generalize document.take (bodyOffset document) = mark at before plain
  generalize (document.drop (bodyOffset document)).take (offset - bodyOffset document) = front
    at before leads
  have whole : document = mark ++ (front ++ document.drop offset) := by
    rw [← List.append_assoc, ← before, List.take_append_drop]
  have same : SameOutcome (decode document)
      (decode (document.take offset ++ noise ++ document.drop offset)) := by
    rw [before, List.append_assoc, List.append_assoc]
    refine SameOutcome.trans ?_ (sameOutcome_comm.1 (decode_alike_run plain _ 0 0))
    refine SameOutcome.trans ?_ (leads.insert ignored (Place.steady_start 0) rfl 0 0)
    exact (congrArg (fun d => SameOutcome (decode d) _) whole).mpr (decode_alike_run plain _ 0 0)
  rw [accepted] at same
  cases found : decode (document.take offset ++ noise ++ document.drop offset) with
  | error e =>
    rw [found] at same
    exact same.elim
  | ok g' =>
    rw [found] at same
    exact congrArg Except.ok (Eq.symm same)

/-- A child that a node does not look for, with a reference that stands for nothing and a cost
further inside. -/
theorem decode_insert_foreignChild :
    let document := Bytes.ofAscii "<g><node id='1'></node></g>"
    let noise := Bytes.ofAscii "<source>&x;<cost/></source>"
    let g : Graph := ⟨[⟨1, .zero false⟩], []⟩
    (decode document = .ok g ∧ IsBoundary document 16 ∧
      Ignored (openNamesAt document 16) noise) ∧
      decode (document.take 16 ++ noise ++ document.drop 16) = .ok g := by
  intro document noise g
  have accepted : decode document = .ok g := by decide +kernel
  have boundary : IsBoundary document 16 :=
    .inr ⟨⟨.token (.finish (Bytes.ofAscii "node")), 16, 23⟩, by decide +kernel, rfl⟩
  have element : IsElement (Bytes.ofAscii "source") noise := by
    have text : readConstruct (noise.drop 8) =
        .ok (.token (.piece (.text (Bytes.ofAscii "&x;"))), 3) := by decide +kernel
    have child : readConstruct ((noise.drop 8).drop 3) =
        .ok (.token (.start (Bytes.ofAscii "cost") [] true), 7) := by decide +kernel
    have finish : readConstruct (((noise.drop 8).drop 3).drop 7) =
        .ok (.token (.finish (Bytes.ofAscii "source")), 9) := by decide +kernel
    refine ⟨[], false, 8, by decide +kernel, ?_⟩
    refine .construct (List.cons_ne_nil _ _) (by decide) text (fun _ tag => by cases tag) ?_
    refine .construct (List.cons_ne_nil _ _) (by decide) child (fun _ tag => by cases tag) ?_
    refine .construct (List.cons_ne_nil _ _) (by decide) finish (fun _ tag => by cases tag; rfl) ?_
    exact .done
  have names : openNamesAt document 16 = [Bytes.ofAscii "node", Bytes.ofAscii "g"] := by
    decide +kernel
  have unread : Unread (Bytes.ofAscii "source") (openNamesAt document 16) := by
    rw [names]
    show _ ∉ ElementKind.fieldNames _
    decide
  have ignored := Ignored.element element unread
  exact ⟨⟨accepted, boundary, ignored⟩, decode_insert accepted boundary ignored⟩

end Streaming
end GraphScribe
