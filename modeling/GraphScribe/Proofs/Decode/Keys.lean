import GraphScribe.Proofs.Decode.InStep

/-!
# Keys of members

The key of a node is its id, and that of an edge is whether it is directed. It is decided by an
attribute, so a decoder has it in hand from the start tag of a member on, and nothing in the content
of the member changes it. The member then comes next in the graph: so where two decoders take up a
member with keys that do not mean the same, they never find one graph.

* `Collector.exists_next`: what a member in hand is kept for.
* `Graph.ofElements_ne`: elements with different keys make different graphs.
-/

namespace GraphScribe

open Markup

/-! ## A member in hand -/

namespace Collector

variable {τ δ ε φ : Type} {C : Collector τ δ ε φ} {s s' : Progress ε φ}

theorem elements_of_enter {tag : τ} (opened : C.enter s tag = .ok s') :
    s'.elements = s.elements := by
  unfold enter at opened
  split at opened
  · cases opened
    rfl
  · split at opened
    · cases opened
      rfl
    · next begun _ =>
      cases begun with
      | error e => cases opened
      | ok member =>
        cases opened
        rfl
  · split at opened <;> cases opened <;> rfl
  · cases opened
    rfl

theorem elements_of_leave (closed : C.leave s = .ok s') :
    ∃ complete, s'.elements = complete ++ s.elements := by
  unfold leave at closed
  dsimp only at closed
  split at closed
  · split at closed <;> cases closed <;> exact ⟨[], rfl⟩
  · split at closed
    · cases closed
      exact ⟨[], rfl⟩
    · next member _ =>
      cases meant : C.meaning member with
      | error e =>
        rw [meant] at closed
        cases closed
      | ok element =>
        rw [meant] at closed
        cases closed
        exact ⟨[element], rfl⟩
  · cases closed
    exact ⟨[], rfl⟩

theorem elements_of_data (s : Progress ε φ) (piece : δ) :
    (C.data s piece).elements = s.elements := by
  unfold data
  split
  · split <;> rfl
  · rfl

theorem elements_of_step {signal : Signal τ δ} (stepped : C.step s signal = .ok s') :
    ∃ complete, s'.elements = complete ++ s.elements := by
  cases signal with
  | enter tag => exact ⟨[], elements_of_enter stepped⟩
  | leave => exact elements_of_leave stepped
  | data piece =>
    cases stepped
    exact ⟨[], elements_of_data s piece⟩

/-- A graph begins with the elements that were complete at any time. -/
theorem exists_later (feed : Feed (Signal τ δ)) : ∀ {s : Progress ε φ} {g : Graph},
    (C.run s feed).graph = .ok g → ∃ later, g = .ofElements (s.elements.reverse ++ later) := by
  induction feed with
  | finished =>
    intro s g found
    unfold run Progress.result at found
    split at found
    · cases found
    · split at found
      · cases found
        exact ⟨[], congrArg Graph.ofElements (List.append_nil _).symm⟩
      · cases found
  | unclosed =>
    intro s g found
    cases found
  | broken e =>
    intro s g found
    cases found
  | item signal rest ih =>
    intro s g found
    rw [graph_run] at found
    cases stepped : C.step s signal with
    | error e =>
      rw [stepped] at found
      cases found
    | ok s' =>
      rw [stepped] at found
      obtain ⟨complete, elements⟩ := elements_of_step stepped
      obtain ⟨later, equal⟩ := ih found
      refine ⟨complete.reverse ++ later, ?_⟩
      rw [equal, elements, List.reverse_append, List.append_assoc]

variable {Q : ε → Prop} {member : ε}

/-- A signal inside a member in hand keeps it in hand, with what its children do not change, or
completes it. -/
theorem pending_of_step (keeps : ∀ member child, Q member → Q (C.close member child))
    (deep : 2 ≤ s.depth) (inHand : s.pending = some member) (holds : Q member)
    {signal : Signal τ δ} (stepped : C.step s signal = .ok s') :
    (s'.elements = s.elements ∧ 2 ≤ s'.depth ∧
      ∃ member', s'.pending = some member' ∧ Q member') ∨
      ∃ element, C.meaning member = .ok element ∧ s'.elements = element :: s.elements := by
  obtain ⟨depth, sawRoot, elements, _, field⟩ := s
  cases inHand
  dsimp only at deep ⊢
  cases signal with
  | enter tag =>
    have kept : s'.pending = some member := by
      unfold step enter at stepped
      dsimp only at stepped
      split at stepped
      · omega
      · omega
      · cases stepped
        rfl
      · cases stepped
        rfl
    have deeper : s'.depth = depth + 1 := depth_of_enter stepped
    exact .inl ⟨elements_of_enter stepped, by omega, member, kept, holds⟩
  | leave =>
    unfold step leave at stepped
    dsimp only at stepped
    split at stepped
    · next two =>
      cases field with
      | none =>
        cases stepped
        exact .inl ⟨rfl, Nat.le_of_eq two.symm, member, rfl, holds⟩
      | some child =>
        cases stepped
        exact .inl ⟨rfl, Nat.le_of_eq two.symm, _, rfl, keeps member child holds⟩
    · cases meant : C.meaning member with
      | error e =>
        rw [meant] at stepped
        cases stepped
      | ok element =>
        rw [meant] at stepped
        cases stepped
        exact .inr ⟨element, rfl, rfl⟩
    · next notTwo notOne =>
      cases stepped
      have passedTwo : depth - 1 ≠ 2 := notTwo
      have passedOne : depth - 1 ≠ 1 := notOne
      refine .inl ⟨rfl, ?_, member, rfl, holds⟩
      show 2 ≤ depth - 1
      omega
  | data piece =>
    cases stepped
    unfold data
    dsimp only
    split
    · split
      · exact .inl ⟨rfl, deep, member, rfl, holds⟩
      · exact .inl ⟨rfl, deep, member, rfl, holds⟩
    · exact .inl ⟨rfl, deep, member, rfl, holds⟩

/-- A member in hand comes next in the graph, once it is complete. -/
theorem exists_next (keeps : ∀ member child, Q member → Q (C.close member child))
    (feed : Feed (Signal τ δ)) : ∀ {s : Progress ε φ} {member : ε} {g : Graph},
    2 ≤ s.depth → s.pending = some member → Q member → (C.run s feed).graph = .ok g →
      ∃ member' element later, Q member' ∧ C.meaning member' = .ok element ∧
        g = .ofElements (s.elements.reverse ++ element :: later) := by
  induction feed with
  | finished =>
    intro s member g deep _ _ found
    unfold run Progress.result at found
    rw [if_pos (by omega)] at found
    cases found
  | unclosed =>
    intro s member g _ _ _ found
    cases found
  | broken e =>
    intro s member g _ _ _ found
    cases found
  | item signal rest ih =>
    intro s member g deep inHand holds found
    rw [graph_run] at found
    cases stepped : C.step s signal with
    | error e =>
      rw [stepped] at found
      cases found
    | ok s' =>
      rw [stepped] at found
      rcases pending_of_step keeps deep inHand holds stepped with
        ⟨elements, deep', member', inHand', holds'⟩ | ⟨element, meant, elements⟩
      · exact elements ▸ ih deep' inHand' holds' found
      · obtain ⟨later, equal⟩ := exists_later rest found
        refine ⟨member, element, later, holds, meant, ?_⟩
        rw [equal, elements, List.reverse_cons, List.append_assoc]
        rfl

end Collector

/-! ## Keys -/

/-- An element of a kind has the key that a text of its attribute gives. -/
def GraphElement.HasKey (kind : ElementKind) (text : Option (List Char)) : GraphElement → Prop
  | .node n => kind = .node ∧ readRequired .node .id text = .ok n.id
  | .edge e => kind = .edge ∧
    ({ directed := text, source := none, target := none, cost := none } : EdgeFields).isDirected =
      e.directed

/-- Elements whose keys do not mean the same make different graphs, whatever follows them. -/
theorem Graph.ofElements_ne {kind : ElementKind} {text text' : Option (List Char)}
    (differ : ¬ kind.SameKey text text') {element element' : GraphElement}
    (key : element.HasKey kind text) (key' : element'.HasKey kind text')
    (before later later' : List GraphElement) :
    Graph.ofElements (before ++ element :: later) ≠
      Graph.ofElements (before ++ element' :: later') := by
  intro same
  cases element with
  | node n =>
    obtain ⟨rfl, id⟩ := key
    cases element' with
    | edge e => cases key'.1
    | node n' =>
      have nodes := congrArg Graph.nodes same
      unfold ofElements at nodes
      simp only [List.filterMap_append, List.filterMap_cons, GraphElement.node?] at nodes
      have equal : n = n' := (List.cons.inj (List.append_cancel_left nodes)).1
      refine differ (show SameOutcome _ _ from ?_)
      rw [id, key'.2, equal]
      exact .refl _
  | edge e =>
    obtain ⟨rfl, directed⟩ := key
    cases element' with
    | node n => cases key'.1
    | edge e' =>
      have edges := congrArg Graph.edges same
      unfold ofElements at edges
      simp only [List.filterMap_append, List.filterMap_cons, GraphElement.edge?] at edges
      have equal : e = e' := (List.cons.inj (List.append_cancel_left edges)).1
      exact differ (directed.trans ((congrArg Edge.directed equal).trans key'.2.symm))

/-- The kind of an element in hand. -/
def Pending.kind : Pending → ElementKind
  | .node _ _ => .node
  | .edge _ _ _ _ => .edge

/-- The attribute that matters of an element in hand. -/
def Pending.key : Pending → Option Deferred
  | .node id _ => id
  | .edge directed _ _ _ => directed

/-- A child changes neither kind nor key. -/
theorem Pending.kind_key_setChild (p : Pending) (field : FieldName) (value : Deferred) :
    (p.setChild field value).kind = p.kind ∧ (p.setChild field value).key = p.key := by
  cases p <;> cases field <;> exact ⟨rfl, rfl⟩

theorem Walker.kind_opened (found : List EventAttribute) (position : Nat) (kind : ElementKind) :
    (Walker.opened found position kind).kind = kind := by
  cases kind <;> rfl

theorem Walker.key_opened (found : List EventAttribute) (position : Nat) (kind : ElementKind) :
    (Walker.opened found position kind).key =
      (found.find? (·.key == kind.keyName)).map fun a => Walker.unescapeAt position a.value := by
  cases kind <;> rfl

section Meaning

variable {key source target cost : Except DecodeError (Option (List Char))}
  {element : GraphElement}

theorem hasKey_of_node (meant : (do
      let id ← key
      let cost ← cost
      return GraphElement.node (← NodeFields.toNode { id, cost })) = .ok element) :
    ∃ text, key = .ok text ∧ element.HasKey .node text := by
  obtain ⟨text, resolved, meant⟩ := exists_of_bind meant
  obtain ⟨cost, -, meant⟩ := exists_of_bind meant
  obtain ⟨n, made, meant⟩ := exists_of_bind meant
  obtain ⟨id, read, made⟩ := exists_of_bind made
  obtain ⟨cost, -, made⟩ := exists_of_bind made
  cases meant
  cases made
  exact ⟨text, resolved, rfl, read⟩

theorem hasKey_of_edge (meant : (do
      let directed ← key
      let source ← source
      let target ← target
      let cost ← cost
      return GraphElement.edge (← EdgeFields.toEdge { directed, source, target, cost })) =
        .ok element) :
    ∃ text, key = .ok text ∧ element.HasKey .edge text := by
  obtain ⟨text, resolved, meant⟩ := exists_of_bind meant
  obtain ⟨source, -, meant⟩ := exists_of_bind meant
  obtain ⟨target, -, meant⟩ := exists_of_bind meant
  obtain ⟨cost, -, meant⟩ := exists_of_bind meant
  obtain ⟨e, made, meant⟩ := exists_of_bind meant
  obtain ⟨source, -, made⟩ := exists_of_bind made
  obtain ⟨target, -, made⟩ := exists_of_bind made
  obtain ⟨cost, -, made⟩ := exists_of_bind made
  cases meant
  cases made
  exact ⟨text, resolved, rfl, rfl⟩

/-- A complete element has the key of its attribute. -/
theorem Pending.hasKey_of_meaning {p : Pending} (meant : p.meaning = .ok element) :
    ∃ text, Pending.resolve p.key = .ok text ∧ element.HasKey p.kind text := by
  cases p with
  | node id cost => exact hasKey_of_node meant
  | edge directed source target cost => exact hasKey_of_edge meant

theorem Element.hasKey_of_meaning {e : Element} {kind : ElementKind} (named : e.name = kind.tag)
    (meant : e.meaning = .ok element) :
    ∃ text, e.attribute? kind.keyName = .ok text ∧ element.HasKey kind text := by
  cases kind with
  | node =>
    unfold meaning Element.nodeFields at meant
    rw [if_pos named] at meant
    simp only [bind_assoc, pure_bind] at meant
    exact hasKey_of_node meant
  | edge =>
    have other : ¬ e.name = ElementKind.node.tag := by
      rw [named]
      decide
    unfold meaning Element.edgeFields at meant
    rw [if_neg other] at meant
    simp only [bind_assoc, pure_bind] at meant
    exact hasKey_of_edge meant

end Meaning

end GraphScribe
