import GraphScribe.Proofs.Decode.Parting
import GraphScribe.Proofs.Decode.StreamingTree
import GraphScribe.Proofs.Decode.WalkerTree

/-!
# Decoders in step

The walker and the reader of elements keep different things of an element: the one its fields, with
texts that are read as they come, the other all attributes and children, whose texts are read when
they are asked for. `InStep` says that what they keep stands for the same, and signals that
correspond keep the two in step or stop both with errors of one kind.
-/

namespace GraphScribe

open Markup

/-! ## Texts -/

theorem unescape_alike (position position' : Nat) (raw : Bytes) :
    SameOutcome (Walker.unescapeAt position raw)
      ((unescape raw).mapError fun fault => .malformed position' (.text fault)) := by
  unfold Walker.unescapeAt unescape readRaw
  cases Utf8.decode raw with
  | error fault => exact ⟨rfl, rfl⟩
  | ok text =>
    show SameOutcome ((Reference.expand text).mapError _)
      (((Reference.expand text).mapError _).mapError _)
    cases Reference.expand text with
    | error fault => exact ⟨rfl, rfl⟩
    | ok expanded => rfl

theorem readPiece_alike (position position' : Nat) (piece : Piece) :
    SameOutcome (Walker.readPieceAt position piece)
      ((RawText.readPiece piece).mapError fun fault => .malformed position' (.text fault)) := by
  cases piece with
  | text raw => exact unescape_alike position position' raw
  | verbatim raw =>
    show SameOutcome ((Utf8.decode raw).mapError _) (((Utf8.decode raw).mapError _).mapError _)
    cases Utf8.decode raw with
    | error fault => exact ⟨rfl, rfl⟩
    | ok text => rfl

/-- The text of a field goes on as the runs of its child do. -/
theorem addPiece_alike {value : Deferred} {text : RawText} (same : SameOutcome value text.resolve)
    (field : FieldName) (position : Nat) (piece : Piece) :
    SameOutcome (Walker.addPiece (field, value) (position, piece)).2
      (RawText.resolve { text with pieces := text.pieces ++ [piece] }) := by
  have more : (text.pieces ++ [piece]).mapM RawText.readPiece = (do
      let before ← text.pieces.mapM RawText.readPiece
      let last ← RawText.readPiece piece
      return before ++ [last]) := by
    rw [List.mapM_append]
    simp only [List.mapM_cons, List.mapM_nil, bind_assoc, pure_bind]
  unfold RawText.resolve at same ⊢
  rw [more]
  cases read : text.pieces.mapM RawText.readPiece with
  | error fault =>
    rw [read] at same
    cases value with
    | error e => exact same
    | ok sofar => exact same.elim
  | ok before =>
    rw [read] at same
    cases value with
    | error e => exact same.elim
    | ok sofar =>
      have sofar' : sofar = before.flatten := same
      have last := readPiece_alike position text.position piece
      have grown : (((do
          let last ← RawText.readPiece piece
          return before ++ [last]).map List.flatten).mapError fun fault =>
            DecodeError.malformed text.position (.text fault)) =
          ((RawText.readPiece piece).mapError fun fault =>
            DecodeError.malformed text.position (.text fault)).map fun raw =>
              (before ++ [raw]).flatten := by
        cases RawText.readPiece piece <;> rfl
      refine (congrArg (SameOutcome _) grown).mpr (last.map fun run raw equal => ?_)
      rw [sofar', equal, List.flatten_append, List.flatten_singleton]

/-! ## Members -/

/-- The attribute that matters of an element of a kind, as two decoders keep it: its texts mean the
same, or none of them can be read. -/
abbrev ElementKind.KeysMatch (kind : ElementKind) :
    Except DecodeError (Option (List Char)) → Except DecodeError (Option (List Char)) → Prop :=
  Alike DecodeError.Same kind.SameKey

/-- The fields found of an element are the texts that its attributes and children give. -/
def Matches : Pending → Element → Prop
  | .node id cost, e =>
    e.name = ElementKind.node.tag ∧
      ElementKind.node.KeysMatch (Pending.resolve id) (e.attribute? (Bytes.ofAscii "id")) ∧
      SameOutcome (Pending.resolve cost) (e.childText? (Bytes.ofAscii "cost"))
  | .edge directed source target cost, e =>
    e.name = ElementKind.edge.tag ∧
      ElementKind.edge.KeysMatch (Pending.resolve directed)
        (e.attribute? (Bytes.ofAscii "directed")) ∧
      SameOutcome (Pending.resolve source) (e.childText? (Bytes.ofAscii "source")) ∧
      SameOutcome (Pending.resolve target) (e.childText? (Bytes.ofAscii "target")) ∧
      SameOutcome (Pending.resolve cost) (e.childText? (Bytes.ofAscii "cost"))

/-- Nodes whose ids mean the same are the same but for that. -/
theorem toNode_alike {id id' : Option (List Char)} (same : ElementKind.node.SameKey id id')
    (cost : Option (List Char)) :
    SameOutcome (NodeFields.toNode ⟨id, cost⟩) (NodeFields.toNode ⟨id', cost⟩) := by
  have ids : SameOutcome (readRequired .node .id id) (readRequired .node .id id') := same
  exact ids.bind fun _ => .refl _

/-- Edges that are both directed or both not are the same but for that. -/
theorem toEdge_eq {directed directed' : Option (List Char)}
    (same : ElementKind.edge.SameKey directed directed') (source target cost : Option (List Char)) :
    EdgeFields.toEdge ⟨directed, source, target, cost⟩ =
      EdgeFields.toEdge ⟨directed', source, target, cost⟩ := by
  have flags : (EdgeFields.mk directed source target cost).isDirected =
      (EdgeFields.mk directed' source target cost).isDirected := same
  unfold EdgeFields.toEdge
  rw [flags]

/-- Elements in step stand for the same. -/
theorem Matches.meaning {p : Pending} {e : Element} (same : Matches p e) :
    SameOutcome p.meaning e.meaning := by
  cases p with
  | node id cost =>
    obtain ⟨named, ids, costs⟩ := same
    unfold Element.meaning Element.nodeFields
    rw [if_pos named]
    simp only [bind_assoc, pure_bind]
    exact ids.bind fun _ _ id => costs.bind fun cost => (toNode_alike id cost).bind fun _ => .refl _
  | edge directed source target cost =>
    obtain ⟨named, directeds, sources, targets, costs⟩ := same
    have other : ¬ e.name = ElementKind.node.tag := by
      rw [named]
      decide
    unfold Element.meaning Element.edgeFields
    rw [if_neg other]
    simp only [bind_assoc, pure_bind]
    refine directeds.bind fun _ _ directed => sources.bind fun source => targets.bind fun target =>
      costs.bind fun cost => ?_
    dsimp only
    rw [toEdge_eq directed]
    exact .refl _

theorem childText?_close (e : Element) (name wanted : Bytes) (text : RawText) :
    ({ e with children := (name, text) :: e.children } : Element).childText? wanted =
      if name = wanted then text.resolve.map some else e.childText? wanted := by
  unfold Element.childText?
  dsimp only
  rw [List.lookup_cons]
  by_cases same : name = wanted
  · rw [if_pos same, same, beq_self_eq_true]
  · rw [if_neg same, beq_false_of_ne (Ne.symm same)]

section Children

variable {e : Element} {name wanted : Bytes} {text : RawText} {value : Deferred}
  {old : Option Deferred}

/-- A complete child has the text of its name. -/
theorem childText?_closed (same : SameOutcome value text.resolve) (e : Element) (name : Bytes) :
    SameOutcome (Pending.resolve (some value))
      (({ e with children := (name, text) :: e.children } : Element).childText? name) := by
  rw [childText?_close, if_pos rfl]
  exact same.map fun _ _ equal => congrArg some equal

/-- A child leaves the texts of other names alone. -/
theorem childText?_other (same : SameOutcome (Pending.resolve old) (e.childText? wanted))
    (other : name ≠ wanted) (text : RawText) :
    SameOutcome (Pending.resolve old)
      (({ e with children := (name, text) :: e.children } : Element).childText? wanted) := by
  rw [childText?_close, if_neg other]
  exact same

/-- A child that stands for no field changes no field. -/
theorem Matches.pass {p : Pending} (same : Matches p e) (passed : p.childField? name = none)
    (text : RawText) : Matches p { e with children := (name, text) :: e.children } := by
  cases p with
  | node id cost =>
    obtain ⟨named, ids, costs⟩ := same
    unfold Pending.childField? at passed
    dsimp only at passed
    split at passed
    · cases passed
    · next notCost => exact ⟨named, ids, childText?_other costs notCost text⟩
  | edge directed source target cost =>
    obtain ⟨named, directeds, sources, targets, costs⟩ := same
    unfold Pending.childField? at passed
    dsimp only at passed
    split at passed
    · cases passed
    · next notCost =>
      split at passed
      · cases passed
      · next notSource =>
        split at passed
        · cases passed
        · next notTarget =>
          exact ⟨named, directeds, childText?_other sources notSource text,
            childText?_other targets notTarget text, childText?_other costs notCost text⟩

/-- A child that stands for a field has the text of the field. -/
theorem Matches.close {p : Pending} {field : FieldName} (same : Matches p e)
    (stands : p.childField? name = some field) (texts : SameOutcome value text.resolve) :
    Matches (p.setChild field value) { e with children := (name, text) :: e.children } := by
  have distinct : Bytes.ofAscii "source" ≠ Bytes.ofAscii "cost" ∧
      Bytes.ofAscii "target" ≠ Bytes.ofAscii "cost" ∧
      Bytes.ofAscii "target" ≠ Bytes.ofAscii "source" := by decide
  obtain ⟨sourceCost, targetCost, targetSource⟩ := distinct
  cases p with
  | node id cost =>
    obtain ⟨named, ids, costs⟩ := same
    unfold Pending.childField? at stands
    dsimp only at stands
    split at stands
    · next isCost =>
      cases stands
      subst isCost
      exact ⟨named, ids, childText?_closed texts e _⟩
    · cases stands
  | edge directed source target cost =>
    obtain ⟨named, directeds, sources, targets, costs⟩ := same
    unfold Pending.childField? at stands
    dsimp only at stands
    split at stands
    · next isCost =>
      cases stands
      subst isCost
      exact ⟨named, directeds, childText?_other sources sourceCost.symm text,
        childText?_other targets targetCost.symm text, childText?_closed texts e _⟩
    · split at stands
      · next isSource =>
        cases stands
        subst isSource
        exact ⟨named, directeds, childText?_closed texts e _,
          childText?_other targets targetSource.symm text,
          childText?_other costs sourceCost text⟩
      · split at stands
        · next isTarget =>
          cases stands
          subst isTarget
          exact ⟨named, directeds, childText?_other sources targetSource text,
            childText?_closed texts e _, childText?_other costs targetCost text⟩
        · cases stands

end Children

/-- The tag that tokens find where events find `tag`. -/
def tokenTag (position : Nat) (tag : Tag) : StartTag :=
  ⟨position, tag.name, tag.content.drop tag.nameLength⟩

/-- The text of an attribute, as the walker keeps it and as the reader of elements finds it. -/
theorem attribute?_eq_mapM (e : Element) (name : Bytes) :
    e.attribute? name = ((e.attributes.lookup name).mapM unescape).mapError fun fault =>
      .malformed e.position (.text fault) := by
  unfold Element.attribute?
  cases e.attributes.lookup name with
  | none => rfl
  | some raw =>
    show _ = ((unescape raw).map some).mapError _
    rfl

theorem resolve_attribute_alike (position position' : Nat) (raw : Option Bytes) :
    SameOutcome (Pending.resolve (raw.map (Walker.unescapeAt position)))
      ((raw.mapM unescape).mapError fun fault => .malformed position' (.text fault)) := by
  cases raw with
  | none => rfl
  | some raw =>
    show SameOutcome ((Walker.unescapeAt position raw).map some)
      (((unescape raw).map some).mapError _)
    rw [ElementReader.mapError_map]
    exact (unescape_alike position position' raw).map fun _ _ equal => congrArg some equal

/-- The texts that both decoders keep of an attribute mean the same if its values do. -/
theorem keysMatch_iff {found : List EventAttribute} {e : Element} {kind : ElementKind}
    (position : Nat) :
    kind.KeysMatch
        (Pending.resolve ((found.find? (·.key == kind.keyName)).map fun a =>
          Walker.unescapeAt position a.value)) (e.attribute? kind.keyName) ↔
      Alike (fun _ _ => True) kind.SameKey
        (((found.find? (·.key == kind.keyName)).map (·.value)).mapM unescape)
        ((e.attributes.lookup kind.keyName).mapM unescape) := by
  have first := resolve_attribute_alike position e.position
    ((found.find? (·.key == kind.keyName)).map (·.value))
  rw [Option.map_map] at first
  rw [attribute?_eq_mapM]
  exact first.alike_iff.trans (Alike.mapError_iff fun _ _ => iff_of_true ⟨rfl, rfl⟩ trivial)

/-- Members begin in step. -/
theorem opened_matches {found : List EventAttribute} {others : List Attribute} {kind : ElementKind}
    {name : Bytes} (named : Walker.kindOf? name = some kind)
    (same : Alike (fun _ _ => True) kind.SameKey
      (((found.find? (·.key == kind.keyName)).map (·.value)).mapM unescape)
      ((others.lookup kind.keyName).mapM unescape)) (position position' : Nat) :
    Matches (Walker.opened found position kind) ⟨name, position', others, []⟩ := by
  have tag := tag_of_kindOf? named
  have keys := (@keysMatch_iff found ⟨name, position', others, []⟩ kind position).2 same
  cases kind with
  | node => exact ⟨tag, keys, rfl⟩
  | edge => exact ⟨tag, keys, rfl, rfl, rfl⟩

theorem begin?_eq (tag : StartTag) :
    ElementReader.collector.begin? tag =
      (Walker.kindOf? tag.name).map fun _ =>
        (ElementReader.dialect.attributes tag).map fun attributes =>
          ⟨tag.name, tag.position, attributes, []⟩ := by
  refine (ElementReader.beginMember?_eq tag).trans ?_
  rw [ElementReader.dialect.kind?_eq]
  rfl

/-- Both decoders take up a member, pass over another element, or find a fault in the attributes,
if they agree on the attribute that matters. -/
theorem begin_cases (position position' : Nat) {tag : Tag}
    (same : ∀ kind, Walker.kindOf? tag.name = some kind →
      tag.SameKey kind) :
    (Walker.collector.begin? (position, tag) = none ∧
      ElementReader.collector.begin? (tokenTag position' tag) = none) ∨
        ∃ begun begun', Walker.collector.begin? (position, tag) = some begun ∧
          ElementReader.collector.begin? (tokenTag position' tag) = some begun' ∧
          Alike DecodeError.Same Matches begun begun' := by
  have begun : Walker.collector.begin? (position, tag) =
      (Walker.kindOf? tag.name).map fun kind => Walker.openElement kind tag position := rfl
  have begun' := begin?_eq (tokenTag position' tag)
  cases named : Walker.kindOf? tag.name with
  | none =>
    rw [show Walker.kindOf? (tokenTag position' tag).name = none from named] at begun'
    rw [named] at begun
    exact .inl ⟨begun, begun'⟩
  | some kind =>
    rw [show Walker.kindOf? (tokenTag position' tag).name = some kind from named] at begun'
    rw [named] at begun
    refine .inr ⟨_, _, begun, begun', ?_⟩
    have value := same kind named
    unfold Tag.SameKey at value
    show Alike _ _ (Walker.openElement kind tag position)
      (((Attribute.readAll (tag.content.drop tag.nameLength)).mapError fun fault =>
        DecodeError.malformed position' (.attribute fault)).map fun attributes =>
          Element.mk tag.name position' attributes [])
    rw [Walker.openElement_eq]
    cases read : EventAttribute.readAll tag.content tag.nameLength with
    | error fault =>
      cases read' : Attribute.readAll (tag.content.drop tag.nameLength) with
      | error fault' => exact ⟨rfl, rfl⟩
      | ok others =>
        rw [read, read'] at value
        exact value.elim
    | ok found =>
      cases read' : Attribute.readAll (tag.content.drop tag.nameLength) with
      | error fault' =>
        rw [read, read'] at value
        exact value.elim
      | ok others =>
        rw [read, read'] at value
        exact opened_matches named value position position'

/-! ## States -/

/-- What both decoders have in hand: nothing; an element; or an element and a child of it, which
the walker keeps only if it stands for a field. -/
inductive Held :
    Option Pending → Option (FieldName × Deferred) → Option Element → Option (Bytes × RawText) →
      Prop where
  | nothing : Held none none none none
  | member {p : Pending} {e : Element} : Matches p e → Held (some p) none (some e) none
  | passed {p : Pending} {e : Element} {name : Bytes} {text : RawText} :
    Matches p e → p.childField? name = none → Held (some p) none (some e) (some (name, text))
  | child {p : Pending} {e : Element} {name : Bytes} {text : RawText} {field : FieldName}
      {value : Deferred} :
    Matches p e → p.childField? name = some field → SameOutcome value text.resolve →
    Held (some p) (some (field, value)) (some e) (some (name, text))

/-- The decoders are in step. -/
structure InStep (p : Progress Pending (FieldName × Deferred))
    (s : Progress Element (Bytes × RawText)) : Prop where
  depth : p.depth = s.depth
  sawRoot : p.sawRoot = s.sawRoot
  elements : p.elements = s.elements
  held : Held p.pending p.field s.pending s.field
  childless : p.depth ≤ 2 → p.field = none ∧ s.field = none

namespace InStep

variable {p : Progress Pending (FieldName × Deferred)} {s : Progress Element (Bytes × RawText)}

/-- At the end of a document the decoders give the same. -/
theorem result (same : InStep p s) : SameOutcome p.result.graph s.result.graph := by
  obtain ⟨depth, sawRoot, elements, -, -⟩ := same
  unfold Progress.result Progress.stopped
  rw [depth, sawRoot, elements]
  exact .refl _

/-- Character data keeps the decoders in step. -/
theorem data (same : InStep p s) (position : Nat) (piece : Piece) :
    InStep (Walker.collector.data p (position, piece)) (ElementReader.collector.data s piece) := by
  by_cases direct : p.depth = 3
  · obtain ⟨depth, sawRoot, elements, pending, field⟩ := p
    obtain ⟨depth', sawRoot', elements', pending', field'⟩ := s
    obtain ⟨depths, roots, results, held, -⟩ := same
    cases depths
    cases direct
    cases held with
    | nothing => exact ⟨rfl, roots, results, .nothing, fun shallow => ⟨rfl, rfl⟩⟩
    | member matching => exact ⟨rfl, roots, results, .member matching, fun shallow => ⟨rfl, rfl⟩⟩
    | passed matching passes =>
      rw [Collector.data_direct (C := ElementReader.collector) rfl rfl]
      exact ⟨rfl, roots, results, .passed matching passes, fun shallow : 3 ≤ 2 => by omega⟩
    | @child _ _ _ _ field value matching stands texts =>
      have added := addPiece_alike texts field position piece
      have kept : Walker.collector.add (field, value) (position, piece) =
          (field, (Walker.addPiece (field, value) (position, piece)).2) := by
        cases value <;> rfl
      rw [Collector.data_direct (C := Walker.collector) rfl rfl, kept,
        Collector.data_direct (C := ElementReader.collector) rfl rfl]
      exact ⟨rfl, roots, results, .child matching stands added, fun shallow : 3 ≤ 2 => by omega⟩
  · rw [Collector.data_elsewhere direct, Collector.data_elsewhere (same.depth ▸ direct)]
    exact same

/-- The end of an element keeps the decoders in step, or stops both. -/
theorem leave (same : InStep p s) :
    Alike DecodeError.Same InStep (Walker.collector.leave p) (ElementReader.collector.leave s) := by
  obtain ⟨depth, sawRoot, elements, pending, field⟩ := p
  obtain ⟨depth', sawRoot', elements', pending', field'⟩ := s
  obtain ⟨depths, roots, results, held, childless⟩ := same
  cases depths
  dsimp only at roots results held childless
  match depth with
  | 0 => exact ⟨rfl, roots, results, held, fun _ => childless (by omega)⟩
  | 1 => exact ⟨rfl, roots, results, held, fun _ => childless (by omega)⟩
  | 2 =>
    obtain ⟨rfl, rfl⟩ := childless (Nat.le_refl 2)
    cases held with
    | nothing => exact ⟨rfl, roots, results, .nothing, fun _ => ⟨rfl, rfl⟩⟩
    | member matching =>
      rw [Collector.leave_member (C := Walker.collector) rfl rfl,
        Collector.leave_member (C := ElementReader.collector) rfl rfl]
      refine matching.meaning.map fun element element' equal => ?_
      exact ⟨rfl, roots, equal ▸ results ▸ rfl, .nothing, fun _ => ⟨rfl, rfl⟩⟩
  | 3 =>
    cases held with
    | nothing => exact ⟨rfl, roots, results, .nothing, fun _ => ⟨rfl, rfl⟩⟩
    | member matching => exact ⟨rfl, roots, results, .member matching, fun _ => ⟨rfl, rfl⟩⟩
    | passed matching passes =>
      exact ⟨rfl, roots, results, .member (matching.pass passes _), fun _ => ⟨rfl, rfl⟩⟩
    | child matching stands texts =>
      exact ⟨rfl, roots, results, .member (matching.close stands texts), fun _ => ⟨rfl, rfl⟩⟩
  | depth + 4 =>
    exact ⟨rfl, roots, results, held, fun shallow : depth + 3 ≤ 2 => by omega⟩

/-- A start tag keeps the decoders in step, or stops both, if they read alike what matters of its
attributes where members begin, and its name where fields begin. -/
theorem enter (same : InStep p s) {tag : Nat × Tag} {tag' : StartTag}
    (named : p.depth = 2 → ∀ member : Pending,
      member.childField? tag.2.name = member.childField? tag'.name)
    (begins : p.depth = 1 →
      (Walker.collector.begin? tag = none ∧ ElementReader.collector.begin? tag' = none) ∨
        ∃ begun begun', Walker.collector.begin? tag = some begun ∧
          ElementReader.collector.begin? tag' = some begun' ∧
          Alike DecodeError.Same Matches begun begun') :
    Alike DecodeError.Same InStep (Walker.collector.enter p tag)
      (ElementReader.collector.enter s tag') := by
  obtain ⟨depth, sawRoot, elements, pending, field⟩ := p
  obtain ⟨depth', sawRoot', elements', pending', field'⟩ := s
  obtain ⟨depths, roots, results, held, childless⟩ := same
  cases depths
  dsimp only at roots results held childless begins
  match depth with
  | 0 => exact ⟨rfl, rfl, results, held, fun _ => childless (by omega)⟩
  | 1 =>
    obtain ⟨rfl, rfl⟩ := childless (Nat.le_succ 1)
    rcases begins rfl with ⟨none, none'⟩ | ⟨begun, begun', taken, taken', alike⟩
    · unfold Collector.enter
      dsimp only
      rw [none, none']
      exact ⟨rfl, roots, results, held, fun _ => ⟨rfl, rfl⟩⟩
    · rw [Collector.enter_member (C := Walker.collector) rfl taken,
        Collector.enter_member (C := ElementReader.collector) rfl taken']
      refine alike.map fun member member' matching => ?_
      exact ⟨rfl, roots, results, .member matching, fun _ => ⟨rfl, rfl⟩⟩
  | 2 =>
    obtain ⟨rfl, rfl⟩ := childless (Nat.le_refl 2)
    cases held with
    | nothing => exact ⟨rfl, roots, results, .nothing, fun _ => ⟨rfl, rfl⟩⟩
    | @member member _ matching =>
      rw [Collector.enter_child (C := Walker.collector) rfl rfl,
        Collector.enter_child (C := ElementReader.collector) rfl rfl]
      have kept : Walker.collector.child? member tag =
          (member.childField? tag'.name).map (·, .ok []) := by
        rw [← named rfl]
        rfl
      rw [kept]
      cases stands : member.childField? tag'.name with
      | none =>
        exact ⟨rfl, roots, results, .passed matching stands, fun shallow : 3 ≤ 2 => by omega⟩
      | some field =>
        exact ⟨rfl, roots, results, .child matching stands rfl, fun shallow : 3 ≤ 2 => by omega⟩
  | depth + 3 =>
    exact ⟨rfl, roots, results, held, fun shallow : depth + 4 ≤ 2 => by omega⟩

end InStep

end GraphScribe
