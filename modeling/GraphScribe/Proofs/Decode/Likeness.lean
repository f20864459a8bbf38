import GraphScribe.Proofs.Decode.Places
import GraphScribe.Proofs.Decode.Simulation

/-!
# Places that cannot be told apart

What the reader of elements keeps of an element besides its name, its attributes and the children
that it looks up does not matter, nor where in the document these stand. `Place.Like` relates places
that agree in all else: from such places on, the same bytes give the same graph, or errors of one
kind and field.

* `Collector.enter_alike`, `Collector.leave_alike`, `Collector.data_alike`: one signal.
* `Place.read_alike`: one construct.
* `Place.run_alike`: all that is left of a document.
-/

namespace GraphScribe

open Markup

/-- The children that are looked up in an element with a name. -/
def ElementKind.fieldNames (name : Bytes) : List Bytes :=
  if name = node.tag then [Bytes.ofAscii "cost"]
  else if name = edge.tag then
    [Bytes.ofAscii "source", Bytes.ofAscii "target", Bytes.ofAscii "cost"]
  else []

/-! ## Elements -/

/-- The elements stand for the same: what is looked up in them is the same but for its position. -/
structure Element.Like (e e' : Element) : Prop where
  asked : e.name ∈ ElementKind.tags
  name : e'.name = e.name
  attributes : e'.attributes = e.attributes
  children : ∀ wanted ∈ ElementKind.fieldNames e.name,
    (e'.children.lookup wanted).map RawText.pieces = (e.children.lookup wanted).map RawText.pieces

/-- The children have one name and the same character data. -/
def RawText.LikeChild (child child' : Bytes × RawText) : Prop :=
  child'.1 = child.1 ∧ child'.2.pieces = child.2.pieces

namespace Element

variable {e e' : Element}

theorem Like.refl (asked : e.name ∈ ElementKind.tags) : e.Like e :=
  ⟨asked, rfl, rfl, fun _ _ => rfl⟩

theorem attribute?_alike_of_attributes (same : e'.attributes = e.attributes) (wanted : Bytes) :
    SameOutcome (e.attribute? wanted) (e'.attribute? wanted) := by
  unfold attribute?
  rw [same]
  cases e.attributes.lookup wanted with
  | none => rfl
  | some raw =>
    dsimp only
    cases unescape raw with
    | error fault => exact ⟨rfl, rfl⟩
    | ok text => rfl

theorem resolve_alike {text text' : RawText} (same : text'.pieces = text.pieces) :
    SameOutcome text.resolve text'.resolve := by
  unfold RawText.resolve
  rw [same]
  cases text.pieces.mapM RawText.readPiece with
  | error fault => exact ⟨rfl, rfl⟩
  | ok texts => rfl

theorem Like.childText?_alike (alike : e.Like e') (wanted : Bytes)
    (field : wanted ∈ ElementKind.fieldNames e.name) :
    SameOutcome (e.childText? wanted) (e'.childText? wanted) := by
  have same := alike.children wanted field
  unfold childText?
  cases found : e.children.lookup wanted with
  | none =>
    rw [found] at same
    rw [Option.map_eq_none_iff.1 same]
    rfl
  | some text =>
    rw [found] at same
    obtain ⟨text', found', pieces⟩ := Option.map_eq_some_iff.1 same
    rw [found']
    exact (resolve_alike pieces).map fun _ _ equal => congrArg some equal

/-- Elements that are alike stand for the same node or edge. -/
theorem Like.meaning (alike : e.Like e') : SameOutcome e.meaning e'.meaning := by
  have attributes := attribute?_alike_of_attributes alike.attributes
  unfold Element.meaning
  rw [alike.name]
  by_cases node : e.name = ElementKind.node.tag
  · have fields : ElementKind.fieldNames e.name = [Bytes.ofAscii "cost"] := if_pos node
    have cost := alike.childText?_alike (Bytes.ofAscii "cost") (by simp [fields])
    rw [if_pos node, if_pos node]
    unfold nodeFields
    simp only [bind_assoc, pure_bind]
    exact (attributes _).bind fun id => cost.bind fun cost => .refl _
  · have edge : e.name = ElementKind.edge.tag :=
      List.mem_singleton.1 ((List.mem_cons.1 alike.asked).resolve_left node)
    have fields : ElementKind.fieldNames e.name =
        [Bytes.ofAscii "source", Bytes.ofAscii "target", Bytes.ofAscii "cost"] :=
      (if_neg node).trans (if_pos edge)
    have source := alike.childText?_alike (Bytes.ofAscii "source") (by simp [fields])
    have target := alike.childText?_alike (Bytes.ofAscii "target") (by simp [fields])
    have cost := alike.childText?_alike (Bytes.ofAscii "cost") (by simp [fields])
    rw [if_neg node, if_neg node]
    unfold edgeFields
    simp only [bind_assoc, pure_bind]
    exact (attributes _).bind fun directed => source.bind fun source =>
      target.bind fun target => cost.bind fun cost => .refl _

/-- One more child keeps elements alike. -/
theorem Like.close (alike : e.Like e') {child child' : Bytes × RawText}
    (same : RawText.LikeChild child child') :
    ({ e with children := child :: e.children } : Element).Like
      { e' with children := child' :: e'.children } := by
  obtain ⟨name, text⟩ := child
  obtain ⟨_, text'⟩ := child'
  obtain ⟨rfl, pieces⟩ := same
  refine ⟨alike.asked, alike.name, alike.attributes, fun wanted field => ?_⟩
  show ((List.lookup wanted (_ :: e'.children)).map _) =
    ((List.lookup wanted (_ :: e.children)).map _)
  rw [List.lookup_cons, List.lookup_cons]
  cases wanted == _ with
  | true => exact congrArg some pieces
  | false => exact alike.children wanted field

/-- A child that is not looked up changes nothing. -/
theorem Like.close_unread (asked : e.name ∈ ElementKind.tags) {name : Bytes}
    (unread : name ∉ ElementKind.fieldNames e.name) (text : RawText) :
    e.Like { e with children := (name, text) :: e.children } := by
  refine ⟨asked, rfl, rfl, fun wanted field => ?_⟩
  have other : wanted ≠ name := fun same => unread (same ▸ field)
  show ((List.lookup wanted ((name, text) :: e.children)).map _) = _
  rw [List.lookup_cons, beq_false_of_ne other]

end Element

/-! ## What was collected -/

/-- The same was collected, up to what does not matter of the member and the child in hand. -/
structure Progress.Like (s s' : Progress Element (Bytes × RawText)) : Prop where
  depth : s'.depth = s.depth
  sawRoot : s'.sawRoot = s.sawRoot
  elements : s'.elements = s.elements
  pending : Option.Rel Element.Like s.pending s'.pending
  field : Option.Rel RawText.LikeChild s.field s'.field

theorem Progress.like_iff {s s' : Progress Element (Bytes × RawText)} :
    s.Like s' ↔ Progress.Rel Element.Like RawText.LikeChild s s' :=
  ⟨fun alike => ⟨alike.depth, alike.sawRoot, alike.elements, alike.pending, alike.field⟩,
    fun same => ⟨same.depth, same.sawRoot, same.elements, same.pending, same.field⟩⟩

/-- Outcomes that are errors of one kind and field, or progress that is alike. -/
abbrev AlikeProgress : Except DecodeError (Progress Element (Bytes × RawText)) →
    Except DecodeError (Progress Element (Bytes × RawText)) → Prop :=
  Alike DecodeError.Same Progress.Like

namespace Collector

open ElementReader (collector)

variable {s s' : Progress Element (Bytes × RawText)}

theorem begin?_alike {tag tag' : StartTag} (name : tag'.name = tag.name)
    (attributes : tag'.attributes = tag.attributes) :
    Option.Rel (Alike DecodeError.Same Element.Like) (collector.begin? tag)
      (collector.begin? tag') := by
  show Option.Rel _ (ElementReader.beginMember? tag) (ElementReader.beginMember? tag')
  unfold ElementReader.beginMember?
  rw [name, attributes]
  cases asked : ElementKind.tags.contains tag.name with
  | false => exact .none
  | true =>
    refine .some ?_
    cases Attribute.readAll tag.attributes with
    | error fault => exact ⟨rfl, rfl⟩
    | ok read => exact ⟨List.contains_iff_mem.1 asked, rfl, rfl, fun _ _ => rfl⟩

/-- Two readers of elements keep to what is alike. -/
theorem simulates : collector.Simulates collector
    (fun tag tag' => tag'.name = tag.name ∧ tag'.attributes = tag.attributes) Eq Element.Like
    RawText.LikeChild where
  begins same := begin?_alike same.1 same.2
  child _ same := .some ⟨same.1, rfl⟩
  add := by
    rintro _ _ piece _ ⟨name, pieces⟩ rfl
    exact ⟨name, congrArg (· ++ [piece]) pieces⟩
  close alike same := alike.close same
  meaning alike := alike.meaning

theorem enter_alike (alike : s.Like s') {tag tag' : StartTag} (name : tag'.name = tag.name)
    (attributes : tag'.attributes = tag.attributes) :
    AlikeProgress (collector.enter s tag) (collector.enter s' tag') :=
  (simulates.enter (Progress.like_iff.1 alike) ⟨name, attributes⟩).imp
    fun _ _ => Progress.like_iff.2

theorem leave_alike (alike : s.Like s') :
    AlikeProgress (collector.leave s) (collector.leave s') :=
  (simulates.leave (Progress.like_iff.1 alike)).imp fun _ _ => Progress.like_iff.2

theorem data_alike (alike : s.Like s') (piece : Piece) :
    (collector.data s piece).Like (collector.data s' piece) :=
  Progress.like_iff.2 (simulates.data (Progress.like_iff.1 alike) rfl)

end Collector

/-- At the end of a document the same is found. -/
theorem Progress.Like.result {s s' : Progress Element (Bytes × RawText)} (alike : s.Like s') :
    SameOutcome s.result.graph s'.result.graph := by
  unfold Progress.result Progress.stopped
  rw [alike.depth, alike.sawRoot, alike.elements]
  exact .refl _

/-! ## Places -/

namespace Place

open ElementReader (collector)

/-- The reader goes on from the places alike: the same elements are open, and the same was
collected. -/
structure Like (p p' : Place) : Prop where
  openNames : p'.openNames = p.openNames
  progress : p.progress.Like p'.progress

/-- Outcomes that are errors of one kind and field, or places that are alike. -/
abbrev AlikePlace : Except DecodeError Place → Except DecodeError Place → Prop :=
  Alike DecodeError.Same Like

variable {p p' : Place}

theorem enter_alike (alike : p.Like p') (stop stop' : Nat) (name attributes : Bytes)
    (isEmpty : Bool) :
    AlikePlace (p.enter stop name attributes isEmpty) (p'.enter stop' name attributes isEmpty) := by
  have entered : AlikeProgress (collector.enter p.progress ⟨p.start, name, attributes⟩)
      (collector.enter p'.progress ⟨p'.start, name, attributes⟩) :=
    Collector.enter_alike alike.progress rfl rfl
  unfold enter
  rw [alike.openNames]
  refine entered.bind fun opened opened' same => ?_
  cases isEmpty with
  | false => exact ⟨rfl, same⟩
  | true => exact (Collector.leave_alike same).map fun _ _ same => ⟨rfl, same⟩

theorem leave_alike (alike : p.Like p') (stop stop' : Nat) (name : Bytes) :
    AlikePlace (p.leave stop name) (p'.leave stop' name) := by
  unfold leave
  rw [alike.openNames]
  cases p.openNames with
  | nil => exact ⟨rfl, rfl⟩
  | cons expected others =>
    dsimp only
    split
    · exact (Collector.leave_alike alike.progress).map fun _ _ same => ⟨rfl, same⟩
    · exact ⟨rfl, rfl⟩

/-- A construct leads from places that are alike to such places, or is refused in both. -/
theorem read_alike (alike : p.Like p') (stop stop' : Nat) (construct : Construct) :
    AlikePlace (p.read stop construct) (p'.read stop' construct) := by
  rcases construct with (⟨name, attributes, isEmpty⟩ | name | piece) | _
  · exact enter_alike alike stop stop' name attributes isEmpty
  · exact leave_alike alike stop stop' name
  · exact ⟨alike.openNames, Collector.data_alike alike.progress piece⟩
  · exact alike

theorem faultError_alike (p p' : Place) (offset offset' : Nat) (fault : ConstructFault) :
    DecodeError.Same (p.faultError offset fault) (p'.faultError offset' fault) := by
  cases fault <;> exact ⟨rfl, rfl⟩

/-- From places that are alike, the same bytes give the same. The induction is on the bytes. -/
theorem run_alike (alike : p.Like p') {c c' : Cursor} (same : c'.rest = c.rest) :
    SameOutcome (p.run c) (p'.run c') := by
  induction length : c.rest.length using Nat.strongRecOn generalizing p p' c c' with
  | ind length ih =>
    cases left : c.rest with
    | nil =>
      rw [run_of_nil left, run_of_nil (same.trans left)]
      exact alike.progress.result
    | cons b rest =>
      have left' := same.trans left
      rcases constructed : readConstruct (b :: rest) with fault | ⟨construct, n⟩
      · rw [run_of_fault left constructed, run_of_fault left' constructed]
        exact faultError_alike p p' c.position c'.position fault
      · rw [run_of_construct left constructed, run_of_construct left' constructed]
        refine (read_alike alike _ _ construct).bind fun q q' next => ih _ ?_ next ?_ rfl
        · have pos := readConstruct_pos constructed
          rw [Cursor.advance_length, ← length, left, List.length_cons]
          omega
        · simp only [Cursor.advance, same]

end Place
end GraphScribe
