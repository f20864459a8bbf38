import GraphScribe.Decode.Decoded
import GraphScribe.Decode.Fields
import GraphScribe.Decode.Streaming
import GraphScribe.Proofs.Markup.Forest

/-!
# What a forest of markup stands for

The elements that count are the node and edge elements directly in a top-level element, its
*members*. A member has the attribute and the children that its kind looks for; of several children
with one name the last one counts, and its text is the character data that lies directly in it. A
`Dialect` says how tags and character data are read, so that forests of tokens and forests of
events have their meaning from the same definitions.

A document means the graph of its members, or the first error among them, or the error that says
how it ends.
-/

namespace GraphScribe

open Markup

/-- How tags and character data are read. -/
structure Dialect (τ δ : Type) where
  /-- The name in a tag. -/
  name : τ → Bytes
  /-- The attributes in a tag, with their values as they stand there. -/
  attributes : τ → Except DecodeError (List Attribute)
  /-- The text of an attribute's value in a tag. -/
  value : τ → Bytes → Except DecodeError (List Char)
  /-- The text of character data directly in the element of a tag. -/
  text : τ → δ → Except DecodeError (List Char)

variable {τ δ : Type}

namespace Dialect

variable (D : Dialect τ δ)

/-- The kind of member that a tag opens. -/
def kind? (tag : τ) : Option ElementKind :=
  [.node, .edge].find? (·.tag = D.name tag)

theorem kind?_eq (tag : τ) :
    D.kind? tag =
      if D.name tag = ElementKind.node.tag then some .node
      else if D.name tag = ElementKind.edge.tag then some .edge
      else none := by
  unfold kind?
  rw [List.find?_cons, List.find?_cons]
  by_cases node : ElementKind.node.tag = D.name tag
  · rw [decide_eq_true node, if_pos node.symm]
  · rw [decide_eq_false node, if_neg (Ne.symm node)]
    by_cases edge : ElementKind.edge.tag = D.name tag
    · rw [decide_eq_true edge, if_pos edge.symm]
    · rw [decide_eq_false edge, if_neg (Ne.symm edge)]
      rfl

theorem kind?_cases (tag : τ) :
    (D.name tag = ElementKind.node.tag ∧ D.kind? tag = some .node) ∨
      (D.name tag ≠ ElementKind.node.tag ∧ D.name tag = ElementKind.edge.tag ∧
        D.kind? tag = some .edge) ∨
      (D.name tag ∉ ElementKind.tags ∧ D.kind? tag = none) := by
  rw [kind?_eq]
  by_cases node : D.name tag = ElementKind.node.tag
  · exact .inl ⟨node, if_pos node⟩
  · rw [if_neg node]
    by_cases edge : D.name tag = ElementKind.edge.tag
    · exact .inr (.inl ⟨node, edge, if_pos edge⟩)
    · refine .inr (.inr ⟨fun named => ?_, if_neg edge⟩)
      rcases List.mem_cons.1 named with node' | edge'
      · exact node node'
      · exact edge (List.mem_singleton.1 edge')

/-- The text of an attribute, if it is there. -/
def attributeText? (tag : τ) (attributes : List Attribute) (name : String) :
    Except DecodeError (Option (List Char)) :=
  match attributes.lookup (Bytes.ofAscii name) with
  | none => .ok none
  | some raw => (D.value tag raw).map some

/-- The last child with a name. -/
def lastChild? (content : Forest τ δ) (name : Bytes) : Option (τ × Forest τ δ) :=
  (content.branches.filter (D.name ·.1 == name)).getLast?

/-- The text of the last child with a name, if there is one: its direct character data, in order,
up to the first fault. -/
def childText? (content : Forest τ δ) (name : String) : Except DecodeError (Option (List Char)) :=
  match D.lastChild? content (Bytes.ofAscii name) with
  | none => .ok none
  | some (tag, inner) => (inner.pieces.mapM (D.text tag)).map fun texts => some texts.flatten

/-- The node or edge that a member stands for. Its attribute list is read first, then its texts,
then the numbers in them, and the first fault decides the error. -/
def meaning (kind : ElementKind) (tag : τ) (content : Forest τ δ) :
    Except DecodeError GraphElement := do
  let attributes ← D.attributes tag
  match kind with
  | .node =>
    let id ← D.attributeText? tag attributes "id"
    let cost ← D.childText? content "cost"
    let id ← readRequired .node .id id
    let cost ← readCost .node cost
    return .node { id, cost }
  | .edge =>
    let directed ← D.attributeText? tag attributes "directed"
    let source ← D.childText? content "source"
    let target ← D.childText? content "target"
    let cost ← D.childText? content "cost"
    let source ← readRequired .edge .source source
    let target ← readRequired .edge .target target
    let cost ← readCost .edge cost
    return .edge { source, target, cost, directed := directed = some "yes".toList }

theorem directed_eq (text : Option (List Char)) :
    (text == some "yes".toList) = decide (text = some "yes".toList) :=
  Bool.eq_iff_iff.2 (beq_iff_eq.trans decide_eq_true_iff.symm)

/-- What an element stands for where members are, if it is one. -/
def meaning? (tag : τ) (content : Forest τ δ) : Option (Except DecodeError GraphElement) :=
  (D.kind? tag).map (D.meaning · tag content)

/-- The fault in the tag of a member, which is an error before the member ends. -/
def openFault? (tag : τ) : Option DecodeError :=
  match D.kind? tag, D.attributes tag with
  | some _, .error e => some e
  | _, _ => none

end Dialect

/-! ## Members -/

/-- What elements stand for, in document order. -/
abbrev Results := List (Except DecodeError GraphElement)

namespace Markup.Forest

variable (meaning? : τ → Forest τ δ → Option (Except DecodeError GraphElement))

/-- What the members in the content of a top-level element stand for. -/
def members (f : Forest τ δ) : Results :=
  f.branches.filterMap fun (tag, content) => meaning? tag content

theorem members_element (tag : τ) (content others : Forest τ δ) :
    (element tag content others).members meaning? =
      (meaning? tag content).toList ++ others.members meaning? := by
  unfold members
  rw [branches, List.filterMap_cons]
  dsimp only
  cases meaning? tag content with
  | none => rfl
  | some result => rfl

/-- What all members of a document stand for. -/
def rootMembers (f : Forest τ δ) : Results :=
  f.branches.flatMap fun (_, content) => content.members meaning?

end Markup.Forest

namespace Markup.Outline

/-- What the members before a place in a document stand for. The member that is open there counts
only with a fault in its tag. -/
def members (meaning? : τ → Forest τ δ → Option (Except DecodeError GraphElement))
    (openFault? : τ → Option DecodeError) (o : Outline τ δ) : Results :=
  match o.openings with
  | [] => o.inner.rootMembers meaning?
  | [(before, _)] => before.rootMembers meaning? ++ o.inner.members meaning?
  | (before, _) :: (siblings, tag) :: _ =>
    before.rootMembers meaning? ++ siblings.members meaning? ++
      (openFault? tag).toList.map .error

/-- Readings that agree on every element agree on the members of an outline. -/
theorem members_congr {meaning? meaning?' : τ → Forest τ δ → Option (Except DecodeError GraphElement)}
    {openFault? openFault?' : τ → Option DecodeError}
    (meanings : ∀ tag content, meaning? tag content = meaning?' tag content)
    (faults : ∀ tag, openFault? tag = openFault?' tag) (o : Outline τ δ) :
    o.members meaning? openFault? = o.members meaning?' openFault?' := by
  obtain rfl : meaning? = meaning?' := funext fun tag => funext (meanings tag)
  obtain rfl : openFault? = openFault?' := funext faults
  rfl

/-- Whether any element begins before a place. -/
def hasElement (o : Outline τ δ) : Bool :=
  !(o.openings.isEmpty && o.inner.branches.isEmpty)

/-- What is wrong if the document ends at a place. -/
def endFault? (o : Outline τ δ) : Option DecodeError :=
  if 0 < o.depth then some (.truncated o.depth)
  else if o.hasElement then none
  else some .noRoot

end Markup.Outline

/-! ## Outcomes -/

/-- The graph of some results, or the first error among them, or else the error that follows. -/
def Results.outcome (results : Results) (fault : Option DecodeError) :
    Except DecodeError Graph := do
  let elements ← results.mapM id
  match fault with
  | none => return .ofElements elements
  | some e => throw e

/-- What a document gives whose results are followed by a fault or by its end. -/
def Decoded.ofResults : Results → Option DecodeError → Decoded
  | [], fault => ⟨[], fault⟩
  | .error e :: _, _ => ⟨[], some e⟩
  | .ok element :: rest, fault =>
    ⟨element :: (ofResults rest fault).elements, (ofResults rest fault).fault⟩

/-- What a document gives has the graph that its results have. -/
theorem Decoded.graph_ofResults (results : Results) (fault : Option DecodeError) :
    (ofResults results fault).graph = results.outcome fault := by
  suffices general : ∀ before : List GraphElement,
      Decoded.graph ⟨before ++ (ofResults results fault).elements,
        (ofResults results fault).fault⟩ = (do
          let elements ← results.mapM id
          match fault with
          | none => return .ofElements (before ++ elements)
          | some e => throw e) from general []
  induction results with
  | nil => cases fault <;> exact fun _ => rfl
  | cons result rest ih =>
    intro before
    cases result with
    | error e => rfl
    | ok element =>
      have later := ih (before ++ [element])
      rw [List.append_assoc, List.singleton_append] at later
      rw [List.mapM_cons]
      refine later.trans ?_
      cases rest.mapM id with
      | error e => rfl
      | ok elements =>
        cases fault with
        | none => simp only [List.append_assoc, List.singleton_append]; rfl
        | some e => rfl

end GraphScribe
