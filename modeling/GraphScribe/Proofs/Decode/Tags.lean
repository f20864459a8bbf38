import GraphScribe.Decode.Walker
import GraphScribe.Proofs.Decode.ErrorKind
import GraphScribe.Proofs.Markup.AttributeLists
import Mathlib.Data.List.TakeWhile

/-!
# Start tags in two readings

A start tag is split into its name and its attributes by tokens and by events. A form feed ends the
name in one reading and is part of it in the other, so a tag has a name and a shorter one, and they
are the same if the name holds no form feed. Of the attributes one matters, if a node or an edge
begins, and both readings may find what means the same (`Markup.Tag.SameKey`).
-/

namespace GraphScribe

open Markup

/-- The event of a start tag. -/
def Markup.Event.ofTag (isEmpty : Bool) (tag : Tag) : Event :=
  if isEmpty then .empty tag else .start tag

/-- The name that tokens find where events find a tag: it ends before a form feed. -/
def Markup.Tag.shortName (tag : Tag) : Bytes :=
  tag.name.takeWhile (!isWideSpace ·)

/-- The attribute that matters of a node or edge. -/
def ElementKind.keyName (kind : ElementKind) : Bytes :=
  (Pending.ofKind kind).attributeName

/-- Two texts of the attribute that matters mean the same: one id or one error, or edges that are
both directed or both not. -/
def ElementKind.SameKey (kind : ElementKind) (text text' : Option (List Char)) : Prop :=
  match kind with
  | .node => SameOutcome (readRequired .node .id text) (readRequired .node .id text')
  | .edge =>
    ({ directed := text, source := none, target := none, cost := none } : EdgeFields).isDirected =
      ({ directed := text', source := none, target := none, cost := none } : EdgeFields).isDirected

instance (kind : ElementKind) (text text' : Option (List Char)) :
    Decidable (kind.SameKey text text') :=
  match kind with
  | .node => inferInstanceAs (Decidable (SameOutcome _ _))
  | .edge => inferInstanceAs (Decidable (_ = _))

theorem ElementKind.SameKey.refl (kind : ElementKind) (text : Option (List Char)) :
    kind.SameKey text text := by
  cases kind with
  | node => exact SameOutcome.refl _
  | edge => rfl

/-- What tokens and events find in a tag means the same of a node or edge: both find a fault in the
attribute list, or neither can read the text of the attribute that matters, or the two texts mean
the same. -/
def Markup.Tag.SameKey (tag : Tag) (kind : ElementKind) : Prop :=
  Alike (fun _ _ => True)
    (fun raw raw' => Alike (fun _ _ => True) kind.SameKey (raw.mapM unescape) (raw'.mapM unescape))
    ((EventAttribute.readAll tag.content tag.nameLength).map fun attributes =>
      (attributes.find? (·.key == kind.keyName)).map (·.value))
    ((Attribute.readAll (tag.content.drop tag.nameLength)).map (·.lookup kind.keyName))

theorem tag_of_kindOf? {name : Bytes} {kind : ElementKind}
    (named : Walker.kindOf? name = some kind) : name = kind.tag := by
  unfold Walker.kindOf? at named
  split at named
  · cases named
    assumption
  · split at named
    · cases named
      assumption
    · cases named

/-- Where so many elements are open, a decoder looks for elements of a name: for nodes and edges in
a root, and for fields in those. -/
def IsSought (depth : Nat) (name : Bytes) : Prop :=
  match depth with
  | 1 => (Walker.kindOf? name).isSome
  | 2 => ∃ kind, ((Pending.ofKind kind).childField? name).isSome
  | _ => False

theorem kindOf?_of_not_sought {name : Bytes} (unsought : ¬ IsSought 1 name) :
    Walker.kindOf? name = none :=
  Option.not_isSome_iff_eq_none.1 unsought

theorem childField?_of_not_sought {name : Bytes} (unsought : ¬ IsSought 2 name) (p : Pending) :
    p.childField? name = none := by
  refine Option.not_isSome_iff_eq_none.1 fun found => unsought ?_
  cases p with
  | node id cost => exact ⟨.node, found⟩
  | edge directed source target cost => exact ⟨.edge, found⟩

/-- Nothing is looked for under a name with a form feed. -/
theorem not_sought_of_formFeed {name : Bytes} (fed : formFeed ∈ name) (depth : Nat) :
    ¬ IsSought depth name := by
  have other {known : Bytes} (plain : formFeed ∉ known) : name ≠ known :=
    fun same => plain (same ▸ fed)
  match depth with
  | 0 => exact id
  | 1 =>
    intro sought
    obtain ⟨kind, named⟩ := Option.isSome_iff_exists.1 sought
    exact other (by cases kind <;> decide) (tag_of_kindOf? named)
  | 2 =>
    rintro ⟨kind, sought⟩
    have cost : name ≠ Bytes.ofAscii "cost" := other (by decide)
    have source : name ≠ Bytes.ofAscii "source" := other (by decide)
    have target : name ≠ Bytes.ofAscii "target" := other (by decide)
    cases kind with
    | node =>
      unfold Pending.ofKind Pending.childField? at sought
      dsimp only at sought
      rw [if_neg cost] at sought
      cases sought
    | edge =>
      unfold Pending.ofKind Pending.childField? at sought
      dsimp only at sought
      rw [if_neg cost, if_neg source, if_neg target] at sought
      cases sought
  | depth + 3 => exact id

/-! ## Both readings -/

/-- How tokens split the content of a start tag. -/
theorem split_content (content : Bytes) :
    content.takeWhile (!isWideSpace ·) = (Tag.ofContent content).shortName ∧
      content.dropWhile (!isWideSpace ·) =
        content.drop (Tag.ofContent content).shortName.length := by
  have name : (Tag.ofContent content).name = content.takeWhile (!isSpace ·) :=
    take_takeWhile (!isSpace ·) content
  have both (b : UInt8) : decide (((!isWideSpace b) = true) ∧ (!isSpace b) = true) =
      !isWideSpace b := by
    cases space : isSpace b with
    | false => simp
    | true => simp [isWideSpace_of_isSpace space]
  have short : (Tag.ofContent content).shortName = content.takeWhile (!isWideSpace ·) := by
    unfold Tag.shortName
    rw [name, List.takeWhile_takeWhile]
    exact congrArg (List.takeWhile · content) (funext both)
  rw [short]
  exact ⟨rfl, (drop_takeWhile (!isWideSpace ·) content).symm⟩

/-- Both readings split a tag alike if its name holds no white space at all. -/
theorem shortName_eq {tag : Tag} (clean : ∀ b ∈ tag.name, isWideSpace b = false) :
    tag.shortName = tag.name ∧
      tag.content.drop tag.shortName.length = tag.content.drop tag.nameLength := by
  have short : tag.shortName = tag.name :=
    (span_all fun b held => by rw [clean b held]; rfl).1
  refine ⟨short, ?_⟩
  have length : tag.name.length = min tag.nameLength tag.content.length := List.length_take
  rw [short, length]
  rcases Nat.le_total tag.nameLength tag.content.length with within | beyond
  · rw [Nat.min_eq_left within]
  · rw [Nat.min_eq_right beyond, List.drop_length, List.drop_eq_nil_of_le beyond]

/-- The tag between the brackets of a start tag, without the slash of an empty element. -/
def tagBetween (content : Bytes) : Tag :=
  .ofContent (if content.getLast? == some slash then content.dropLast else content)

theorem startToken_eq (content : Bytes) :
    startToken content =
      .start (tagBetween content).shortName
        ((tagBetween content).content.drop (tagBetween content).shortName.length)
        (content.getLast? == some slash) := by
  unfold tagBetween
  obtain ⟨name, attributes⟩ :=
    split_content (if content.getLast? == some slash then content.dropLast else content)
  rw [← name]
  rw [← name] at attributes
  exact congrArg (Token.start _ · _) attributes

/-- The only white space that the name of a tag may hold is a form feed. -/
theorem isWideSpace_of_name {content : Bytes} (plain : formFeed ∉ (tagBetween content).name) :
    ∀ b ∈ (tagBetween content).name, isWideSpace b = false := by
  intro b held
  have other : b ≠ formFeed := fun same => plain (same ▸ held)
  unfold tagBetween at held
  rw [show (Tag.ofContent _).name = List.takeWhile (!isSpace ·) _ from
    take_takeWhile (!isSpace ·) _] at held
  have passes := List.all_eq_true.1 List.all_takeWhile b held
  rw [isWideSpace_eq other]
  exact Bool.not_eq_true' _ ▸ passes

theorem ofStartTag_eq {bytes : Bytes} {i : Nat}
    (closed : Scan.tagCloser none 1 (bytes.drop 1) = some i) :
    Scan.ofStartTag bytes =
      .event (.ofTag (((bytes.take i).drop 1).getLast? == some slash)
        (tagBetween ((bytes.take i).drop 1))) (i + 1) := by
  unfold Scan.ofStartTag Event.ofTag tagBetween
  rw [closed]
  dsimp only
  split <;> rfl

theorem parts_or_sameKey (tag : Tag) (kind : ElementKind) :
    AttributeList.Parts (tag.content.drop tag.nameLength) ∨ tag.SameKey kind := by
  rcases AttributeList.parts_or_alike tag.content.length (tag.content.drop tag.nameLength) []
    with parts | alike
  · exact .inl parts
  · refine .inr (alike.map fun found others same => ?_)
    rw [same, AttributeList.lookup_unplaced]
    cases ((found.find? (·.key == kind.keyName)).map (·.value)).mapM unescape with
    | error fault => exact trivial
    | ok text => exact ElementKind.SameKey.refl kind text

end GraphScribe
