import GraphScribe.Proofs.Decode.Agreement
import GraphScribe.Proofs.Decode.Simulation
import GraphScribe.Proofs.Markup.Arrival

/-!
# Documents whose source fails

No decoder takes the beginning of a document for the whole. A decoder that collects its source
first reports the failure; the walker reports it, too, unless the bytes that arrived are at fault,
and then every document that begins with them is.

* `Walker.simulates`: where events stand does not matter to the walker.
* `Walker.follow_arriving`: the walker before a failure and without one.
* `Decoder.decode_unreadable`: both decoders.
-/

namespace GraphScribe

open Markup

/-! ## The walker at different positions -/

/-- The fields found are the same, or cannot be read for reasons of one kind. -/
inductive Pending.Like : Pending → Pending → Prop where
  | node {id id' cost cost' : Option Deferred} :
    Option.Rel SameOutcome id id' → Option.Rel SameOutcome cost cost' →
    Like (.node id cost) (.node id' cost')
  | edge {directed directed' source source' target target' cost cost' : Option Deferred} :
    Option.Rel SameOutcome directed directed' → Option.Rel SameOutcome source source' →
    Option.Rel SameOutcome target target' → Option.Rel SameOutcome cost cost' →
    Like (.edge directed source target cost) (.edge directed' source' target' cost')

/-- The texts of one field are the same, or cannot be read for reasons of one kind. -/
def Pending.LikeField (child child' : FieldName × Deferred) : Prop :=
  child.1 = child'.1 ∧ SameOutcome child.2 child'.2

namespace Pending

variable {member member' : Pending} {value value' : Deferred}

theorem Like.ofKind (kind : ElementKind) : (Pending.ofKind kind).Like (.ofKind kind) := by
  cases kind with
  | node => exact .node .none .none
  | edge => exact .edge .none .none .none .none

theorem Like.setAttribute (alike : member.Like member') (values : SameOutcome value value') :
    (member.setAttribute value).Like (member'.setAttribute value') := by
  cases alike with
  | node _ costs => exact .node (.some values) costs
  | edge _ sources targets costs => exact .edge (.some values) sources targets costs

theorem Like.setChild (alike : member.Like member') (values : SameOutcome value value')
    (field : FieldName) : (member.setChild field value).Like (member'.setChild field value') := by
  cases alike with
  | node ids costs =>
    cases field with
    | cost => exact .node ids (.some values)
    | id => exact .node ids costs
    | source => exact .node ids costs
    | target => exact .node ids costs
  | edge directeds sources targets costs =>
    cases field with
    | source => exact .edge directeds (.some values) targets costs
    | target => exact .edge directeds sources (.some values) costs
    | cost => exact .edge directeds sources targets (.some values)
    | id => exact .edge directeds sources targets costs

theorem Like.childField? (alike : member.Like member') (name : Bytes) :
    member'.childField? name = member.childField? name := by
  cases alike <;> rfl

theorem resolve_alike {found found' : Option Deferred}
    (same : Option.Rel SameOutcome found found') :
    SameOutcome (resolve found) (resolve found') := by
  cases same with
  | some values => exact values.map fun _ _ equal => congrArg some equal
  | none => rfl

theorem Like.meaning (alike : member.Like member') :
    SameOutcome member.meaning member'.meaning := by
  cases alike with
  | node ids costs =>
    exact (resolve_alike ids).bind fun id => (resolve_alike costs).bind fun cost => .refl _
  | edge directeds sources targets costs =>
    exact (resolve_alike directeds).bind fun directed => (resolve_alike sources).bind fun source =>
      (resolve_alike targets).bind fun target => (resolve_alike costs).bind fun cost => .refl _

end Pending

namespace Walker

theorem readPieceAt_alike (position position' : Nat) (piece : Piece) :
    SameOutcome (readPieceAt position piece) (readPieceAt position' piece) :=
  (readPiece_alike position position piece).trans
    (sameOutcome_comm.1 (readPiece_alike position' position piece))

theorem openElement_alike (kind : ElementKind) (tag : Tag) (position position' : Nat) :
    Alike DecodeError.Same Pending.Like (openElement kind tag position)
      (openElement kind tag position') := by
  unfold openElement
  cases EventAttribute.readAll tag.content tag.nameLength with
  | error fault => exact ⟨rfl, rfl⟩
  | ok attributes =>
    dsimp only
    cases attributes.find? (·.key == (Pending.ofKind kind).attributeName) with
    | none => exact .ofKind kind
    | some a =>
      exact (Pending.Like.ofKind kind).setAttribute
        (readPieceAt_alike position position' (.text a.value))

theorem addPiece_alike {child child' : FieldName × Deferred} {piece piece' : Nat × Piece}
    (same : Pending.LikeField child child') (pieces : piece.2 = piece'.2) :
    Pending.LikeField (addPiece child piece) (addPiece child' piece') := by
  obtain ⟨field, value⟩ := child
  obtain ⟨field', value'⟩ := child'
  obtain ⟨position, piece⟩ := piece
  obtain ⟨position', piece'⟩ := piece'
  obtain ⟨rfl, values⟩ : field = field' ∧ SameOutcome value value' := same
  obtain rfl : piece = piece' := pieces
  cases value with
  | error e =>
    cases value' with
    | error e' => exact ⟨rfl, values⟩
    | ok text' => exact values.elim
  | ok text =>
    cases value' with
    | error e' => exact values.elim
    | ok text' =>
      obtain rfl : text = text' := values
      exact ⟨rfl, (readPieceAt_alike position position' piece).map fun _ _ equal =>
        congrArg (text ++ ·) equal⟩

/-- Where the events of a document stand decides nothing but the positions in errors. -/
theorem simulates : collector.Simulates collector (fun tag tag' => tag.2 = tag'.2)
    (fun piece piece' => piece.2 = piece'.2) Pending.Like Pending.LikeField where
  begins := by
    rintro ⟨position, tag⟩ ⟨position', _⟩ rfl
    show Option.Rel _ ((kindOf? tag.name).map _) ((kindOf? tag.name).map _)
    cases kindOf? tag.name with
    | none => exact .none
    | some kind => exact .some (openElement_alike kind tag position position')
  child := by
    rintro member member' ⟨position, tag⟩ ⟨position', _⟩ alike rfl
    show Option.Rel _ ((member.childField? tag.name).map _) ((member'.childField? tag.name).map _)
    rw [alike.childField?]
    cases member.childField? tag.name with
    | none => exact .none
    | some field => exact .some ⟨rfl, rfl⟩
  add := addPiece_alike
  close := by
    rintro member member' ⟨field, value⟩ ⟨_, value'⟩ alike ⟨rfl, values⟩
    exact alike.setChild values field
  meaning := Pending.Like.meaning

end Walker

/-! ## Feeds that fail -/

section Feeds

variable {failure : SystemError} {τ τ' δ δ' ε ε' φ φ' : Type} {T : τ → τ' → Prop}
  {D : δ → δ' → Prop} {M : ε → ε' → Prop} {F : φ → φ' → Prop}

/-- The first of two decodings fails for lack of input, or both fail alike. -/
def FailAlike (failure : SystemError) (outcome outcome' : Except DecodeError Graph) : Prop :=
  outcome = .error (.unreadable failure) ∨
    ∃ e e', outcome = .error e ∧ outcome' = .error e' ∧ e.Same e'

theorem FailAlike.bind {α β : Type} {R : α → β → Prop} {x : Except DecodeError α}
    {y : Except DecodeError β} {f : α → Except DecodeError Graph} {g : β → Except DecodeError Graph}
    (first : Alike DecodeError.Same R x y) (next : ∀ a b, R a b → FailAlike failure (f a) (g b)) :
    FailAlike failure (x.bind f) (y.bind g) := by
  cases x with
  | error e =>
    cases y with
    | error e' => exact .inr ⟨e, e', rfl, rfl, first⟩
    | ok b => exact first.elim
  | ok a =>
    cases y with
    | error e' => exact first.elim
    | ok b => exact next a b first

/-- A collector whose feed fails does not get further than one that has all signals. The induction
is on the feeds. -/
theorem Collector.Simulates.run_arrives {C : Collector τ δ ε φ} {C' : Collector τ' δ' ε' φ'}
    (simulates : C.Simulates C' T D M F) {feed : Feed (Signal τ δ)} {feed' : Feed (Signal τ' δ')}
    (arrives : Feed.Arrives (Signal.Rel T D) failure feed feed') :
    ∀ {s : Progress ε φ} {s' : Progress ε' φ'}, Progress.Rel M F s s' →
      FailAlike failure (C.run s feed).graph (C'.run s' feed').graph := by
  induction arrives with
  | lost whole => exact fun _ => .inl rfl
  | stopped stop position position' =>
    intro s s' _
    refine .inr ?_
    cases stop with
    | unreadable lost => exact ⟨_, _, rfl, rfl, rfl, rfl⟩
    | unclosed => exact ⟨.truncated s.depth, .truncated s'.depth, rfl, rfl, rfl, rfl⟩
    | malformed fault => exact ⟨_, _, rfl, rfl, rfl, rfl⟩
  | @item signal signal' rest rest' signals _ ih =>
    intro s s' same
    rw [graph_run, graph_run]
    exact .bind (simulates.step same signals) fun _ _ => ih

/-- Events that arrive are signals that arrive. -/
theorem Markup.Feed.Arrives.eventSignals {feed feed' : Feed (Nat × Event)}
    (arrives : Feed.Arrives (fun placed placed' => placed.2 = placed'.2) failure feed feed') :
    Feed.Arrives
      (Signal.Rel (fun tag tag' => tag.2 = tag'.2) (fun piece piece' => piece.2 = piece'.2)) failure
      feed.eventSignals feed'.eventSignals := by
  induction arrives with
  | lost whole => exact .lost _
  | stopped stop position position' =>
    cases stop with
    | unreadable lost => exact .stopped (.unreadable lost) position position'
    | unclosed => exact .stopped .unclosed position position'
    | malformed fault => exact .stopped (.malformed fault) position position'
  | @item placed placed' rest rest' same _ ih =>
    obtain ⟨position, e⟩ := placed
    obtain ⟨position', e'⟩ := placed'
    obtain rfl : e = e' := same
    cases e with
    | start tag => exact .item (.enter rfl) ih
    | empty tag => exact .item (.enter rfl) (.item .leave ih)
    | finish name => exact .item .leave ih
    | text raw => exact .item (.data rfl) ih
    | verbatim raw => exact .item (.data rfl) ih
    | other => exact ih

end Feeds

namespace Walker

variable {failure : SystemError} {w : Walker} {r r' : EventReader}

theorem follow_arriving (arriving : EventReader.Arriving failure r r') :
    FailAlike failure (({} : Walker).follow r.feed).graph (({} : Walker).follow r'.feed).graph := by
  rw [follow_eq_run, follow_eq_run]
  exact simulates.run_arrives arriving.feed_arrives.eventSignals ⟨rfl, rfl, rfl, .none, .none⟩

/-! ## Before the first tag -/

/-- A text that lies in no field is passed over, so it does not matter where it begins. -/
theorem follow_skipText (outside : w.field = none) (opens : r.skipText.rest ≠ []) :
    (w.follow r.feed).graph = (w.follow r.skipText.feed).graph := by
  cases left : r.rest with
  | nil =>
    rw [EventReader.skipText_rest, left] at opens
    exact absurd rfl opens
  | cons b rest =>
    rw [EventReader.skipText_rest, left] at opens
    by_cases text : b = opener
    · subst text
      have same : r.skipText = r := by
        unfold EventReader.skipText
        rw [left]
        rfl
      rw [same]
    · have next := EventReader.next_of_event left (Scan.ofBytes_of_text text opens)
      rw [← left] at next
      have skipped (deferred : Deferred) : w.collect deferred = w := by
        unfold collect
        rw [outside]
      rw [follow_event next]
      show ((w.collect _).follow _).graph = _
      rw [skipped]
      rfl

/-- Without a tag nothing is found before the failure. -/
theorem follow_tagless (fails : r.failure = some failure) (tagless : r.skipText.rest = []) :
    (w.follow r.feed).graph = .error (.unreadable failure) := by
  rw [EventReader.skipText_rest] at tagless
  refine follow_stop (EventReader.next_of_unsettled fails fun b rest left => ?_) w
  exact Scan.not_isSettled_of_plain (left ▸ tagless)

end Walker

namespace Decoder

/-- A source that fails after some bytes, and one that goes on after them to its end. What arrives
at once need not be the same. -/
theorem decode_token_arriving (arrived more : Bytes) (failure : SystemError) (chunk chunk' : Nat)
    (buffers buffers' : BufferPool) :
    FailAlike failure ((Decoder.mk .token buffers).decode ⟨arrived, some failure, chunk⟩).1
      ((Decoder.mk .token buffers').decode ⟨arrived ++ more, none, chunk'⟩).1 := by
  let r := EventReader.ofSource ⟨arrived, some failure, chunk⟩
  let r' := EventReader.ofSource ⟨arrived ++ more, none, chunk'⟩
  have fails : r.failure = some failure := EventReader.ofSource_failure _
  have complete : r'.failure = none := EventReader.ofSource_failure _
  have rest : r.skipText.rest = arrived.dropWhile (· != opener) := EventReader.skipText_ofSource _
  have rest' : r'.skipText.rest = (arrived ++ more).dropWhile (· != opener) :=
    EventReader.skipText_ofSource _
  rw [decode_token, decode_token]
  by_cases tagless : r.skipText.rest = []
  · exact .inl (Walker.follow_tagless fails tagless)
  · -- A byte order mark may be known in one source only: the readers are compared behind it.
    have goesOn : r'.skipText.rest = r.skipText.rest ++ more := by
      rw [rest] at tagless ⊢
      rw [rest', List.dropWhile_append, if_neg (tagless ∘ List.isEmpty_iff.1)]
    have tagged : r'.skipText.rest ≠ [] := by
      rw [goesOn]
      exact List.append_ne_nil_of_left_ne_nil tagless more
    have arriving : EventReader.Arriving failure r.skipText r'.skipText :=
      ⟨fails, complete, ⟨more, goesOn.symm⟩,
        (EventReader.ofSource_openNames _).trans (EventReader.ofSource_openNames _).symm⟩
    rw [Walker.follow_skipText rfl tagless, Walker.follow_skipText rfl tagged]
    exact Walker.follow_arriving arriving

/-- A source that fails gives no graph. The decoder that collects the source reports the failure,
and so does the walker, unless the bytes that arrived are at fault: then it finds an error of the
same kind, for the same field, in every document that begins with them. -/
theorem decode_unreadable (arrived : Bytes) (failure : SystemError) (chunk : Nat)
    (buffers : BufferPool) :
    let source : Source := ⟨arrived, some failure, chunk⟩
    ((Decoder.mk .streaming buffers).decode source).1 = .error (.unreadable failure) ∧
    (((Decoder.mk .token buffers).decode source).1 = .error (.unreadable failure) ∨
      ∃ e, ((Decoder.mk .token buffers).decode source).1 = .error e ∧
        ∀ (more : Bytes) (chunk' : Nat) (buffers' : BufferPool),
          let whole : Source := ⟨arrived ++ more, none, chunk'⟩
          ∃ e', ((Decoder.mk .token buffers').decode whole).1 = .error e' ∧
            e.kind = e'.kind ∧ e.location? = e'.location?) := by
  intro source
  refine ⟨rfl, ?_⟩
  by_cases lost : ((Decoder.mk .token buffers).decode source).1 = .error (.unreadable failure)
  · exact .inl lost
  · have alike (more : Bytes) (chunk' : Nat) (buffers' : BufferPool) :=
      (decode_token_arriving arrived more failure chunk chunk' buffers buffers').resolve_left lost
    -- What fails is the same for all documents, as it does not depend on what follows.
    obtain ⟨e, -, failed, -⟩ := alike [] chunk buffers
    refine .inr ⟨e, failed, fun more chunk' buffers' => ?_⟩
    obtain ⟨e₁, e', failed₁, failed', same⟩ := alike more chunk' buffers'
    cases failed.symm.trans failed₁
    exact ⟨e', failed', same⟩

/-- A node without an identifier is at fault whatever follows it; one that is complete is not, and
then the failure is all that there is to report. -/
example :
    let decode (document : String) :=
      ((Decoder.mk .token {}).decode ⟨Bytes.ofAscii document, some .isDirectory, 1⟩).1
    decode "<g><node/>" = .error (.missingField .node .id) ∧
      decode "<g><node id='1'/>" = .error (.unreadable .isDirectory) := by
  decide +kernel

end Decoder

end GraphScribe
