import GraphScribe.Proofs.Conversion.Effect
import GraphScribe.Proofs.Pool.Settled

/-!
# The buffer of a decoder

A decoder's buffer holds a whole document or one event of it at a time, so documents that are not too
long leave it slim, and the pool of the decoder keeps it however decoding ends. What a decoder finds
has nothing to do with its pool: a session of calls gives what fresh decoders give.

* `Decoder.answer_settled`: what one call does to a pool.
* `Decoder.session_results`: the results of a session.
* `Decoder.session_filter`: calls without a buffer leave no trace.
* `Decoder.session_settled`: the pool after a session.
-/

namespace GraphScribe

open Markup

/-! ## One document -/

theorem Markup.EventReader.length_ofSource_le (source : Source) :
    (EventReader.ofSource source).rest.length ≤ source.bytes.length := by
  unfold ofSource
  split
  · exact (List.drop_suffix _ _).length_le
  · exact Nat.le_refl _

theorem Walker.length_leftover_le (rest : Bytes) (stop : EventStop) :
    (leftover rest stop).length ≤ rest.length := by
  unfold leftover
  split
  · exact Nat.zero_le _
  · exact Nat.le_refl _

/-- The buffer holds one event at a time, so what is left of the document bounds it. The induction is
on the events; each finds the buffer empty. -/
theorem Walker.run_slim (w : Walker) (r : EventReader) {buffer : Buffer} (slim : buffer.IsSlim)
    (empty : buffer.contents = #[]) (few : r.rest.length ≤ Buffer.most) :
    (w.run r buffer).2.IsSlim := by
  fun_induction run w r buffer with
  | case1 w r buffer stop read =>
    exact slim.append_empty empty (Nat.le_trans (length_leftover_le _ _) few)
  | case2 => exact slim
  | case3 w r buffer event r' read shorter buffer' e failed =>
    exact slim.append_empty empty (Nat.le_trans (List.length_take_le' _ _) few)
  | case4 w r buffer event r' read shorter buffer' w' stepped ih =>
    -- The event is followed before the buffer is cleared for the next one.
    have slim' : buffer'.IsSlim :=
      slim.append_empty empty (Nat.le_trans (List.length_take_le' _ _) few)
    exact ih slim'.clear rfl (Nat.le_trans (Nat.le_of_lt shorter) few)

theorem Decoder.readCollected_slim (source : Source) {buffer : Buffer} (slim : buffer.IsSlim)
    (empty : buffer.contents = #[]) (few : source.bytes.length ≤ Buffer.most) :
    (readCollected source buffer).2.IsSlim := by
  have grown := slim.append_empty empty few
  unfold readCollected
  dsimp only
  split <;> exact grown

namespace Decoder

variable {d : Decoder} {uses : Nat}

/-- One document is one use of a buffer. -/
theorem read_settled (settled : d.buffers.Settled uses) {source : Source}
    (few : source.bytes.length ≤ Buffer.most) : (d.read source).2.buffers.Settled (uses + 1) := by
  have empty := d.buffers.acquire_contents
  obtain ⟨kind, buffers⟩ := d
  cases kind with
  | token =>
    have rest := Nat.le_trans (EventReader.length_ofSource_le source) few
    exact settled.returned (Walker.run_slim {} _ settled.lent empty rest)
  | streaming => exact settled.returned (readCollected_slim source settled.lent empty few)

end Decoder

/-! ## Calls -/

/-- A document to decode, as it arrives or as a whole. -/
inductive DecoderCall where
  | decode (source : Source)
  | decodeBytes (document : Bytes)

namespace DecoderCall

/-- The document. -/
def bytes : DecoderCall → Bytes
  | decode source => source.bytes
  | decodeBytes document => document

/-- The call reads its document through a buffer. -/
def needsBuffer (kind : DecoderKind) : DecoderCall → Bool
  | decode _ => true
  | decodeBytes _ => kind = .token

end DecoderCall

namespace Decoder

variable {d d' : Decoder} {uses : Nat}

/-- What a call gives, and the decoder that it leaves. -/
def answer (d : Decoder) : DecoderCall → Except DecodeError Graph × Decoder
  | .decode source => d.decode source
  | .decodeBytes document => d.decodeBytes document

/-- The results of some calls, one after the other, and the decoder that they leave. -/
def session (d : Decoder) : List DecoderCall → List (Except DecodeError Graph) × Decoder
  | [] => ([], d)
  | call :: calls =>
    let (result, d) := d.answer call
    let (results, d) := d.session calls
    (result :: results, d)

/-- A call reads a document through a buffer or leaves the decoder as it was. -/
theorem answer_spec (d : Decoder) (call : DecoderCall) :
    (call.needsBuffer d.kind = true ∧ ∃ source : Source, source.bytes = call.bytes ∧
      ∀ d' : Decoder, d'.kind = d.kind → d'.answer call = d'.decode source) ∨
    (call.needsBuffer d.kind = false ∧
      ∀ d' : Decoder, d'.kind = d.kind → d'.answer call = (Streaming.decode call.bytes, d')) := by
  obtain ⟨kind, buffers⟩ := d
  cases call with
  | decode source => exact .inl ⟨rfl, source, rfl, fun _ _ => rfl⟩
  | decodeBytes document =>
    cases kind with
    | token =>
      refine .inl ⟨rfl, .ofBytes document, rfl, fun d' same => ?_⟩
      simp only [answer, decodeBytes, same]
    | streaming =>
      refine .inr ⟨rfl, fun d' same => ?_⟩
      simp only [answer, decodeBytes, same, DecoderCall.bytes]

theorem answer_kind (d : Decoder) (call : DecoderCall) : (d.answer call).2.kind = d.kind := by
  rcases d.answer_spec call with ⟨-, source, -, reads⟩ | ⟨-, keeps⟩
  · rw [reads d rfl]
    rfl
  · rw [keeps d rfl]

/-- What a call gives does not depend on the calls before it. -/
theorem answer_congr (same : d.kind = d'.kind) (call : DecoderCall) :
    (d.answer call).1 = (d'.answer call).1 := by
  rcases d.answer_spec call with ⟨-, source, -, reads⟩ | ⟨-, keeps⟩
  · rw [reads d rfl, reads d' same.symm]
    exact congrArg Decoded.graph (read_congr same source)
  · rw [keeps d rfl, keeps d' same.symm]

/-- A call that needs no buffer leaves the decoder as it was. -/
theorem answer_of_needsNone {call : DecoderCall} (none : call.needsBuffer d.kind = false) :
    (d.answer call).2 = d := by
  rcases d.answer_spec call with ⟨some, -⟩ | ⟨-, keeps⟩
  · cases some.symm.trans none
  · rw [keeps d rfl]

/-- A call that needs a buffer is one use of one. -/
theorem answer_settled (settled : d.buffers.Settled uses) {call : DecoderCall}
    (needs : call.needsBuffer d.kind = true) (few : call.bytes.length ≤ Buffer.most) :
    (d.answer call).2.buffers.Settled (uses + 1) := by
  rcases d.answer_spec call with ⟨-, source, is, reads⟩ | ⟨none, -⟩
  · rw [reads d rfl]
    rw [← is] at few
    exact read_settled settled few
  · cases needs.symm.trans none

/-! ## Sessions -/

theorem session_cons (d : Decoder) (call : DecoderCall) (calls : List DecoderCall) :
    d.session (call :: calls) =
      ((d.answer call).1 :: ((d.answer call).2.session calls).1,
        ((d.answer call).2.session calls).2) := rfl

/-- Every call gives what it gives to any decoder of the kind. -/
theorem session_results (same : d.kind = d'.kind) (calls : List DecoderCall) :
    (d.session calls).1 = calls.map fun call => (d'.answer call).1 := by
  induction calls generalizing d with
  | nil => rfl
  | cons call calls ih =>
    rw [session_cons, List.map_cons, answer_congr same, ih ((d.answer_kind call).trans same)]

/-- Calls that need no buffer leave no trace in the decoder. -/
theorem session_filter (d : Decoder) (calls : List DecoderCall) :
    (d.session calls).2 = (d.session (calls.filter (·.needsBuffer d.kind))).2 := by
  induction calls generalizing d with
  | nil => rfl
  | cons call calls ih =>
    cases needs : call.needsBuffer d.kind with
    | true =>
      rw [List.filter_cons_of_pos needs, session_cons, session_cons]
      exact d.answer_kind call ▸ ih (d.answer call).2
    | false =>
      rw [List.filter_cons_of_neg (Bool.eq_false_iff.1 needs), session_cons,
        answer_of_needsNone needs]
      exact ih d

/-- The pool after a session. The induction is on the calls; each finds the pool as the one before it
left it. -/
theorem session_settled (settled : d.buffers.Settled uses) {calls : List DecoderCall}
    (few : ∀ call ∈ calls, call.needsBuffer d.kind = true → call.bytes.length ≤ Buffer.most) :
    (d.session calls).2.buffers.Settled (uses + calls.countP (·.needsBuffer d.kind)) := by
  induction calls generalizing d uses with
  | nil => exact settled
  | cons call calls ih =>
    obtain ⟨fewFirst, fewRest⟩ := List.forall_mem_cons.1 few
    have kind := d.answer_kind call
    rw [session_cons]
    cases needs : call.needsBuffer d.kind with
    | true =>
      rw [List.countP_cons_of_pos needs, ← Nat.add_assoc, Nat.add_right_comm]
      have settled' := answer_settled settled needs (fewFirst needs)
      exact kind ▸ ih settled' (kind.symm ▸ fewRest)
    | false =>
      rw [List.countP_cons_of_neg (Bool.eq_false_iff.1 needs), answer_of_needsNone needs]
      exact ih settled fewRest

end Decoder
end GraphScribe
