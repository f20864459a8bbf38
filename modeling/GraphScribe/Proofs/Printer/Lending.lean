import GraphScribe.Proofs.Number.TextLength
import GraphScribe.Proofs.Pool.Settled
import GraphScribe.Proofs.Printer.Staging
import GraphScribe.Proofs.Text.Separated

/-!
# The buffer of a printer

Pieces of output are short, but for the texts that a template copies, and the buffer is handed over
before it holds much. So it stays slim, and the pool of a printer keeps it however printing ends.

* `Template.length_piece_le`: how long a piece is in bytes.
* `Staged.Ready.send`: the buffer after printing, and after printing that failed.
* `Printer.After.settled`: the pool of a printer after some calls.
-/

namespace GraphScribe

theorem Utf8.length_encode_le (text : List Char) :
    (Utf8.encode text).length ≤ 4 * text.length := by
  induction text with
  | nil => exact Nat.le_refl _
  | cons c rest ih =>
    have one : (String.utf8EncodeChar c).length ≤ 4 :=
      String.length_utf8EncodeChar c ▸ c.utf8Size_le_four
    rw [Utf8.encode, List.flatMap_cons, List.length_append, List.length_cons]
    rw [Utf8.encode] at ih
    omega

/-! ## Pieces -/

/-- The numbers of nodes and of edges are words of 64 bits, as for every graph that a machine of that
width holds. -/
structure Graph.IsCounted (g : Graph) : Prop where
  nodes : g.nodeCount < 2 ^ 64
  edges : g.edgeCount < 2 ^ 64

namespace Directive

theorem length_costText_le (x : Binary64) : x.costText.length ≤ 3000 := by
  unfold Binary64.costText
  split
  · decide
  · decide
  · exact x.length_text_le

theorem length_nodeId_le (id : NodeId) : (NodeId.text id).length ≤ 3000 := by
  have low := id.le_toInt
  have high := id.toInt_lt
  have small : id.toInt.natAbs < 10 ^ 20 := by omega
  exact Nat.le_trans (Integer.length_text_le (by decide) small) (by decide)

theorem length_count_le {count : Nat} (word : count < 2 ^ 64) :
    (Integer.text count).length ≤ 3000 := by
  have small : (count : Int).natAbs < 10 ^ 20 := by omega
  exact Nat.le_trans (Integer.length_text_le (by decide) small) (by decide)

theorem length_costColumn_le {f : Option CostFunction} {cost : Binary64} {piece : List Char}
    (mem : piece ∈ costColumn f cost) : piece.length ≤ 3000 := by
  cases f with
  | none => cases mem
  | some f =>
    rcases List.mem_cons.1 mem with rfl | mem
    · decide
    · cases List.mem_singleton.1 mem
      exact length_costText_le _

/-- Only a copied text is a long piece. -/
theorem length_piece_le {d : Directive} {g : Graph} (counted : g.IsCounted) {piece : List Char}
    (mem : piece ∈ d.pieces g) : d = .text piece ∨ piece.length ≤ 3000 := by
  cases d with
  | text copied => exact .inl (congrArg _ (List.mem_singleton.1 mem).symm)
  | nodeCount =>
    cases List.mem_singleton.1 mem
    exact .inr (length_count_le counted.nodes)
  | edgeCount =>
    cases List.mem_singleton.1 mem
    exact .inr (length_count_le counted.edges)
  | adjacencyMatrix =>
    right
    rcases mem_separated_map mem with rfl | ⟨row, mem⟩
    · decide
    rcases mem_separated_map mem with rfl | ⟨column, mem⟩
    · decide
    cases List.mem_singleton.1 mem
    unfold cell
    split <;> decide
  | costs f =>
    right
    rcases mem_separated_map mem with rfl | ⟨node, mem⟩
    · decide
    cases List.mem_singleton.1 mem
    exact length_costText_le _
  | nodes f =>
    right
    rcases mem_separated_map mem with rfl | ⟨node, mem⟩
    · decide
    rcases List.mem_cons.1 mem with rfl | mem
    · exact length_nodeId_le _
    · exact length_costColumn_le mem
  | edges f =>
    right
    rcases mem_separated_map mem with rfl | ⟨edge, mem⟩
    · decide
    rcases List.mem_cons.1 mem with rfl | mem
    · exact length_nodeId_le _
    rcases List.mem_cons.1 mem with rfl | mem
    · decide
    rcases List.mem_cons.1 mem with rfl | mem
    · exact length_nodeId_le _
    · exact length_costColumn_le mem

end Directive

namespace Template

/-- No text that the template copies is longer than a mebibyte. -/
def CopiesLittle (t : Template) : Prop :=
  ∀ copied, .text copied ∈ t.directives → (Utf8.encode copied).length ≤ 1024 * 1024

theorem length_piece_le {t : Template} (little : t.CopiesLittle) {g : Graph}
    (counted : g.IsCounted) {piece : Bytes} (mem : piece ∈ (t.pieces g).map Utf8.encode) :
    piece.length ≤ 1024 * 1024 := by
  obtain ⟨text, isPiece, rfl⟩ := List.mem_map.1 mem
  obtain ⟨d, isDirective, isPiece⟩ := List.mem_flatMap.1 isPiece
  rcases Directive.length_piece_le counted isPiece with rfl | short
  · exact little text isDirective
  · have bytes := Utf8.length_encode_le text
    omega

end Template

/-! ## The buffer in front of a receiver -/

namespace Staged

variable {σ : Type} [Receiver σ]

/-- What is there when a call ends, whether it failed or not. -/
def after : Except (SystemError × Staged σ) (Staged σ) → Staged σ
  | .ok s => s
  | .error (_, s) => s

/-- Between two pieces the buffer is slim and holds less than what is handed over. -/
structure Ready (s : Staged σ) : Prop where
  few : s.buffer.length < threshold
  slim : s.buffer.IsSlim

/-- Handing over does not touch the room of the buffer, and empties it if it succeeds. -/
theorem drain_spec {s : Staged σ} (slim : s.buffer.IsSlim) :
    (after s.drain).buffer.IsSlim ∧ ∀ s', s.drain = .ok s' → s'.Ready := by
  by_cases empty : s.buffer.contents = #[]
  · rw [drain_of_empty empty]
    refine ⟨slim, ?_⟩
    rintro _ ⟨⟩
    exact ⟨by rw [Buffer.length, empty]; decide, slim⟩
  · rcases wrote : Receiver.write s.sink s.buffer.contents.toList with ⟨e, sink⟩ | sink
    · rw [drain_of_error empty wrote]
      refine ⟨slim, ?_⟩
      rintro _ ⟨⟩
    · rw [drain_of_ok empty wrote]
      refine ⟨slim.clear, ?_⟩
      rintro _ ⟨⟩
      exact ⟨show 0 < threshold by decide, slim.clear⟩

theorem Ready.flush {s : Staged σ} (ready : s.Ready) : (after s.flush).buffer.IsSlim := by
  obtain ⟨slim, emptied⟩ := drain_spec ready.slim
  rw [Staged.flush]
  rcases drained : s.drain with ⟨e, s'⟩ | s'
  · rw [drained] at slim
    exact slim
  · have ready' := emptied s' drained
    dsimp only
    rcases Receiver.flush s'.sink with ⟨e, sink⟩ | sink <;> exact ready'.slim

/-- One piece: the buffer is slim however writing ends, and ready for the next piece if it went
well. -/
theorem Ready.write {s : Staged σ} (ready : s.Ready) {piece : Bytes}
    (short : piece.length ≤ 1024 * 1024) :
    (after (s.write piece)).buffer.IsSlim ∧ ∀ s', s.write piece = .ok s' → s'.Ready := by
  have slim : (s.add piece).buffer.IsSlim := by
    have few := ready.few
    simp only [threshold] at few
    exact ready.slim.append (by simp only [Buffer.most]; omega)
  rw [Staged.write]
  split
  · exact drain_spec slim
  · next few =>
    refine ⟨slim, ?_⟩
    rintro _ ⟨⟩
    exact ⟨Nat.lt_of_not_le few, slim⟩

/-- All pieces and the flush at the end. The induction is on the pieces: as long as nothing fails
there is a ready buffer, and whatever fails leaves a slim one. -/
theorem Ready.send {s : Staged σ} (ready : s.Ready) {pieces : List Bytes}
    (short : ∀ piece ∈ pieces, piece.length ≤ 1024 * 1024) :
    (after (Receiver.send s pieces)).buffer.IsSlim := by
  induction pieces generalizing s with
  | nil => exact ready.flush
  | cons piece rest ih =>
    obtain ⟨shortFirst, shortRest⟩ := List.forall_mem_cons.1 short
    obtain ⟨slim, wrote⟩ := ready.write shortFirst
    rw [Receiver.send, Receiver.writeAll_cons]
    change (after (s.write piece >>= _ >>= _)).buffer.IsSlim
    rcases ended : s.write piece with ⟨e, s'⟩ | s'
    · rw [ended] at slim
      exact slim
    · exact ih (wrote s' ended) shortRest

end Staged

/-! ## Printing -/

namespace Printer

variable {σ : Type} [Receiver σ] {t : Template} {p : Printer} {uses : Nat}

/-- The buffer goes back to the pool however printing ends. -/
theorem printTo_buffers (p : Printer) (sink : σ) (g : Graph) :
    (p.printTo sink g).printer.buffers =
      p.buffers.acquire.2.release (Staged.after (Receiver.send
        (.mk p.buffers.acquire.1 sink 0 : Staged σ) ((p.template.pieces g).map Utf8.encode))).buffer := by
  change _ = p.buffers.acquire.2.release (Staged.after
    (p.template.writeTo (.mk p.buffers.acquire.1 sink 0 : Staged σ) g >>= Receiver.flush)).buffer
  unfold printTo
  dsimp only
  rcases p.template.writeTo (.mk p.buffers.acquire.1 sink 0 : Staged σ) g >>= Receiver.flush
    with ⟨e, s⟩ | s <;> rfl

/-- One call is one use of a buffer. -/
theorem printTo_settled (little : p.template.CopiesLittle) (settled : p.buffers.Settled uses)
    (sink : σ) {g : Graph} (counted : g.IsCounted) :
    (p.printTo sink g).printer.buffers.Settled (uses + 1) := by
  have ready : (Staged.mk p.buffers.acquire.1 sink 0).Ready :=
    ⟨by rw [Buffer.length, p.buffers.acquire_contents]; decide, settled.lent⟩
  rw [printTo_buffers]
  exact settled.returned (ready.send fun _ => Template.length_piece_le little counted)

/-- The printers that a template's printer becomes by so many calls, with graphs of any kind and
receivers of any kind, whether they fail or not. -/
inductive After (t : Template) : Nat → Printer → Prop
  | none : After t 0 { template := t }
  | print {σ : Type} [Receiver σ] {uses : Nat} {p : Printer} (before : After t uses p) (sink : σ)
    {g : Graph} (counted : g.IsCounted) : After t (uses + 1) (p.printTo sink g).printer

theorem After.reached (after : After t uses p) : Reached t p := by
  induction after with
  | none => exact .new
  | print before sink counted ih => exact .print ih sink _

/-- The pool of a printer after some calls. The induction is on the calls; each finds the pool as the
one before it left it. -/
theorem After.settled (after : After t uses p) (little : t.CopiesLittle) :
    p.buffers.Settled uses := by
  induction after with
  | none => exact .new
  | print before sink counted ih =>
    refine printTo_settled ?_ ih sink counted
    rw [before.reached.template_eq]
    exact little

end Printer
end GraphScribe
