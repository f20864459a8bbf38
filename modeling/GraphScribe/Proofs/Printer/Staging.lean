import GraphScribe.Printer
import GraphScribe.Proofs.Template.Output
import Mathlib.Control.Monad.Basic

/-!
# Printing through a buffer

The buffer in front of a receiver only cuts the output into chunks: printing offers the receiver
these chunks in order, up to the first failure, and then flushes it. Where the chunks end depends on
the pieces alone, not on the buffer that the pool lent out nor on how the receiver behaves.

* `Staged.shown_run`: a run through the buffer is a run of the receiver on the chunks.
* `Printer.printTo_of_ok`, `Printer.printTo_of_error`: the same for printing.
* `Printer.print_refines`: what a receiver that accepts so many bytes in all is left with, however
  the printer was used before.
-/

namespace GraphScribe

variable {σ : Type}

/-! ## Receivers -/

namespace Receiver

section
variable [Receiver σ]

/-- Offers byte strings in order and flushes, up to the first failure. -/
def send (s : σ) (chunks : List Bytes) : Except (SystemError × σ) σ :=
  writeAll s chunks >>= flush

theorem send_of_ok {s full : σ} {chunks : List Bytes} (h : writeAll s chunks = .ok full) :
    send s chunks = flush full := by
  rw [send, h]
  rfl

theorem send_of_error {s last : σ} {chunks : List Bytes} {e : SystemError}
    (h : writeAll s chunks = .error (e, last)) : send s chunks = .error (e, last) := by
  rw [send, h]
  rfl

end

/-- So many bytes fit where there may be a limit. -/
def Fits (limit : Option Nat) (count : Nat) : Prop :=
  ∀ most ∈ limit, count ≤ most

theorem Fits.mono {limit : Option Nat} {fewer more : Nat} (h : Fits limit more)
    (le : fewer ≤ more) : Fits limit fewer :=
  fun most isLimit => Nat.le_trans le (h most isLimit)

end Receiver

/-- A receiver that accepts so many bytes in all. It takes what it is offered while that fits. What
does not fit it refuses, and may take a first part of it. Flushing, whether it fails or not, leaves
what it took. -/
class BoundedReceiver (σ : Type) extends Receiver σ where
  /-- The bytes taken so far. -/
  taken : σ → Bytes
  /-- The largest number of bytes that it takes, if there is one. -/
  limit : σ → Option Nat
  write_of_fits : ∀ {s : σ} {bytes : Bytes},
    Receiver.Fits (limit s) (taken s ++ bytes).length →
      ∃ s', write s bytes = .ok s' ∧ taken s' = taken s ++ bytes ∧ limit s' = limit s
  write_of_not_fits : ∀ {s : σ} {bytes : Bytes},
    ¬ Receiver.Fits (limit s) (taken s ++ bytes).length →
      ∃ e s' part, write s bytes = .error (e, s') ∧ part <+: bytes ∧ taken s' = taken s ++ part
  taken_of_flush : ∀ {s last : σ}, flush s = .ok last → taken last = taken s
  taken_of_flush_error : ∀ {s last : σ} {e : SystemError},
    flush s = .error (e, last) → taken last = taken s

namespace BoundedReceiver

variable [BoundedReceiver σ]

theorem writeAll_of_fits {s : σ} {chunks : List Bytes}
    (fits : Receiver.Fits (limit s) (taken s ++ chunks.flatten).length) :
    ∃ full, Receiver.writeAll s chunks = .ok full ∧ taken full = taken s ++ chunks.flatten := by
  induction chunks generalizing s with
  | nil => exact ⟨s, rfl, (List.append_nil _).symm⟩
  | cons chunk rest ih =>
    rw [List.flatten_cons, ← List.append_assoc] at fits ⊢
    have chunkFits : Receiver.Fits (limit s) (taken s ++ chunk).length :=
      fits.mono (by simp only [List.length_append]; omega)
    obtain ⟨next, wrote, took, sameLimit⟩ := write_of_fits chunkFits
    rw [← took, ← sameLimit] at fits
    obtain ⟨full, wroteAll, tookAll⟩ := ih fits
    refine ⟨full, ?_, by rw [tookAll, took]⟩
    rw [Receiver.writeAll_cons, wrote]
    exact wroteAll

theorem writeAll_of_not_fits {s : σ} {chunks : List Bytes}
    (tooMany : ¬ Receiver.Fits (limit s) (taken s ++ chunks.flatten).length)
    (before : Receiver.Fits (limit s) (taken s).length) :
    ∃ e last, Receiver.writeAll s chunks = .error (e, last) ∧
      taken last <+: taken s ++ chunks.flatten := by
  induction chunks generalizing s with
  | nil => exact absurd (by simpa using before) tooMany
  | cons chunk rest ih =>
    rw [Receiver.writeAll_cons]
    rw [List.flatten_cons, ← List.append_assoc] at tooMany ⊢
    by_cases chunkFits : Receiver.Fits (limit s) (taken s ++ chunk).length
    · obtain ⟨next, wrote, took, sameLimit⟩ := write_of_fits chunkFits
      rw [← took, ← sameLimit] at tooMany chunkFits
      obtain ⟨e, last, failed, prefixed⟩ := ih tooMany chunkFits
      rw [took] at prefixed
      exact ⟨e, last, by rw [wrote]; exact failed, prefixed⟩
    · obtain ⟨e, last, part, failed, isPart, took⟩ := write_of_not_fits chunkFits
      refine ⟨e, last, by rw [failed]; rfl, ?_⟩
      rw [took]
      exact ((List.prefix_append_right_inj _).2 isPart).trans (List.prefix_append _ _)

end BoundedReceiver

namespace Sink

theorem hasRoom_iff (s : Sink) (count : Nat) :
    s.hasRoom count = true ↔ Receiver.Fits s.limit count := by
  unfold hasRoom Receiver.Fits
  cases s.limit <;> simp

theorem flush_eq (s : Sink) :
    s.flush = .ok s ∨ s.flush = .error (.flushFailed, s) := by
  unfold flush
  cases s.flushFails
  · exact .inl rfl
  · exact .inr rfl

instance : BoundedReceiver Sink where
  taken s := s.held.toList
  limit := limit
  write_of_fits {s bytes} fits := by
    have room : s.hasRoom (s.held.size + bytes.length) = true := by
      simpa [hasRoom_iff] using fits
    exact ⟨_, if_pos room, by simp, rfl⟩
  write_of_not_fits {s bytes} tooMany := by
    have full : ¬ s.hasRoom (s.held.size + bytes.length) = true := by
      simpa [hasRoom_iff] using tooMany
    exact ⟨.storageFull, s, [], if_neg full, List.nil_prefix, (List.append_nil _).symm⟩
  taken_of_flush {s last} flushed := by
    rcases s.flush_eq with h | h <;> cases h.symm.trans flushed
    rfl
  taken_of_flush_error {s last e} failed := by
    rcases s.flush_eq with h | h <;> cases h.symm.trans failed
    rfl

end Sink

/-! ## What the buffer hands on -/

namespace Staged

/-- The chunks in which a buffer that holds `staged` hands on pieces and, in the end, what is
left. -/
def chunks : Bytes → List Bytes → List Bytes
  | staged, [] => if staged.isEmpty then [] else [staged]
  | staged, piece :: rest =>
    if threshold ≤ (staged ++ piece).length then (staged ++ piece) :: chunks [] rest
    else chunks (staged ++ piece) rest

/-- Nothing is lost, added or moved in the buffer. -/
theorem chunks_flatten (staged : Bytes) (pieces : List Bytes) :
    (chunks staged pieces).flatten = staged ++ pieces.flatten := by
  induction pieces generalizing staged with
  | nil => cases staged <;> simp [chunks]
  | cons piece rest ih =>
    rw [chunks]
    split
    · rw [List.flatten_cons, ih, List.flatten_cons, List.nil_append, List.append_assoc]
    · rw [ih, List.flatten_cons, List.append_assoc]

theorem add_contents (s : Staged σ) (piece : Bytes) :
    (s.add piece).buffer.contents.toList = s.buffer.contents.toList ++ piece := by
  simp [add, Buffer.append]

section
variable [Receiver σ]

/-- What can be seen of a run through the buffer: the receiver, and the number of bytes written if
nothing failed. -/
def shown : Except (SystemError × Staged σ) (Staged σ) → Except (SystemError × σ) (σ × Nat)
  | .ok s => .ok (s.sink, s.written)
  | .error (e, s) => .error (e, s.sink)

theorem drain_of_empty {s : Staged σ} (empty : s.buffer.contents = #[]) : s.drain = .ok s := by
  rw [drain, empty]
  rfl

theorem drain_of_ok {s : Staged σ} (filled : s.buffer.contents ≠ #[]) {sink : σ}
    (wrote : Receiver.write s.sink s.buffer.contents.toList = .ok sink) :
    s.drain = .ok { s with buffer := s.buffer.clear, sink } := by
  rw [drain, if_neg (mt Array.isEmpty_iff.1 filled), wrote]

theorem drain_of_error {s : Staged σ} (filled : s.buffer.contents ≠ #[]) {e : SystemError}
    {sink : σ} (failed : Receiver.write s.sink s.buffer.contents.toList = .error (e, sink)) :
    s.drain = .error (e, { s with sink }) := by
  rw [drain, if_neg (mt Array.isEmpty_iff.1 filled), failed]

theorem shown_flush_of_drained {s drained : Staged σ} (h : s.drain = .ok drained) :
    shown s.flush = (Receiver.flush drained.sink).map fun sink => (sink, drained.written) := by
  rw [flush, h]
  dsimp only
  rcases Receiver.flush drained.sink with ⟨e, sink⟩ | sink <;> rfl

theorem shown_flush (s : Staged σ) :
    shown s.flush = (Receiver.send s.sink (chunks s.buffer.contents.toList [])).map
      fun sink => (sink, s.written) := by
  by_cases empty : s.buffer.contents = #[]
  · rw [shown_flush_of_drained (drain_of_empty empty), empty]
    rfl
  · have filled : ¬ s.buffer.contents.toList.isEmpty = true := by simpa using empty
    rw [chunks, if_neg filled, Receiver.send, Receiver.writeAll_cons]
    rcases wrote : Receiver.write s.sink s.buffer.contents.toList with ⟨e, sink⟩ | sink
    · rw [flush, drain_of_error empty wrote]
      rfl
    · rw [shown_flush_of_drained (drain_of_ok empty wrote)]
      rfl

theorem write_of_few {s : Staged σ} {piece : Bytes}
    (few : ¬ threshold ≤ (s.buffer.contents.toList ++ piece).length) :
    s.write piece = .ok (s.add piece) := by
  rw [← add_contents] at few
  exact if_neg few

theorem write_of_many {s : Staged σ} {piece : Bytes}
    (many : threshold ≤ (s.buffer.contents.toList ++ piece).length) :
    s.write piece = (s.add piece).drain ∧ (s.add piece).buffer.contents ≠ #[] := by
  rw [← add_contents] at many
  refine ⟨if_pos many, fun empty => ?_⟩
  rw [empty] at many
  exact absurd many (by decide)

/-- A run through the buffer is a run of the receiver on the chunks. The induction is on the pieces;
the buffer that it starts from holds whatever was not handed on yet. -/
theorem shown_run (s : Staged σ) (pieces : List Bytes) :
    shown (Receiver.send s pieces) =
      (Receiver.send s.sink (chunks s.buffer.contents.toList pieces)).map
        fun sink => (sink, s.written + pieces.flatten.length) := by
  induction pieces generalizing s with
  | nil => exact shown_flush s
  | cons piece rest ih =>
    have total : s.written + (piece :: rest).flatten.length =
        (s.add piece).written + rest.flatten.length := by
      rw [List.flatten_cons, List.length_append, ← Nat.add_assoc]
      rfl
    rw [total, chunks, Receiver.send, Receiver.writeAll_cons]
    by_cases many : threshold ≤ (s.buffer.contents.toList ++ piece).length
    · obtain ⟨drains, filled⟩ := write_of_many many
      rw [if_pos many, ← add_contents, Receiver.send, Receiver.writeAll_cons]
      change shown (s.write piece >>= _ >>= _) = _
      rw [drains]
      rcases wrote : Receiver.write s.sink (s.add piece).buffer.contents.toList with ⟨e, sink⟩ | sink
      · rw [drain_of_error filled wrote]
        rfl
      · rw [drain_of_ok filled wrote]
        exact ih _
    · rw [if_neg many, ← add_contents]
      change shown (s.write piece >>= _ >>= _) = _
      rw [write_of_few many]
      exact ih _

end

end Staged

/-! ## Printing -/

namespace Template

/-- The chunks in which a printer hands on the output of a template. -/
def chunks (t : Template) (g : Graph) : List Bytes :=
  Staged.chunks [] ((t.pieces g).map Utf8.encode)

theorem chunks_flatten (t : Template) (g : Graph) : (t.chunks g).flatten = t.render g := by
  rw [chunks, Staged.chunks_flatten, List.nil_append, flatten_pieces]

end Template

namespace Printer

section
variable [Receiver σ]

/-- What printing shows of its receiver, as `Staged.shown` does. -/
def shown (printed : Printed σ) : Except (SystemError × σ) (σ × Nat) :=
  match printed.outcome with
  | .ok written => .ok (printed.sink, written)
  | .error e => .error (e, printed.sink)

/-- Printing offers the receiver the chunks of the output and flushes it. The printer has no part in
it but its template. -/
theorem shown_printTo (p : Printer) (sink : σ) (g : Graph) :
    shown (p.printTo sink g) =
      (Receiver.send sink (p.template.chunks g)).map fun last =>
        (last, (p.template.render g).length) := by
  have run := Staged.shown_run (.mk p.buffers.acquire.1 sink 0) ((p.template.pieces g).map Utf8.encode)
  rw [p.buffers.acquire_contents, Template.flatten_pieces, Nat.zero_add] at run
  refine Eq.trans ?_ run
  change _ = Staged.shown (p.template.writeTo (.mk p.buffers.acquire.1 sink 0 : Staged σ) g >>= _)
  unfold printTo
  dsimp only
  rcases p.template.writeTo (.mk p.buffers.acquire.1 sink 0 : Staged σ) g >>= Receiver.flush
    with ⟨e, s⟩ | s <;> rfl

theorem printTo_of_ok {p : Printer} {sink last : σ} {g : Graph}
    (sent : Receiver.send sink (p.template.chunks g) = .ok last) :
    (p.printTo sink g).outcome = .ok (p.template.render g).length ∧
      (p.printTo sink g).sink = last := by
  have seen := p.shown_printTo sink g
  rw [sent, shown] at seen
  split at seen
  · next written ended =>
    cases seen
    exact ⟨ended, rfl⟩
  · cases seen

theorem printTo_of_error {p : Printer} {sink last : σ} {g : Graph} {e : SystemError}
    (failed : Receiver.send sink (p.template.chunks g) = .error (e, last)) :
    (p.printTo sink g).outcome = .error e ∧ (p.printTo sink g).sink = last := by
  have seen := p.shown_printTo sink g
  rw [failed, shown] at seen
  split at seen
  · cases seen
  · next ended =>
    cases seen
    exact ⟨ended, rfl⟩

/-- Printers with one template print alike. -/
theorem printTo_congr {p q : Printer} (same : p.template = q.template) (sink : σ) (g : Graph) :
    (p.printTo sink g).outcome = (q.printTo sink g).outcome ∧
      (p.printTo sink g).sink = (q.printTo sink g).sink := by
  rcases sent : Receiver.send sink (p.template.chunks g) with ⟨e, last⟩ | last
  · obtain ⟨outcome, left⟩ := printTo_of_error sent
    have sent' : Receiver.send sink (q.template.chunks g) = .error (e, last) := same ▸ sent
    obtain ⟨outcome', left'⟩ := printTo_of_error sent'
    exact ⟨outcome.trans outcome'.symm, left.trans left'.symm⟩
  · obtain ⟨outcome, left⟩ := printTo_of_ok sent
    have sent' : Receiver.send sink (q.template.chunks g) = .ok last := same ▸ sent
    obtain ⟨outcome', left'⟩ := printTo_of_ok sent'
    rw [same] at outcome
    exact ⟨outcome.trans outcome'.symm, left.trans left'.symm⟩

theorem printTo_template (p : Printer) (sink : σ) (g : Graph) :
    (p.printTo sink g).printer.template = p.template := by
  unfold printTo
  dsimp only
  split <;> rfl

end

/-- The printers that a template's printer becomes by printing graphs to receivers of any kind,
whether that fails or not. -/
inductive Reached (t : Template) : Printer → Prop
  | new : Reached t { template := t }
  | print {σ : Type} [Receiver σ] {p : Printer} (before : Reached t p) (sink : σ) (g : Graph) :
    Reached t (p.printTo sink g).printer

theorem Reached.template_eq {t : Template} {p : Printer} (reached : Reached t p) :
    p.template = t := by
  induction reached with
  | new => rfl
  | print before sink g ih => rw [printTo_template, ih]

open BoundedReceiver in
/-- However a printer was used before, what it does is what writing without a buffer comes to: the
receiver refuses exactly what is too long for it, otherwise it has the whole output, and the result
is that of flushing it. No call leaves a trace in the next. -/
theorem print_refines [BoundedReceiver σ] {t : Template} {p : Printer} (reached : Reached t p)
    (g : Graph) (sink : σ) (empty : taken sink = []) :
    ∃ out,
      t.writeTo ({} : Sink) g = .ok { held := out.toArray } ∧
      (p.printTo sink g).outcome = (printTo { template := t } sink g).outcome ∧
      (p.printTo sink g).sink = (printTo { template := t } sink g).sink ∧
      (¬ Receiver.Fits (limit sink) out.length →
        ∃ chunks e, chunks.flatten = out ∧
          Receiver.writeAll sink chunks = .error (e, (p.printTo sink g).sink) ∧
          (p.printTo sink g).outcome = .error e ∧
          taken (p.printTo sink g).sink <+: out) ∧
      (Receiver.Fits (limit sink) out.length →
        ∃ chunks full, chunks.flatten = out ∧
          Receiver.writeAll sink chunks = .ok full ∧ taken full = out ∧
          match Receiver.flush full with
          | .error (e, last) =>
            (p.printTo sink g).outcome = .error e ∧ (p.printTo sink g).sink = last ∧
              taken last = out
          | .ok last =>
            (p.printTo sink g).outcome = .ok out.length ∧ (p.printTo sink g).sink = last ∧
              taken last = out) := by
  have template := reached.template_eq
  have flat := p.template.chunks_flatten g
  have whole : taken sink ++ (p.template.chunks g).flatten = p.template.render g := by
    rw [empty, flat, List.nil_append]
  obtain ⟨sameOutcome, sameSink⟩ := printTo_congr (q := { template := t }) template sink g
  refine ⟨p.template.render g, template ▸ p.template.writeTo_unlimited g, sameOutcome, sameSink,
    fun tooMany => ?_, fun fits => ?_⟩
  · rw [← whole] at tooMany
    obtain ⟨e, last, failed, isPrefix⟩ := writeAll_of_not_fits tooMany
      (by rw [empty]; exact fun _ _ => Nat.zero_le _)
    obtain ⟨outcome, left⟩ := printTo_of_error (Receiver.send_of_error failed)
    rw [left]
    rw [whole] at isPrefix
    exact ⟨_, e, flat, failed, outcome, isPrefix⟩
  · rw [← whole] at fits
    obtain ⟨full, wrote, took⟩ := writeAll_of_fits fits
    rw [whole] at took
    refine ⟨_, full, flat, wrote, took, ?_⟩
    have sent := Receiver.send_of_ok wrote
    split
    · next e last failed =>
      rw [failed] at sent
      obtain ⟨outcome, left⟩ := printTo_of_error sent
      exact ⟨outcome, left, (taken_of_flush_error failed).trans took⟩
    · next last flushed =>
      rw [flushed] at sent
      obtain ⟨outcome, left⟩ := printTo_of_ok sent
      exact ⟨outcome, left, (taken_of_flush flushed).trans took⟩

/-- A printer whose last call was refused: the next call is not, where there is room. -/
theorem print_refines_afterRefusal :
    let t : Template := ⟨"%n%m", [.nodeCount, .edgeCount]⟩
    let used := (printTo { template := t } ({ limit := some 1 } : Sink) ⟨[], []⟩).printer
    Reached t used ∧ BoundedReceiver.taken ({ limit := some 2 } : Sink) = [] ∧
      BoundedReceiver.taken (used.printTo ({ limit := some 2 } : Sink) ⟨[], []⟩).sink =
        Bytes.ofAscii "00" ∧
      ∃ e, (used.printTo ({ limit := some 1 } : Sink) ⟨[], []⟩).outcome = .error e := by
  intro t used
  have reached : Reached t used := .print .new _ _
  have output : t.writeTo ({} : Sink) ⟨[], []⟩ = .ok { held := #[0x30, 0x30] } := by decide +kernel
  have same {out : Bytes} (wrote : t.writeTo ({} : Sink) ⟨[], []⟩ = .ok { held := out.toArray }) :
      out = [0x30, 0x30] := by
    have held := congrArg Sink.held (Except.ok.inj (wrote.symm.trans output))
    exact congrArg Array.toList held
  refine ⟨reached, rfl, ?_, ?_⟩
  · obtain ⟨out, wrote, -, -, -, fits⟩ :=
      print_refines reached ⟨[], []⟩ ({ limit := some 2 } : Sink) rfl
    cases same wrote
    obtain ⟨-, full, -, -, -, flushed⟩ := fits (by rintro most ⟨⟩; decide)
    split at flushed
    · obtain ⟨-, rfl, took⟩ := flushed
      exact took
    · obtain ⟨-, rfl, took⟩ := flushed
      exact took
  · obtain ⟨out, wrote, -, -, tooMany, -⟩ :=
      print_refines reached ⟨[], []⟩ ({ limit := some 1 } : Sink) rfl
    cases same wrote
    obtain ⟨-, e, -, -, outcome, -⟩ := tooMany fun fits => absurd (fits 1 rfl) (by decide)
    exact ⟨e, outcome⟩

end Printer
end GraphScribe
