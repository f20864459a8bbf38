import GraphScribe.Proofs.Decode.Lending
import GraphScribe.Proofs.Printer.Lending

/-!
# One buffer serves all calls

Printers and decoders are used over and over, and a call may end in many ways. Whatever the calls
were, none of them leaves anything behind for the next but the one buffer that all of them use.

* `BufferPool.one_serves_all`: the pools of printers and of decoders after any calls.
-/

namespace GraphScribe

/-- After any printing calls the pool has made one buffer and has it, provided that the template
copies no text of more than a mebibyte. The same holds for either decoder after any calls that read
documents of up to a mebibyte through a buffer; the others, which are those on whole documents where
elements are taken out of them, change nothing. Every call gives what a fresh decoder gives. -/
theorem BufferPool.one_serves_all :
    (∀ {t : Template} {uses : Nat} {p : Printer}, t.CopiesLittle → Printer.After t uses p →
      0 < uses → p.buffers.counters = ⟨1, 1, uses⟩) ∧
    ∀ (kind : DecoderKind) (calls : List DecoderCall),
      let fresh : Decoder := { kind }
      let reading := calls.filter (·.needsBuffer kind)
      (fresh.session calls).1 = calls.map (fun call => (fresh.answer call).1) ∧
      (fresh.session calls).2 = (fresh.session reading).2 ∧
      (reading ≠ [] → (∀ call ∈ reading, call.bytes.length ≤ 1024 * 1024) →
        (fresh.session calls).2.buffers.counters = ⟨1, 1, reading.length⟩) := by
  refine ⟨fun little after used => (after.settled little).counters_of_pos used, ?_⟩
  intro kind calls fresh reading
  refine ⟨fresh.session_results rfl calls, fresh.session_filter calls, fun used short => ?_⟩
  have settled : (fresh.session calls).2.buffers.Settled (0 + calls.countP (·.needsBuffer kind)) := by
    refine Decoder.session_settled .new fun call isCall needs => ?_
    have few := short call (List.mem_filter.2 ⟨isCall, needs⟩)
    simp only [Buffer.most]
    omega
  rw [Nat.zero_add, List.countP_eq_length_filter] at settled
  exact settled.counters_of_pos (List.length_pos_iff.2 used)

/-- A sink that is full, one that cannot flush and one that takes everything. Then documents of which
one is accepted, one is there as a whole and needs no buffer, one lacks a field, one breaks off, and
one cannot be read to its end. -/
theorem BufferPool.one_serves_mixed :
    let t : Template := ⟨"%n%m", [.nodeCount, .edgeCount]⟩
    let first := ({ template := t } : Printer).printTo ({ limit := some 1 } : Sink) .empty
    let second := first.printer.printTo ({ flushFails := true } : Sink) .empty
    let third := second.printer.printTo ({} : Sink) .empty
    let calls : List DecoderCall :=
      [.decode { bytes := Bytes.ofAscii "<g></g>" }, .decodeBytes (Bytes.ofAscii "<g/>"),
        .decode { bytes := Bytes.ofAscii "<g><node/></g>" },
        .decode { bytes := Bytes.ofAscii "<g><node" },
        .decode { bytes := Bytes.ofAscii "<g>", failure := some .connectionReset }]
    let session := ({ kind := .streaming } : Decoder).session calls
    first.outcome = .error .storageFull ∧ second.outcome = .error .flushFailed ∧
      third.outcome = .ok 2 ∧ third.printer.buffers.counters = ⟨1, 1, 3⟩ ∧
      session.1 = [.ok .empty, .ok .empty, .error (.missingField .node .id),
        .error (.truncated 1), .error (.unreadable .connectionReset)] ∧
      session.2.buffers.counters = ⟨1, 1, 4⟩ := by
  intro t first second third calls session
  have counted : Graph.empty.IsCounted := ⟨by decide, by decide⟩
  have after : Printer.After t 3 third.printer :=
    .print (.print (.print .none _ counted) _ counted) _ counted
  have little : t.CopiesLittle := fun copied isText => by simp [t] at isText
  obtain ⟨results, -, counters⟩ := one_serves_all.2 .streaming calls
  refine ⟨by decide +kernel, by decide +kernel, by decide +kernel,
    one_serves_all.1 little after (by decide), ?_, counters (by decide) (by decide)⟩
  refine results.trans ?_
  decide +kernel

end GraphScribe
