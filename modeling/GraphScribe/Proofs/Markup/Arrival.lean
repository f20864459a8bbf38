import GraphScribe.Proofs.Markup.Feed
import GraphScribe.Proofs.Markup.Locality
import GraphScribe.Proofs.Outcome
import GraphScribe.Proofs.Runs

/-!
# Documents that fail to arrive

A reader of events that meets a failure has seen only the beginning of a document. An event that is
complete there, or a fault that nothing mends, is the same in every document with this beginning;
all else depends on what follows, and then the failure is what the reader reports.

* `Scan.ofBytes_append`: what is settled stays as it is before more bytes.
* `EventReader.Arriving.next_alike`: one event.
* `EventReader.Arriving.feed_arrives`: all events.
-/

namespace GraphScribe.Markup

/-- What a reader finds by the first bytes it finds before more bytes. -/
theorem SeenIn.append {α : Type} {read : Bytes → α} {bytes : Bytes} {n : Nat} {result : α}
    (seen : SeenIn read bytes n result) (more : Bytes) :
    read (bytes ++ more) = result ∧ n ≤ bytes.length := by
  obtain ⟨front, tail, rfl, length, same⟩ := seen
  rw [List.append_assoc, List.length_append]
  exact ⟨same (tail ++ more), by omega⟩

namespace Scan

/-- What follows the bytes does not change what stands at their front. -/
def isSettled : Scan → Bool
  | .event _ _ => true
  | .fault _ => true
  | .tail _ => false
  | .ended _ => false

variable {bytes : Bytes}

theorem tagCloser_append_more {i : Nat} (closed : tagCloser none 1 (bytes.drop 1) = some i)
    (more : Bytes) :
    tagCloser none 1 ((bytes ++ more).drop 1) = some i ∧
      (bytes ++ more).take i = bytes.take i := by
  have ends : tagEnd bytes = some i := (tagEndFrom_eq _ 1).trans closed
  obtain ⟨ends', within⟩ := (tagEnd_local ends).2.append more
  exact ⟨(tagEndFrom_eq _ 1).symm.trans ends',
    List.take_append_of_le_length (Nat.le_of_succ_le within)⟩

/-- A verbatim section cannot close within its opener. -/
theorem verbatim_opener_append {length : Nat} (closed : closedBy "]]>" 2 bytes = some length)
    (more : Bytes) :
    (Bytes.ofAscii "<![CDATA[").isPrefixOf (bytes ++ more) =
      (Bytes.ofAscii "<![CDATA[").isPrefixOf bytes := by
  by_cases fits : (Bytes.ofAscii "<![CDATA[").length ≤ bytes.length
  · have same := isPrefixOf_append fits more []
    rwa [List.append_nil] at same
  · have short : ¬ Bytes.ofAscii "<![CDATA[" <+: bytes := fun begins => fits begins.length_le
    -- The bytes would lie in the opener, which holds no terminator.
    have short' : ¬ Bytes.ofAscii "<![CDATA[" <+: bytes ++ more := by
      intro begins
      obtain ⟨tail, whole⟩ := List.prefix_of_prefix_length_le (List.prefix_append bytes more) begins
        (Nat.le_of_not_le fits)
      have closed' := ((closedBy_local (by decide) closed).append tail).1
      have unclosed : closedBy "]]>" 2 (Bytes.ofAscii "<![CDATA[") = none := by decide
      rw [whole, unclosed] at closed'
      cases closed'
    rw [Bool.eq_iff_iff, List.isPrefixOf_iff_prefix, List.isPrefixOf_iff_prefix]
    exact iff_of_false short' short

theorem ofVerbatim_append (settled : (ofVerbatim bytes).isSettled = true) (more : Bytes) :
    ofVerbatim (bytes ++ more) = ofVerbatim bytes := by
  unfold ofVerbatim at settled ⊢
  cases closed : closedBy "]]>" 2 bytes with
  | none =>
    rw [closed] at settled
    cases settled
  | some length =>
    obtain ⟨closed', within⟩ := (closedBy_local (by decide) closed).append more
    have same : (bytes ++ more).take (length - 3) = bytes.take (length - 3) :=
      List.take_append_of_le_length (Nat.le_trans (Nat.sub_le _ _) within)
    rw [closed', verbatim_opener_append closed]
    dsimp only
    rw [same]

theorem ofComment_append (settled : (ofComment bytes).isSettled = true) (more : Bytes) :
    ofComment (bytes ++ more) = ofComment bytes := by
  unfold ofComment at settled ⊢
  cases closed : closedBy "-->" 4 bytes with
  | none =>
    rw [closed] at settled
    cases settled
  | some length =>
    obtain ⟨closed', within⟩ := (closedBy_local (by decide) closed).append more
    have long : 4 + 3 ≤ length := closedBy_le closed
    have fits : (Bytes.ofAscii "<!--").length ≤ bytes.length :=
      Nat.le_trans (Nat.le_of_add_right_le long) within
    have opens := isPrefixOf_append fits more []
    rw [List.append_nil] at opens
    rw [closed', opens]

theorem ofDeclaration_append (settled : (ofDeclaration bytes).isSettled = true) (more : Bytes) :
    ofDeclaration (bytes ++ more) = ofDeclaration bytes := by
  unfold ofDeclaration at settled ⊢
  cases closed : bracketCloser 0 2 (bytes.drop 2) with
  | none =>
    rw [closed] at settled
    cases settled
  | some i =>
    have ends : declarationEnd bytes = some i := (declarationEnd_eq bytes).trans closed
    obtain ⟨ends', within⟩ := (declarationEnd_local ends).append more
    have same : (bytes ++ more).take i = bytes.take i :=
      List.take_append_of_le_length (Nat.le_of_succ_le within)
    rw [← declarationEnd_eq, ends']
    dsimp only
    rw [same]

theorem ofBang_append (settled : (ofBang bytes).isSettled = true) (more : Bytes) :
    ofBang (bytes ++ more) = ofBang bytes := by
  unfold ofBang at settled ⊢
  cases third : bytes[2]? with
  | none =>
    rw [third] at settled
    cases settled
  | some b =>
    obtain ⟨long, -⟩ := List.getElem?_eq_some_iff.1 third
    rw [third] at settled
    rw [List.getElem?_append_left long, third]
    dsimp only at settled ⊢
    split
    · next verbatim =>
      rw [if_pos verbatim] at settled
      exact ofVerbatim_append settled more
    · next other =>
      rw [if_neg other] at settled
      split
      · next comment =>
        rw [if_pos comment] at settled
        exact ofComment_append settled more
      · next other =>
        rw [if_neg other] at settled
        split
        · next declaration =>
          rw [if_pos declaration] at settled
          exact ofDeclaration_append settled more
        · rfl

theorem ofInstruction_append (settled : (ofInstruction bytes).isSettled = true) (more : Bytes) :
    ofInstruction (bytes ++ more) = ofInstruction bytes := by
  unfold ofInstruction at settled ⊢
  cases closed : closedBy "?>" 1 bytes with
  | none =>
    rw [closed] at settled
    cases settled
  | some length => rw [((closedBy_local (by decide) closed).append more).1]

theorem ofEndTag_append (settled : (ofEndTag bytes).isSettled = true) (more : Bytes) :
    ofEndTag (bytes ++ more) = ofEndTag bytes := by
  unfold ofEndTag at settled ⊢
  cases closed : tagCloser none 1 (bytes.drop 1) with
  | none =>
    rw [closed] at settled
    cases settled
  | some i =>
    obtain ⟨closed', same⟩ := tagCloser_append_more closed more
    rw [closed']
    dsimp only
    rw [same]

theorem ofStartTag_append (settled : (ofStartTag bytes).isSettled = true) (more : Bytes) :
    ofStartTag (bytes ++ more) = ofStartTag bytes := by
  unfold ofStartTag at settled ⊢
  cases closed : tagCloser none 1 (bytes.drop 1) with
  | none =>
    rw [closed] at settled
    cases settled
  | some i =>
    obtain ⟨closed', same⟩ := tagCloser_append_more closed more
    rw [closed']
    dsimp only
    rw [same]

theorem ofText_append (settled : (ofText bytes).isSettled = true) (more : Bytes) :
    ofText (bytes ++ more) = ofText bytes := by
  unfold ofText at settled ⊢
  cases left : bytes.dropWhile (· != opener) with
  | nil =>
    rw [left] at settled
    cases settled
  | cons mark rest =>
    obtain ⟨taken, dropped⟩ := span_append_of_stop left more
    rw [taken, dropped]

/-- An event that is complete, or a fault that nothing mends, stays as it is before more bytes. -/
theorem ofBytes_append (settled : (ofBytes bytes).isSettled = true) (more : Bytes) :
    ofBytes (bytes ++ more) = ofBytes bytes := by
  cases bytes with
  | nil => cases settled
  | cons b rest =>
    unfold ofBytes at settled ⊢
    rw [List.cons_append, List.head?_cons] at *
    rw [List.head?_cons]
    by_cases opens : (some b == some opener) = true
    · rw [if_pos opens] at settled
      rw [if_pos opens, if_pos opens]
      cases rest with
      | nil => cases settled
      | cons second rest =>
        dsimp only [List.getElem?_cons_succ, List.getElem?_cons_zero, List.cons_append] at settled ⊢
        split
        · next declares =>
          rw [if_pos declares] at settled
          exact ofBang_append settled more
        · next other =>
          rw [if_neg other] at settled
          split
          · next ends =>
            rw [if_pos ends] at settled
            exact ofEndTag_append settled more
          · next other =>
            rw [if_neg other] at settled
            split
            · next instructs =>
              rw [if_pos instructs] at settled
              exact ofInstruction_append settled more
            · next other =>
              rw [if_neg other] at settled
              exact ofStartTag_append settled more
    · rw [if_neg opens] at settled
      rw [if_neg opens, if_neg opens]
      exact ofText_append settled more

/-- A text that may go on is not settled. -/
theorem not_isSettled_of_plain (plain : bytes.dropWhile (· != opener) = []) :
    (ofBytes bytes).isSettled = false := by
  cases bytes with
  | nil => rfl
  | cons b rest =>
    have text : ¬ (some b == some opener) = true := by
      intro same
      cases eq_of_beq same
      cases plain
    unfold ofBytes ofText
    rw [List.head?_cons, if_neg text, plain]
    rfl

theorem ofBytes_of_text {b : UInt8} {rest : Bytes} (text : b ≠ opener)
    (opens : (b :: rest).dropWhile (· != opener) ≠ []) :
    ofBytes (b :: rest) = .event (.text ((b :: rest).takeWhile (· != opener)))
      ((b :: rest).takeWhile (· != opener)).length := by
  have text' : ¬ (some b == some opener) = true :=
    fun same => text (Option.some.inj (eq_of_beq same))
  obtain ⟨mark, after, left⟩ := List.exists_cons_of_ne_nil opens
  unfold ofBytes ofText
  rw [List.head?_cons, if_neg text', left]

end Scan

/-! ## One event -/

/-- A feed that a failure may end, and one that none does: they correspond item for item until the
failure, or both end alike. -/
inductive Feed.Arrives {α α' : Type} (R : α → α' → Prop) (failure : SystemError) :
    Feed α → Feed α' → Prop where
  | lost (whole : Feed α') : Arrives R failure (.broken (.unreadable failure)) whole
  | stopped (stop : EventStop) (position position' : Nat) :
    Arrives R failure (stop.feed position) (stop.feed position')
  | item {a : α} {a' : α'} {rest : Feed α} {rest' : Feed α'} :
    R a a' → Arrives R failure rest rest' → Arrives R failure (.item a rest) (.item a' rest')

namespace EventReader

/-- One reader meets a failure after the first bytes that another one reads. -/
structure Arriving (failure : SystemError) (r r' : EventReader) : Prop where
  fails : r.failure = some failure
  complete : r'.failure = none
  begins : r.rest <+: r'.rest
  openNames : r'.openNames = r.openNames

variable {failure : SystemError} {r r' : EventReader} {e : Event} {stop : EventStop}

/-- Where nothing is settled before a failure, the failure is reported. -/
theorem next_of_unsettled (fails : r.failure = some failure)
    (unsettled : ∀ b rest, r.rest = b :: rest → (Scan.ofBytes (b :: rest)).isSettled = false) :
    r.next = .error (.unreadable failure) := by
  unfold next
  cases left : r.rest with
  | nil =>
    rw [fails]
  | cons b rest =>
    have open' := unsettled b rest left
    dsimp only
    cases scanned : Scan.ofBytes (b :: rest) with
    | event e n =>
      rw [scanned] at open'
      cases open'
    | tail raw => rw [fails]
    | fault fault =>
      rw [scanned] at open'
      cases open'
    | ended fault => rw [fails]

theorem next_of_mended {b : UInt8} {rest : Bytes} {fault : EventFault} (left : r.rest = b :: rest)
    (scanned : Scan.ofBytes (b :: rest) = .fault fault) : r.next = .error (stopOf fault) := by
  unfold next
  rw [left]
  dsimp only
  rw [scanned]

theorem Arriving.advance (arriving : Arriving failure r r') (n : Nat) :
    Arriving failure (r.advance n) (r'.advance n) := by
  obtain ⟨fails, complete, ⟨more, whole⟩, openNames⟩ := arriving
  refine ⟨fails, complete, ?_, openNames⟩
  show r.rest.drop n <+: r'.rest.drop n
  rw [← whole, List.drop_append]
  exact List.prefix_append _ _

theorem Arriving.track_alike (arriving : Arriving failure r r') (e : Event) :
    Alike Eq (Arriving failure) (r.track e) (r'.track e) := by
  obtain ⟨fails, complete, begins, openNames⟩ := arriving
  unfold track
  rw [openNames]
  cases e with
  | start tag => exact ⟨fails, complete, begins, rfl⟩
  | finish name =>
    cases r.openNames with
    | nil => rfl
    | cons expected others =>
      dsimp only
      split
      · exact ⟨fails, complete, begins, rfl⟩
      · rfl
  | empty tag => exact ⟨fails, complete, begins, openNames⟩
  | text raw => exact ⟨fails, complete, begins, openNames⟩
  | verbatim raw => exact ⟨fails, complete, begins, openNames⟩
  | other => exact ⟨fails, complete, begins, openNames⟩

/-- A reader reports the failure, or finds what it would find without it. -/
theorem Arriving.next_alike (arriving : Arriving failure r r') :
    r.next = .error (.unreadable failure) ∨
      Alike Eq (fun found found' => ∃ e q q', found = some (e, q) ∧ found' = some (e, q') ∧
        Arriving failure q q') r.next r'.next := by
  by_cases open' : ∀ b rest, r.rest = b :: rest → (Scan.ofBytes (b :: rest)).isSettled = false
  · exact .inl (next_of_unsettled arriving.fails open')
  · obtain ⟨b, rest, left, settled⟩ : ∃ b rest, r.rest = b :: rest ∧
        (Scan.ofBytes (b :: rest)).isSettled = true := by
      simpa using open'
    obtain ⟨more, whole⟩ := arriving.begins
    have left' : r'.rest = b :: (rest ++ more) := by rw [← whole, left, List.cons_append]
    have same : Scan.ofBytes (b :: (rest ++ more)) = Scan.ofBytes (b :: rest) :=
      Scan.ofBytes_append settled more
    refine .inr ?_
    cases scanned : Scan.ofBytes (b :: rest) with
    | event e n =>
      rw [next_of_event left scanned, next_of_event left' (same.trans scanned)]
      exact ((arriving.advance n).track_alike e).map fun q q' tracked =>
        ⟨e, q, q', rfl, rfl, tracked⟩
    | fault fault =>
      rw [next_of_mended left scanned, next_of_mended left' (same.trans scanned)]
      rfl
    | tail raw =>
      rw [scanned] at settled
      cases settled
    | ended fault =>
      rw [scanned] at settled
      cases settled

/-! ## All events -/

theorem feed_of_stop (next : r.next = .error stop) : r.feed = stop.feed r.position := by
  rw [feed]
  split <;> simp_all

theorem feed_of_event (next : r.next = .ok (some (e, r'))) :
    r.feed = .item (r.position, e) r'.feed := by
  rw [feed]
  split <;> simp_all

/-- Up to the failure both readers find the same events. -/
theorem Arriving.feed_arrives (arriving : Arriving failure r r') :
    Feed.Arrives (fun placed placed' => placed.2 = placed'.2) failure r.feed r'.feed := by
  induction length : r.rest.length using Nat.strongRecOn generalizing r r' with
  | ind length ih =>
    rcases arriving.next_alike with lost | alike
    · rw [feed_of_stop lost]
      exact .lost _
    · rcases found : r.next with stop | found
      · rw [found] at alike
        rcases found' : r'.next with stop' | found'
        · rw [found'] at alike
          obtain rfl : stop = stop' := alike
          rw [feed_of_stop found, feed_of_stop found']
          exact .stopped stop _ _
        · rw [found'] at alike
          exact alike.elim
      · rw [found] at alike
        rcases found' : r'.next with stop' | found'
        · rw [found'] at alike
          exact alike.elim
        · rw [found'] at alike
          obtain ⟨e, q, q', rfl, rfl, later⟩ := alike
          rw [feed_of_event found, feed_of_event found']
          have shorter : q.rest.length < r.rest.length := next_length found
          exact .item rfl (ih _ (length ▸ shorter) later rfl)

/-! ## Before the first tag -/

/-- The reader after the text that stands in front. -/
def skipText (r : EventReader) : EventReader :=
  r.advance (r.rest.takeWhile (· != opener)).length

theorem skipText_rest (r : EventReader) : r.skipText.rest = r.rest.dropWhile (· != opener) :=
  drop_takeWhile _ _

theorem ofSource_failure (s : Source) : (ofSource s).failure = s.failure := by
  unfold ofSource
  split <;> rfl

theorem ofSource_openNames (s : Source) : (ofSource s).openNames = [] := by
  unfold ofSource
  split <;> rfl

/-- A byte order mark is no tag, whether it is known as a mark or not. -/
theorem skipText_ofSource (s : Source) :
    (ofSource s).skipText.rest = s.bytes.dropWhile (· != opener) := by
  rw [skipText_rest]
  unfold ofSource
  split
  · next marked =>
    have begins := List.isPrefixOf_iff_prefix.1 marked
    obtain ⟨rest, whole⟩ := begins.trans (List.take_prefix s.chunk s.bytes)
    rw [← whole]
    rfl
  · rfl

end EventReader
end GraphScribe.Markup
