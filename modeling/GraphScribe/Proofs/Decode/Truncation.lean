import GraphScribe.Proofs.Decode.Places
import GraphScribe.Proofs.Markup.Layout
import GraphScribe.Proofs.Markup.Locality

/-!
# Documents that are cut

A document that is cut inside an element gives no graph. The constructs before the cut are what they
were; the one at the cut is none, or is a shorter text. So the error says how many elements were open,
unless the cut lies in the opener of a declaration, which is then taken for bad markup.

* `Runs.count_elements`: the elements that are open at an offset are those that the reader has
  counted.
* `Runs.take`: a run that is cut.
* `Streaming.layout_complete`: the constructs and elements of an accepted document are all listed.
* `Streaming.decode_take`: a document that is cut.
-/

namespace GraphScribe

open Markup

/-- The construct reaches over the place where a document is cut, and is cut in its opener. -/
def Markup.Placed.CutInOpener (document : Bytes) (cut : Nat) (s : Placed) : Prop :=
  s.start < cut ∧ cut < s.stop ∧ CutsOpener ((document.take cut).drop s.start)

instance (document : Bytes) (cut : Nat) : DecidablePred (Placed.CutInOpener document cut) :=
  fun _ => inferInstanceAs (Decidable (_ ∧ _ ∧ _))

variable {document : Bytes} {p p' : Place} {offset cut : Nat} {outcome : Except DecodeError Graph}
  {g : Graph} {opened : List Opening}

theorem layout_of_step {b : UInt8} {rest : Bytes} {construct : Construct} {n : Nat}
    (left : document.drop offset = b :: rest)
    (constructed : readConstruct (b :: rest) = .ok (construct, n)) :
    (Cursor.within document offset).layout =
      ⟨construct, offset, offset + n⟩ :: (Cursor.within document (offset + n)).layout := by
  rw [← Cursor.within_advance]
  exact Cursor.layout_of_construct (c := .within document offset) left constructed

/-! ## Open elements -/

/-- The elements that wait for their end tags are those whose names the reader knows. -/
theorem Place.length_opens {s : Placed} {stop : Nat} (same : opened.length = p.openNames.length)
    (next : p.read stop s.construct = .ok p') :
    (s.opens opened).length = p'.openNames.length := by
  obtain ⟨construct, start, stop'⟩ := s
  rcases construct with (⟨name, attributes, isEmpty⟩ | name | piece) | _
  · obtain ⟨names, -⟩ := Place.of_enter next
    rw [names]
    cases isEmpty with
    | false => exact congrArg Nat.succ same
    | true => exact same
  · obtain ⟨names, -⟩ := Place.of_leave next
    rw [names] at same
    show opened.tail.length = _
    rw [List.length_tail, same, List.length_cons, Nat.add_sub_cancel]
  · cases next
    exact same
  · cases next
    exact same

/-- An end tag that is accepted has its start tag. -/
theorem Place.opened_of_finish {s : Placed} {stop : Nat}
    (same : opened.length = p.openNames.length) (next : p.read stop s.construct = .ok p')
    (name : Bytes) (finish : s.construct = .token (.finish name)) : opened ≠ [] := by
  rintro rfl
  rw [finish] at next
  obtain ⟨names, -⟩ := Place.of_leave next
  rw [names] at same
  cases same

theorem depth_of_accepted {ε φ : Type} {s : Progress ε φ} (accepted : s.result.graph = .ok g) :
    s.depth = 0 := by
  unfold Progress.result at accepted
  split at accepted
  · cases accepted
  · next shallow => exact Nat.eq_zero_of_not_pos shallow

/-- Where all constructs that follow end behind an offset, the elements of an accepted document that
are open there are those that were open before. -/
theorem Runs.count_elements (runs : Runs document p offset outcome) (accepted : outcome = .ok g)
    (sound : p.Sound) (same : opened.length = p.openNames.length)
    (behind : ∀ s ∈ (Cursor.within document offset).layout, cut < s.stop) :
    (elements opened (Cursor.within document offset).layout).countP (·.OpenAt cut) =
      opened.countP (·.tagStop ≤ cut) := by
  induction runs generalizing opened with
  | @ended p offset left =>
    have closed : p.openNames.length = 0 := sound.symm.trans (depth_of_accepted accepted)
    rw [closed] at same
    rw [List.eq_nil_of_length_eq_zero same, Cursor.layout_of_nil (c := .within document offset) left]
    rfl
  | faulty _ _ => cases accepted
  | refused _ _ _ => cases accepted
  | @step p p' offset n b rest construct outcome left constructed next later ih =>
    rw [layout_of_step left constructed] at behind ⊢
    have counted := Placed.countP_closes (behind _ List.mem_cons_self)
      (Place.opened_of_finish (s := ⟨construct, offset, offset + n⟩) same next)
    rw [elements, List.countP_append, ih accepted (sound.read next) (Place.length_opens same next)
      fun s held => behind s (List.mem_cons_of_mem _ held)]
    exact counted

/-! ## Accepted documents -/

/-- Every byte of an accepted document lies in a construct. -/
theorem Runs.exists_construct (runs : Runs document p offset outcome) (accepted : outcome = .ok g)
    {i : Nat} (reached : offset ≤ i) (inside : i < document.length) :
    ∃ s ∈ (Cursor.within document offset).layout, s.start ≤ i ∧ i < s.stop := by
  induction runs with
  | ended left => exact absurd (List.drop_eq_nil_iff.1 left) (by omega)
  | faulty _ _ => cases accepted
  | refused _ _ _ => cases accepted
  | @step p p' offset n b rest construct outcome left constructed next later ih =>
    rw [layout_of_step left constructed]
    rcases Nat.lt_or_ge i (offset + n) with here | past
    · exact ⟨_, List.mem_cons_self, reached, here⟩
    · obtain ⟨s, held, around⟩ := ih accepted past
      exact ⟨s, List.mem_cons_of_mem _ held, around⟩

/-- Every start tag that waits before the rest of an accepted document is closed in it. -/
theorem Runs.exists_extent (runs : Runs document p offset outcome) (accepted : outcome = .ok g)
    (sound : p.Sound) (same : opened.length = p.openNames.length) {o : Opening}
    (waiting : o ∈ opened) :
    ∃ e ∈ elements opened (Cursor.within document offset).layout, e.toOpening = o := by
  induction runs generalizing opened with
  | ended left =>
    have closed := sound.symm.trans (depth_of_accepted accepted)
    rw [List.eq_nil_of_length_eq_zero (same.trans closed)] at waiting
    cases waiting
  | faulty _ _ => cases accepted
  | refused _ _ _ => cases accepted
  | @step p p' offset n b rest construct outcome left constructed next later ih =>
    rw [layout_of_step left constructed, elements]
    rcases Placed.opens_or_closes (s := ⟨construct, offset, offset + n⟩) waiting with
      waits | ⟨e, here, isIt⟩
    · obtain ⟨e, held, isIt⟩ := ih accepted (sound.read next) (Place.length_opens same next) waits
      exact ⟨e, List.mem_append_right _ held, isIt⟩
    · exact ⟨e, List.mem_append_left _ here, isIt⟩

/-- Every start tag of an accepted document begins an element. -/
theorem Runs.exists_element (runs : Runs document p offset outcome) (accepted : outcome = .ok g)
    (sound : p.Sound) (same : opened.length = p.openNames.length) {s : Placed}
    (held : s ∈ (Cursor.within document offset).layout) {name attributes : Bytes} {isEmpty : Bool}
    (start : s.construct = .token (.start name attributes isEmpty)) :
    ∃ e ∈ elements opened (Cursor.within document offset).layout,
      e.toOpening = ⟨s.start, s.stop⟩ := by
  induction runs generalizing opened with
  | @ended p offset left =>
    rw [Cursor.layout_of_nil (c := .within document offset) left] at held
    cases held
  | faulty _ _ => cases accepted
  | refused _ _ _ => cases accepted
  | @step p p' offset n b rest construct outcome left constructed next later ih =>
    rw [layout_of_step left constructed] at held ⊢
    have sound' := sound.read next
    have same' := Place.length_opens (s := ⟨construct, offset, offset + n⟩) same next
    rw [elements]
    rcases List.mem_cons.1 held with rfl | among
    · rcases Placed.mem_of_start start with waits | ⟨e, here, isIt⟩
      · obtain ⟨e, held, isIt⟩ := later.exists_extent accepted sound' same' waits
        exact ⟨e, List.mem_append_right _ held, isIt⟩
      · exact ⟨e, List.mem_append_left _ here, isIt⟩
    · obtain ⟨e, held, isIt⟩ := ih accepted sound' same' among
      exact ⟨e, List.mem_append_right _ held, isIt⟩

/-! ## Runs that are cut -/

/-- What comes of a document that is cut, where the constructs and elements from a place on are
given. -/
def CutShort (document : Bytes) (cut : Nat) (layout : List Placed) (extents : List Extent)
    (e : DecodeError) : Prop :=
  (∀ s ∈ layout, s.CutInOpener document cut → e = .malformed s.start .unknownDeclaration) ∧
    ((∀ s ∈ layout, ¬ s.CutInOpener document cut) →
      e = .truncated (extents.countP (·.OpenAt cut)))

/-- What is left of a document that is cut further on. -/
theorem exists_drop_take {b : UInt8} {rest : Bytes} (left : document.drop offset = b :: rest)
    (reached : offset < cut) : ∃ rest', (document.take cut).drop offset = b :: rest' ∧
      b :: rest' = (b :: rest).take (cut - offset) := by
  obtain ⟨k, count⟩ : ∃ k, cut - offset = k + 1 := ⟨cut - offset - 1, by omega⟩
  refine ⟨rest.take k, ?_, ?_⟩
  · rw [List.drop_take, left, count, List.take_succ_cons]
  · rw [count, List.take_succ_cons]

theorem drop_take_of_le (reached : cut ≤ offset) : (document.take cut).drop offset = [] :=
  List.drop_eq_nil_of_le (Nat.le_trans (List.length_take_le cut document) reached)

theorem result_of_open {ε φ : Type} {s : Progress ε φ} (deep : 0 < s.depth) :
    s.result.graph = .error (.truncated s.depth) := by
  rw [Progress.result, if_pos deep]
  rfl

/-- An element that begins before constructs is open before them. -/
theorem opened_of_mem (layout : List Placed) {e : Extent} (held : e ∈ elements opened layout)
    (after : e.start < cut) (behind : ∀ s ∈ layout, cut ≤ s.start) : opened ≠ [] := by
  rintro rfl
  rcases mem_elements held with waiting | ⟨s, among, begun⟩
  · cases waiting
  · have := behind s among
    omega

/-- A construct that ends before the cut is not touched by it. -/
theorem CutShort.cons {s : Placed} {layout : List Placed} {e : DecodeError} (kept : s.stop ≤ cut)
    (short : CutShort document cut layout (elements (s.opens opened) layout) e) :
    CutShort document cut (s :: layout) (elements opened (s :: layout)) e := by
  have apart : ¬ s.CutInOpener document cut := fun reaches =>
    absurd reaches.2.1 (Nat.not_lt_of_le kept)
  have complete : (s.closes opened).countP (·.OpenAt cut) = 0 := by
    refine List.countP_eq_zero.2 fun e held => ?_
    have ends := (Placed.mem_closes held).1
    simp only [Extent.OpenAt, ends, decide_eq_true_eq]
    omega
  rw [CutShort, elements, List.countP_append, complete, Nat.zero_add]
  refine ⟨fun s' held reaches => ?_, fun none => short.2 fun s' held =>
    none s' (List.mem_cons_of_mem s held)⟩
  rcases List.mem_cons.1 held with rfl | later
  · exact absurd reaches apart
  · exact short.1 s' later reaches

/-- Where the cut lies before all later constructs, the construct at the cut decides. -/
theorem CutShort.of_head {s : Placed} {layout : List Placed} {extents : List Extent}
    (behind : ∀ s ∈ layout, cut ≤ s.start) :
    CutShort document cut (s :: layout) extents
      (if s.CutInOpener document cut then .malformed s.start .unknownDeclaration
      else .truncated (extents.countP (·.OpenAt cut))) := by
  have first {s' : Placed} (held : s' ∈ s :: layout) (reaches : s'.CutInOpener document cut) :
      s' = s := by
    rcases List.mem_cons.1 held with same | later
    · exact same
    · exact absurd reaches.1 (Nat.not_lt_of_le (behind s' later))
  refine ⟨fun s' held reaches => ?_, fun none => if_neg (none s List.mem_cons_self)⟩
  cases first held reaches
  exact if_pos reaches

/-- The error of a document that is cut in a construct or before it. -/
def Place.cutError (p : Place) (document : Bytes) (cut : Nat) (s : Placed) : DecodeError :=
  if s.CutInOpener document cut then .malformed s.start .unknownDeclaration
  else .truncated p.progress.depth

section Construct

variable {b : UInt8} {rest : Bytes} {construct : Construct} {n : Nat}

/-- Between two constructs the cut leaves nothing, so the open elements are told. -/
theorem runs_cut_between (deep : 0 < p.progress.depth) (here : offset = cut) :
    Runs (document.take cut) p offset (.error (p.cutError document cut ⟨construct, offset, n⟩)) := by
  rw [Place.cutError, if_neg fun reaches => absurd here (Nat.ne_of_lt reaches.1),
    ← result_of_open deep]
  exact .ended (drop_take_of_le (Nat.le_of_eq here.symm))

/-- What is cut inside markup is not closed, or ends in an opener. -/
theorem runs_cut_markup (left : document.drop offset = b :: rest)
    (constructed : readConstruct (b :: rest) = .ok (construct, n))
    (opens : (b :: rest).head? = some opener) (reached : offset < cut) (inside : cut < offset + n) :
    Runs (document.take cut) p offset
      (.error (p.cutError document cut ⟨construct, offset, offset + n⟩)) := by
  obtain ⟨rest', cutLeft, cutBytes⟩ := exists_drop_take left reached
  have faulty := readConstruct_cut opens constructed (Nat.sub_pos_of_lt reached)
    (show cut - offset < n by omega)
  rw [← cutBytes, ← cutLeft] at faulty
  have reaches : Placed.CutInOpener document cut ⟨construct, offset, offset + n⟩ ↔
      CutsOpener ((document.take cut).drop offset) :=
    ⟨fun reaches => reaches.2.2, fun cuts => ⟨reached, inside, cuts⟩⟩
  unfold Place.cutError
  by_cases cuts : CutsOpener ((document.take cut).drop offset)
  · rw [if_pos cuts, cutLeft] at faulty
    rw [if_pos (reaches.2 cuts)]
    exact .faulty cutLeft faulty
  · rw [if_neg cuts, cutLeft] at faulty
    rw [if_neg fun yes => cuts (reaches.1 yes)]
    exact .faulty cutLeft faulty

/-- A text that is cut is a text, after which nothing is left. -/
theorem runs_cut_text (left : document.drop offset = b :: rest)
    (constructed : readConstruct (b :: rest) = .ok (construct, n))
    (plain : (b :: rest).head? ≠ some opener) (reached : offset < cut) (inside : cut < offset + n)
    (deep : 0 < p.progress.depth) :
    Runs (document.take cut) p offset
      (.error (p.cutError document cut ⟨construct, offset, offset + n⟩)) := by
  obtain ⟨rest', cutLeft, cutBytes⟩ := exists_drop_take left reached
  have text := readConstruct_take_text plain constructed (Nat.sub_pos_of_lt reached)
    (show cut - offset ≤ n by omega)
  rw [← cutBytes] at text
  have apart : ¬ Placed.CutInOpener document cut ⟨construct, offset, offset + n⟩ := by
    rintro ⟨-, -, cuts⟩
    obtain ⟨others, begins⟩ := cuts.begins
    exact plain (congrArg some (List.cons.inj (cutLeft.symm.trans begins)).1)
  have ends : cut ≤ offset + (cut - offset) := by omega
  have runs : Runs (document.take cut) p offset _ :=
    .step cutLeft text rfl (.ended (drop_take_of_le ends))
  rw [result_of_open (by rwa [Place.depth_of_data]), Place.depth_of_data] at runs
  rw [Place.cutError, if_neg apart]
  exact runs

/-- A document that is cut inside a construct, or before it, where an element is open. -/
theorem Runs.take_construct (runs : Runs document p offset (.ok g)) (sound : p.Sound)
    (same : opened.length = p.openNames.length) (read : ∀ o ∈ opened, o.tagStop ≤ cut)
    (left : document.drop offset = b :: rest)
    (constructed : readConstruct (b :: rest) = .ok (construct, n)) (reached : offset ≤ cut)
    (inside : cut < offset + n) {e : Extent}
    (held : e ∈ elements opened (Cursor.within document offset).layout) (after : e.start < cut) :
    ∃ fault, Runs (document.take cut) p offset (.error fault) ∧
      CutShort document cut (Cursor.within document offset).layout
        (elements opened (Cursor.within document offset).layout) fault := by
  have layout := layout_of_step left constructed
  have bounds := Cursor.layout_bounds (.within document (offset + n))
  have behind : ∀ s ∈ (Cursor.within document (offset + n)).layout, cut ≤ s.start := fun s later =>
    Nat.le_trans (Nat.le_of_lt inside) (bounds s later).1
  have count : (elements opened (Cursor.within document offset).layout).countP (·.OpenAt cut) =
      p.progress.depth := by
    rw [runs.count_elements rfl sound same, List.countP_eq_length.2 (by simpa using read), same,
      sound]
    rw [layout]
    intro s among
    rcases List.mem_cons.1 among with rfl | later
    · exact inside
    · exact Nat.lt_of_le_of_lt (behind s later) (bounds s later).2
  have short : CutShort document cut (⟨construct, offset, offset + n⟩ :: _)
      (elements opened (Cursor.within document offset).layout) _ := .of_head behind
  rw [count, ← layout] at short
  refine ⟨p.cutError document cut ⟨construct, offset, offset + n⟩, ?_, short⟩
  have deep (filled : opened ≠ []) : 0 < p.progress.depth := by
    rw [sound, ← same]
    exact List.length_pos_iff.2 filled
  rw [layout] at held
  rcases Nat.eq_or_lt_of_le reached with here | within
  · refine runs_cut_between (deep (opened_of_mem _ held after fun s among => ?_)) here
    rcases List.mem_cons.1 among with rfl | later
    · exact Nat.le_of_eq here.symm
    · exact behind s later
  · by_cases opens : (b :: rest).head? = some opener
    · exact runs_cut_markup left constructed opens within inside
    · -- A text completes no element and opens none.
      have plain := readConstruct_plain opens
      have filled : opened ≠ [] := by
        cases plain.symm.trans constructed
        exact opened_of_mem (Cursor.within document _).layout held after behind
      exact runs_cut_text left constructed opens within inside (deep filled)

end Construct

/-- A document that is cut inside an element. The induction is on the constructs up to the cut; the
elements `opened` are open before, and the cut lies inside the element `e`. -/
theorem Runs.take (runs : Runs document p offset outcome) (accepted : outcome = .ok g)
    (sound : p.Sound) (same : opened.length = p.openNames.length)
    (read : ∀ o ∈ opened, o.tagStop ≤ cut) (reached : offset ≤ cut) {e : Extent}
    (held : e ∈ elements opened (Cursor.within document offset).layout) (after : e.start < cut)
    (before : cut < e.stop) :
    ∃ fault, Runs (document.take cut) p offset (.error fault) ∧
      CutShort document cut (Cursor.within document offset).layout
        (elements opened (Cursor.within document offset).layout) fault := by
  induction runs generalizing opened with
  | @ended p offset left =>
    rw [Cursor.layout_of_nil (c := .within document offset) left] at held
    cases held
  | faulty _ _ => cases accepted
  | refused _ _ _ => cases accepted
  | @step p p' offset n b rest construct outcome left constructed next later ih =>
    cases accepted
    rcases Nat.lt_or_ge cut (offset + n) with inside | kept
    · exact Runs.take_construct (.step left constructed next later) sound same read left
        constructed reached inside held after
    · rw [layout_of_step left constructed] at held ⊢
      have inTail : e ∈ elements (Placed.opens ⟨construct, offset, offset + n⟩ opened)
          (Cursor.within document (offset + n)).layout := by
        rcases List.mem_append.1 held with here | later
        · have ends := (Placed.mem_closes here).1
          exact absurd before (Nat.not_lt_of_le (ends ▸ kept))
        · exact later
      have read' : ∀ o ∈ Placed.opens ⟨construct, offset, offset + n⟩ opened, o.tagStop ≤ cut := by
        intro o waiting
        rcases Placed.mem_opens waiting with old | rfl
        · exact read o old
        · exact kept
      obtain ⟨fault, cutRuns, short⟩ := ih rfl (sound.read next)
        (Place.length_opens (s := ⟨construct, offset, offset + n⟩) same next) read' kept inTail
      have pos := readConstruct_pos constructed
      obtain ⟨rest', cutLeft, cutBytes⟩ := exists_drop_take left (show offset < cut by omega)
      have whole : readConstruct (b :: rest') = .ok (construct, n) :=
        cutBytes ▸ readConstruct_take (List.cons_ne_nil _ _) constructed (by omega)
      exact ⟨fault, .step cutLeft whole next cutRuns, .cons kept short⟩

namespace Streaming

/-- The constructs of a document. -/
def layout (document : Bytes) : List Placed :=
  (Cursor.within document (bodyOffset document)).layout

/-- The elements of a document, at every depth. -/
def elements (document : Bytes) : List Extent :=
  Markup.elements [] (layout document)

/-- The layout of an accepted document leaves no byte of its markup out, and every start tag begins
an element. -/
theorem layout_complete {document : Bytes} {g : Graph} (accepted : decode document = .ok g) :
    (∀ i, bodyOffset document ≤ i → i < document.length →
      ∃ s ∈ layout document, s.start ≤ i ∧ i < s.stop) ∧
    ∀ s ∈ layout document, ∀ name attributes isEmpty,
      s.construct = .token (.start name attributes isEmpty) →
        ∃ e ∈ elements document, e.toOpening = ⟨s.start, s.stop⟩ :=
  ⟨fun _ reached inside => (runs_decode document).exists_construct accepted reached inside,
    fun _ held _ _ _ start => (runs_decode document).exists_element accepted rfl rfl held start⟩

theorem bodyOffset_take (reached : bodyOffset document ≤ cut) :
    bodyOffset (document.take cut) = bodyOffset document := by
  have shorter : document.take cut <+: document := List.take_prefix cut document
  unfold bodyOffset at reached ⊢
  by_cases marked : byteOrderMark <+: document
  · rw [if_pos (List.isPrefixOf_iff_prefix.2 marked)] at reached ⊢
    have long : byteOrderMark.length ≤ (document.take cut).length := by
      rw [List.length_take]
      exact Nat.le_min.2 ⟨reached, marked.length_le⟩
    have kept := List.prefix_of_prefix_length_le marked shorter long
    rw [if_pos (List.isPrefixOf_iff_prefix.2 kept)]
  · rw [if_neg fun yes => marked (List.isPrefixOf_iff_prefix.1 yes),
      if_neg fun yes => marked ((List.isPrefixOf_iff_prefix.1 yes).trans shorter)]

/-- A document that is cut inside an element gives no graph and no error of a field. The error
says how many elements were open, unless the cut lies in the opener of a declaration. -/
theorem decode_take {document : Bytes} {g : Graph} (accepted : decode document = .ok g) {e : Extent}
    (held : e ∈ elements document) {cut : Nat} (after : e.start < cut) (before : cut < e.stop) :
    ∃ fault, decode (document.take cut) = .error fault ∧ fault.location? = none ∧
      (∀ s ∈ layout document, s.CutInOpener document cut →
        fault = .malformed s.start .unknownDeclaration) ∧
      ((∀ s ∈ layout document, ¬ s.CutInOpener document cut) →
        fault = .truncated ((elements document).countP (·.OpenAt cut))) := by
  have reached : bodyOffset document ≤ cut := by
    rcases mem_elements held with waiting | ⟨s, among, begun⟩
    · cases waiting
    · have behind := (Cursor.layout_bounds _ s among).1
      exact Nat.le_of_lt (Nat.lt_of_le_of_lt (begun ▸ behind) after)
  obtain ⟨fault, runs, short⟩ := (runs_decode document).take accepted rfl
    (show List.length ([] : List Opening) = 0 from rfl) (fun o waiting => by cases waiting) reached
    held after before
  rw [← bodyOffset_take reached] at runs
  refine ⟨fault, decode_of_runs runs, ?_, short⟩
  by_cases inOpener : ∃ s ∈ layout document, s.CutInOpener document cut
  · obtain ⟨s, among, reaches⟩ := inOpener
    rw [short.1 s among reaches]
    rfl
  · rw [short.2 fun s among reaches => inOpener ⟨s, among, reaches⟩]
    rfl

/-- A cut in the opener of a comment, and one in its text. -/
theorem decode_take_comment :
    let document := Bytes.ofAscii "<g><x><!--a--></x></g>"
    let e : Extent := ⟨⟨0, 3⟩, 22⟩
    (decode document = .ok ⟨[], []⟩ ∧ e ∈ elements document ∧ e.start < 9 ∧ 12 < e.stop) ∧
      decode (document.take 9) = .error (.malformed 6 .unknownDeclaration) ∧
      decode (document.take 12) = .error (.truncated 2) := by
  intro document e
  have accepted : decode document = .ok ⟨[], []⟩ := by decide +kernel
  have held : e ∈ elements document := by decide +kernel
  refine ⟨⟨accepted, held, by decide, by decide⟩, ?_, ?_⟩
  · obtain ⟨fault, failed, -, inOpener, -⟩ := decode_take accepted held (show e.start < 9 by decide)
      (by decide)
    rw [failed, inOpener ⟨.silent, 6, 14⟩ (by decide +kernel) (by decide +kernel)]
  · obtain ⟨fault, failed, -, -, truncated⟩ := decode_take accepted held (show e.start < 12 by decide)
      (by decide)
    have open? : (elements document).countP (·.OpenAt 12) = 2 := by decide +kernel
    rw [failed, truncated (by decide +kernel), open?]

end Streaming
end GraphScribe
