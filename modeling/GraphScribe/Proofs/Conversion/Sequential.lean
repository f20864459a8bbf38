import GraphScribe.Proofs.Conversion.Effect
import Mathlib

/-!
# Inputs one after the other

A run converts its inputs in order, each against the files that those before it left. It comes to
the end of the list or to the first input that fails; what comes after that has no part in it.

* `ConvertsAll`: inputs that are converted one after the other.
* `convertAll_append`, `convertAll_of_fails`: how far a run gets, from any point.
* `run_inOrder`: what a whole run gives, counts and leaves.
-/

namespace GraphScribe

/-- Counting inputs that were converted adds their number and the sum of their lengths. -/
theorem Statistics.foldl_recordConverted (s : Statistics) (lengths : List Nat) :
    lengths.foldl recordConverted s =
      { s with
        converted := s.converted + lengths.length
        bytesWritten := s.bytesWritten + .ofNat lengths.sum } := by
  induction lengths generalizing s with
  | nil => simp
  | cons bytes rest ih =>
    rw [List.foldl_cons, ih]
    simp only [recordConverted, List.length_cons, List.sum_cons, UInt64.ofNat_add, mk.injEq,
      true_and]
    exact ⟨by omega, UInt64.add_assoc _ _ _⟩

namespace Conversion

variable {c : Conversion} {t t₁ t' : FileTree} {inputs : List Path} {lengths : List Nat}

/-! ## Conversions in a row -/

/-- Inputs are converted one after the other, into outputs of these lengths. -/
inductive ConvertsAll (c : Conversion) : FileTree → List Path → List Nat → FileTree → Prop where
  | nil {t : FileTree} : ConvertsAll c t [] [] t
  | cons {t t₁ t' : FileTree} {input : Path} {rest : List Path} {bytes : Nat}
      {lengths : List Nat} (first : c.Converts t input (.ok bytes) t₁)
      (others : ConvertsAll c t₁ rest lengths t') :
      ConvertsAll c t (input :: rest) (bytes :: lengths) t'

namespace ConvertsAll

theorem length_eq (all : c.ConvertsAll t inputs lengths t') : lengths.length = inputs.length := by
  induction all with
  | nil => rfl
  | cons _ _ ih => simp [ih]

theorem sameDirectories (all : c.ConvertsAll t inputs lengths t') : t.SameDirectories t' := by
  induction all with
  | nil => exact .refl _
  | cons first _ ih => exact first.sameDirectories.trans ih

/-- Nothing changes where no path of an output leads. -/
theorem get?_eq (all : c.ConvertsAll t inputs lengths t') {l : Location}
    (elsewhere : ∀ input ∈ inputs, t.locate (c.output input) ≠ .ok l) :
    t'.get? l = t.get? l := by
  induction all with
  | nil => rfl
  | cons first others ih =>
    rw [ih, first.get?_eq (elsewhere _ List.mem_cons_self)]
    intro input later
    rw [Ne, first.sameDirectories.locate_iff]
    exact elsewhere input (List.mem_cons_of_mem _ later)

end ConvertsAll

/-! ## How far inputs are converted -/

theorem Progress.serves_start (c : Conversion) (t : FileTree) (inputs : List Path) :
    (c.start t inputs).Serves c :=
  ⟨rfl, rfl⟩

/-- Every input is converted or fails. -/
theorem exists_converts (c : Conversion) (t : FileTree) (input : Path) :
    ∃ outcome t', c.Converts t input outcome t' := by
  obtain ⟨outcome, p', _, converts, _⟩ :=
    convertFile_spec (Progress.serves_start c t [input]) input
  exact ⟨outcome, p'.tree, converts⟩

/-- All inputs are converted one after the other, or there is a first one that fails. -/
theorem convertsAll_or_fails (c : Conversion) (t : FileTree) (inputs : List Path) :
    (∃ lengths t', c.ConvertsAll t inputs lengths t') ∨
      ∃ front input rest lengths left e t', inputs = front ++ input :: rest ∧
        c.ConvertsAll t front lengths left ∧ c.Converts left input (.error e) t' := by
  induction inputs generalizing t with
  | nil => exact .inl ⟨[], t, .nil⟩
  | cons input rest ih =>
    obtain ⟨outcome, t₁, converts⟩ := exists_converts c t input
    rcases outcome with e | bytes
    · exact .inr ⟨[], input, rest, [], t, e, t₁, rfl, .nil, converts⟩
    · rcases ih t₁ with
        ⟨lengths, t', all⟩ | ⟨front, failing, rest', lengths, left, e, t', rfl, all, fails⟩
      · exact .inl ⟨bytes :: lengths, t', .cons converts all⟩
      · exact .inr ⟨input :: front, failing, rest', bytes :: lengths, left, e, t', rfl,
          .cons converts all, fails⟩

/-- A run gets past inputs that can be converted one after the other, and counts them. -/
theorem convertAll_append {p : Progress} (serves : p.Serves c)
    (all : c.ConvertsAll p.tree inputs lengths t') :
    ∃ p', p'.tree = t' ∧ p'.Serves c ∧
      p'.statistics = lengths.foldl Statistics.recordConverted p.statistics ∧
      p'.attempts = inputs.reverse ++ p.attempts ∧
      ∀ rest, c.convertAll p (inputs ++ rest) = c.convertAll p' rest := by
  generalize from_ : p.tree = t at all
  induction all generalizing p with
  | nil => exact ⟨p, from_, serves, rfl, rfl, fun rest => rfl⟩
  | @cons t t₁ t' input inputs bytes lengths first others ih =>
    subst from_
    obtain ⟨outcome, p₁, converted, converts, statistics, attempts, serves₁⟩ :=
      convertFile_spec serves input
    obtain ⟨rfl, there⟩ := first.unique converts
    obtain ⟨p', tree, serves', statistics', attempts', next⟩ :=
      ih (p := { p₁ with statistics := p₁.statistics.recordConverted bytes })
        ⟨serves₁.template, serves₁.decoder⟩ there
    refine ⟨p', tree, serves', ?_, ?_, fun rest => ?_⟩
    · rw [statistics', List.foldl_cons, statistics]
    · rw [attempts', List.reverse_cons, List.append_assoc]
      exact congrArg (inputs.reverse ++ ·) attempts
    · rw [List.cons_append, convertAll, converted]
      exact next rest

/-- A run stops at an input that fails, and counts that. -/
theorem convertAll_of_fails {p : Progress} (serves : p.Serves c) {input : Path}
    {e : ConversionError} (fails : c.Converts p.tree input (.error e) t') :
    ∃ p', p'.tree = t' ∧ p'.statistics = p.statistics.recordFailed ∧
      p'.attempts = input :: p.attempts ∧
      ∀ rest, c.convertAll p (input :: rest) = (some e, p') := by
  obtain ⟨outcome, p₁, converted, converts, statistics, attempts, _⟩ :=
    convertFile_spec serves input
  obtain ⟨rfl, there⟩ := fails.unique converts
  refine ⟨{ p₁ with statistics := p₁.statistics.recordFailed }, there,
    congrArg Statistics.recordFailed statistics, attempts, fun rest => ?_⟩
  rw [convertAll, converted]

/-! ## Whole runs -/

/-- The inputs that were looked at, in order. -/
def Run.attempts (r : Run) : List Path :=
  r.events.filterMap ConversionEvent.attempt?

/-- The run has converted its inputs, from the files `made` with the directory for outputs. -/
structure Run.Completes (r : Run) (c : Conversion) (made : FileTree) (inputs : List Path)
    (lengths : List Nat) : Prop where
  converts : c.ConvertsAll made inputs lengths r.tree
  outcome : r.outcome = .ok
    { total := inputs.length, converted := inputs.length, bytesWritten := .ofNat lengths.sum,
      cancelled := false }
  statistics : r.statistics =
    { total := inputs.length, converted := inputs.length, failed := 0,
      bytesWritten := .ofNat lengths.sum }
  attempts : r.attempts = inputs

/-- The run has converted the inputs `front`, from the files `made` with the directory for outputs
to the files `left`, and then stopped because `input` failed. -/
structure Run.StopsAt (r : Run) (c : Conversion) (made left : FileTree) (front : List Path)
    (lengths : List Nat) (input : Path) (e : ConversionError) : Prop where
  converts : c.ConvertsAll made front lengths left
  fails : c.Converts left input (.error e) r.tree
  outcome : r.outcome = .error e
  converted : r.statistics.converted = front.length
  failed : r.statistics.failed = 1
  bytesWritten : r.statistics.bytesWritten = .ofNat lengths.sum
  attempts : r.attempts = front ++ [input]

/-- Where a run begins to convert, in the files `made` with the directory for outputs. -/
def begin (c : Conversion) (made : FileTree) (inputs : List Path) : Progress :=
  (c.start made inputs).note (.started inputs.length (c.workers inputs) c.decoder)

theorem run_of_creatable (creatable : (t.createDirectories c.outputDir).1 = .ok ())
    (inputs : List Path) (stopAsked : Bool) :
    c.run t inputs stopAsked =
      let done := c.convertAll (c.begin (t.createDirectories c.outputDir).2 inputs)
        (if stopAsked then [] else inputs)
      done.2.finish done.1 := by
  have made : t.createDirectories c.outputDir = (.ok (), (t.createDirectories c.outputDir).2) :=
    Prod.ext creatable rfl
  rw [run, made]
  rfl

theorem Progress.attempts_finish (p : Progress) (error? : Option ConversionError) :
    (p.finish error?).attempts = p.attempts.reverse := by
  simp [finish, Run.attempts, attempts, List.filterMap_reverse]

/-- A run completes if its inputs can be converted one after the other. -/
theorem run_completes (creatable : (t.createDirectories c.outputDir).1 = .ok ())
    (all : c.ConvertsAll (t.createDirectories c.outputDir).2 inputs lengths t') :
    (c.run t inputs false).Completes c (t.createDirectories c.outputDir).2 inputs lengths := by
  have serves : (c.begin (t.createDirectories c.outputDir).2 inputs).Serves c := ⟨rfl, rfl⟩
  obtain ⟨p', rfl, _, statistics, attempts, next⟩ := convertAll_append serves all
  have done := next []
  rw [List.append_nil, convertAll] at done
  have counted : p'.statistics =
      { total := inputs.length, converted := inputs.length, failed := 0,
        bytesWritten := .ofNat lengths.sum } := by
    rw [statistics, Statistics.foldl_recordConverted, all.length_eq]
    simp [begin, start, Progress.note]
  rw [run_of_creatable creatable]
  dsimp only
  rw [if_neg Bool.false_ne_true, done]
  refine ⟨all, ?_, counted, ?_⟩
  · simp [Progress.finish, Progress.summary, counted]
  · rw [Progress.attempts_finish, attempts]
    simp [begin, start, Progress.note, Progress.attempts, ConversionEvent.attempt?]

/-- A run stops at an input that fails after those before it were converted, whatever follows. -/
theorem run_stopsAt (creatable : (t.createDirectories c.outputDir).1 = .ok ())
    {front : List Path} {left : FileTree} {input : Path} {e : ConversionError}
    (all : c.ConvertsAll (t.createDirectories c.outputDir).2 front lengths left)
    (fails : c.Converts left input (.error e) t') (rest : List Path) :
    (c.run t (front ++ input :: rest) false).tree = t' ∧
      (c.run t (front ++ input :: rest) false).StopsAt c (t.createDirectories c.outputDir).2 left
        front lengths input e := by
  have serves : (c.begin (t.createDirectories c.outputDir).2 (front ++ input :: rest)).Serves c :=
    ⟨rfl, rfl⟩
  obtain ⟨p₁, rfl, serves₁, statistics₁, attempts₁, next⟩ := convertAll_append serves all
  obtain ⟨p', rfl, statistics, attempts, stop⟩ := convertAll_of_fails serves₁ fails
  have counted : p'.statistics =
      { total := (front ++ input :: rest).length, converted := front.length, failed := 1,
        bytesWritten := .ofNat lengths.sum } := by
    rw [statistics, statistics₁, Statistics.foldl_recordConverted, all.length_eq]
    simp [begin, start, Progress.note, Statistics.recordFailed]
  rw [run_of_creatable creatable]
  dsimp only
  rw [if_neg Bool.false_ne_true, next, stop]
  refine ⟨rfl, all, fails, rfl, congrArg Statistics.converted counted,
    congrArg Statistics.failed counted, congrArg Statistics.bytesWritten counted, ?_⟩
  rw [Progress.attempts_finish, attempts, attempts₁]
  simp [begin, start, Progress.note, Progress.attempts, ConversionEvent.attempt?]

/-! ## What runs leave as it was -/

/-- Files are as before, but where the outputs of some inputs are. -/
def KeepsOthers (c : Conversion) (before made after : FileTree) (written : List Path) : Prop :=
  ∀ l content, (∀ input ∈ written, made.locate (c.output input) ≠ .ok l) →
    (after.get? l = some (.file content) ↔ before.get? l = some (.file content))

theorem ConvertsAll.keepsOthers {before : FileTree} (adds : before.AddsDirectories t)
    (all : c.ConvertsAll t inputs lengths t') : c.KeepsOthers before t t' inputs := by
  intro l content elsewhere
  rw [all.get?_eq elsewhere, adds.file_iff]

theorem KeepsOthers.append {before left : FileTree} {front : List Path} {input : Path}
    {outcome : Except ConversionError Nat} (same : t.SameDirectories left)
    (keeps : c.KeepsOthers before t left front) (converts : c.Converts left input outcome t') :
    c.KeepsOthers before t t' (front ++ [input]) := by
  intro l content elsewhere
  have notHere : left.locate (c.output input) ≠ .ok l := by
    rw [Ne, same.locate_iff]
    exact elsewhere input (by simp)
  rw [converts.get?_eq notHere]
  exact keeps l content fun other isFront => elsewhere other (by simp [isFront])

/-- Only printing leaves anything of an input that fails. -/
theorem Converts.eq_of_error {left : FileTree} {input : Path} {e : ConversionError}
    (fails : c.Converts left input (.error e) t')
    (notPrinting : ∀ failure, e ≠ .unwritten (c.output input) failure) : t' = left := by
  cases fails with
  | unread => rfl
  | read _ writes =>
    cases writes with
    | uncreated => rfl
    | unwritten => exact absurd rfl (notPrinting _)

/-- A run whose directory for outputs can be made converts all inputs, or those before the first
that fails and nothing after it. It changes no file but the outputs of the inputs that were
converted, and of one that failed to be printed. -/
theorem run_inOrder (c : Conversion) (t : FileTree) (inputs : List Path)
    (creatable : (t.createDirectories c.outputDir).1 = .ok ()) :
    let made := (t.createDirectories c.outputDir).2
    let r := c.run t inputs false
    (∃ lengths, r.Completes c made inputs lengths ∧ c.KeepsOthers t made r.tree inputs) ∨
      ∃ front input rest left lengths e, inputs = front ++ input :: rest ∧
        r.StopsAt c made left front lengths input e ∧
        ((∀ failure, e ≠ .unwritten (c.output input) failure) →
          r.tree = left ∧ c.KeepsOthers t made r.tree front) ∧
        c.KeepsOthers t made r.tree (front ++ [input]) ∧
        ∀ rest', (c.run t (front ++ input :: rest') false).tree = r.tree ∧
          (c.run t (front ++ input :: rest') false).StopsAt c made left front lengths input e := by
  intro made r
  have adds : t.AddsDirectories made := FileTree.addsDirectories_createDirectories t c.outputDir
  rcases convertsAll_or_fails c made inputs with
    ⟨lengths, t', all⟩ | ⟨front, input, rest, lengths, left, e, t', rfl, all, fails⟩
  · have completes : r.Completes c made inputs lengths := run_completes creatable all
    exact .inl ⟨lengths, completes, completes.converts.keepsOthers adds⟩
  · obtain ⟨tree, stops⟩ := run_stopsAt creatable all fails rest
    have keeps : c.KeepsOthers t made left front := all.keepsOthers adds
    refine .inr ⟨front, input, rest, left, lengths, e, rfl, stops, fun notPrinting => ?_,
      keeps.append all.sameDirectories stops.fails, fun rest' => ?_⟩
    · have unchanged : r.tree = left := stops.fails.eq_of_error notPrinting
      exact ⟨unchanged, unchanged ▸ keeps⟩
    · obtain ⟨tree', stops'⟩ := run_stopsAt creatable all fails rest'
      exact ⟨tree'.trans tree.symm, stops'⟩

/-- The number of nodes of every input goes to a file in the directory `out`. -/
def countNodes : Conversion where
  template := ⟨"%n", [.nodeCount]⟩
  decoder := .streaming
  outputDir := .ofString "out"
  extension := "in"
  jobs := 1

/-- The second input of three is missing, so the run is over after the first. -/
theorem run_inOrder_missingSecond :
    let inputs := [Path.ofString "a/g.xml", .ofString "b.xml", .ofString "a/g.xml"]
    let t := FileTree.ofFiles [(.ofString "a/g.xml", Bytes.ofAscii "<graph/>")]
    let missing := ConversionError.unopened (.ofString "b.xml") .notFound
    (t.createDirectories countNodes.outputDir).1 = .ok () ∧
      ∃ left lengths,
        (countNodes.run t inputs false).StopsAt countNodes
          (t.createDirectories countNodes.outputDir).2 left [.ofString "a/g.xml"] lengths
          (.ofString "b.xml") missing ∧
        (countNodes.run t inputs false).tree = left := by
  intro inputs t missing
  have creatable : (t.createDirectories countNodes.outputDir).1 = .ok () := by decide +kernel
  have outcome : (countNodes.run t inputs false).outcome = .error missing := by decide +kernel
  have attempts : (countNodes.run t inputs false).attempts =
      [.ofString "a/g.xml"] ++ [.ofString "b.xml"] := by decide +kernel
  refine ⟨creatable, ?_⟩
  rcases run_inOrder countNodes t inputs creatable with
    ⟨lengths, completes, -⟩ | ⟨front, input, rest, left, lengths, e, -, stops, unchanged, -, -⟩
  · cases completes.outcome.symm.trans outcome
  · obtain ⟨rfl, last⟩ := List.append_inj' (stops.attempts.symm.trans attempts) rfl
    cases last
    cases stops.outcome.symm.trans outcome
    exact ⟨left, lengths, stops, (unchanged nofun).1⟩

end Conversion
end GraphScribe
