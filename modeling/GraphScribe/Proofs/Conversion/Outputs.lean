import GraphScribe.Proofs.Conversion.Schedules

/-!
# What a run leaves of its inputs

Inputs of the same stem share one output, and an output can be a file that is an input too. The run
reports all of them as converted, and what was written last is what stays. Inputs and outputs that
are clear of each other are left as they should be.

Workers read a file, and write one, in a single step here and in several calls to the system
elsewhere. What holds of several workers is about an input and an output to which no second worker
writes, so what another one does in between makes no difference to it.

* `run_losesNothing`: which inputs are as they were after a run that converted all, and which
  outputs hold what the template prints of their input as it was before, for any number of workers
  and for one.
* `not_losesNothing`: it is not all of them.
-/

namespace GraphScribe.Conversion

variable {c : Conversion} {t t' : FileTree} {inputs : List Path} {lengths : List Nat}

/-! ## One input among others -/

theorem ConvertsAll.split {front rest : List Path}
    (all : c.ConvertsAll t (front ++ rest) lengths t') :
    ∃ lengths₁ left lengths₂,
      c.ConvertsAll t front lengths₁ left ∧ c.ConvertsAll left rest lengths₂ t' := by
  induction front generalizing t lengths with
  | nil => exact ⟨[], t, lengths, .nil, all⟩
  | cons input front ih =>
    cases all with
    | cons first others =>
      obtain ⟨lengths₁, left, lengths₂, before, after⟩ := ih others
      exact ⟨_ :: lengths₁, left, lengths₂, .cons first before, after⟩

/-- An input among others holds a graph when it is read, and its output is what the template prints
of it when it is written. -/
theorem ConvertsAll.middle {front rest : List Path} {input : Path}
    (all : c.ConvertsAll t (front ++ input :: rest) lengths t') :
    ∃ lengths₁ left content g next lengths₂,
      c.ConvertsAll t front lengths₁ left ∧
      left.find input = .ok (.file content) ∧ c.decodeFile content = .ok g ∧
      left.SameDirectories next ∧
      next.find (c.output input) = .ok (.file (c.template.render g)) ∧
      c.ConvertsAll next rest lengths₂ t' := by
  obtain ⟨lengths₁, left, lengths₂, before, after⟩ := all.split
  cases after with
  | cons first others =>
    obtain ⟨g, found, -, written⟩ := first.of_ok
    obtain ⟨content, isFile, decoded⟩ := graphOf_eq_ok.1 found
    exact ⟨lengths₁, left, content, g, _, _, before, isFile, decoded, first.sameDirectories,
      written, others⟩

/-- Conversions do not change what a path names, if no output is there. -/
theorem ConvertsAll.find_iff (all : c.ConvertsAll t inputs lengths t') {p : Path} {e : FileEntry}
    (clear : ∀ other ∈ inputs, t.locate (c.output other) ≠ t.locate p) :
    t'.find p = .ok e ↔ t.find p = .ok e := by
  refine all.sameDirectories.find_iff fun l located => all.get?_eq fun other isInput => ?_
  rw [← located]
  exact clear other isInput

/-! ## Inputs and outputs of a run -/

/-- What an input is before a run: what stands where its path leads once there is a directory for
outputs. -/
def original? (c : Conversion) (t : FileTree) (input : Path) : Option FileEntry :=
  match (t.createDirectories c.outputDir).2.locate input with
  | .ok l => t.get? l
  | .error _ => none

/-- An input is as it was before the run. -/
def Keeps (c : Conversion) (t after : FileTree) (input : Path) : Prop :=
  ∃ content, c.original? t input = some (.file content) ∧ after.find input = .ok (.file content)

/-- The output of an input holds what the template prints of the graph that the input held before
the run. -/
def Fills (c : Conversion) (t after : FileTree) (input : Path) : Prop :=
  ∃ content g, c.original? t input = some (.file content) ∧ c.decodeFile content = .ok g ∧
    after.find (c.output input) = .ok (.file (c.template.render g))

theorem original?_eq_file {input : Path} {content : Bytes}
    (found : (t.createDirectories c.outputDir).2.find input = .ok (.file content)) :
    c.original? t input = some (.file content) := by
  obtain ⟨l, located, there, -⟩ := FileTree.find_eq_ok.1 found
  rw [original?, located]
  exact (FileTree.addsDirectories_createDirectories t c.outputDir).file_iff.1 there

/-- A run that converted all its inputs has converted them one after the other. -/
theorem convertsAll_of_ok {stopAsked : Bool} {summary : Summary}
    (ok : (c.run t inputs stopAsked).outcome = .ok summary) (whole : summary.cancelled = false) :
    ∃ lengths, c.ConvertsAll (t.createDirectories c.outputDir).2 inputs lengths
      (c.run t inputs stopAsked).tree := by
  rcases creatable : (t.createDirectories c.outputDir).1 with e | _
  · have made : t.createDirectories c.outputDir = (.error e, (t.createDirectories c.outputDir).2) :=
      Prod.ext creatable rfl
    rw [run, made] at ok
    cases ok
  · cases stopAsked with
    | false =>
      rcases convertsAll_or_fails c (t.createDirectories c.outputDir).2 inputs with
        ⟨lengths, t', all⟩ | ⟨front, input, rest, lengths, left, e, t', rfl, all, fails⟩
      · exact ⟨lengths, (run_completes creatable all).converts⟩
      · cases (run_stopsAt creatable all fails rest).2.outcome.symm.trans ok
    | true =>
      rw [run_of_creatable creatable] at ok ⊢
      cases ok
      have few : ¬ 0 < inputs.length := of_decide_eq_false whole
      have none : inputs = [] := by simpa using few
      subst none
      exact ⟨[], .nil⟩

/-- Inputs that are taken in order and all converted are left as they were if no output is there.
The output of an input holds what it should if no earlier output is where the input is and no later
one is where its output is. -/
theorem run_inOrder_losesNothing {stopAsked : Bool} {summary : Summary}
    (ok : (c.run t inputs stopAsked).outcome = .ok summary) (whole : summary.cancelled = false) :
    let file := (t.createDirectories c.outputDir).2.locate
    (∀ input ∈ inputs, (∀ other ∈ inputs, file (c.output other) ≠ file input) →
      c.Keeps t (c.run t inputs stopAsked).tree input) ∧
    ∀ front input rest, inputs = front ++ input :: rest →
      (∀ other ∈ front, file (c.output other) ≠ file input) →
      (∀ other ∈ rest, file (c.output other) ≠ file (c.output input)) →
      c.Fills t (c.run t inputs stopAsked).tree input := by
  intro file
  obtain ⟨lengths, all⟩ := convertsAll_of_ok ok whole
  constructor
  · intro input isInput clear
    obtain ⟨front, rest, rfl⟩ := List.append_of_mem isInput
    obtain ⟨_, left, content, g, next, _, before, isFile, -⟩ := all.middle
    have was := (before.find_iff fun other isFront => clear other (by simp [isFront])).1 isFile
    exact ⟨content, original?_eq_file was, (all.find_iff clear).2 was⟩
  · rintro front input rest rfl unread kept
    obtain ⟨_, left, content, g, next, _, before, isFile, decoded, same, written, after⟩ :=
      all.middle
    obtain ⟨l, located, -⟩ := FileTree.find_eq_ok.1 written
    refine ⟨content, g, original?_eq_file ((before.find_iff unread).1 isFile), decoded,
      (after.find_iff fun other isRest => ?_).2 written⟩
    exact (before.sameDirectories.trans same).locate_ne located (kept other isRest)

/-! ## Any number of workers -/

namespace Crew

variable {workers : Nat} {s : Crew inputs workers} {i : Fin inputs.length}

/-- An input that no other output reaches held a graph before the run, if it was converted. -/
theorem original?_of_converted
    (unreached : c.Unreached (t.createDirectories c.outputDir).2 inputs i)
    (reached : Reaches c (start c (t.createDirectories c.outputDir).2 inputs workers) s)
    (converted : ∃ bytes, s.stage i = .converted bytes) :
    ∃ content g, (t.createDirectories c.outputDir).2.find (inputs.get i) = .ok (.file content) ∧
      c.original? t (inputs.get i) = some (.file content) ∧ c.decodeFile content = .ok g ∧
      (c.Unshared (t.createDirectories c.outputDir).2 inputs i →
        s.board.progress.tree.find (c.output (inputs.get i)) =
          .ok (.file (c.template.render g))) := by
  obtain ⟨g, t', found, -, there⟩ := (apart_of_reaches unreached reached).of_converted converted
  obtain ⟨content, isFile, decoded⟩ := graphOf_eq_ok.1 found
  exact ⟨content, g, isFile, original?_eq_file isFile, decoded, there⟩

/-- Nobody writes to an input where no output leads. -/
theorem keeps_of_converted
    (clear : ∀ j : Fin inputs.length, (t.createDirectories c.outputDir).2.locate
      (c.output (inputs.get j)) ≠ (t.createDirectories c.outputDir).2.locate (inputs.get i))
    (reached : Reaches c (start c (t.createDirectories c.outputDir).2 inputs workers) s)
    (converted : ∃ bytes, s.stage i = .converted bytes) :
    c.Keeps t s.board.progress.tree (inputs.get i) := by
  obtain ⟨content, -, isFile, was, -⟩ :=
    original?_of_converted (fun j _ => clear j) reached converted
  exact ⟨content, was, (reached.find_iff clear).2 isFile⟩

/-- Nobody else writes to an input, nor to its output. -/
theorem fills_of_converted
    (unreached : c.Unreached (t.createDirectories c.outputDir).2 inputs i)
    (unshared : c.Unshared (t.createDirectories c.outputDir).2 inputs i)
    (reached : Reaches c (start c (t.createDirectories c.outputDir).2 inputs workers) s)
    (converted : ∃ bytes, s.stage i = .converted bytes) :
    c.Fills t s.board.progress.tree (inputs.get i) := by
  obtain ⟨content, g, -, was, decoded, there⟩ :=
    original?_of_converted unreached reached converted
  exact ⟨content, g, was, decoded, there unshared⟩

end Crew

/-- A run that converted all its inputs, with any number of workers and in any order, leaves those as
they were that are not where an output is. It leaves in the output of an input what the template
prints of the graph that the input held before, if no other output is where the input is or where
its output is. With one worker it is enough that no earlier output is where the input is and no later
one is where its output is. -/
theorem run_losesNothing (c : Conversion) (t : FileTree) (inputs : List Path) (summary : Summary)
    (whole : summary.cancelled = false) :
    let made := (t.createDirectories c.outputDir).2
    (∀ (workers : Nat) (s : Crew inputs workers),
      Crew.Reaches c (.start c made inputs workers) s → s.IsComplete → s.outcome = .ok summary →
      ∀ i, ((∀ j : Fin inputs.length,
          made.locate (c.output (inputs.get j)) ≠ made.locate (inputs.get i)) →
            c.Keeps t s.board.progress.tree (inputs.get i)) ∧
        (c.Unreached made inputs i → c.Unshared made inputs i →
          c.Fills t s.board.progress.tree (inputs.get i))) ∧
    (c.workers inputs = 1 → ∀ stopAsked, (c.run t inputs stopAsked).outcome = .ok summary →
      (∀ input ∈ inputs, (∀ other ∈ inputs, made.locate (c.output other) ≠ made.locate input) →
        c.Keeps t (c.run t inputs stopAsked).tree input) ∧
      ∀ front input rest, inputs = front ++ input :: rest →
        (∀ other ∈ front, made.locate (c.output other) ≠ made.locate input) →
        (∀ other ∈ rest, made.locate (c.output other) ≠ made.locate (c.output input)) →
        c.Fills t (c.run t inputs stopAsked).tree input) := by
  intro made
  refine ⟨fun workers s reached complete ok i => ?_,
    fun _ stopAsked ok => run_inOrder_losesNothing ok whole⟩
  have converted := complete.all_of_outcome reached ok whole i
  exact ⟨fun clear => Crew.keeps_of_converted clear reached converted,
    fun unreached unshared => Crew.fills_of_converted unreached unshared reached converted⟩

/-- Two of three inputs have the same stem. Two workers leave all inputs as they were, and the third
one's output. One worker leaves the output of the later one of the two, too. -/
theorem run_losesNothing_sameStem :
    let inputs := [Path.ofString "a/g.xml", .ofString "b/g.xml", .ofString "b/h.xml"]
    let t := FileTree.ofFiles [(.ofString "a/g.xml", Bytes.ofAscii "<g><node id=\"1\"/></g>"),
      (.ofString "b/g.xml", Bytes.ofAscii "<g/>"), (.ofString "b/h.xml", Bytes.ofAscii "<g/>")]
    (∃ s : Crew inputs 2,
      Crew.Reaches countNodes (.start countNodes (t.createDirectories countNodes.outputDir).2 _ _) s ∧
      s.IsComplete ∧ s.outcome = .ok ⟨3, 3, 3, false⟩ ∧
      (∀ i, countNodes.Keeps t s.board.progress.tree (inputs.get i)) ∧
      countNodes.Fills t s.board.progress.tree (.ofString "b/h.xml")) ∧
    countNodes.workers inputs = 1 ∧
    (countNodes.run t inputs false).outcome = .ok ⟨3, 3, 3, false⟩ ∧
    countNodes.Keeps t (countNodes.run t inputs false).tree (.ofString "a/g.xml") ∧
    countNodes.Fills t (countNodes.run t inputs false).tree (.ofString "b/g.xml") := by
  intro inputs t
  have creatable : (t.createDirectories countNodes.outputDir).1 = .ok () := by decide +kernel
  have ok : (countNodes.run t inputs false).outcome = .ok ⟨3, 3, 3, false⟩ := by decide +kernel
  obtain ⟨any, one⟩ := run_losesNothing countNodes t inputs ⟨3, 3, 3, false⟩ rfl
  obtain ⟨keeps, fills⟩ := one rfl false ok
  obtain ⟨s, reached, complete, -, outcome, -⟩ :=
    Crew.run_isSchedule creatable inputs false (0 : Fin 2)
  have each := any 2 s reached complete (outcome.trans ok)
  refine ⟨⟨s, reached, complete, outcome.trans ok, fun i => (each i).1 ?_, (each 2).2 ?_ ?_⟩,
    rfl, ok, keeps _ (by decide +kernel) (by decide +kernel),
    fills [.ofString "a/g.xml"] _ [.ofString "b/h.xml"] rfl (by decide +kernel)
      (by decide +kernel)⟩
  · revert i
    decide +kernel
  · unfold Unreached
    decide +kernel
  · unfold Unshared
    decide +kernel

/-! ## What is lost -/

/-- One worker converts different files, and all of them. -/
structure ConvertsDistinct (c : Conversion) (t : FileTree) (inputs : List Path) : Prop where
  oneWorker : c.workers inputs = 1
  distinct : (inputs.map (t.createDirectories c.outputDir).2.locate).Nodup
  whole : ∃ summary, (c.run t inputs false).outcome = .ok summary ∧ summary.cancelled = false

/-- The number of nodes of every input goes to a document in the working directory, as the name of
its only node. -/
def countIntoDocuments : Conversion where
  template := ⟨"<g><node id=\"%n\"/></g>",
    [.text "<g><node id=\"".toList, .nodeCount, .text "\"/></g>".toList]⟩
  decoder := .streaming
  outputDir := .ofString "."
  extension := "xml"
  jobs := 1

theorem not_keeps {after : FileTree} {input : Path} (content : Bytes)
    (was : c.original? t input = some (.file content))
    (now : after.find input ≠ .ok (.file content)) : ¬ c.Keeps t after input := by
  rintro ⟨content', was', now'⟩
  cases was.symm.trans was'
  exact now now'

theorem not_fills {after : FileTree} {input : Path} (content printed : Bytes)
    (was : c.original? t input = some (.file content))
    (prints : (c.decodeFile content).toOption.map c.template.render = some printed)
    (now : after.find (c.output input) ≠ .ok (.file printed)) : ¬ c.Fills t after input := by
  rintro ⟨content', g, was', decoded, now'⟩
  cases was.symm.trans was'
  rw [decoded] at prints
  cases prints
  exact now now'

/-- One worker that converts different files, and all of them, may overwrite an input. It may
overwrite an output, and even the last output need not be that of the input as it was. -/
theorem not_losesNothing :
    (¬ ∀ c t inputs, ConvertsDistinct c t inputs →
      ∀ input ∈ inputs, c.Keeps t (c.run t inputs false).tree input) ∧
    (¬ ∀ c t inputs, ConvertsDistinct c t inputs →
      ∀ input ∈ inputs, c.Fills t (c.run t inputs false).tree input) ∧
    ¬ ∀ c t front input, ConvertsDistinct c t (front ++ [input]) →
      c.Fills t (c.run t (front ++ [input]) false).tree input := by
  refine ⟨fun keeps => ?_, fun fills => ?_, fun fills => ?_⟩
  · -- the output of an input is the input itself
    let t := FileTree.ofFiles [(.ofString "g.xml", Bytes.ofAscii "<g/>")]
    refine not_keeps (Bytes.ofAscii "<g/>") (by decide +kernel) (by decide +kernel)
      (keeps countIntoDocuments t [.ofString "g.xml"]
        ⟨rfl, by decide +kernel, ⟨1, 1, 21, false⟩, by decide +kernel, rfl⟩ _ List.mem_cons_self)
  · -- two inputs have the same stem
    let t := FileTree.ofFiles [(.ofString "a/g.xml", Bytes.ofAscii "<g><node id=\"1\"/></g>"),
      (.ofString "b/g.xml", Bytes.ofAscii "<g/>")]
    refine not_fills (Bytes.ofAscii "<g><node id=\"1\"/></g>")
      (Bytes.ofAscii "1") (by decide +kernel) (by decide +kernel) (by decide +kernel)
      (fills countNodes t [.ofString "a/g.xml", .ofString "b/g.xml"]
        ⟨rfl, by decide +kernel, ⟨2, 2, 2, false⟩, by decide +kernel, rfl⟩ _ List.mem_cons_self)
  · -- the output of the first input is the second input
    let t := FileTree.ofFiles [(.ofString "a/g.xml", Bytes.ofAscii "<g/>"),
      (.ofString "g.x.xml", Bytes.ofAscii "<g/>")]
    refine not_fills (Bytes.ofAscii "<g/>")
      (Bytes.ofAscii "<g><node id=\"0\"/></g>") (by decide +kernel) (by decide +kernel)
      (by decide +kernel)
      (fills { countIntoDocuments with extension := "x.xml" } t [.ofString "a/g.xml"]
        (.ofString "g.x.xml") ⟨rfl, by decide +kernel, ⟨2, 2, 42, false⟩, by decide +kernel, rfl⟩)

end GraphScribe.Conversion
