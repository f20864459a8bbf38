import GraphScribe.Conversion
import GraphScribe.Proofs.Decode.WalkerTree
import GraphScribe.Proofs.FileTree.Frame
import GraphScribe.Proofs.Printer.Staging

/-!
# What converting one file does

Converting a file reads it as a graph and then writes that graph. Neither depends on what the
decoder and the printer were used for before, only on the files that are there, and the one location
that can change is where the path of the output leads.

* `Conversion.convertFile_eq`: a conversion is one reading and one writing.
* `Conversion.convertFile_spec`: what the conversion of a file gives and leaves, whatever was
  converted before.
* `Converts.unique`: the files that are there decide it.
* `Converts.get?_eq`, `Converts.sameDirectories`: what it leaves as it was.
-/

namespace GraphScribe

/-! ## Decoding -/

/-- What a decoder finds in a document does not depend on what it read before. -/
theorem Decoder.read_congr {d d' : Decoder} (same : d.kind = d'.kind) (source : Source) :
    (d.read source).1 = (d'.read source).1 := by
  obtain ⟨kind, buffers⟩ := d
  obtain ⟨kind', buffers'⟩ := d'
  cases same
  cases kind with
  | token => exact (Walker.run_eq_follow _ _ _).trans (Walker.run_eq_follow _ _ _).symm
  | streaming =>
    simp only [read, readCollected, Buffer.append, BufferPool.acquire_contents]
    cases source.failure <;> rfl

/-! ## Printing to a file -/

namespace Sink

theorem write_of_fits {s : Sink} {chunk : Bytes}
    (fits : Receiver.Fits s.limit (s.held.toList ++ chunk).length) :
    Receiver.write s chunk = .ok { s with held := s.held ++ chunk } :=
  if_pos ((s.hasRoom_iff _).2 (by simpa using fits))

theorem write_of_not_fits {s : Sink} {chunk : Bytes}
    (tooMany : ¬ Receiver.Fits s.limit (s.held.toList ++ chunk).length) :
    Receiver.write s chunk = .error (.storageFull, s) :=
  if_neg (mt (s.hasRoom_iff _).1 (by simpa using tooMany))

theorem writeAll_of_fits {s : Sink} {chunks : List Bytes}
    (fits : Receiver.Fits s.limit (s.held.toList ++ chunks.flatten).length) :
    Receiver.writeAll s chunks = .ok { s with held := s.held ++ chunks.flatten } := by
  induction chunks generalizing s with
  | nil => simp
  | cons chunk rest ih =>
    rw [List.flatten_cons, ← List.append_assoc] at fits
    have room : Receiver.Fits s.limit (s.held.toList ++ chunk).length :=
      fits.mono (by simp only [List.length_append]; omega)
    have joined : s.held ++ chunk ++ rest.flatten = s.held ++ (chunk :: rest).flatten :=
      Array.ext' (by simp)
    rw [Receiver.writeAll_cons, write_of_fits room, ← joined]
    exact ih (s := { s with held := s.held ++ chunk }) (by simpa using fits)

theorem writeAll_of_not_fits {s : Sink} {chunks : List Bytes}
    (tooMany : ¬ Receiver.Fits s.limit (s.held.toList ++ chunks.flatten).length)
    (before : Receiver.Fits s.limit s.held.toList.length) :
    ∃ held, Receiver.writeAll s chunks = .error (.storageFull, { s with held }) := by
  induction chunks generalizing s with
  | nil => exact absurd (by simpa using before) tooMany
  | cons chunk rest ih =>
    rw [Receiver.writeAll_cons]
    rw [List.flatten_cons, ← List.append_assoc] at tooMany
    by_cases room : Receiver.Fits s.limit (s.held.toList ++ chunk).length
    · obtain ⟨held, failed⟩ := ih (s := { s with held := s.held ++ chunk })
        (by simpa using tooMany) (by simpa using room)
      exact ⟨held, by rw [write_of_fits room]; exact failed⟩
    · exact ⟨s.held, by rw [write_of_not_fits room]; rfl⟩

end Sink

namespace Printer

variable {p : Printer} {limit : Option Nat} {g : Graph}

theorem print_of_fits (fits : Receiver.Fits limit (p.template.render g).length) :
    (p.print { limit } g).outcome = .ok (p.template.render g).length ∧
      (p.print { limit } g).sink.held.toList = p.template.render g := by
  have wrote : Receiver.writeAll ({ limit } : Sink) (p.template.chunks g) = .ok _ :=
    Sink.writeAll_of_fits (by simpa [Template.chunks_flatten] using fits)
  obtain ⟨outcome, sink⟩ := printTo_of_ok (p := p) ((Receiver.send_of_ok wrote).trans rfl)
  refine ⟨outcome, ?_⟩
  rw [print, sink, Template.chunks_flatten]
  simp

theorem print_of_not_fits (tooMany : ¬ Receiver.Fits limit (p.template.render g).length) :
    (p.print { limit } g).outcome = .error .storageFull := by
  have overfull : ¬ Receiver.Fits ({ limit } : Sink).limit
      (({ limit } : Sink).held.toList ++ (p.template.chunks g).flatten).length := by
    simpa [Template.chunks_flatten] using tooMany
  obtain ⟨held, failed⟩ := Sink.writeAll_of_not_fits overfull (by simp [Receiver.Fits])
  exact (printTo_of_error (p := p) (Receiver.send_of_error failed)).1

end Printer

/-- The input that is converted from an event on. -/
def ConversionEvent.attempt? : ConversionEvent → Option Path
  | .converting input _ => some input
  | _ => none

namespace Conversion

variable {c : Conversion} {t t' t'' : FileTree} {input : Path} {g : Graph}

/-! ## Reading and writing -/

/-- The path of the output of an input. -/
def output (c : Conversion) (input : Path) : Path :=
  outputPath input c.outputDir c.extension

/-- Opens an input and decodes it. -/
def readInput (c : Conversion) (p : Progress) (input : Path) :
    Except ConversionError Graph × Progress :=
  let p := p.note (.converting input (c.output input))
  match p.tree.openSource input with
  | .error e => (.error (.unopened input e), p)
  | .ok source =>
    let (decoded, decoder) := p.decoder.read source
    let p := { p with decoder }.noteElements decoded.elements
    (decoded.graph.mapError (.undecoded input), p)

/-- Creates the output of an input and prints the graph of the input to it. -/
def writeOutput (c : Conversion) (p : Progress) (input : Path) (g : Graph) :
    Except ConversionError Nat × Progress :=
  match p.tree.slot (c.output input) with
  | .error e => (.error (.uncreated (c.output input) e), p)
  | .ok slot =>
    let printed := p.printer.print p.tree.newFile g
    let p := p.keep slot printed
    match printed.outcome with
    | .error e => (.error (.unwritten (c.output input) e), p)
    | .ok bytes => (.ok bytes, p.note (.converted input g.nodeCount g.edgeCount bytes))

/-- A file is converted by reading it and, if it holds a graph, writing that. -/
theorem convertFile_eq (c : Conversion) (p : Progress) (input : Path) :
    c.convertFile p input =
      match c.readInput p input with
      | (.ok g, p) => c.writeOutput p input g
      | (.error e, p) => (.error e, p) := by
  unfold convertFile readInput output
  dsimp only
  generalize p.note _ = p
  rcases p.tree.openSource input with e | source
  · rfl
  · dsimp only
    rcases (p.decoder.read source).1.graph with e | g <;> rfl

/-! ## What they come to -/

/-- The graph that an input holds, as a decoder finds it that was not used before. -/
def graphOf (c : Conversion) (t : FileTree) (input : Path) : Except ConversionError Graph :=
  match t.openSource input with
  | .error e => .error (.unopened input e)
  | .ok source => (Decoder.decode { kind := c.decoder } source).1.mapError (.undecoded input)

/-- The graph of a whole file, as a decoder finds it that was not used before. -/
def decodeFile (c : Conversion) (content : Bytes) : Except DecodeError Graph :=
  (Decoder.decode { kind := c.decoder } { bytes := content }).1

/-- An input holds a graph if it is a file and that can be decoded. -/
theorem graphOf_eq_ok :
    c.graphOf t input = .ok g ↔
      ∃ content, t.find input = .ok (.file content) ∧ c.decodeFile content = .ok g := by
  have ofDirectory (kind : DecoderKind) :
      (Decoder.decode { kind } { bytes := [], failure := some .isDirectory }).1 =
        .error (.unreadable .isDirectory) := by
    cases kind <;> decide +kernel
  unfold graphOf FileTree.openSource decodeFile
  rcases t.find input with e | content | _
  · simp [bind, Except.bind]
  · simp only [bind, Except.bind, pure, Except.pure, Except.ok.injEq, FileEntry.file.injEq,
      exists_eq_left']
    rcases (Decoder.decode { kind := c.decoder } { bytes := content }).1 with e | g' <;>
      simp [Except.mapError]
  · simp [bind, Except.bind, pure, Except.pure, ofDirectory, Except.mapError]

/-- An input holds the same graph where the same file is found. -/
theorem graphOf_congr (same : ∀ e, t'.find input = .ok e ↔ t.find input = .ok e) :
    c.graphOf t' input = .ok g ↔ c.graphOf t input = .ok g := by
  simp only [graphOf_eq_ok, same]

/-- Only the input can be what cannot be read. -/
theorem path_of_graphOf_error {e : ConversionError} (failed : c.graphOf t input = .error e) :
    e.path = input := by
  unfold graphOf at failed
  split at failed
  · cases failed
    rfl
  · next source _ =>
    rcases decoded : (Decoder.decode { kind := c.decoder } source).1 with e' | g <;>
      rw [decoded] at failed <;> cases failed
    rfl

/-- What a new file holds after a graph was printed to it. -/
def printedTo (c : Conversion) (t : FileTree) (g : Graph) : Bytes :=
  (({ template := c.template } : Printer).print t.newFile g).sink.held.toList

/-- A file that has room for the output of the template holds that. -/
theorem printedTo_of_fits (fits : Receiver.Fits t.fileLimit (c.template.render g).length) :
    c.printedTo t g = c.template.render g :=
  (Printer.print_of_fits (p := { template := c.template }) fits).2

/-- What writing a graph as the output of an input gives, and the files that it leaves. -/
inductive Writes (c : Conversion) (t : FileTree) (input : Path) (g : Graph) :
    Except ConversionError Nat → FileTree → Prop where
  | uncreated {e : SystemError} (refused : t.slot (c.output input) = .error e) :
      Writes c t input g (.error (.uncreated (c.output input) e)) t
  | unwritten {slot : t.Slot} (created : t.slot (c.output input) = .ok slot)
      (tooLong : ¬ Receiver.Fits t.fileLimit (c.template.render g).length) :
      Writes c t input g (.error (.unwritten (c.output input) .storageFull))
        (t.store slot (.file (c.printedTo t g)))
  | written {slot : t.Slot} (created : t.slot (c.output input) = .ok slot)
      (fits : Receiver.Fits t.fileLimit (c.template.render g).length) :
      Writes c t input g (.ok (c.template.render g).length)
        (t.store slot (.file (c.template.render g)))

/-- What converting an input gives, and the files that it leaves. -/
inductive Converts (c : Conversion) (t : FileTree) (input : Path) :
    Except ConversionError Nat → FileTree → Prop where
  | unread {e : ConversionError} (failed : c.graphOf t input = .error e) :
      Converts c t input (.error e) t
  | read {g : Graph} {outcome : Except ConversionError Nat} {t' : FileTree}
      (found : c.graphOf t input = .ok g) (writes : c.Writes t input g outcome t') :
      Converts c t input outcome t'

/-- The decoder and the printer in use are those of the conversion, however worn. -/
structure Progress.Serves (p : Progress) (c : Conversion) : Prop where
  template : p.printer.template = c.template
  decoder : p.decoder.kind = c.decoder

/-- The inputs that were looked at so far, from the last to the first. -/
def Progress.attempts (p : Progress) : List Path :=
  p.events.filterMap ConversionEvent.attempt?

/-- Reading an input finds the graph that the input holds, and leaves all files alone. -/
theorem readInput_spec {p : Progress} (serves : p.Serves c) (input : Path) :
    ∃ p', c.readInput p input = (c.graphOf p.tree input, p') ∧ p'.tree = p.tree ∧
      p'.statistics = p.statistics ∧ p'.attempts = input :: p.attempts ∧ p'.Serves c := by
  rcases opened : p.tree.openSource input with e | source
  · refine ⟨p.note (.converting input (c.output input)), ?_, rfl, rfl, rfl,
      serves.template, serves.decoder⟩
    unfold readInput graphOf
    simp only [Progress.note, opened]
  · have found : (p.decoder.read source).1 = (Decoder.read { kind := c.decoder } source).1 :=
      Decoder.read_congr serves.decoder source
    refine ⟨Progress.noteElements
      { p.note (.converting input (c.output input)) with decoder := (p.decoder.read source).2 }
      (p.decoder.read source).1.elements, ?_, rfl, rfl, ?_, serves.template, serves.decoder⟩
    · unfold readInput graphOf
      simp only [Progress.note, opened, Decoder.decode, found]
    · simp [Progress.attempts, Progress.noteElements, Progress.note, List.filterMap_append,
        ConversionEvent.attempt?, ← List.map_reverse, List.filterMap_map, Function.comp_def]

/-- Writing an output comes to what `Writes` says. -/
theorem writeOutput_spec {p : Progress} (serves : p.Serves c) (input : Path) (g : Graph) :
    ∃ outcome p', c.writeOutput p input g = (outcome, p') ∧
      c.Writes p.tree input g outcome p'.tree ∧
      p'.statistics = p.statistics ∧ p'.attempts = p.attempts ∧ p'.Serves c := by
  rcases created : p.tree.slot (c.output input) with e | slot
  · refine ⟨.error (.uncreated (c.output input) e), p, ?_, .uncreated created, rfl, rfl, serves⟩
    unfold writeOutput
    simp only [created]
  · let printed := p.printer.print p.tree.newFile g
    have keeps : printed.printer.template = c.template :=
      (p.printer.printTo_template _ _).trans serves.template
    have left : printed.sink.held.toList = c.printedTo p.tree g :=
      congrArg (fun sink : Sink => sink.held.toList)
        (Printer.printTo_congr (q := { template := c.template }) serves.template _ g).2
    have stored : (p.keep slot printed).tree = p.tree.store slot (.file (c.printedTo p.tree g)) :=
      congrArg (fun held => p.tree.store slot (.file held)) left
    by_cases fits : Receiver.Fits p.tree.fileLimit (p.printer.template.render g).length
    · have outcome := (Printer.print_of_fits fits).1
      refine ⟨.ok (p.printer.template.render g).length, (p.keep slot printed).note
        (.converted input g.nodeCount g.edgeCount (p.printer.template.render g).length),
        by unfold writeOutput; simp only [created, FileTree.newFile, outcome, printed], ?_,
        rfl, rfl, keeps, serves.decoder⟩
      rw [serves.template] at fits ⊢
      rw [printedTo_of_fits fits] at stored
      exact stored ▸ .written created fits
    · have outcome := Printer.print_of_not_fits fits
      refine ⟨.error (.unwritten (c.output input) .storageFull), p.keep slot printed,
        by unfold writeOutput; simp only [created, FileTree.newFile, outcome, printed], ?_,
        rfl, rfl, keeps, serves.decoder⟩
      rw [serves.template] at fits
      exact stored ▸ .unwritten created fits

/-- What the conversion of a file gives and leaves, whatever was converted before. -/
theorem convertFile_spec {p : Progress} (serves : p.Serves c) (input : Path) :
    ∃ outcome p', c.convertFile p input = (outcome, p') ∧
      c.Converts p.tree input outcome p'.tree ∧
      p'.statistics = p.statistics ∧ p'.attempts = input :: p.attempts ∧ p'.Serves c := by
  obtain ⟨p₁, read, tree, statistics, attempts, serves₁⟩ := readInput_spec serves input
  rw [convertFile_eq, read]
  rcases found : c.graphOf p.tree input with e | g
  · refine ⟨.error e, p₁, rfl, ?_, statistics, attempts, serves₁⟩
    rw [tree]
    exact .unread found
  · obtain ⟨outcome, p₂, wrote, writes, statistics₂, attempts₂, serves₂⟩ :=
      writeOutput_spec serves₁ input g
    rw [tree] at writes
    exact ⟨outcome, p₂, wrote, .read found writes, statistics₂.trans statistics,
      attempts₂.trans attempts, serves₂⟩

/-! ## What it leaves as it was -/

namespace Writes

variable {outcome outcome' : Except ConversionError Nat}

/-- The files that are there decide what writing gives and leaves. -/
theorem unique (writes : c.Writes t input g outcome t')
    (writes' : c.Writes t input g outcome' t'') : outcome' = outcome ∧ t'' = t' := by
  cases writes with
  | uncreated refused =>
    cases writes' with
    | uncreated refused' => cases refused.symm.trans refused'; exact ⟨rfl, rfl⟩
    | unwritten created | written created => cases refused.symm.trans created
  | unwritten created tooLong =>
    cases writes' with
    | uncreated refused => cases refused.symm.trans created
    | unwritten created' => cases created.symm.trans created'; exact ⟨rfl, rfl⟩
    | written _ fits => exact absurd fits tooLong
  | written created fits =>
    cases writes' with
    | uncreated refused => cases refused.symm.trans created
    | unwritten _ tooLong => exact absurd fits tooLong
    | written created' => cases created.symm.trans created'; exact ⟨rfl, rfl⟩

theorem sameDirectories (writes : c.Writes t input g outcome t') : t.SameDirectories t' := by
  cases writes with
  | uncreated => exact .refl t
  | unwritten | written => exact .store t _ _

/-- Nothing changes where the path of the output does not lead. -/
theorem get?_eq (writes : c.Writes t input g outcome t') {l : Location}
    (elsewhere : t.locate (c.output input) ≠ .ok l) : t'.get? l = t.get? l := by
  have other {slot : t.Slot} (created : t.slot (c.output input) = .ok slot) :
      l ≠ slot.location := by
    rintro rfl
    exact elsewhere (FileTree.locate_of_slot created)
  cases writes with
  | uncreated => rfl
  | unwritten created | written created => rw [FileTree.get?_store, if_neg (other created)]

/-- The output of a graph that was written is what the template prints of it. -/
theorem of_ok {bytes : Nat} (writes : c.Writes t input g (.ok bytes) t') :
    bytes = (c.template.render g).length ∧
      t'.find (c.output input) = .ok (.file (c.template.render g)) := by
  have same := writes.sameDirectories
  cases writes with
  | @written slot created fits =>
    have located := same.locate_of_ok (FileTree.locate_of_slot created)
    exact ⟨rfl, FileTree.find_eq_ok.2 ⟨slot.location, located,
      by rw [FileTree.get?_store, if_pos rfl], .inr (FileTree.slot_eq_ok.1 created).2⟩⟩

/-- A graph that can be written can be written where only files differ. -/
theorem ok_of_same {bytes : Nat} {u : FileTree} (writes : c.Writes t input g (.ok bytes) t')
    (same : t.SameDirectories u) : ∃ u', c.Writes u input g (.ok bytes) u' := by
  cases writes with
  | written created fits =>
    obtain ⟨slot', created', -⟩ := same.slot_of_ok created
    rw [← same.fileLimit] at fits
    exact ⟨_, .written created' fits⟩

/-- Only the output can be what cannot be written. -/
theorem path_of_error {e : ConversionError} (writes : c.Writes t input g (.error e) t') :
    e.path = c.output input := by
  cases writes <;> rfl

end Writes

namespace Converts

variable {outcome outcome' : Except ConversionError Nat}

/-- The files that are there decide what converting gives and leaves. -/
theorem unique (converts : c.Converts t input outcome t')
    (converts' : c.Converts t input outcome' t'') : outcome' = outcome ∧ t'' = t' := by
  cases converts with
  | unread failed =>
    cases converts' with
    | unread failed' => cases failed.symm.trans failed'; exact ⟨rfl, rfl⟩
    | read found => cases failed.symm.trans found
  | read found writes =>
    cases converts' with
    | unread failed => cases failed.symm.trans found
    | read found' writes' => cases found.symm.trans found'; exact writes.unique writes'

theorem sameDirectories (converts : c.Converts t input outcome t') : t.SameDirectories t' := by
  cases converts with
  | unread => exact .refl t
  | read _ writes => exact writes.sameDirectories

/-- Nothing changes where the path of the output does not lead. -/
theorem get?_eq (converts : c.Converts t input outcome t') {l : Location}
    (elsewhere : t.locate (c.output input) ≠ .ok l) : t'.get? l = t.get? l := by
  cases converts with
  | unread => rfl
  | read _ writes => exact writes.get?_eq elsewhere

/-- An input that was converted holds a graph, and its output is what the template prints of it. -/
theorem of_ok {bytes : Nat} (converts : c.Converts t input (.ok bytes) t') :
    ∃ g, c.graphOf t input = .ok g ∧ bytes = (c.template.render g).length ∧
      t'.find (c.output input) = .ok (.file (c.template.render g)) := by
  cases converts with
  | read found writes => exact ⟨_, found, writes.of_ok⟩

end Converts

end Conversion
end GraphScribe
