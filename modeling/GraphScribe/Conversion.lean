import GraphScribe.Conversion.Error
import GraphScribe.Decode.Decoder
import GraphScribe.FileTree
import GraphScribe.Printer
import GraphScribe.Statistics

/-!
# Conversions

A conversion reads graphs from files and prints each to a file of the same stem in one directory. It
takes the inputs in order and stops at the first that fails: what was converted before stays, the
failed input is not printed unless printing itself failed, and no later input is looked at.

That is how one worker goes about it. Several workers share the inputs and convert some of them at
the same time. The order of one worker is then one of many (`Conversion.Crew.run_isSchedule`), and
it stands for all of them where no output is in the way of another file
(`Conversion.Crew.eq_run_of_independent`). What holds of every order is said of
`Conversion.Crew.Step`.
-/

namespace GraphScribe

/-- The path of an output: the stem of the input with another extension, in the directory for
outputs. An input without a name lends its whole text. -/
def outputPath (input outputDir : Path) (extension : String) : Path :=
  outputDir.join ⟨input.stem?.getD input.text ++ '.' :: extension.toList⟩

/-- What happens during a conversion. -/
inductive ConversionEvent where
  | started (inputs jobs : Nat) (decoder : DecoderKind)
  | converting (input output : Path)
  | decoded (decoder : DecoderKind) (element : GraphElement)
  | converted (input : Path) (nodes edges bytes : Nat)
deriving DecidableEq

/-- How inputs are converted. -/
structure Conversion where
  template : Template
  decoder : DecoderKind
  outputDir : Path
  extension : String
  /-- The number of workers that are asked for. -/
  jobs : Nat

namespace Conversion

/-- What a conversion has done so far, with the events from the last to the first. -/
structure Progress where
  tree : FileTree
  printer : Printer
  decoder : Decoder
  statistics : Statistics
  events : List ConversionEvent := []

namespace Progress

/-- Notes an event. -/
def note (p : Progress) (e : ConversionEvent) : Progress :=
  { p with events := e :: p.events }

/-- Notes the elements of a document. -/
def noteElements (p : Progress) (elements : List GraphElement) : Progress :=
  { p with events := (elements.map (.decoded p.decoder.kind)).reverse ++ p.events }

/-- Notes what printing left in a file. -/
def keep (p : Progress) (slot : p.tree.Slot) (printed : Printed Sink) : Progress :=
  { p with
    tree := p.tree.store slot (.file printed.sink.held.toList)
    printer := printed.printer }

end Progress

/-- Converts one file. A number of bytes is the length of its output. -/
def convertFile (c : Conversion) (p : Progress) (input : Path) :
    Except ConversionError Nat × Progress :=
  let output := outputPath input c.outputDir c.extension
  let p := p.note (.converting input output)
  match p.tree.openSource input with
  | .error e => (.error (.unopened input e), p)
  | .ok source =>
    let (decoded, decoder) := p.decoder.read source
    let p := { p with decoder }.noteElements decoded.elements
    match decoded.graph with
    | .error e => (.error (.undecoded input e), p)
    | .ok g =>
      match p.tree.slot output with
      | .error e => (.error (.uncreated output e), p)
      | .ok slot =>
        let printed := p.printer.print p.tree.newFile g
        let p := p.keep slot printed
        match printed.outcome with
        | .error e => (.error (.unwritten output e), p)
        | .ok bytes => (.ok bytes, p.note (.converted input g.nodeCount g.edgeCount bytes))

/-- Converts files in order, up to the first that fails. -/
def convertAll (c : Conversion) : Progress → List Path → Option ConversionError × Progress
  | p, [] => (none, p)
  | p, input :: rest =>
    match c.convertFile p input with
    | (.ok bytes, p) =>
      c.convertAll { p with statistics := p.statistics.recordConverted bytes } rest
    | (.error e, p) => (some e, { p with statistics := p.statistics.recordFailed })

/-- The number of workers for some inputs: at least one, and no more than there are inputs. -/
def workers (c : Conversion) (inputs : List Path) : Nat :=
  max 1 (min c.jobs inputs.length)

/-- What a conversion that did not fail has done. -/
structure Summary where
  total : Nat
  converted : Nat
  bytesWritten : UInt64
  /-- It was stopped before every input was converted. -/
  cancelled : Bool
deriving DecidableEq, Repr

/-- What a conversion leaves. -/
structure Run where
  outcome : Except ConversionError Summary
  tree : FileTree
  statistics : Statistics
  events : List ConversionEvent

/-- The beginning of a conversion. -/
def start (c : Conversion) (t : FileTree) (inputs : List Path) : Progress where
  tree := t
  printer := { template := c.template }
  decoder := { kind := c.decoder }
  statistics := { total := inputs.length }

/-- The summary of a conversion that did not fail. -/
def Progress.summary (p : Progress) : Summary where
  total := p.statistics.total
  converted := p.statistics.converted
  bytesWritten := p.statistics.bytesWritten
  cancelled := p.statistics.converted < p.statistics.total

/-- The end of a conversion. -/
def Progress.finish (p : Progress) (error? : Option ConversionError) : Run where
  outcome := match error? with
    | some e => .error e
    | none => .ok p.summary
  tree := p.tree
  statistics := p.statistics
  events := p.events.reverse

/-- Converts all inputs in order, after making the directory for outputs. If it was asked to stop
before, it takes no input. The count of workers is told and nothing else is made of it here. -/
def run (c : Conversion) (t : FileTree) (inputs : List Path) (stopAsked : Bool) : Run :=
  let p := c.start t inputs
  match t.createDirectories c.outputDir with
  | (.error e, tree) => { p with tree }.finish (some (.uncreated c.outputDir e))
  | (.ok (), tree) =>
    let p := { p with tree }.note (.started inputs.length (c.workers inputs) c.decoder)
    let (error?, p) := c.convertAll p (if stopAsked then [] else inputs)
    p.finish error?

end Conversion
end GraphScribe
