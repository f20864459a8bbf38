import GraphScribe.Conversion
import GraphScribe.Diagnostics
import GraphScribe.Inputs
import GraphScribe.Log
import GraphScribe.Settings.Address

/-!
# What commands tell

The log records of commands: one for every event that is worth telling, with its level and target.
-/

namespace GraphScribe

namespace LogRecord

/-- The program begins. -/
def version : LogRecord :=
  { level := .debug, target := "graphfmt", message := s!"graphfmt v{Diagnostics.version}" }

/-- A settings file that was not named is used. -/
def usesFile (path : Path) : LogRecord :=
  { level := .debug, target := "graphfmt::config", message := s!"Using {path.toString}" }

/-- A directory was searched for the files that a pattern stands for. -/
def matched (pattern : String) (count : Nat) : LogRecord :=
  { level := .debug, target := "graphfmt::files"
    message := s!"Glob {Text.quoted pattern} matched {count} file(s)" }

/-- A template was compiled. -/
def compiled (template : Template) : LogRecord :=
  { level := .trace, target := "graphfmt_printer::directive", message := "compiled template"
    fields := [("template", Text.quoted template.source),
      ("directives", toString template.directives.length)] }

/-- There is nothing to convert. -/
def nothingToDo : LogRecord :=
  { level := .info, target := "graphfmt::commands"
    message := "No input files given, nothing to do" }

/-- A request about the conversion can be made at an address. -/
def listening (address : SocketAddress) : LogRecord :=
  { level := .info, target := "graphfmt_server"
    message := s!"Diagnostics listening on http://{String.ofList address.text}" }

/-- No more requests can be made at an address. -/
def stoppedListening (address : SocketAddress) : LogRecord :=
  { level := .debug, target := "graphfmt_server"
    message := s!"Diagnostics server on {String.ofList address.text} stopped" }

/-- No requests can be made at an address. -/
def notListening (address : SocketAddress) (failure : SystemError) : LogRecord :=
  let address := String.ofList address.text
  { level := .warn, target := "graphfmt::commands"
    message := s!"Diagnostics endpoint disabled, cannot bind {address}: {failure.message}" }

/-- The fields that tell of an element of a document. -/
def elementFields : GraphElement → List (String × String)
  | .node n => [("id", String.ofList (NodeId.text n.id))]
  | .edge e =>
    [("source", String.ofList (NodeId.text e.source)),
      ("target", String.ofList (NodeId.text e.target))]

/-- What kind of element a document has. -/
def elementMessage : GraphElement → String
  | .node _ => "decoded node"
  | .edge _ => "decoded edge"

/-- An event of a conversion. -/
def ofEvent : ConversionEvent → LogRecord
  | .started inputs jobs decoder =>
    { level := .info, target := "graphfmt::coordinator"
      message := s!"Converting {inputs} file(s) with {jobs} worker(s) using the " ++
        s!"{decoder.name} decoder" }
  | .converting input output =>
    { level := .debug, target := "graphfmt::coordinator"
      message := s!"Converting {input.toString} -> {output.toString}" }
  | .decoded decoder element =>
    { level := .trace, target := s!"graphfmt_decoder::{decoder.name}"
      message := elementMessage element, fields := elementFields element }
  | .converted input nodes edges bytes =>
    { level := .debug, target := "graphfmt::coordinator"
      message := s!"Converted {input.toString} ({nodes} nodes, {edges} edges, {bytes} bytes)" }

/-- The end of a conversion that did not fail. -/
def finished (outputDir : Path) (summary : Conversion.Summary) : LogRecord :=
  let converted := summary.converted
  if summary.cancelled then
    { level := .warn, target := "graphfmt::commands"
      message := s!"Cancelled after converting {converted} of {summary.total} file(s)" }
  else
    let directory := outputDir.toString
    let bytes := summary.bytesWritten.toNat
    { level := .info, target := "graphfmt::commands"
      message := s!"Converted {converted} file(s) into {directory} ({bytes} bytes)" }

/-- The end of a conversion that failed. -/
def stopped (e : ConversionError) : LogRecord :=
  { level := .error, target := "graphfmt::commands"
    message := s!"Conversion stopped: {e.message}" }

end LogRecord
end GraphScribe
