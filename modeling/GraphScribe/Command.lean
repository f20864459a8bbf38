import GraphScribe.Command.Failure
import GraphScribe.Command.Invocation
import GraphScribe.Command.Record
import GraphScribe.Log.Filter

/-!
# Commands

What a command line does: a function from the files and the words to the files afterwards, both
outputs and an exit code. A convert command first reads its settings, then finds its inputs, then
compiles its format, and only then touches any file; with no inputs it is done before the format is
looked at. The other commands touch no file at all.

Inputs are converted in order, as by one worker. What several workers leave may differ where an
output is in the way of another file, and they may tell of their inputs in another order.
-/

namespace GraphScribe

/-- What surrounds a command. -/
structure Environment where
  files : FileTree
  /-- The text of the log filter, if one is set. -/
  logFilter : Option String := none
  /-- The number of jobs that the machine runs at once. -/
  parallelism : Nat
  /-- Opens an address for requests about the conversion, and gives the one that was opened. -/
  listen : SocketAddress → Except SystemError SocketAddress

/-- What a command leaves. -/
structure Outcome where
  exitCode : Nat
  output : String
  errors : String
  files : FileTree

/-- What a command tells while it works. -/
inductive Remark where
  | record (r : LogRecord)
  | text (text : String)

/-- The text of a remark that passes a filter. -/
def Remark.render (filter : LogFilter) : Remark → String
  | .record r => if filter.admits r then r.line ++ "\n" else ""
  | .text shown => shown

/-- What a command does, before it is decided which of its remarks are told. -/
structure Effect where
  remarks : List Remark := []
  output : String := ""
  failure : Option Failure := none
  files : FileTree

namespace Effect

/-- What happens after some remarks. -/
def after (remarks : List Remark) (e : Effect) : Effect :=
  { e with remarks := remarks ++ e.remarks }

/-- The outcome: the remarks that pass a filter, then the report of a failure. -/
def outcome (filter : LogFilter) (e : Effect) : Outcome :=
  let told := String.join (e.remarks.map (·.render filter))
  match e.failure with
  | none => ⟨0, e.output, told, e.files⟩
  | some failure => ⟨1, e.output, told ++ failure.report, e.files⟩

end Effect

namespace Command

/-- What is printed after an error in a format. -/
def formatHelp : String :=
  String.join [
    "Format directives:\n",
    "  %%            a literal percent sign\n",
    "  %n            number of nodes\n",
    "  %m            number of edges\n",
    "  %a            adjacency matrix, one row per line\n",
    "  %[cost]w      node costs on a single line\n",
    "  %[cost]N      node list, one `id [cost]` per line\n",
    "  %[cost]M      edge list, one `source target [cost]` per line\n",
    "\n",
    "A cost function is an optional ratio followed by an optional rounding mode:\n",
    "  X  no rounding (default)    F  round down\n",
    "  R  round to nearest         C  round up\n",
    "e.g. `%.5RN` lists nodes with half their cost, rounded. Without a cost\n",
    "function N and M omit the cost column and w prints costs unchanged.\n"]

/-- What is printed to those who ask for help or need it. -/
def usage : String :=
  String.join [
    "Usage: graphfmt [-v] [-c FILE] COMMAND\n",
    "\n",
    "Commands:\n",
    "  convert [FILES]  convert XML graph documents to text\n",
    "    -f, --format FORMAT    what to print of a graph\n",
    "    -o, --output-dir DIR   where converted files go\n",
    "    -g, --glob PATTERN     which files to convert if none are given\n",
    "    -e, --extension TEXT   extension of converted files\n",
    "        --decoder KIND     token or streaming\n",
    "    -j, --jobs COUNT       number of workers\n",
    "        --diagnostics ADDRESS, --progress\n",
    "  check FORMAT     list the directives of a format\n",
    "  version          tell the version\n"]

/-- The failure of a format, after the error and the list of directives. -/
def refuseFormat (files : FileTree) (e : TemplateError) : Effect where
  remarks := [.text s!"{e.message}\n\n{formatHelp}\n"]
  failure := some (.format e)
  files := files

/-- What is told about requests: before the conversion and after it. -/
def listenRecords (env : Environment) (s : Settings) : List LogRecord × List LogRecord :=
  match s.diagnostics with
  | none => ([], [])
  | some address =>
    match env.listen address with
    | .ok opened => ([.listening opened], [.stoppedListening opened])
    | .error failure => ([.notListening address failure], [])

/-- The conversion that settings describe. -/
def conversionOf (s : Settings) (template : Template) : Conversion where
  template := template
  decoder := s.decoder
  outputDir := .ofString s.outputDir
  extension := s.extension
  jobs := s.jobs

/-- What a finished conversion amounts to. -/
def effectOf (c : Conversion) (run : Conversion.Run) : Effect :=
  match run.outcome with
  | .ok summary => { remarks := [.record (.finished c.outputDir summary)], files := run.tree }
  | .error e =>
    { remarks := [.record (.stopped e)], failure := some (.conversion e), files := run.tree }

/-- Converts inputs by settings. -/
def convertInputs (env : Environment) (s : Settings) (inputs : List Path) : Effect :=
  if inputs.isEmpty then { remarks := [.record .nothingToDo], files := env.files }
  else
    match Template.compile s.format with
    | .error e => refuseFormat env.files e
    | .ok template =>
      let c := conversionOf s template
      let run := c.run env.files inputs false
      let (opening, closing) := listenRecords env s
      let records := .compiled template :: opening ++ run.events.map .ofEvent ++ closing
      (effectOf c run).after (records.map .record)

/-- What is told about the search for inputs. -/
def searchRecords (pattern? : Option String) (inputs : Inputs) : List LogRecord :=
  match pattern? with
  | some pattern => if inputs.searched then [.matched pattern inputs.paths.length] else []
  | none => []

/-- The flags of a convert command; progress is also shown to those who want to be told much. -/
def flagsOf (invocation : Invocation) (flags : Flags) : Flags :=
  { flags with progress := flags.progress || invocation.verbose }

/-- Converts files. -/
def convert (env : Environment) (invocation : Invocation) (files : List Path)
    (pattern? : Option String) (flags : Flags) : Effect :=
  let opening : List LogRecord :=
    .version :: if FileSettings.usesStandardFile env.files invocation.config
      then [.usesFile FileSettings.standardPath] else []
  Effect.after (opening.map .record) <|
    match FileSettings.discover env.files invocation.config with
    | .error e => { failure := some (.settings e), files := env.files }
    | .ok file =>
      match Inputs.resolve env.files files pattern? with
      | .error e => { failure := some (.pattern e), files := env.files }
      | .ok inputs =>
        let s := Settings.resolve env.parallelism file (flagsOf invocation flags)
        Effect.after ((searchRecords pattern? inputs).map .record)
          (convertInputs env s inputs.paths)

/-- Compiles a format and lists its directives, one on a line. -/
def check (files : FileTree) (format : String) : Effect :=
  match Template.compile format with
  | .error e => refuseFormat files e
  | .ok template =>
    { remarks := [.record (.compiled template)]
      output := String.join (template.describe.map fun line => String.ofList line ++ "\n")
      files }

/-- Tells the version. -/
def version (files : FileTree) : Effect :=
  { output := s!"graphfmt v{Diagnostics.version}\n", files }

/-- What an invocation does. -/
def effect (env : Environment) (invocation : Invocation) : Effect :=
  match invocation.request with
  | .convert files pattern? flags => convert env invocation files pattern? flags
  | .check format => check env.files format
  | .version => version env.files

/-- The filter of a command: the one that is set, unless it is no filter, or else records of the
program itself down to a level that the command line chooses. -/
def filterOf (logFilter : Option String) (verbose : Bool) : LogFilter :=
  match logFilter.bind LogFilter.read with
  | some filter => filter
  | none =>
    [{ target := "graphfmt".toList, threshold := some (if verbose then .debug else .info) }]

/-- Does what the words of a command line ask for. -/
def execute (env : Environment) (words : List String) : Outcome :=
  match Invocation.read words with
  | .ok invocation =>
    (effect env invocation).outcome (filterOf env.logFilter invocation.verbose)
  | .error .helpAsked => ⟨0, usage, "", env.files⟩
  | .error fault => ⟨2, "", s!"error: {fault.message}\n\n{usage}", env.files⟩

end Command
end GraphScribe
