import GraphScribe.Settings.File
import GraphScribe.Template

/-!
# Settings

The settings of a conversion come from three layers: flags, then a file, then built-in values. Some
values count as unset and let the next layer decide: an empty format or directory, and an extension
of nothing but dots. A count of zero jobs counts as unset too, but only once the layers are merged:
with that flag the built-in count is taken, also if the file has a count to offer.
-/

namespace GraphScribe

/-- The settings that are given by flags. -/
structure Flags where
  format : Option String := none
  outputDir : Option String := none
  extension : Option String := none
  decoder : Option DecoderKind := none
  jobs : Option Nat := none
  diagnostics : Option SocketAddress := none
  progress : Bool := false
deriving DecidableEq, Repr

/-- The settings of a conversion. -/
structure Settings where
  format : String
  outputDir : String
  extension : String
  decoder : DecoderKind
  jobs : Nat
  diagnostics : Option SocketAddress
  progress : Bool
deriving DecidableEq, Repr

namespace Settings

/-- A text, unless it is empty. -/
def nonEmpty (value : Option String) : Option String :=
  value.filter (!·.isEmpty)

/-- An extension without its leading dots. -/
def withoutDots (extension : String) : String :=
  String.ofList (extension.toList.dropWhile (· == '.'))

/-- Merges the layers on a machine that runs `parallelism` jobs at once. -/
def resolve (parallelism : Nat) (file : FileSettings) (flags : Flags) : Settings where
  format := (nonEmpty flags.format <|> nonEmpty file.format).getD Template.defaultSource
  outputDir := (nonEmpty flags.outputDir <|> nonEmpty file.outputDir).getD "."
  extension :=
    (nonEmpty (flags.extension.map withoutDots) <|>
      nonEmpty (file.extension.map withoutDots)).getD "in"
  decoder := (flags.decoder <|> file.decoder).getD .standard
  jobs := ((flags.jobs <|> file.jobs).filter (0 < ·)).getD parallelism
  diagnostics := flags.diagnostics <|> file.diagnostics
  progress := flags.progress

end Settings
end GraphScribe
