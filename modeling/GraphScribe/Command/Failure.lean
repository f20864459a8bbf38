import GraphScribe.Conversion.Error
import GraphScribe.Inputs
import GraphScribe.Settings.Discovery
import GraphScribe.Template.Error

/-!
# Failures of commands

Why a command failed, and the report that it ends with: what went wrong, and below it the chain of
causes, numbered if there are several.
-/

namespace GraphScribe

/-- Why a command failed. -/
inductive Failure where
  | settings (e : DiscoveryError)
  | pattern (e : InvalidGlob)
  | format (e : TemplateError)
  | conversion (e : ConversionError)

namespace Failure

/-- What went wrong. -/
def message : Failure → String
  | settings e => e.message
  | pattern e => e.message
  | format e => s!"Invalid format string: {e.explanation}"
  | conversion e => e.message

/-- The causes, each one behind the one before it. -/
def causes : Failure → List String
  | settings e => [e.cause]
  | pattern e => [e.cause]
  | format _ => []
  | conversion e => e.causes

/-- A cause with what stands before its first line; further lines are indented as far as a number
takes. -/
def indented (first others : String) (cause : String) : String :=
  first ++ String.ofList (cause.toList.flatMap fun c =>
    if c = '\n' then '\n' :: others.toList else [c])

/-- The lines of the causes. -/
def causeLines : List String → List String
  | [] => []
  | [cause] => [indented "    " "    " cause]
  | causes => causes.mapIdx fun i cause => indented s!"    {i}: " "       " cause

/-- The report of a failure. -/
def report (f : Failure) : String :=
  let lines :=
    match causeLines f.causes with
    | [] => []
    | causes => ["", "Caused by:"] ++ causes
  String.join ((s!"Error: {f.message}" :: lines).map (· ++ "\n"))

end Failure
end GraphScribe
