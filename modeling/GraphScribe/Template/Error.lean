import GraphScribe.Number.Binary64.Reading

/-!
# Template errors

Why a text is not a template. Each cause but the first names the part of the text that is at fault.
-/

namespace GraphScribe

/-- Why a text is not a template. -/
inductive TemplateError where
  | empty
  | missingVerb (fragment : List Char)
  | invalidVerb (fragment : List Char) (verb : Char)
  | invalidRatio (fragment : List Char) (fault : Binary64.Fault)
deriving DecidableEq

namespace TemplateError

/-- The part of the text that is at fault. -/
def fragment? : TemplateError → Option (List Char)
  | .empty => none
  | .missingVerb fragment => some fragment
  | .invalidVerb fragment _ => some fragment
  | .invalidRatio fragment _ => some fragment

/-- The cause in a few words. -/
def explanation : TemplateError → String
  | .empty => "required to be non-empty"
  | .missingVerb _ => "missing verb"
  | .invalidVerb _ _ => "invalid verb"
  | .invalidRatio _ _ => "invalid cost ratio"

/-- The message of an error. -/
def message : TemplateError → String
  | .empty => "invalid format string: required to be non-empty"
  | .missingVerb fragment =>
    s!"invalid format string: missing verb (in \"{String.ofList fragment}\")"
  | .invalidVerb fragment verb =>
    s!"invalid format string: invalid verb \"{verb}\" (in \"{String.ofList fragment}\")"
  | .invalidRatio fragment fault =>
    s!"invalid format string: invalid cost ratio (in \"{String.ofList fragment}\"): {fault.message}"

end TemplateError
end GraphScribe
