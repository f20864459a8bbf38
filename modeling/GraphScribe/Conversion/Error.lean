import GraphScribe.Decode.Error
import GraphScribe.Path

/-!
# Conversion errors

Why a conversion stopped: the path that it concerns and the failure itself.
-/

namespace GraphScribe

/-- Why a conversion stopped. -/
inductive ConversionError where
  /-- An input cannot be opened. -/
  | unopened (path : Path) (failure : SystemError)
  /-- An input holds no graph. -/
  | undecoded (path : Path) (failure : DecodeError)
  /-- An output, or the directory for all outputs, cannot be made. -/
  | uncreated (path : Path) (failure : SystemError)
  /-- An output cannot be written to its end. -/
  | unwritten (path : Path) (failure : SystemError)
deriving DecidableEq, Repr

namespace ConversionError

/-- The path that an error concerns. -/
def path : ConversionError → Path
  | unopened path _ | undecoded path _ | uncreated path _ | unwritten path _ => path

/-- What went wrong. -/
def message : ConversionError → String
  | unopened path _ => s!"failed to open {path.toString}"
  | undecoded path _ => s!"failed to decode {path.toString}"
  | uncreated path _ => s!"failed to create {path.toString}"
  | unwritten path _ => s!"failed to write {path.toString}"

/-- Why it went wrong, and what is behind that, if anything. -/
def causes : ConversionError → List String
  | unopened _ failure | uncreated _ failure | unwritten _ failure => [failure.message]
  | undecoded _ failure => failure.message :: failure.cause?.toList

end ConversionError
end GraphScribe
