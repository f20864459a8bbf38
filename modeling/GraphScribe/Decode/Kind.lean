import GraphScribe.Text.Quoted

/-!
# Kinds of decoders

There are two ways to decode a document: following the events of its markup one by one, or taking
whole elements out of it.
-/

namespace GraphScribe

/-- A way to decode documents. -/
inductive DecoderKind where
  /-- Follows the events of the markup. -/
  | token
  /-- Takes elements out of the whole text. -/
  | streaming
deriving DecidableEq, Repr

namespace DecoderKind

/-- The kind that is used where none is given. -/
def standard : DecoderKind := .streaming

/-- The name of a kind. -/
def name : DecoderKind → String
  | .token => "token"
  | .streaming => "streaming"

/-- The kind of a name. -/
def ofName? (name : String) : Option DecoderKind :=
  if name = "token" then some .token
  else if name = "streaming" then some .streaming
  else none

theorem ofName?_name (kind : DecoderKind) : ofName? kind.name = some kind := by
  cases kind <;> rfl

/-- What to say about a name that no kind has. -/
def unknownMessage (name : String) : String :=
  s!"unknown decoder {Text.quoted name} (expected \"token\" or \"streaming\")"

end DecoderKind
end GraphScribe
