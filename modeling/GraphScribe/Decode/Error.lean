import GraphScribe.Markup.SyntaxFault
import GraphScribe.Number.Binary64.Reading
import GraphScribe.SystemError
import GraphScribe.Text.Quoted

/-!
# Decoding errors

Why a document gives no graph. Errors about a field name the element and the field; all others
concern the document.
-/

namespace GraphScribe

/-- The elements that a graph is made of. -/
inductive ElementKind where
  | node
  | edge
deriving DecidableEq, Repr

/-- The name of an element. -/
def ElementKind.name : ElementKind → String
  | .node => "node"
  | .edge => "edge"

/-- The fields that elements have. -/
inductive FieldName where
  | id
  | cost
  | source
  | target
deriving DecidableEq, Repr

/-- What a field is called in messages. -/
def FieldName.label : FieldName → String
  | .id => "attribute \"id\""
  | .cost => "<cost>"
  | .source => "<source>"
  | .target => "<target>"

/-- Why a document gives no graph. -/
inductive DecodeError where
  | missingField (element : ElementKind) (field : FieldName)
  | invalidInteger (element : ElementKind) (field : FieldName) (value : List Char)
    (fault : Integer.Fault)
  | invalidNumber (element : ElementKind) (field : FieldName) (value : List Char)
    (fault : Binary64.Fault)
  /-- The document ends inside `depth` elements. -/
  | truncated (depth : Nat)
  | noRoot
  | malformed (position : Nat) (fault : Markup.SyntaxFault)
  | unreadable (failure : SystemError)
deriving DecidableEq, Repr

namespace DecodeError

/-- The element and the field at fault. -/
def location? : DecodeError → Option (ElementKind × FieldName)
  | .missingField element field => some (element, field)
  | .invalidInteger element field _ _ => some (element, field)
  | .invalidNumber element field _ _ => some (element, field)
  | _ => none

/-- The message of an error. -/
def message : DecodeError → String
  | .missingField element field => s!"<{element.name}> is missing required {field.label}"
  | .invalidInteger element field value fault =>
    s!"<{element.name}> {field.label} {String.ofList (Text.quote value)} " ++
      s!"is not a valid integer: {fault.message}"
  | .invalidNumber element field value fault =>
    s!"<{element.name}> {field.label} {String.ofList (Text.quote value)} " ++
      s!"is not a valid number: {fault.message}"
  | .truncated depth => s!"document ended with {depth} unclosed element(s)"
  | .noRoot => "document has no root element"
  | .malformed position fault => s!"malformed markup at byte {position}: {fault.message}"
  | .unreadable failure => s!"failed to read document: {failure.message}"

/-- The failure that an error passes on, if it does. -/
def cause? : DecodeError → Option String
  | .invalidInteger _ _ _ fault => some fault.message
  | .invalidNumber _ _ _ fault => some fault.message
  | .unreadable failure => some failure.message
  | _ => none

end DecodeError
end GraphScribe
