import GraphScribe.Markup.Attribute
import GraphScribe.Markup.Reference
import GraphScribe.Text.Utf8

/-!
# Syntax faults

What can be wrong with the markup of a document, with the message of each fault. A fault says
nothing about where it is; the error that carries it does.
-/

namespace GraphScribe.Markup

/-- What is wrong with a text. -/
inductive TextFault where
  | encoding (fault : Utf8.Fault)
  | reference (fault : Reference.Fault)
deriving DecidableEq, Repr

/-- The text of a fault. -/
def TextFault.message : TextFault → String
  | .encoding fault => fault.message
  | .reference fault => fault.message

/-- What is wrong with an attribute of an event; positions are offsets in the tag's content. -/
inductive EventAttributeFault where
  | noEquals (position : Nat)
  | noValue (position : Nat)
  | notQuoted (position : Nat)
  | notClosed (position : Nat) (quote : Char)
  | duplicate (position previous : Nat)
deriving DecidableEq, Repr

/-- The text of a fault. -/
def EventAttributeFault.message : EventAttributeFault → String
  | .noEquals p => s!"position {p}: attribute key must be directly followed by `=` or space"
  | .noValue p => s!"position {p}: `=` must be followed by an attribute value"
  | .notQuoted p => s!"position {p}: attribute value must be enclosed in `\"` or `'`"
  | .notClosed p quote => s!"position {p}: missing closing quote `{quote}` in attribute value"
  | .duplicate p previous =>
    s!"position {p}: duplicated attribute, previous declaration at position {previous}"

/-- What is wrong with the markup of a document. -/
inductive SyntaxFault where
  /-- What begins like a declaration is none. -/
  | unknownDeclaration
  | mismatchedTags (expected found : Bytes)
  | unmatchedTag (name : Bytes)
  | attribute (fault : AttributeFault)
  | text (fault : TextFault)
  /-- An event that begins like a declaration is none. -/
  | unknownSymbol
  | unnamedDocumentType
  | mismatchedEvents (expected found : Bytes)
  | unmatchedEvent (name : Bytes)
  | eventAttribute (fault : EventAttributeFault)
  | eventEncoding (fault : Utf8.Fault)
deriving DecidableEq, Repr

/-- What to say about an attribute at fault. -/
def AttributeFault.message (fault : AttributeFault) : String :=
  let key := Utf8.decodeLossy fault.key
  match fault.problem with
  | .noValue => s!"attribute `{key}` has no value"
  | .notQuoted => s!"value of attribute `{key}` is not quoted"
  | .notClosed => s!"value of attribute `{key}` is not closed"
  | .duplicate => s!"duplicate attribute `{key}`"

/-- A name as text, or nothing if it is not one. -/
def nameOrNothing (name : Bytes) : String :=
  match Utf8.decode name with
  | .ok text => String.ofList text
  | .error _ => ""

/-- The text of a fault. -/
def SyntaxFault.message : SyntaxFault → String
  | .unknownDeclaration => "invalid markup after `<!`"
  | .mismatchedTags expected found =>
    s!"expected </{Utf8.decodeLossy expected}>, found </{Utf8.decodeLossy found}>"
  | .unmatchedTag name => s!"unmatched </{Utf8.decodeLossy name}>"
  | .attribute fault => fault.message
  | .text fault => fault.message
  | .unknownSymbol => "unknown or missed symbol in markup"
  | .unnamedDocumentType =>
    "ill-formed document: `<!DOCTYPE>` declaration does not contain a name of a document type"
  | .mismatchedEvents expected found =>
    s!"ill-formed document: expected `</{nameOrNothing expected}>`, " ++
      s!"but `</{nameOrNothing found}>` was found"
  | .unmatchedEvent name =>
    s!"ill-formed document: close tag `</{nameOrNothing name}>` does not match any open tag"
  | .eventAttribute fault => fault.message
  | .eventEncoding fault => s!"cannot decode input using UTF-8: {fault.message}"

/-- The characters of a text whose references are left in it. -/
def readRaw (raw : Bytes) : Except TextFault (List Char) :=
  (Utf8.decode raw).mapError .encoding

/-- The text of some bytes, references replaced. -/
def unescape (raw : Bytes) : Except TextFault (List Char) :=
  match readRaw raw with
  | .ok text => (Reference.expand text).mapError .reference
  | .error fault => .error fault

end GraphScribe.Markup
