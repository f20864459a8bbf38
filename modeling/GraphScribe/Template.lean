import GraphScribe.Sink
import GraphScribe.Template.Directive
import GraphScribe.Text.Utf8

/-!
# Templates

A template is a non-empty text in which a percent sign starts a directive and everything else is
copied. Compiling it gives its directives in order; a template is the same for all graphs.
-/

namespace GraphScribe

/-- A compiled template with the text that it was compiled from. -/
structure Template where
  source : String
  directives : List Directive
deriving DecidableEq

namespace Template

/-- The character is copied: it starts no directive. -/
def isLiteral (c : Char) : Bool := c != '%'

/-- The directives of a text: its longest runs without a percent sign, and what percent signs
start. -/
def directivesOf : List Char → Except TemplateError (List Directive)
  | [] => .ok []
  | '%' :: body =>
    match h : Directive.read body with
    | .error e => .error e
    | .ok (d, rest) =>
      have := Directive.read_length h
      (directivesOf rest).map (d :: ·)
  | c :: rest =>
    have := (List.dropWhile_suffix isLiteral (l := rest)).length_le
    (directivesOf (rest.dropWhile isLiteral)).map (.text (c :: rest.takeWhile isLiteral) :: ·)
termination_by text => text.length
decreasing_by all_goals (simp only [List.length_cons]; omega)

/-- Compiles a text. -/
def compile (source : String) : Except TemplateError Template :=
  if source.isEmpty then .error .empty
  else (directivesOf source.toList).map fun directives => ⟨source, directives⟩

/-- The output of a template for a graph, as the pieces of its directives in order. -/
def pieces (t : Template) (g : Graph) : List (List Char) :=
  t.directives.flatMap (·.pieces g)

/-- The output of a template for a graph. -/
def render (t : Template) (g : Graph) : Bytes :=
  Utf8.encode (t.pieces g).flatten

/-- Writes the output of a template for a graph, piece by piece. -/
def writeTo {σ : Type} [Receiver σ] (t : Template) (sink : σ) (g : Graph) :
    Except (SystemError × σ) σ :=
  Receiver.writeAll sink ((t.pieces g).map Utf8.encode)

/-- The description of a template: a line for every directive. -/
def describe (t : Template) : List (List Char) :=
  t.directives.map Directive.describe

/-- The template that is used where none is given. -/
def defaultSource : String := "%n %m\n%M\n"

end Template
end GraphScribe
