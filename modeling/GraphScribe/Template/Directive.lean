import GraphScribe.Graph
import GraphScribe.Number.Integer
import GraphScribe.Template.CostFunction
import GraphScribe.Text.Quoted

/-!
# Directives

A directive is one instruction of a template: a text to copy, a count, a table or a list of parts of
the graph. This module reads the directive that follows a percent sign, writes the output of a
directive for a graph, and describes a directive on one line.

Output is made of pieces, which are handed over one after the other; `pieces` lists them.
-/

namespace GraphScribe

/-- One instruction of a template. -/
inductive Directive where
  /-- A text to copy. -/
  | text (copied : List Char)
  | nodeCount
  | edgeCount
  | adjacencyMatrix
  /-- The costs of all nodes on one line. -/
  | costs (f : CostFunction)
  /-- A line for every node, with its cost if there is a cost function. -/
  | nodes (f : Option CostFunction)
  /-- A line for every edge, with its cost if there is a cost function. -/
  | edges (f : Option CostFunction)
deriving DecidableEq

/-- The text of a cost in printed output: the infinities have a sign and a capital. -/
def Binary64.costText : Binary64 → List Char
  | .infinite false => ['+', 'I', 'n', 'f']
  | .infinite true => ['-', 'I', 'n', 'f']
  | x => x.text

/-- Lists of pieces, one after the other with a separating piece between them. -/
def separated (separator : List Char) : List (List (List Char)) → List (List Char)
  | [] => []
  | [pieces] => pieces
  | pieces :: rest => pieces ++ separator :: separated separator rest

/-- The text of a node name. -/
def NodeId.text (id : NodeId) : List Char :=
  Integer.text id.toInt

namespace Directive

/-- The cell of the matrix for a row and a column: a node is never adjacent to itself. -/
def cell (g : Graph) (row column : Node) : List Char :=
  if row.id != column.id && g.isAdjacent row.id column.id then ['1'] else ['0']

/-- The cost column of a line, a space before it. -/
def costColumn (f : Option CostFunction) (cost : Binary64) : List (List Char) :=
  match f with
  | none => []
  | some f => [[' '], (f.apply cost).costText]

/-- The output of a directive for a graph, piece by piece. -/
def pieces (g : Graph) : Directive → List (List Char)
  | .text copied => [copied]
  | .nodeCount => [Integer.text g.nodeCount]
  | .edgeCount => [Integer.text g.edgeCount]
  | .adjacencyMatrix =>
    separated ['\n'] (g.nodes.map fun row =>
      separated [' '] (g.nodes.map fun column => [cell g row column]))
  | .costs f => separated [' '] (g.nodes.map fun node => [(f.apply node.cost).costText])
  | .nodes f =>
    separated ['\n'] (g.nodes.map fun node => NodeId.text node.id :: costColumn f node.cost)
  | .edges f =>
    separated ['\n'] (g.edges.map fun edge =>
      NodeId.text edge.source :: [' '] :: NodeId.text edge.target :: costColumn f edge.cost)

/-! ## Reading -/

/-- The directive at the front of `body`, the text that follows a percent sign, and what follows
the directive. -/
def read (body : List Char) : Except TemplateError (Directive × List Char) :=
  match body with
  | [] => .error (.missingVerb ['%'])
  | '%' :: rest => .ok (.text ['%'], rest)
  | 'n' :: rest => .ok (.nodeCount, rest)
  | 'm' :: rest => .ok (.edgeCount, rest)
  | 'a' :: rest => .ok (.adjacencyMatrix, rest)
  | body =>
    match CostFunction.read body with
    | .error e => .error e
    | .ok (_, []) => .error (.missingVerb ('%' :: body))
    | .ok (f, 'w' :: rest) => .ok (.costs (f.getD .identity), rest)
    | .ok (f, 'N' :: rest) => .ok (.nodes f, rest)
    | .ok (f, 'M' :: rest) => .ok (.edges f, rest)
    | .ok (_, verb :: rest) =>
      .error (.invalidVerb ('%' :: body.take (body.length - rest.length)) verb)

/-- A directive takes at least one character. -/
theorem read_length {body rest : List Char} {d : Directive} (h : read body = .ok (d, rest)) :
    rest.length < body.length := by
  unfold read at h
  split at h
  case h_6 =>
    split at h
    case h_1 => contradiction
    all_goals
      next hr =>
        have := CostFunction.read_length hr
        grind
  all_goals grind

/-! ## Description -/

/-- The cost function of a list in brackets, if there is one. -/
def bracketed (f : Option CostFunction) : List Char :=
  match f with
  | none => []
  | some f => " (".toList ++ f.describe ++ [')']

/-- A directive on one line. -/
def describe : Directive → List Char
  | .text copied => "text ".toList ++ Text.quote copied
  | .nodeCount => "node count".toList
  | .edgeCount => "edge count".toList
  | .adjacencyMatrix => "adjacency matrix".toList
  | .costs f => "node costs".toList ++ bracketed (some f)
  | .nodes f => "node list".toList ++ bracketed f
  | .edges f => "edge list".toList ++ bracketed f

end Directive
end GraphScribe
