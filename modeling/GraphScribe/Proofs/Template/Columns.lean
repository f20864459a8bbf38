import GraphScribe.Proofs.Number.DecimalText
import GraphScribe.Proofs.Template.Output
import GraphScribe.Proofs.Text.Separated

/-!
# Lists in columns

The lists of nodes and of edges have a line for each of them and a space between the columns of a
line; the list of costs is one line. Names and costs are written without spaces and line ends, so
everything is found again where it was put.

* `isColumn_costText`, `NodeId.isColumn_text`: what a column may hold.
* `nodes_columns`, `edges_columns`, `costs_columns`: the columns of each list.
* `Directive.lists_keepColumns`: all of them, and how costs are written.
-/

namespace GraphScribe

/-! ## Numbers in columns -/

/-- A text of digits, points and signs may stand in a column. -/
theorem IsPositional.isColumn {text : List Char} (positional : IsPositional text) :
    Bytes.IsColumn text := by
  obtain ⟨filled, chars⟩ := positional.chars
  have absent (c : Char) (other : ¬ (c.isDigit = true ∨ c = '.' ∨ c = '-')) : c ∉ text :=
    fun held => other (chars c held)
  exact ⟨filled, absent ' ' (by decide), absent '\n' (by decide)⟩

theorem NodeId.isColumn_text (id : NodeId) : Bytes.IsColumn (NodeId.text id) :=
  (Integer.text_isPositional id.toInt).isColumn

/-- Where there is no exponent, there is no letter for it. -/
theorem IsPositional.noExponent {text : List Char} (positional : IsPositional text) :
    'e' ∉ text ∧ 'E' ∉ text :=
  ⟨fun held => absurd (positional.chars.2 'e' held) (by decide),
    fun held => absurd (positional.chars.2 'E' held) (by decide)⟩

theorem isColumn_costText (x : Binary64) :
    Bytes.IsColumn x.costText ∧ 'e' ∉ x.costText ∧ 'E' ∉ x.costText := by
  rcases x with - | negative | x
  · exact ⟨⟨by decide, by decide, by decide⟩, by decide, by decide⟩
  · cases negative <;> exact ⟨⟨by decide, by decide, by decide⟩, by decide, by decide⟩
  · have positional : IsPositional (Binary64.finite x).costText := x.text_isPositional
    exact ⟨positional.isColumn, positional.noExponent⟩

/-! ## Lists -/

namespace Directive

open Bytes

variable (g : Graph) (f : CostFunction)

/-- The column that a list has for costs if it has a cost function. -/
def costCells (f : Option CostFunction) (cost : Binary64) : List (List Char) :=
  match f with
  | none => []
  | some f => [(f.apply cost).costText]

theorem isColumn_costCells (f : Option CostFunction) (cost : Binary64) :
    ∀ text ∈ costCells f cost, IsColumn text := by
  cases f with
  | none => exact fun text held => absurd held List.not_mem_nil
  | some f => exact List.forall_mem_singleton.2 (isColumn_costText _).1

/-- The column for costs follows another one. -/
theorem flatten_costColumn (column : List Char) (f : Option CostFunction) (cost : Binary64) :
    column ++ (costColumn f cost).flatten = [' '].intercalate (column :: costCells f cost) := by
  cases f with
  | none => rw [costCells, List.intercalate_singleton, costColumn, List.flatten_nil, List.append_nil]
  | some f =>
    rw [costCells, List.intercalate_cons_cons, List.intercalate_singleton, List.append_assoc]
    simp only [costColumn, List.flatten_cons, List.flatten_nil, List.append_nil]

theorem nodes_columns (f : Option CostFunction) :
    (parts lineEnd ((nodes f).render g)).map (·.splitOn space) =
      g.nodes.map fun node =>
        (NodeId.text node.id :: costCells f node.cost).map Utf8.encode := by
  refine parts_table (fun node : Node => NodeId.text node.id :: costCells f node.cost)
    (fun node _ => ?_) (fun node _ => List.cons_ne_nil _ _) fun node _ => ?_
  · exact flatten_costColumn _ f node.cost
  · rw [List.forall_mem_cons]
    exact ⟨NodeId.isColumn_text _, isColumn_costCells f node.cost⟩

theorem edges_columns (f : Option CostFunction) :
    (parts lineEnd ((edges f).render g)).map (·.splitOn space) =
      g.edges.map fun edge =>
        (NodeId.text edge.source :: NodeId.text edge.target :: costCells f edge.cost).map
          Utf8.encode := by
  refine parts_table (fun edge : Edge =>
      NodeId.text edge.source :: NodeId.text edge.target :: costCells f edge.cost)
    (fun edge _ => ?_) (fun edge _ => List.cons_ne_nil _ _) fun edge _ => ?_
  · rw [List.intercalate_cons_cons, ← flatten_costColumn, List.append_assoc]
    rfl
  · rw [List.forall_mem_cons, List.forall_mem_cons]
    exact ⟨NodeId.isColumn_text _, NodeId.isColumn_text _, isColumn_costCells f edge.cost⟩

theorem costs_columns :
    parts space ((costs f).render g) =
      g.nodes.map fun node => Utf8.encode (f.apply node.cost).costText := by
  rw [render, pieces, separated_singletons, parts_columns, List.map_map]
  · rfl
  · intro text held
    obtain ⟨node, -, rfl⟩ := List.mem_map.1 held
    exact (isColumn_costText _).1

/-- Whatever the graph and the cost function, the lists have a line for each node or edge, with the
columns that belong to it, and the list of costs has a cost for each node; a graph without any is
written as nothing. Every cost is written as a word, finite ones by position. -/
theorem lists_keepColumns :
    (∃ out : Bytes, (nodes (some f)).writeTo ({} : Sink) g = .ok { held := out.toArray } ∧
      (parts lineEnd out).map (·.splitOn space) = g.nodes.map fun node =>
        [Utf8.encode (NodeId.text node.id), Utf8.encode (f.apply node.cost).costText]) ∧
    (∃ out : Bytes, (edges (some f)).writeTo ({} : Sink) g = .ok { held := out.toArray } ∧
      (parts lineEnd out).map (·.splitOn space) = g.edges.map fun edge =>
        [Utf8.encode (NodeId.text edge.source), Utf8.encode (NodeId.text edge.target),
          Utf8.encode (f.apply edge.cost).costText]) ∧
    (∃ out : Bytes, (costs f).writeTo ({} : Sink) g = .ok { held := out.toArray } ∧
      parts space out = g.nodes.map fun node => Utf8.encode (f.apply node.cost).costText) ∧
    (∀ x : Binary64, x.costText ≠ [] ∧ ' ' ∉ x.costText ∧ '\n' ∉ x.costText ∧
      'e' ∉ x.costText ∧ 'E' ∉ x.costText) ∧
    (∀ x : Binary64.Finite, IsPositional (Binary64.finite x).costText) ∧
    (Binary64.infinite false).costText = "+Inf".toList ∧
    (Binary64.infinite true).costText = "-Inf".toList := by
  refine ⟨⟨_, writeTo_unlimited _ g, nodes_columns g (some f)⟩,
    ⟨_, writeTo_unlimited _ g, edges_columns g (some f)⟩,
    ⟨_, writeTo_unlimited _ g, costs_columns g f⟩, fun x => ?_, Binary64.Finite.text_isPositional,
    rfl, rfl⟩
  obtain ⟨⟨filled, noSpace, noLineEnd⟩, noExponent⟩ := isColumn_costText x
  exact ⟨filled, noSpace, noLineEnd, noExponent⟩

end Directive
end GraphScribe
