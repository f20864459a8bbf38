import GraphScribe.Proofs.Template.Output
import GraphScribe.Proofs.Text.Separated

/-!
# The adjacency matrix

The matrix has a row and a column for every node, in the order of the nodes. A cell says whether an
edge leads from the node of its row to the node of its column, where no node counts as adjacent to
one of its own name. So the matrix depends on the names of the nodes, in order, and on which names
the edges lead from and to, and on nothing else.

* `Graph.Adjacent`: what a cell says, with `Directive.cell_eq`.
* `Directive.matrix_rows`: the rows and cells that are found in the output.
* `Directive.matrix_congr`: what the matrix depends on.
* `Directive.adjacencyMatrix_shows`: the shape of the matrix, its cells, and what leaves it as it is.
-/

namespace GraphScribe

/-! ## Edges -/

namespace Edge

/-- The edge with its ends the other way round. -/
def swapped (e : Edge) : Edge := { e with source := e.target, target := e.source }

/-- All of an edge but its cost. -/
def ends (e : Edge) : NodeId × NodeId × Bool := (e.source, e.target, e.directed)

theorem connects_iff {e : Edge} {start finish : NodeId} :
    e.connects start finish = true ↔
      (e.source = start ∧ e.target = finish) ∨
        (e.directed = false ∧ e.source = finish ∧ e.target = start) := by
  simp only [connects, Bool.or_eq_true, Bool.and_eq_true, beq_iff_eq, Bool.not_eq_true']

/-- An edge that is not directed leads both ways. -/
theorem connects_comm {e : Edge} (undirected : e.directed = false) (start finish : NodeId) :
    e.connects start finish = e.connects finish start := by
  rw [Bool.eq_iff_iff, connects_iff, connects_iff]
  constructor
  · rintro (forward | ⟨-, backward⟩)
    · exact .inr ⟨undirected, forward⟩
    · exact .inl backward
  · rintro (forward | ⟨-, backward⟩)
    · exact .inr ⟨undirected, forward⟩
    · exact .inl backward

theorem connects_swapped {e : Edge} (undirected : e.directed = false) (start finish : NodeId) :
    e.swapped.connects start finish = e.connects start finish := by
  rw [connects_comm undirected, Bool.eq_iff_iff, connects_iff, connects_iff]
  simp only [swapped]
  rw [and_comm, and_comm (a := e.target = finish)]

theorem connects_of_ends {e e' : Edge} (same : e.ends = e'.ends) (start finish : NodeId) :
    e.connects start finish = e'.connects start finish := by
  obtain ⟨source, target, cost, directed⟩ := e
  cases same
  rfl

end Edge

namespace Graph

variable {g h : Graph} {start finish : NodeId}

/-- The names differ, and some edge leads from the first to the second. -/
def Adjacent (g : Graph) (start finish : NodeId) : Prop :=
  start ≠ finish ∧ ∃ e ∈ g.edges, (e.source = start ∧ e.target = finish) ∨
    (e.directed = false ∧ e.source = finish ∧ e.target = start)

theorem isAdjacent_iff :
    g.isAdjacent start finish = true ↔ ∃ e ∈ g.edges, e.connects start finish = true :=
  List.any_eq_true

theorem adjacent_iff : (start != finish && g.isAdjacent start finish) = true ↔
    g.Adjacent start finish := by
  simp only [Bool.and_eq_true, bne_iff_ne, isAdjacent_iff, Edge.connects_iff, Adjacent]

instance (g : Graph) (start finish : NodeId) : Decidable (g.Adjacent start finish) :=
  decidable_of_iff _ adjacent_iff

theorem isAdjacent_comm (undirected : ∀ e ∈ g.edges, e.directed = false) (start finish : NodeId) :
    g.isAdjacent start finish = g.isAdjacent finish start := by
  rw [Bool.eq_iff_iff, isAdjacent_iff, isAdjacent_iff]
  refine exists_congr fun e => and_congr_right fun held => ?_
  rw [Edge.connects_comm (undirected e held)]

/-- Neither the order of the edges counts nor how often each is there. -/
theorem isAdjacent_of_mem_iff (same : ∀ e, e ∈ g.edges ↔ e ∈ h.edges) (start finish : NodeId) :
    g.isAdjacent start finish = h.isAdjacent start finish := by
  rw [Bool.eq_iff_iff, isAdjacent_iff, isAdjacent_iff]
  exact exists_congr fun e => and_congr_left fun _ => same e

theorem isAdjacent_of_swapped {before after : List Edge} {e : Edge} (undirected : e.directed = false)
    (found : g.edges = before ++ e :: after) (replaced : h.edges = before ++ e.swapped :: after)
    (start finish : NodeId) : g.isAdjacent start finish = h.isAdjacent start finish := by
  rw [isAdjacent, isAdjacent, found, replaced, List.any_append, List.any_append, List.any_cons,
    List.any_cons, Edge.connects_swapped undirected]

theorem isAdjacent_of_ends (same : g.edges.map Edge.ends = h.edges.map Edge.ends)
    (start finish : NodeId) : g.isAdjacent start finish = h.isAdjacent start finish := by
  have toEnds (edges : List Edge) : edges.any (·.connects start finish) =
      (edges.map Edge.ends).any fun (source, target, directed) =>
        (Edge.mk source target .nan directed).connects start finish := by
    rw [List.any_map]
    exact List.any_congr rfl fun e => Edge.connects_of_ends rfl start finish
  rw [isAdjacent, isAdjacent, toEnds, toEnds, same]

end Graph

/-! ## The output -/

namespace Directive

open Bytes

variable {g h : Graph}

theorem cell_eq (g : Graph) (row column : Node) :
    cell g row column = if g.Adjacent row.id column.id then ['1'] else ['0'] := by
  unfold cell
  by_cases adjacent : g.Adjacent row.id column.id
  · rw [if_pos adjacent, if_pos (Graph.adjacent_iff.2 adjacent)]
  · rw [if_neg adjacent, if_neg (mt Graph.adjacent_iff.1 adjacent)]

theorem isColumn_cell (g : Graph) (row column : Node) : IsColumn (cell g row column) := by
  rw [cell_eq]
  split <;> exact ⟨by decide, by decide, by decide⟩

/-- The rows and cells that are found in the output. -/
theorem matrix_rows (g : Graph) :
    (parts lineEnd (adjacencyMatrix.render g)).map (·.splitOn space) =
      g.nodes.map fun row => g.nodes.map fun column => Utf8.encode (cell g row column) := by
  have rows : (parts lineEnd (adjacencyMatrix.render g)).map (·.splitOn space) =
      g.nodes.map fun row => (g.nodes.map (cell g row)).map Utf8.encode := by
    refine parts_table (fun row => g.nodes.map (cell g row)) (fun row _ => ?_)
      (fun row held => ?_) fun row _ text held => ?_
    · exact separated_singletons _ _ _
    · exact mt List.map_eq_nil_iff.1 (List.ne_nil_of_mem held)
    · obtain ⟨column, -, rfl⟩ := List.mem_map.1 held
      exact isColumn_cell g row column
  refine rows.trans (List.map_congr_left fun row _ => ?_)
  rw [List.map_map]
  rfl

/-- The names of the nodes and what the edges lead from and to decide the whole matrix. -/
theorem matrix_congr (names : g.nodes.map (·.id) = h.nodes.map (·.id))
    (same : ∀ start finish, g.isAdjacent start finish = h.isAdjacent start finish) :
    adjacencyMatrix.writeTo ({} : Sink) g = adjacencyMatrix.writeTo ({} : Sink) h := by
  have byNames (k : Graph) : adjacencyMatrix.pieces k =
      separated ['\n'] ((k.nodes.map (·.id)).map fun start =>
        separated [' '] ((k.nodes.map (·.id)).map fun finish =>
          [if start != finish && k.isAdjacent start finish then ['1'] else ['0']])) := by
    rw [List.map_map]
    refine congrArg _ (List.map_congr_left fun row _ => ?_)
    rw [Function.comp_apply, List.map_map]
    rfl
  have pieces : adjacencyMatrix.pieces g = adjacencyMatrix.pieces h := by
    rw [byNames g, byNames h, names]
    simp only [same]
  rw [writeTo, writeTo, pieces]

/-- The cell of a row and a column, both counted from 0. -/
def cellAt (rows : List (List Bytes)) (row column : Nat) : Option Bytes :=
  rows[row]?.bind (·[column]?)

theorem cellAt_matrix {rows : List (List Bytes)} (found : rows =
      g.nodes.map fun row => g.nodes.map fun column => Utf8.encode (cell g row column))
    (i j : Fin g.nodes.length) :
    cellAt rows i j = some (Utf8.encode (cell g g.nodes[i] g.nodes[j])) := by
  rw [cellAt, found, List.getElem?_map, List.getElem?_eq_getElem i.isLt]
  simp

/-- The matrix of a graph. Without nodes nothing is written. Otherwise there are as many rows as
nodes, each with as many cells, and a cell is 1 just where the nodes of its row and its column are
adjacent. Where no edge is directed it is symmetric. It stays as it is if edges are reordered or
repeated, if an edge that is not directed is turned round, and if costs change. -/
theorem adjacencyMatrix_shows (g : Graph) :
    (∃ out : Bytes, adjacencyMatrix.writeTo ({} : Sink) g = .ok { held := out.toArray } ∧
      (g.nodes = [] → out = []) ∧
      (g.nodes ≠ [] →
        let rows := (out.splitOn lineEnd).map (·.splitOn space)
        rows.length = g.nodeCount ∧ (∀ row ∈ rows, row.length = g.nodeCount) ∧
        (∀ i j : Fin g.nodes.length,
          cellAt rows i j = some (if g.Adjacent g.nodes[i].id g.nodes[j].id then [0x31] else [0x30])) ∧
        ((∀ e ∈ g.edges, e.directed = false) →
          ∀ i j : Fin g.nodes.length, cellAt rows i j = cellAt rows j i))) ∧
    (∀ edges : List Edge, (∀ e, e ∈ g.edges ↔ e ∈ edges) →
      adjacencyMatrix.writeTo ({} : Sink) g = adjacencyMatrix.writeTo ({} : Sink) ⟨g.nodes, edges⟩) ∧
    (∀ before e after, g.edges = before ++ e :: after → e.directed = false →
      adjacencyMatrix.writeTo ({} : Sink) g =
        adjacencyMatrix.writeTo ({} : Sink) ⟨g.nodes, before ++ e.swapped :: after⟩) ∧
    (∀ h : Graph, g.nodes.map (·.id) = h.nodes.map (·.id) →
      g.edges.map Edge.ends = h.edges.map Edge.ends →
      adjacencyMatrix.writeTo ({} : Sink) g = adjacencyMatrix.writeTo ({} : Sink) h) := by
  refine ⟨⟨_, writeTo_unlimited _ g, fun none => ?_, fun some => ?_⟩, fun edges same => ?_,
    fun before e after found undirected => ?_, fun h names ends => ?_⟩
  · rw [render, pieces, none]
    rfl
  · have found := matrix_rows g
    have filled : adjacencyMatrix.render g ≠ [] := by
      intro nothing
      rw [nothing] at found
      exact some (List.map_eq_nil_iff.1 found.symm)
    rw [parts_of_ne filled] at found
    intro rows
    have rows_eq : rows = _ := found
    refine ⟨?_, ?_, fun i j => ?_, fun undirected i j => ?_⟩
    · rw [rows_eq, List.length_map]
      rfl
    · rw [rows_eq]
      intro row held
      obtain ⟨node, -, rfl⟩ := List.mem_map.1 held
      exact List.length_map ..
    · rw [cellAt_matrix rows_eq, cell_eq]
      split <;> rfl
    · have comm := Graph.isAdjacent_comm undirected g.nodes[i].id g.nodes[j].id
      rw [cellAt_matrix rows_eq, cellAt_matrix rows_eq, cell, cell, comm, bne_comm]
  · exact matrix_congr rfl (Graph.isAdjacent_of_mem_iff same)
  · exact matrix_congr rfl (Graph.isAdjacent_of_swapped undirected found rfl)
  · exact matrix_congr names (Graph.isAdjacent_of_ends ends)

/-- Two nodes of one name, an edge that is there twice, one from a name to itself and one that leads
nowhere. -/
theorem adjacencyMatrix_shows_repeatedName :
    let g : Graph := ⟨[⟨1, .one⟩, ⟨-2, .one⟩, ⟨1, .nan⟩],
      [⟨-2, 1, .one, false⟩, ⟨-2, 1, .one, false⟩, ⟨1, 1, .one, false⟩, ⟨1, 9, .one, false⟩]⟩
    let out := Bytes.ofAscii "0 1 0\n1 0 1\n0 1 0"
    let rows := (out.splitOn lineEnd).map (·.splitOn space)
    let fewer : Graph := ⟨g.nodes, [⟨1, -2, .one, false⟩, ⟨1, 1, .one, false⟩, ⟨1, 9, .one, false⟩]⟩
    adjacencyMatrix.writeTo ({} : Sink) g = .ok { held := out.toArray } ∧ g.nodes ≠ [] ∧
      (∀ e ∈ g.edges, e.directed = false) ∧ rows.length = 3 ∧
      (∀ i j : Fin g.nodes.length, cellAt rows i j = cellAt rows j i) ∧
      adjacencyMatrix.writeTo ({} : Sink) fewer = .ok { held := out.toArray } := by
  intro g out rows fewer
  have bytes : adjacencyMatrix.render g = out := by decide +kernel
  have written : adjacencyMatrix.writeTo ({} : Sink) g = .ok { held := out.toArray } :=
    bytes ▸ writeTo_unlimited adjacencyMatrix g
  have undirected : ∀ e ∈ g.edges, e.directed = false := by decide
  obtain ⟨⟨out', wrote, -, shape⟩, mixed, -, -⟩ := adjacencyMatrix_shows g
  have held := congrArg Sink.held (Except.ok.inj (wrote.symm.trans written))
  have same : out' = out := congrArg Array.toList held
  subst same
  obtain ⟨length, -, -, symmetric⟩ := shape (List.cons_ne_nil _ _)
  -- First one of the two equal edges is left out, then the other is turned round.
  let once : Graph :=
    ⟨g.nodes, [⟨-2, 1, .one, false⟩, ⟨1, 1, .one, false⟩, ⟨1, 9, .one, false⟩]⟩
  have left : adjacencyMatrix.writeTo ({} : Sink) g = adjacencyMatrix.writeTo ({} : Sink) once :=
    mixed once.edges fun e => by simp [g, once]
  have turned := (adjacencyMatrix_shows once).2.2.1 [] ⟨-2, 1, .one, false⟩ _ rfl rfl
  exact ⟨written, List.cons_ne_nil _ _, undirected, length, symmetric undirected,
    turned.symm.trans (left.symm.trans written)⟩

end Directive
end GraphScribe
