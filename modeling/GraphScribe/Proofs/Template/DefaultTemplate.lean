import GraphScribe.Proofs.Number.DecimalText
import GraphScribe.Proofs.Runs
import GraphScribe.Proofs.Template.Columns
import Mathlib.Control.Monad.Basic

/-!
# The default template

Where no template is given, the numbers of nodes and of edges are written on the first line and the
ends of the edges on the lines behind it. That is enough to find all of it again, so two graphs are
written alike just where they agree in the number of nodes and in the ends of their edges.

* `Summary.ofBytes?`: reads such an output.
* `Summary.ofBytes?_render`: what is read is what was written.
* `Template.default_losesNothing`: the default template, its output and the reader of it.
-/

namespace GraphScribe

/-- The names that an edge leads from and to. -/
def Edge.endpoints (e : Edge) : NodeId × NodeId := (e.source, e.target)

/-- The numbers of nodes and edges, and the ends of the edges in order. -/
structure Summary where
  nodeCount : Nat
  edgeCount : Nat
  endpoints : List (NodeId × NodeId)
deriving DecidableEq, Repr

namespace Summary

open Bytes

/-- The summary of a graph. -/
def ofGraph (g : Graph) : Summary :=
  ⟨g.nodeCount, g.edgeCount, g.edges.map Edge.endpoints⟩

/-! ## Reading -/

/-- The characters that bytes stand for where each is one. -/
def chars (bytes : Bytes) : List Char :=
  bytes.map fun b => Char.ofNat b.toNat

/-- Reads a number of nodes or edges. -/
def count? (bytes : Bytes) : Option Nat :=
  if bytes ≠ [] ∧ (chars bytes).all Char.isDigit then some (Nat.ofDigitChars 10 (chars bytes) 0)
  else none

/-- Reads the name of a node. -/
def name? (bytes : Bytes) : Option NodeId :=
  (Integer.readInt64 (chars bytes)).toOption

/-- Reads the columns of an edge. -/
def edge? : List Bytes → Option (NodeId × NodeId)
  | [source, target] => do return (← name? source, ← name? target)
  | _ => none

/-- Reads an output of the default template: a line with two numbers, and a list of edges that ends
with its last line end. -/
def ofBytes? (bytes : Bytes) : Option Summary :=
  match (bytes.takeWhile (· != lineEnd)).splitOn space with
  | [nodes, edges] => do
    let list := ((bytes.dropWhile (· != lineEnd)).drop 1).dropLast
    let endpoints ← ((parts lineEnd list).map (·.splitOn space)).mapM edge?
    return ⟨← count? nodes, ← count? edges, endpoints⟩
  | _ => none

/-! ## What is read of what was written -/

theorem chars_encode {text : List Char} (ascii : ∀ c ∈ text, Utf8.IsAscii c) :
    chars (Utf8.encode text) = text := by
  induction text with
  | nil => rfl
  | cons c rest ih =>
    obtain ⟨first, others⟩ := List.forall_mem_cons.1 ascii
    have small : c.val.toNat % 256 = c.val.toNat :=
      Nat.mod_eq_of_lt (Nat.lt_of_le_of_lt first (by decide))
    have back : Char.ofNat (UInt8.ofNat c.val.toNat).toNat = c := by
      rw [UInt8.toNat_ofNat', small]
      exact Char.ofNat_toNat c
    rw [Utf8.encode_cons, Utf8.encodeChar_of_ascii first, chars, List.map_append, List.map_singleton,
      back]
    exact congrArg (c :: ·) (ih others)

/-- A number is written in ASCII. -/
theorem isAscii_of_isPositional {text : List Char} (positional : IsPositional text) :
    ∀ c ∈ text, Utf8.IsAscii c := by
  intro c held
  rcases positional.chars.2 c held with digit | rfl | rfl
  · have most : c.toNat ≤ 57 := (Char.isDigit_iff_toNat.1 digit).2
    exact Nat.le_trans most (by decide)
  · decide
  · decide

theorem count?_text (n : Nat) : count? (Utf8.encode (Integer.text n)) = some n := by
  have isDigits : IsDigits (Integer.text n) := isDigits_toDigits n
  have read := chars_encode (isAscii_of_isPositional (Integer.text_isPositional n))
  have filled := Utf8.encode_ne_nil isDigits.filled
  rw [count?, read, if_pos ⟨filled, List.all_eq_true.2 isDigits.digits⟩]
  exact congrArg some (Nat.ofDigitChars_toDigits (by decide) (by decide))

theorem name?_text (id : NodeId) : name? (Utf8.encode (NodeId.text id)) = some id := by
  have read := chars_encode (isAscii_of_isPositional (Integer.text_isPositional id.toInt))
  rw [name?, NodeId.text, read, Integer.readInt64_text]
  rfl

theorem edge?_text (e : Edge) :
    edge? [Utf8.encode (NodeId.text e.source), Utf8.encode (NodeId.text e.target)] =
      some e.endpoints := by
  rw [edge?, name?_text, name?_text]
  rfl

theorem mapM_edge? (edges : List Edge) :
    (edges.map fun e => [Utf8.encode (NodeId.text e.source),
      Utf8.encode (NodeId.text e.target)]).mapM edge? = some (edges.map Edge.endpoints) := by
  induction edges with
  | nil => rfl
  | cons e rest ih =>
    rw [List.map_cons, List.mapM_cons, edge?_text, ih]
    rfl

/-! ## Writing -/

/-- The first line. -/
def counts (g : Graph) : List (List Char) :=
  [Integer.text g.nodeCount, Integer.text g.edgeCount]

theorem isColumn_counts (g : Graph) : ∀ text ∈ counts g, IsColumn text := by
  rw [counts, List.forall_mem_cons, List.forall_mem_singleton]
  exact ⟨(Integer.text_isPositional _).isColumn, (Integer.text_isPositional _).isColumn⟩

end Summary

namespace Template

open Bytes Summary

/-- The template that `defaultSource` is compiled to. -/
def standard : Template :=
  ⟨defaultSource,
    [.nodeCount, .text [' '], .edgeCount, .text ['\n'], .edges none, .text ['\n']]⟩

theorem compile_standard : compile defaultSource = .ok standard := by decide +kernel

theorem render_standard (g : Graph) :
    standard.render g = Utf8.encode ([' '].intercalate (counts g)) ++
      lineEnd :: ((Directive.edges none).render g ++ [lineEnd]) := by
  have first : Utf8.encode ([' '].intercalate (counts g)) =
      Directive.nodeCount.render g ++ ([space] ++ Directive.edgeCount.render g) := by
    rw [counts, List.intercalate_cons_cons, List.intercalate_singleton, List.append_assoc,
      Utf8.encode_append, Utf8.encode_append]
    simp only [Directive.render, Directive.pieces, List.flatten_cons, List.flatten_nil,
      List.append_nil]
    rfl
  rw [render_eq, first]
  simp only [standard, List.flatMap_cons, List.flatMap_nil, List.append_nil, List.append_assoc]
  rfl

/-- The reader finds what was written. -/
theorem ofBytes?_render (g : Graph) : ofBytes? (standard.render g) = some (ofGraph g) := by
  have absent : lineEnd ∉ Utf8.encode ([' '].intercalate (counts g)) :=
    Utf8.byte_not_mem_encode Utf8.isAscii_lineEnd (lineEnd_not_mem_columns (isColumn_counts g))
  have passes : ∀ b ∈ Utf8.encode ([' '].intercalate (counts g)), (b != lineEnd) = true :=
    fun b held => bne_iff_ne.2 fun same => absent (same ▸ held)
  have stops : ∀ b, (lineEnd :: ((Directive.edges none).render g ++ [lineEnd])).head? = some b →
      (b != lineEnd) = false := by
    intro b head
    cases head
    exact bne_self_eq_false _
  obtain ⟨line, rest⟩ := span_append passes stops
  have columns : (Utf8.encode ([' '].intercalate (counts g))).splitOn space =
      [Utf8.encode (Integer.text g.nodeCount), Utf8.encode (Integer.text g.edgeCount)] :=
    splitOn_columns (isColumn_counts g) (List.cons_ne_nil _ _)
  have list : ((parts lineEnd ((Directive.edges none).render g)).map (·.splitOn space)).mapM edge? =
      some (g.edges.map Edge.endpoints) := by
    rw [Directive.edges_columns]
    exact mapM_edge? g.edges
  rw [ofBytes?, render_standard, line, rest, columns]
  dsimp only
  rw [List.drop_one, List.tail_cons, List.dropLast_concat, list, count?_text, count?_text]
  rfl

/-- The output depends on nothing else. -/
theorem render_standard_congr {g h : Graph} (nodes : g.nodeCount = h.nodeCount)
    (edges : g.edges.map Edge.endpoints = h.edges.map Edge.endpoints) :
    standard.render g = standard.render h := by
  have edgeCount : g.edgeCount = h.edgeCount := by
    have lengths := congrArg List.length edges
    rwa [List.length_map, List.length_map] at lengths
  have list : (Directive.edges none).render g = (Directive.edges none).render h := by
    have byEndpoints (k : Graph) : (Directive.edges none).pieces k =
        separated ['\n'] ((k.edges.map Edge.endpoints).map fun (source, target) =>
          [NodeId.text source, [' '], NodeId.text target]) := by
      rw [List.map_map]
      rfl
    rw [Directive.render, Directive.render, byEndpoints, byEndpoints, edges]
  rw [render_standard, render_standard, list, counts, counts, nodes, edgeCount]

/-- The default template is a template. What it writes for a graph can be read again, whatever the
graph: the number of nodes, the number of edges and the ends of the edges in order. So it writes the
same for two graphs just where they have as many nodes and edges with the same ends. -/
theorem default_losesNothing :
    ∃ t, compile defaultSource = .ok t ∧
      (∀ g, ∃ out : Bytes, t.writeTo ({} : Sink) g = .ok { held := out.toArray } ∧
        ofBytes? out = some ⟨g.nodeCount, g.edgeCount, g.edges.map Edge.endpoints⟩) ∧
      ∀ g h, t.writeTo ({} : Sink) g = t.writeTo ({} : Sink) h ↔
        g.nodeCount = h.nodeCount ∧ g.edges.map Edge.endpoints = h.edges.map Edge.endpoints := by
  refine ⟨standard, compile_standard, fun g => ⟨_, writeTo_unlimited standard g, ofBytes?_render g⟩,
    fun g h => ⟨fun same => ?_, fun ⟨nodes, edges⟩ => ?_⟩⟩
  · rw [writeTo_unlimited, writeTo_unlimited] at same
    have held : (standard.render g).toArray = (standard.render h).toArray :=
      congrArg Sink.held (Except.ok.inj same)
    have bytes : standard.render g = standard.render h := congrArg Array.toList held
    have summaries : some (ofGraph g) = some (ofGraph h) := by
      rw [← ofBytes?_render, ← ofBytes?_render, bytes]
    obtain ⟨nodes, -, edges⟩ := Summary.mk.inj (Option.some.inj summaries)
    exact ⟨nodes, edges⟩
  · rw [writeTo_unlimited, writeTo_unlimited, render_standard_congr nodes edges]

end Template
end GraphScribe
