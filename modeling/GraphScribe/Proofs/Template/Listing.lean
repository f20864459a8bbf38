import GraphScribe.Command
import GraphScribe.Proofs.Number.DecimalText
import GraphScribe.Proofs.Text.Quoted
import Mathlib.Control.Monad.Basic

/-!
# The listing of a template

A template is listed with one line for every directive, in order, whatever texts it copies. The
lines tell the directives apart up to the ratios of their cost functions: kinds, texts and roundings
are found again in the listing.

* `Directive.describe_eq`: a line is a heading for the kind of the directive, then its details.
* `Directive.unscaled_of_describe`: what a line tells about its directive.
* `Command.check_lists`: the listing of a template, and what it tells.
-/

namespace GraphScribe

/-! ## Lines -/

theorem intercalate_concat_nil (separator : List Char) (lines : List (List Char)) :
    separator.intercalate (lines ++ [[]]) = lines.flatMap (· ++ separator) := by
  induction lines with
  | nil => rfl
  | cons line rest ih =>
    obtain ⟨next, others, shape⟩ := List.exists_cons_of_ne_nil
      (List.append_ne_nil_of_right_ne_nil rest (List.cons_ne_nil [] []))
    rw [List.cons_append, shape, List.intercalate_cons_cons, ← shape, ih, List.flatMap_cons]

/-- Lines with an end each are found again, and nothing is found behind the last end. -/
theorem splitOn_lines {lines : List (List Char)} (free : ∀ line ∈ lines, '\n' ∉ line) :
    (lines.flatMap (· ++ ['\n'])).splitOn '\n' = lines ++ [[]] := by
  rw [← intercalate_concat_nil]
  apply List.splitOn_intercalate
  · rw [List.forall_mem_append, List.forall_mem_singleton]
    exact ⟨free, List.not_mem_nil⟩
  · exact List.append_ne_nil_of_right_ne_nil lines (List.cons_ne_nil [] [])

/-! ## Kinds -/

/-- The kinds of directives. -/
inductive DirectiveKind where
  | text
  | nodeCount
  | edgeCount
  | adjacencyMatrix
  | costs
  | nodes
  | edges
deriving DecidableEq, Repr

namespace DirectiveKind

/-- What the line of a directive begins with. -/
def heading : DirectiveKind → List Char
  | text => "text ".toList
  | nodeCount => "node count".toList
  | edgeCount => "edge count".toList
  | adjacencyMatrix => "adjacency matrix".toList
  | costs => "node costs".toList
  | nodes => "node list".toList
  | edges => "edge list".toList

theorem eq_of_prefix {kind other : DirectiveKind} (starts : kind.heading <+: other.heading) :
    kind = other := by
  revert starts
  cases kind <;> cases other <;> decide

theorem lineEnd_not_mem_heading (kind : DirectiveKind) : '\n' ∉ kind.heading := by
  cases kind <;> decide

end DirectiveKind

/-! ## Cost functions -/

theorem Rounding.letter_injective {rounding other : Rounding}
    (same : rounding.letter = other.letter) : rounding = other := by
  have read := congrArg Rounding.ofLetter? same
  rw [Rounding.ofLetter?_letter, Rounding.ofLetter?_letter] at read
  exact Option.some.inj read

theorem Binary64.lineEnd_not_mem_text (x : Binary64) : '\n' ∉ x.text := by
  rcases x with - | negative | x
  · decide
  · cases negative <;> decide
  · intro held
    exact absurd ((Finite.text_isPositional x).chars.2 '\n' held) (by decide)

namespace CostFunction

/-- The cost function without the number that it scales by. -/
def unscaled (f : CostFunction) : CostFunction := { f with ratio := .one }

theorem lineEnd_not_mem_describe (f : CostFunction) : '\n' ∉ f.describe := by
  have rounding : '\n' ∉ [f.rounding.letter] := by cases f.rounding <;> decide
  apply List.not_mem_append _ rounding
  apply List.not_mem_append _ (by decide)
  exact List.not_mem_append (by decide) f.ratio.lineEnd_not_mem_text

/-- The rounding stands at the end. -/
theorem unscaled_of_describe {f g : CostFunction} (same : f.describe = g.describe) :
    f.unscaled = g.unscaled := by
  have letters : [f.rounding.letter] = [g.rounding.letter] := List.append_inj_right' same rfl
  rw [unscaled, unscaled, Rounding.letter_injective (List.singleton_inj.1 letters)]

end CostFunction

/-! ## Directives -/

namespace Directive

/-- The kind of a directive. -/
def kind : Directive → DirectiveKind
  | text _ => .text
  | nodeCount => .nodeCount
  | edgeCount => .edgeCount
  | adjacencyMatrix => .adjacencyMatrix
  | costs _ => .costs
  | nodes _ => .nodes
  | edges _ => .edges

/-- What the line of a directive tells besides its kind. -/
def details : Directive → List Char
  | text copied => Text.quote copied
  | nodeCount | edgeCount | adjacencyMatrix => []
  | costs f => bracketed (some f)
  | nodes f | edges f => bracketed f

theorem describe_eq (d : Directive) : d.describe = d.kind.heading ++ d.details := by
  cases d with
  | nodeCount | edgeCount | adjacencyMatrix => exact (List.append_nil _).symm
  | _ => rfl

/-- The directive without the number that it scales costs by. -/
def unscaled : Directive → Directive
  | costs f => costs f.unscaled
  | nodes f => nodes (f.map .unscaled)
  | edges f => edges (f.map .unscaled)
  | d => d

theorem lineEnd_not_mem_bracketed (f : Option CostFunction) : '\n' ∉ bracketed f := by
  cases f with
  | none => exact List.not_mem_nil
  | some f =>
    apply List.not_mem_append _ (by decide)
    exact List.not_mem_append (by decide) f.lineEnd_not_mem_describe

theorem lineEnd_not_mem_details (d : Directive) : '\n' ∉ d.details := by
  cases d with
  | text copied => exact Text.lineEnd_not_mem_quote copied
  | nodeCount | edgeCount | adjacencyMatrix => exact List.not_mem_nil
  | costs f => exact lineEnd_not_mem_bracketed (some f)
  | nodes f | edges f => exact lineEnd_not_mem_bracketed f

/-- The line of a directive is one line. -/
theorem lineEnd_not_mem_describe (d : Directive) : '\n' ∉ d.describe := by
  rw [describe_eq]
  exact List.not_mem_append d.kind.lineEnd_not_mem_heading d.lineEnd_not_mem_details

/-- No heading begins another one, so a line can be parted in one way only. -/
theorem kind_of_describe {d e : Directive} (same : d.describe = e.describe) : d.kind = e.kind := by
  rw [describe_eq, describe_eq] at same
  have first : d.kind.heading <+: d.kind.heading ++ d.details := List.prefix_append _ _
  have second : e.kind.heading <+: d.kind.heading ++ d.details := same ▸ List.prefix_append _ _
  rcases List.prefix_or_prefix_of_prefix first second with shorter | longer
  · exact DirectiveKind.eq_of_prefix shorter
  · exact (DirectiveKind.eq_of_prefix longer).symm

theorem details_of_describe {d e : Directive} (same : d.describe = e.describe) :
    d.details = e.details := by
  have kinds := kind_of_describe same
  rw [describe_eq, describe_eq, kinds] at same
  exact List.append_cancel_left same

theorem bracketed_ne_nil (f : CostFunction) : bracketed (some f) ≠ [] :=
  List.append_ne_nil_of_right_ne_nil _ (List.cons_ne_nil _ _)

theorem unscaled_of_bracketed {f g : Option CostFunction} (same : bracketed f = bracketed g) :
    f.map CostFunction.unscaled = g.map CostFunction.unscaled := by
  cases f with
  | none =>
    cases g with
    | none => rfl
    | some g => exact absurd same.symm (bracketed_ne_nil g)
  | some f =>
    cases g with
    | none => exact absurd same (bracketed_ne_nil f)
    | some g =>
      have described := List.append_cancel_left (List.append_cancel_right same)
      rw [Option.map_some, Option.map_some, CostFunction.unscaled_of_describe described]

/-- The line of a directive tells its kind, the text that it copies, whether it has a cost function,
and how that one rounds. -/
theorem unscaled_of_describe {d e : Directive} (same : d.describe = e.describe) :
    d.unscaled = e.unscaled := by
  have kinds := kind_of_describe same
  have details := details_of_describe same
  cases d with
  | text copied =>
    cases e with
    | text other => rw [Text.quote_injective details]
    | _ => cases kinds
  | nodeCount | edgeCount | adjacencyMatrix =>
    cases e with
    | nodeCount | edgeCount | adjacencyMatrix => cases kinds <;> rfl
    | _ => cases kinds
  | costs f =>
    cases e with
    | costs g =>
      have same : bracketed (some f) = bracketed (some g) := details
      exact congrArg costs (Option.some.inj (unscaled_of_bracketed same))
    | _ => cases kinds
  | nodes f =>
    cases e with
    | nodes g => exact congrArg nodes (unscaled_of_bracketed details)
    | _ => cases kinds
  | edges f =>
    cases e with
    | edges g => exact congrArg edges (unscaled_of_bracketed details)
    | _ => cases kinds

/-- Directives that are listed alike are the same but for ratios, one by one. -/
theorem unscaled_of_descriptions {ds es : List Directive}
    (same : ds.map describe = es.map describe) : ds.map unscaled = es.map unscaled := by
  induction ds generalizing es with
  | nil =>
    rw [List.map_eq_nil_iff.1 same.symm]
  | cons d rest ih =>
    obtain ⟨e, others, rfl, first, behind⟩ := List.map_eq_cons_iff.1 same.symm
    rw [List.map_cons, List.map_cons, unscaled_of_describe first, ih behind.symm]

end Directive

/-! ## Listings -/

namespace Command

variable {files : FileTree} {format : String} {t : Template}

theorem check_of_compiled (compiled : Template.compile format = .ok t) :
    (check files format).failure = none ∧
      (check files format).output.toList = t.describe.flatMap (· ++ ['\n']) := by
  unfold check
  rw [compiled]
  have line : (fun line => (String.ofList line ++ "\n").toList) = (· ++ ['\n']) := by
    funext line
    rw [String.toList_append, String.toList_ofList]
    rfl
  refine ⟨rfl, ?_⟩
  rw [String.toList_join, List.flatMap_map, line]

/-- The lines of a listing are those of the directives. -/
theorem lines_check (compiled : Template.compile format = .ok t) :
    (check files format).output.toList.splitOn '\n' =
      t.directives.map Directive.describe ++ [[]] := by
  rw [(check_of_compiled compiled).2, splitOn_lines, Template.describe]
  intro line isLine
  obtain ⟨d, -, rfl⟩ := List.mem_map.1 isLine
  exact d.lineEnd_not_mem_describe

/-- A format that compiles is listed with one line for every directive, in order. Formats with the
same listing have as many directives, and one by one these are the same but for ratios. -/
theorem check_lists (compiled : Template.compile format = .ok t) :
    (check files format).failure = none ∧
      (check files format).output.toList.splitOn '\n' =
        t.directives.map Directive.describe ++ [[]] ∧
      ∀ files' format' t', Template.compile format' = .ok t' →
        (check files' format').output = (check files format).output →
        t'.directives.map Directive.unscaled = t.directives.map Directive.unscaled := by
  refine ⟨(check_of_compiled compiled).1, lines_check compiled, ?_⟩
  intro files' format' t' compiled' same
  have lines : (check files' format').output.toList.splitOn '\n' = _ := lines_check compiled'
  rw [same, lines_check compiled] at lines
  exact Directive.unscaled_of_descriptions (List.append_cancel_right lines).symm

/-- A text that tries to end its line and begin another is listed on one; and how a ratio was
written in the format does not show. -/
theorem check_lists_forgedLine :
    ∃ t t' : Template,
      Template.compile "\"\nnode count%2RN" = .ok t ∧
      Template.compile "\"\nnode count%02.0RN" = .ok t' ∧
      (check .empty "\"\nnode count%2RN").output.toList.splitOn '\n' =
        ["text \"\\\"\\nnode count\"".toList, "node list (ratio 2, rounding R)".toList, []] ∧
      t'.directives.map Directive.unscaled = t.directives.map Directive.unscaled := by
  let two : Binary64 := .finite ⟨false, Nat.pow 2 52, -51, by decide⟩
  let directives : List Directive :=
    [.text "\"\nnode count".toList, .nodes (some ⟨two, .nearest⟩)]
  let t : Template := ⟨"\"\nnode count%2RN", directives⟩
  let t' : Template := ⟨"\"\nnode count%02.0RN", directives⟩
  have compiled : Template.compile t.source = .ok t := by decide +kernel
  have compiled' : Template.compile t'.source = .ok t' := by decide +kernel
  have listed := @check_lists .empty _ _ compiled
  have shown := (@check_of_compiled .empty _ _ compiled).2
  have shown' := (@check_of_compiled .empty _ _ compiled').2
  refine ⟨t, t', compiled, compiled', listed.2.1.trans (by decide +kernel), ?_⟩
  exact listed.2.2 .empty _ _ compiled' (String.toList_inj.1 (shown'.trans shown.symm))

end Command
end GraphScribe
