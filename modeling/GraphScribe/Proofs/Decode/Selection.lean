import GraphScribe.Proofs.Decode.Calls

/-!
# Selecting fewer names

An element that is asked for is taken with its content as a whole, and one that is not is passed
over token by token. Both end at the same place, so asking for fewer names finds the same elements
but those that have other names.

* `ElementReader.next_behind`: passing over the content of an element.
* `ElementReader.next_fewer`: one call for fewer names.
* `ElementReader.elements_filter`: all elements of a document.
-/

namespace GraphScribe

open Markup

namespace ElementReader

variable {r r₁ : ElementReader} {few many : List Bytes}

/-- All elements with the names from a place on to the end of the document, or the first error. -/
def elements (names : List Bytes) (r : ElementReader) : Except DecodeError (List Element) :=
  match h : r.next names with
  | (.error e, _) => .error e
  | (.ok none, _) => .ok []
  | (.ok (some e), r') =>
    have := next_length h
    (elements names r').map (e :: ·)
termination_by r.cursor.rest.length

/-- Inside an element another one is no root. -/
theorem noteStart_of_open (deep : 0 < r.depth) : r.noteStart = r := by
  obtain ⟨cursor, openNames, sawRoot⟩ := r
  cases openNames with
  | nil => exact absurd deep (Nat.lt_irrefl 0)
  | cons name others => exact congrArg (ElementReader.mk cursor _) (Bool.or_false sawRoot)

/-- A call inside an element goes on behind it, whatever it holds, if its content can be taken as a
whole. -/
theorem next_behind (names : List Bytes) {base : Nat} {content : Content}
    {children : List (Bytes × RawText)} (inside : 2 ≤ base) (deep : base ≤ r.depth)
    (taken : readContent base content r = (.ok children, r₁)) : r.next names = r₁.next names := by
  fun_induction readContent base content r with
  | case1 => cases taken
  | case2 => cases taken
  | case3 content r position r' name attributes isEmpty _ _ content' read _ ih =>
    obtain ⟨depth', -⟩ := depth_of_nextToken read
    have deep' : base ≤ r'.depth := depth'.symm ▸ deep
    -- At this depth no element is asked for, whatever its name.
    have passed : ¬ (r'.depth = 1 ∧ name ∈ names) := fun asked => by omega
    have deeper : base ≤ (r'.enter name isEmpty).depth := by
      cases isEmpty with
      | true => exact deep'
      | false => exact Nat.le_succ_of_le deep'
    rw [next_of_passed read passed, noteStart_of_open (by omega)]
    exact ih deeper taken
  | case4 => cases taken
  | case5 content r position r' name _ _ r'' closed _ shallow read =>
    cases taken
    exact next_of_closed read closed names
  | case6 content r position r' name _ _ r'' closed _ shallow content' read _ ih =>
    rw [next_of_closed read closed]
    exact ih (Nat.le_of_not_lt shallow) taken
  | case7 content r r' piece _ read _ ih =>
    obtain ⟨depth', -⟩ := depth_of_nextToken read
    rw [next_of_piece read]
    exact ih (depth'.symm ▸ deep) taken

/-- Where a call for many names succeeds, a call for fewer gives the same answer, or goes on behind
the element that was found if it is not asked for. -/
theorem next_fewer (fewer : few ⊆ many) {answer : Option Element}
    (called : r.next many = (.ok answer, r₁)) :
    r.next few = if answer.all (·.name ∈ few) then (.ok answer, r₁) else r₁.next few := by
  fun_induction ElementReader.next many r with
  | case1 => cases called
  | case2 r r' read =>
    rw [next_of_none read]
    split at called
    · next empty =>
      cases called
      rw [if_pos empty]
      rfl
    · cases called
  | case3 => cases called
  | case4 r position r' name attributes taken values valid _ read _ =>
    cases called
    by_cases asked : name ∈ few
    · rw [next_of_taken read ⟨taken.1, asked⟩ valid]
      exact (if_pos (decide_eq_true asked)).symm
    · have one : 0 < r₁.depth := Nat.lt_of_lt_of_eq Nat.one_pos taken.1.symm
      rw [next_of_passed read fun wanted => asked wanted.2, noteStart_of_open one]
      exact (if_neg (asked ∘ of_decide_eq_true)).symm
  | case5 r position r' name attributes isEmpty _ taken values valid full pushed content r''
      inside read _ =>
    cases content with
    | error fault => cases called
    | ok children =>
      cases called
      obtain rfl : isEmpty = false := Bool.eq_false_iff.2 full
      by_cases asked : name ∈ few
      · rw [next_of_taken read ⟨taken.1, asked⟩ valid, inside]
        exact (if_pos (decide_eq_true asked)).symm
      · have one : 0 < r'.depth := Nat.lt_of_lt_of_eq Nat.one_pos taken.1.symm
        have two : pushed.depth = 2 := congrArg Nat.succ taken.1
        rw [next_of_passed read fun wanted => asked wanted.2, noteStart_of_open one]
        refine Eq.trans ?_ (if_neg (asked ∘ of_decide_eq_true)).symm
        exact next_behind few (Nat.le_of_eq two.symm) (Nat.le_refl _) inside
  | case6 r r' name attributes isEmpty _ passed _ read _ ih =>
    have unasked : ¬ (r'.depth = 1 ∧ name ∈ few) := fun asked => passed ⟨asked.1, fewer asked.2⟩
    rw [next_of_passed read unasked]
    exact ih called
  | case7 => cases called
  | case8 r position r' name _ _ r'' closed _ read _ ih =>
    rw [next_of_closed read closed]
    exact ih called
  | case9 r r' piece _ read _ ih =>
    rw [next_of_piece read]
    exact ih called

theorem elements_eq (names : List Bytes) (r : ElementReader) :
    r.elements names =
      match r.next names with
      | (.error e, _) => .error e
      | (.ok none, _) => .ok []
      | (.ok (some e), r') => (r'.elements names).map (e :: ·) := by
  rw [elements]
  split <;> simp_all

/-- If all calls for many names succeed up to the end of the document, so do all calls for fewer
names, and these find the same elements but those with other names. An element is the same with all
that is looked up in it. -/
theorem elements_filter (fewer : few ⊆ many) {found : List Element}
    (read : r.elements many = .ok found) :
    r.elements few = .ok (found.filter (·.name ∈ few)) := by
  fun_induction elements many r generalizing found with
  | case1 => cases read
  | case2 r r' ended =>
    cases read
    rw [elements_eq, next_fewer fewer ended]
    rfl
  | case3 r e r' next _ ih =>
    cases later : r'.elements many with
    | error fault =>
      rw [later] at read
      cases read
    | ok others =>
      rw [later] at read
      obtain rfl : e :: others = found := Except.ok.inj read
      have rest := ih later
      have called := next_fewer fewer next
      by_cases asked : e.name ∈ few
      · have kept : (e :: others).filter (·.name ∈ few) = e :: others.filter (·.name ∈ few) :=
          List.filter_cons_of_pos (decide_eq_true asked)
        replace called := called.trans (if_pos (decide_eq_true asked))
        rw [elements_eq, called, kept]
        dsimp only
        rw [rest]
        rfl
      · have dropped : (e :: others).filter (·.name ∈ few) = others.filter (·.name ∈ few) :=
          List.filter_cons_of_neg (asked ∘ of_decide_eq_true)
        replace called := called.trans (if_neg (asked ∘ of_decide_eq_true))
        rw [elements_eq, called, ← elements_eq, rest, dropped]

/-- Asked for alone, an edge is found behind a node and a group that holds an edge. -/
theorem elements_filter_edges :
    let r := ofBytes (Bytes.ofAscii
      "<g><node id='1'><cost>2</cost></node><x><edge/></x><edge a='1'><edge/></edge></g><g/>")
    let edge : Element := ⟨ElementKind.edge.tag, 51, [(Bytes.ofAscii "a", Bytes.ofAscii "1")],
      [(ElementKind.edge.tag, ⟨[], 63⟩)]⟩
    let node : Element := ⟨ElementKind.node.tag, 3, [(Bytes.ofAscii "id", Bytes.ofAscii "1")],
      [(Bytes.ofAscii "cost", ⟨[.text [0x32]], 16⟩)]⟩
    (r.elements ElementKind.tags = .ok [node, edge] ∧ [ElementKind.edge.tag] ⊆ ElementKind.tags) ∧
      r.elements [ElementKind.edge.tag] = .ok [edge] := by
  intro r edge node
  have read : r.elements ElementKind.tags = .ok [node, edge] := by decide +kernel
  have fewer : [ElementKind.edge.tag] ⊆ ElementKind.tags := by decide
  exact ⟨⟨read, fewer⟩, elements_filter fewer read⟩

end ElementReader
end GraphScribe
