import GraphScribe.Proofs.Decode.Collector
import Mathlib.Control.Monad.Basic

/-!
# Elements taken out of a document

The reader of elements follows the tokens of a document as a collector does, whose members are
elements and whose children are texts with their names; a member is given the meaning of its
forest. So the decoder that takes elements out finds the graph of the document's forest, or the
first error in it.
-/

namespace GraphScribe

open Markup

namespace ElementReader

/-- The signals of what is left in a document. -/
def feed (r : ElementReader) : Feed (Signal StartTag Piece) :=
  nested r.openNames (r.cursor.feed r.cursor.position)

/-- The element of a tag, before its content. -/
def beginMember? (tag : StartTag) : Option (Except DecodeError Element) :=
  if ElementKind.tags.contains tag.name then
    some <| match Attribute.readAll tag.attributes with
      | .error fault => .error (.malformed tag.position (.attribute fault))
      | .ok attributes => .ok ⟨tag.name, tag.position, attributes, []⟩
  else none

/-- What the reader of elements collects. -/
def collector : Collector StartTag Piece Element (Bytes × RawText) where
  begin? := beginMember?
  child? _ tag := some (tag.name, ⟨[], tag.position⟩)
  add child piece := (child.1, { child.2 with pieces := child.2.pieces ++ [piece] })
  close member child := { member with children := child :: member.children }
  meaning := Element.meaning

/-! ## One token -/

theorem run_of_error {r r' : ElementReader} {e : DecodeError}
    (next : r.nextToken = (.error e, r')) {s : Progress Element (Bytes × RawText)}
    (depth : s.depth = r.depth) : collector.run s r.feed = s.stopped e := by
  unfold nextToken at next
  rcases read : r.cursor.next with ⟨outcome, cursor⟩
  rw [read] at next
  unfold feed
  rw [Cursor.feed]
  rcases outcome with (_ | _) | token?
  · cases next
    split <;> simp_all [nested, Collector.run, ElementReader.depth]
  · cases next
    split <;> simp_all [nested, Collector.run]
  · cases next

theorem feed_of_none {r r' : ElementReader} (next : r.nextToken = (.ok none, r')) :
    ∃ cursor, r' = { r with cursor } ∧ r.feed = .finished := by
  unfold nextToken at next
  rcases read : r.cursor.next with ⟨outcome, cursor⟩
  rw [read] at next
  unfold feed
  rw [Cursor.feed]
  rcases outcome with (_ | _) | token?
  · cases next
  · cases next
  · cases next
    exact ⟨cursor, rfl, by split <;> simp_all [nested]⟩

theorem feed_of_token {r r' : ElementReader} {token : Token}
    (next : r.nextToken = (.ok (some token), r')) :
    ∃ cursor, r' = { r with cursor } ∧
      r.feed = nested r.openNames
        (.item (r.cursor.position, token) (cursor.feed cursor.position)) := by
  unfold nextToken at next
  rcases read : r.cursor.next with ⟨outcome, cursor⟩
  rw [read] at next
  unfold feed
  rw [Cursor.feed]
  rcases outcome with (_ | _) | token?
  · cases next
  · cases next
  · cases next
    exact ⟨cursor, rfl, by split <;> simp_all⟩

/-- A start tag opens an element; an empty one closes it at once. -/
theorem feed_of_start {r r' : ElementReader} {name attributes : Bytes} {isEmpty : Bool}
    (next : r.nextToken = (.ok (some (.start name attributes isEmpty)), r')) :
    r.feed = .item (.enter ⟨r.cursor.position, name, attributes⟩)
      (if isEmpty then .item .leave r'.feed else (r'.push name).feed) := by
  obtain ⟨cursor, rfl, read⟩ := feed_of_token next
  rw [read]
  rfl

theorem feed_of_piece {r r' : ElementReader} {piece : Piece}
    (next : r.nextToken = (.ok (some (.piece piece)), r')) :
    r.feed = .item (.data piece) r'.feed := by
  obtain ⟨cursor, rfl, read⟩ := feed_of_token next
  rw [read]
  rfl

/-- An end tag closes the innermost element if it bears its name. -/
theorem feed_of_finish {r r' : ElementReader} {name : Bytes}
    (next : r.nextToken = (.ok (some (.finish name)), r')) :
    r.feed = match r'.close name r.cursor.position with
      | (.ok (), r'') => .item .leave r''.feed
      | (.error e, _) => .broken e := by
  obtain ⟨cursor, rfl, read⟩ := feed_of_token next
  rw [read]
  unfold close
  rcases r.openNames with _ | ⟨expected, others⟩
  · rfl
  · by_cases matching : (expected == name) = true
    · dsimp only
      rw [if_pos matching]
      exact if_pos matching
    · dsimp only
      rw [if_neg matching]
      exact if_neg matching

theorem depth_of_close {r r' : ElementReader} {name : Bytes} {position : Nat}
    (closed : r.close name position = (.ok (), r')) :
    r.depth = r'.depth + 1 ∧ r'.sawRoot = r.sawRoot := by
  unfold close at closed
  unfold ElementReader.depth
  split at closed
  · cases closed
  · next expected others names =>
    rw [names]
    split at closed
    · cases closed
      exact ⟨rfl, rfl⟩
    · cases closed

theorem depth_of_nextToken {r r' : ElementReader} {token : Token}
    (next : r.nextToken = (.ok (some token), r')) :
    r'.depth = r.depth ∧ r'.sawRoot = r.sawRoot := by
  obtain ⟨cursor, rfl, -⟩ := feed_of_token next
  exact ⟨rfl, rfl⟩

/-! ## The content of an element -/

/-- The collector's view of a reader inside an element, whose content so far is `content`. -/
def holding (e : Element) (content : Content) (before : List GraphElement) (r : ElementReader) :
    Progress Element (Bytes × RawText) :=
  ⟨r.depth, r.sawRoot, before, some { e with children := content.children }, content.child⟩

/-- The collector's view of a reader outside the elements that are asked for. -/
def outside (before : List GraphElement) (r : ElementReader) :
    Progress Element (Bytes × RawText) :=
  ⟨r.depth, r.sawRoot, before, none, none⟩

/-- What is found from the end of an element on. -/
def runAfter (e : Element) (before : List GraphElement) (r : ElementReader) : Decoded :=
  match e.meaning with
  | .error fault => ⟨before.reverse, some fault⟩
  | .ok meaning => collector.run (outside (meaning :: before) r) r.feed

/-- A start tag inside an element begins a child, or lies deeper. -/
theorem run_content_start (e : Element) (before : List GraphElement) {content : Content}
    {r r' : ElementReader} {name attributes : Bytes} {isEmpty : Bool}
    (read : r.nextToken = (.ok (some (.start name attributes isEmpty)), r'))
    (deep : 2 ≤ r.depth) (direct : r.depth = 2 → content.child = none) :
    collector.run (holding e content before r) r.feed =
      collector.run
        (holding e
          (if r'.depth = 2 then content.start name isEmpty r.cursor.position else content)
          before (r'.enter name isEmpty))
        (r'.enter name isEmpty).feed := by
  obtain ⟨depth', sawRoot'⟩ := depth_of_nextToken read
  rw [feed_of_start read]
  rcases Nat.eq_or_lt_of_le deep with two | deeper
  · have opens := Collector.enter_child (C := collector) (s := holding e content before r) two.symm
      rfl ⟨r.cursor.position, name, attributes⟩
    rw [Collector.run_enter opens, if_pos (depth'.trans two.symm)]
    have noChild := direct two.symm
    cases isEmpty with
    | true =>
      refine (Collector.run_leave (Collector.leave_child rfl rfl rfl) _).trans ?_
      refine congrArg (collector.run · r'.feed) ?_
      simp only [holding, enter, Content.start, depth', sawRoot', ← two, noChild, if_true]
      rfl
    | false =>
      refine congrArg (collector.run · (r'.push name).feed) ?_
      have pushed : (r'.push name).depth = 3 := congrArg Nat.succ (depth'.trans two.symm)
      simp only [holding, enter, Content.start, if_false, pushed, Bool.false_eq_true]
      rw [show (r'.push name).sawRoot = r.sawRoot from sawRoot']
      rfl
  · have opens := Collector.enter_deep (C := collector) (s := holding e content before r) deeper
      ⟨r.cursor.position, name, attributes⟩
    have apart : ¬ r'.depth = 2 := by omega
    rw [Collector.run_enter opens, if_neg apart]
    cases isEmpty with
    | true =>
      have leaves := Collector.leave_deep (C := collector)
        (s := { holding e content before r with depth := r.depth + 1 }) (Nat.succ_le_succ deeper)
      refine (Collector.run_leave leaves _).trans ?_
      refine congrArg (collector.run · r'.feed) ?_
      simp only [holding, enter, depth', sawRoot', if_true, Nat.add_sub_cancel]
    | false =>
      refine congrArg (collector.run · (r'.push name).feed) ?_
      have pushed : (r'.push name).depth = r.depth + 1 := congrArg Nat.succ depth'
      simp only [holding, enter, if_false, pushed, Bool.false_eq_true]
      rw [show (r'.push name).sawRoot = r.sawRoot from sawRoot']

/-- An end tag further inside an element completes a child, or lies deeper. -/
theorem run_content_finish (e : Element) (before : List GraphElement) {content : Content}
    {r r' r'' : ElementReader} {name : Bytes}
    (read : r.nextToken = (.ok (some (.finish name)), r'))
    (closed : r'.close name r.cursor.position = (.ok (), r'')) (deep : 2 ≤ r''.depth) :
    collector.run (holding e content before r) r.feed =
      collector.run (holding e (if r''.depth = 2 then content.finish else content) before r'')
        r''.feed := by
  obtain ⟨depth', sawRoot'⟩ := depth_of_nextToken read
  obtain ⟨depth'', sawRoot''⟩ := depth_of_close closed
  rw [feed_of_finish read, closed]
  have depth : r.depth = r''.depth + 1 := depth'.symm.trans depth''
  have sawRoot : r.sawRoot = r''.sawRoot := sawRoot'.symm.trans sawRoot''.symm
  rcases Nat.eq_or_lt_of_le deep with two | deeper
  · have three : r.depth = 3 := depth.trans (congrArg Nat.succ two.symm)
    rw [if_pos two.symm]
    cases child : content.child with
    | none =>
      refine (Collector.run_leave (Collector.leave_childless three child) _).trans ?_
      refine congrArg (collector.run · r''.feed) ?_
      simp only [holding, Content.finish, child, ← two, sawRoot]
    | some child' =>
      refine (Collector.run_leave (Collector.leave_child three rfl child) _).trans ?_
      refine congrArg (collector.run · r''.feed) ?_
      simp only [holding, Content.finish, child, ← two, sawRoot]
      rfl
  · have four : 4 ≤ r.depth := by omega
    have apart : ¬ r''.depth = 2 := by omega
    have leaves := Collector.leave_deep (C := collector) (s := holding e content before r) four
    rw [if_neg apart]
    refine (Collector.run_leave leaves _).trans (congrArg (collector.run · r''.feed) ?_)
    simp only [holding, depth, sawRoot, Nat.add_sub_cancel]

/-- The end of an element gives it its meaning. -/
theorem run_closing (e : Element) (before : List GraphElement) {r : ElementReader}
    (one : r.depth = 1) :
    collector.run ⟨2, r.sawRoot, before, some e, none⟩ (.item .leave r.feed) =
      runAfter e before r := by
  have leaves : collector.leave ⟨2, r.sawRoot, before, some e, none⟩ =
      e.meaning.map fun element => ⟨1, r.sawRoot, element :: before, none, none⟩ :=
    Collector.leave_member rfl rfl
  unfold runAfter
  cases meant : e.meaning with
  | error fault =>
    rw [meant] at leaves
    rw [Collector.run, Collector.step, leaves]
    rfl
  | ok meaning =>
    rw [meant] at leaves
    refine (Collector.run_leave leaves _).trans (congrArg (collector.run · r.feed) ?_)
    simp only [outside, one]

theorem run_content_end (e : Element) (before : List GraphElement) {content : Content}
    {r r' r'' : ElementReader} {name : Bytes}
    (read : r.nextToken = (.ok (some (.finish name)), r'))
    (closed : r'.close name r.cursor.position = (.ok (), r'')) (two : r.depth = 2)
    (noChild : content.child = none) :
    collector.run (holding e content before r) r.feed =
      runAfter { e with children := content.children } before r'' := by
  obtain ⟨depth', sawRoot'⟩ := depth_of_nextToken read
  obtain ⟨depth'', sawRoot''⟩ := depth_of_close closed
  have one : r''.depth = 1 := by omega
  have sawRoot : r.sawRoot = r''.sawRoot := (sawRoot''.trans sawRoot').symm
  rw [feed_of_finish read, closed]
  unfold holding
  rw [two, noChild, sawRoot]
  exact run_closing _ before one

/-- Character data inside an element belongs to the child that it lies directly in. -/
theorem run_content_piece (e : Element) (before : List GraphElement) {content : Content}
    {r r' : ElementReader} {piece : Piece}
    (read : r.nextToken = (.ok (some (.piece piece)), r')) :
    collector.run (holding e content before r) r.feed =
      collector.run
        (holding e (if r'.depth = 2 + 1 then content.add piece else content) before r')
        r'.feed := by
  obtain ⟨depth', sawRoot'⟩ := depth_of_nextToken read
  rw [feed_of_piece read]
  refine (Collector.run_data _ _ _).trans (congrArg (collector.run · r'.feed) ?_)
  obtain ⟨child?, children⟩ := content
  unfold holding Content.add
  rw [depth', sawRoot']
  cases child? with
  | none => split <;> rfl
  | some child =>
    by_cases direct : r.depth = 3
    · rw [if_pos direct]
      exact if_pos direct
    · rw [if_neg direct]
      exact if_neg direct

theorem child_start {content : Content} {name : Bytes} {isEmpty : Bool} {position : Nat}
    {r : ElementReader} (direct : r.depth = 2 → content.child = none) (deep : 2 ≤ r.depth)
    (inside : (r.enter name isEmpty).depth = 2) :
    (if r.depth = 2 then content.start name isEmpty position else content).child = none := by
  cases isEmpty with
  | true =>
    rw [if_pos (show r.depth = 2 from inside)]
    exact direct inside
  | false =>
    have pushed : r.depth + 1 = 2 := inside
    omega

/-- The reader takes the content of an element as the collector does. -/
theorem run_readContent (e : Element) (before : List GraphElement) (content : Content)
    (r : ElementReader) (deep : 2 ≤ r.depth) (direct : r.depth = 2 → content.child = none) :
    collector.run (holding e content before r) r.feed =
      match readContent 2 content r with
      | (.error fault, _) => ⟨before.reverse, some fault⟩
      | (.ok children, r') => runAfter { e with children } before r' := by
  fun_induction readContent 2 content r with
  | case1 content r fault r' read => exact run_of_error read rfl
  | case2 content r r' read =>
    obtain ⟨cursor, rfl, ended⟩ := feed_of_none read
    rw [ended, Collector.run, Progress.result]
    exact if_pos (Nat.lt_of_lt_of_le Nat.zero_lt_two deep)
  | case3 content r position r' name attributes isEmpty _ _ content' read _ ih =>
    obtain ⟨depth', -⟩ := depth_of_nextToken read
    have deep' : 2 ≤ r'.depth := depth'.symm ▸ deep
    refine (run_content_start e before read deep direct).trans (ih ?_ ?_)
    · cases isEmpty with
      | true => exact deep'
      | false => exact Nat.le_succ_of_le deep'
    · exact child_start (depth'.symm ▸ direct) deep'
  | case4 content r position r' name _ _ fault r'' closed read =>
    have mismatch : r.feed = .broken fault := by rw [feed_of_finish read, closed]
    rw [mismatch]
    rfl
  | case5 content r position r' name _ _ r'' closed _ shallow read =>
    obtain ⟨depth', -⟩ := depth_of_nextToken read
    obtain ⟨depth'', -⟩ := depth_of_close closed
    have two : r.depth = 2 := by omega
    exact run_content_end e before read closed two (direct two)
  | case6 content r position r' name _ _ r'' closed _ shallow content' read _ ih =>
    have deep'' := Nat.le_of_not_lt shallow
    refine (run_content_finish e before read closed deep'').trans (ih deep'' fun two => ?_)
    show (if r''.depth = 2 then content.finish else content).child = none
    rw [if_pos two, Content.finish]
    split <;> first | assumption | rfl
  | case7 content r r' piece _ read _ ih =>
    obtain ⟨depth', -⟩ := depth_of_nextToken read
    refine (run_content_piece e before read).trans (ih (depth'.symm ▸ deep) fun two => ?_)
    have apart : ¬ r'.depth = 2 + 1 := by omega
    rw [dif_neg apart]
    exact direct (depth'.symm.trans two)

/-! ## From element to element -/

/-- The tag of an element that is not asked for is only counted. -/
theorem run_passed_start (before : List GraphElement) {r r' : ElementReader}
    {name attributes : Bytes} {isEmpty : Bool}
    (read : r.nextToken = (.ok (some (.start name attributes isEmpty)), r'))
    (passed : ¬ (r'.depth = 1 ∧ name ∈ ElementKind.tags)) :
    collector.run (outside before r) r.feed =
      collector.run (outside before (r'.noteStart.enter name isEmpty))
        (r'.noteStart.enter name isEmpty).feed := by
  obtain ⟨cursor, rfl, -⟩ := feed_of_token read
  have unasked (one : r.depth = 1) :
      collector.begin? ⟨r.cursor.position, name, attributes⟩ = none :=
    if_neg fun member => passed ⟨one, List.contains_iff_mem.1 member⟩
  have opens := Collector.enter_outside (s := outside before r) rfl unasked
  rw [feed_of_start read, Collector.run_enter opens]
  have top : (r.depth == 0) = r.openNames.isEmpty := by
    unfold ElementReader.depth
    cases r.openNames <;> rfl
  cases isEmpty with
  | true =>
    refine (Collector.run_leave (Collector.leave_outside rfl) _).trans ?_
    refine congrArg (collector.run · _) ?_
    simp only [outside, top]
    rfl
  | false =>
    refine congrArg (collector.run · _) ?_
    simp only [outside, top]
    rfl

/-- The tag of an element that is asked for, whose attributes are at fault. -/
theorem run_faulty_start (before : List GraphElement) {r r' : ElementReader}
    {name attributes : Bytes} {isEmpty : Bool} {fault : AttributeFault}
    (read : r.nextToken = (.ok (some (.start name attributes isEmpty)), r'))
    (taken : r'.depth = 1 ∧ name ∈ ElementKind.tags)
    (faulty : Attribute.readAll attributes = .error fault) :
    collector.run (outside before r) r.feed =
      ⟨before.reverse, some (.malformed r.cursor.position (.attribute fault))⟩ := by
  obtain ⟨depth', -⟩ := depth_of_nextToken read
  have begun : collector.begin? ⟨r.cursor.position, name, attributes⟩ =
      some (.error (.malformed r.cursor.position (.attribute fault))) := by
    refine (if_pos (List.contains_iff_mem.2 taken.2)).trans ?_
    dsimp only
    rw [faulty]
  have opens := Collector.enter_member (s := outside before r) (depth'.symm.trans taken.1) begun
  rw [feed_of_start read, Collector.run, Collector.step, opens]
  rfl

/-- The tag of an element that is asked for. -/
theorem run_taken_start (before : List GraphElement) {r r' : ElementReader}
    {name attributes : Bytes} {isEmpty : Bool} {values : List Attribute}
    (read : r.nextToken = (.ok (some (.start name attributes isEmpty)), r'))
    (taken : r'.depth = 1 ∧ name ∈ ElementKind.tags)
    (valid : Attribute.readAll attributes = .ok values) :
    collector.run (outside before r) r.feed =
      collector.run
        ⟨2, r'.sawRoot, before, some ⟨name, r.cursor.position, values, []⟩, none⟩
        (if isEmpty then .item .leave r'.feed else (r'.push name).feed) := by
  obtain ⟨depth', sawRoot'⟩ := depth_of_nextToken read
  have begun : collector.begin? ⟨r.cursor.position, name, attributes⟩ =
      some (.ok ⟨name, r.cursor.position, values, []⟩) := by
    refine (if_pos (List.contains_iff_mem.2 taken.2)).trans ?_
    dsimp only
    rw [valid]
  have opens := Collector.enter_member (s := outside before r) (depth'.symm.trans taken.1) begun
  rw [feed_of_start read, sawRoot']
  exact Collector.run_enter opens _

/-- The reader takes the next element as the collector does. -/
theorem run_next (before : List GraphElement) (r : ElementReader) :
    collector.run (outside before r) r.feed =
      match r.next ElementKind.tags with
      | (.error fault, _) => ⟨before.reverse, some fault⟩
      | (.ok none, r') => ⟨before.reverse, if r'.sawRoot then none else some .noRoot⟩
      | (.ok (some e), r') => runAfter e before r' := by
  fun_induction ElementReader.next ElementKind.tags r with
  | case1 r fault r' read => exact run_of_error read rfl
  | case2 r r' read =>
    obtain ⟨cursor, rfl, ended⟩ := feed_of_none read
    rw [ended, Collector.run, Progress.result]
    unfold outside ElementReader.depth
    cases r.openNames with
    | nil =>
      refine (if_neg (Nat.lt_irrefl 0)).trans ?_
      cases r.sawRoot <;> rfl
    | cons name others => exact if_pos (Nat.succ_pos others.length)
  | case3 r position r' name attributes isEmpty _ taken fault faulty read _ =>
    exact run_faulty_start before read taken faulty
  | case4 r position r' name attributes taken values valid _ read _ =>
    exact (run_taken_start before read taken valid).trans (run_closing _ before taken.1)
  | case5 r position r' name attributes isEmpty _ taken values valid full pushed content r''
      inside read _ =>
    have two : pushed.depth = 2 := congrArg Nat.succ taken.1
    rw [two] at inside
    have inner := run_readContent ⟨name, position, values, []⟩ before {} pushed
      (Nat.le_of_eq two.symm) fun _ => rfl
    rw [inside] at inner
    unfold holding at inner
    rw [two] at inner
    rw [run_taken_start before read taken valid, if_neg full]
    refine inner.trans ?_
    cases content with
    | error fault => rfl
    | ok children => rfl
  | case6 r r' name attributes isEmpty _ passed _ read _ ih =>
    exact (run_passed_start before read passed).trans ih
  | case7 r position r' name _ _ fault r'' closed read _ =>
    have mismatch : r.feed = .broken fault := by rw [feed_of_finish read, closed]
    rw [mismatch]
    rfl
  | case8 r position r' name _ _ r'' closed _ read _ ih =>
    obtain ⟨depth', sawRoot'⟩ := depth_of_nextToken read
    obtain ⟨depth'', sawRoot''⟩ := depth_of_close closed
    have ended : r.feed = .item .leave r''.feed := by rw [feed_of_finish read, closed]
    have state : outside before r'' = { outside before r with depth := r.depth - 1 } := by
      simp only [outside, sawRoot'', sawRoot', ← depth', depth'', Nat.add_sub_cancel]
    rw [ended]
    refine (Collector.run_leave (Collector.leave_outside rfl) _).trans ?_
    exact state ▸ ih
  | case9 r r' piece _ read _ ih =>
    obtain ⟨depth', sawRoot'⟩ := depth_of_nextToken read
    have state : outside before r' = outside before r := by
      simp only [outside, depth', sawRoot']
    rw [feed_of_piece read]
    exact (Collector.run_data _ _ _).trans (state ▸ ih)

/-- Taking elements out of a document finds what the collector finds. -/
theorem run_readFrom (r : ElementReader) (before : List GraphElement) :
    collector.run (outside before r) r.feed = Streaming.readFrom r before := by
  fun_induction Streaming.readFrom r before with
  | case1 r before fault r' read => rw [run_next, read]
  | case2 r before r' read => rw [run_next, read]
  | case3 r before e r' read _ fault meant =>
    rw [run_next, read]
    show runAfter e before r' = _
    rw [runAfter, meant]
  | case4 r before e r' read _ meaning meant ih =>
    rw [run_next, read]
    refine Eq.trans ?_ ih
    show runAfter e before r' = _
    rw [runAfter, meant]

/-! ## What elements stand for -/

/-- How tags and character data are read where they are tokens. -/
def dialect : Dialect StartTag Piece where
  name := StartTag.name
  attributes tag := (Attribute.readAll tag.attributes).mapError fun fault =>
    .malformed tag.position (.attribute fault)
  value tag raw := (unescape raw).mapError fun fault => .malformed tag.position (.text fault)
  text tag piece := (RawText.readPiece piece).mapError fun fault =>
    .malformed tag.position (.text fault)

/-- A child as it is kept of an element. -/
def childOf (branch : StartTag × Forest StartTag Piece) : Bytes × RawText :=
  (branch.1.name, ⟨branch.2.pieces, branch.1.position⟩)

theorem fill_child (name : Bytes) (position : Nat) (content : Forest StartTag Piece) :
    collector.fill (name, ⟨[], position⟩) content = (name, ⟨content.pieces, position⟩) := by
  suffices general : ∀ pieces before : List Piece,
      pieces.foldl collector.add (name, ⟨before, position⟩) =
        (name, ⟨before ++ pieces, position⟩) from general content.pieces []
  intro pieces
  induction pieces with
  | nil => exact fun before => by rw [List.append_nil]; rfl
  | cons piece rest ih =>
    intro before
    refine (ih (before ++ [piece])).trans ?_
    rw [List.append_assoc, List.singleton_append]

/-- An element keeps its children, the last one first. -/
theorem gather_children (e : Element) (content : Forest StartTag Piece) :
    collector.gather e content =
      { e with children := (content.branches.map childOf).reverse ++ e.children } := by
  unfold Collector.gather
  generalize content.branches = branches
  induction branches generalizing e with
  | nil => rfl
  | cons branch others ih =>
    have received : collector.receive e branch =
        { e with children := childOf branch :: e.children } :=
      congrArg (fun child => { e with children := child :: e.children })
        (fill_child branch.1.name branch.1.position branch.2)
    rw [List.foldl_cons, received, ih]
    simp only [List.map_cons, List.reverse_cons, List.append_assoc, List.singleton_append]

/-- Looking up a name where the last child comes first finds the last child. -/
theorem lookup_children (name : Bytes) (branches : List (StartTag × Forest StartTag Piece)) :
    (branches.map childOf).reverse.lookup name =
      ((branches.filter (dialect.name ·.1 == name)).getLast?).map fun branch =>
        (childOf branch).2 := by
  suffices general : ∀ rest : List (Bytes × RawText),
      ((branches.map childOf).reverse ++ rest).lookup name =
        (((branches.filter (dialect.name ·.1 == name)).getLast?).map fun branch =>
          (childOf branch).2).or (rest.lookup name) by
    have whole := general []
    rw [List.append_nil] at whole
    rw [whole]
    exact Option.or_none
  induction branches with
  | nil => exact fun rest => rfl
  | cons branch others ih =>
    intro rest
    rw [List.map_cons, List.reverse_cons, List.append_assoc, List.singleton_append, ih,
      List.lookup_cons, List.filter_cons]
    have turned : (name == (childOf branch).1) = (dialect.name branch.1 == name) := BEq.comm
    rw [turned]
    cases dialect.name branch.1 == name with
    | false => rfl
    | true =>
      rw [if_pos rfl, List.getLast?_cons]
      cases (others.filter (dialect.name ·.1 == name)).getLast? <;> rfl

theorem mapError_map {α β ε ε' : Type} (f : ε → ε') (g : α → β) (outcome : Except ε α) :
    (outcome.map g).mapError f = (outcome.mapError f).map g := by
  cases outcome <;> rfl

theorem mapM_mapError {α β ε ε' : Type} (f : ε → ε') (read : α → Except ε β) (items : List α) :
    (items.mapM read).mapError f = items.mapM fun item => (read item).mapError f := by
  induction items with
  | nil => rfl
  | cons item rest ih =>
    rw [List.mapM_cons, List.mapM_cons, ← ih]
    cases read item with
    | error e => rfl
    | ok value => cases rest.mapM read <;> rfl

section Fields

variable {tag : StartTag} {attributes : List Attribute} {content : Forest StartTag Piece}

theorem attribute?_eq (children : List (Bytes × RawText)) (name : String) :
    (Element.mk tag.name tag.position attributes children).attribute? (Bytes.ofAscii name) =
      dialect.attributeText? tag attributes name := by
  unfold Element.attribute? Dialect.attributeText?
  cases attributes.lookup (Bytes.ofAscii name) with
  | none => rfl
  | some raw => exact mapError_map _ some (unescape raw)

theorem childText?_eq (name : String) :
    (Element.mk tag.name tag.position attributes (content.branches.map childOf).reverse).childText?
        (Bytes.ofAscii name) = dialect.childText? content name := by
  unfold Element.childText? Dialect.childText? Dialect.lastChild?
  dsimp only
  rw [lookup_children]
  cases (content.branches.filter (dialect.name ·.1 == Bytes.ofAscii name)).getLast? with
  | none => rfl
  | some branch =>
    have texts := mapM_mapError (DecodeError.malformed branch.1.position ∘ .text)
      RawText.readPiece branch.2.pieces
    show (RawText.resolve ⟨branch.2.pieces, branch.1.position⟩).map some =
      (branch.2.pieces.mapM fun piece => (RawText.readPiece piece).mapError _).map _
    unfold RawText.resolve
    refine Eq.trans ?_ (congrArg (Except.map _) texts)
    cases branch.2.pieces.mapM RawText.readPiece <;> rfl

end Fields

/-- An element that is asked for begins with its attributes. -/
theorem beginMember?_eq (tag : StartTag) :
    beginMember? tag = (dialect.kind? tag).map fun _ =>
      (dialect.attributes tag).map fun attributes => ⟨tag.name, tag.position, attributes, []⟩ := by
  have begun : (match Attribute.readAll tag.attributes with
      | .error fault => Except.error (DecodeError.malformed tag.position (.attribute fault))
      | .ok attributes => .ok (Element.mk tag.name tag.position attributes [])) =
      (dialect.attributes tag).map fun attributes =>
        ⟨tag.name, tag.position, attributes, []⟩ := by
    show _ = ((Attribute.readAll tag.attributes).mapError _).map _
    cases Attribute.readAll tag.attributes <;> rfl
  unfold beginMember?
  rw [begun]
  rcases dialect.kind?_cases tag with ⟨node, kind⟩ | ⟨-, edge, kind⟩ | ⟨unnamed, kind⟩
  · rw [kind]
    exact if_pos (List.contains_iff_mem.2 (List.mem_cons.2 (.inl node)))
  · rw [kind]
    exact if_pos (List.contains_iff_mem.2 (List.mem_cons.2 (.inr (List.mem_singleton.2 edge))))
  · rw [kind]
    exact if_neg (unnamed ∘ List.contains_iff_mem.1)

/-- An element with its children stands for what its forest does. -/
theorem meaning_gather {tag : StartTag} {kind : ElementKind} {attributes : List Attribute}
    (named : dialect.kind? tag = some kind) (read : dialect.attributes tag = .ok attributes)
    (content : Forest StartTag Piece) :
    (collector.gather ⟨tag.name, tag.position, attributes, []⟩ content).meaning =
      dialect.meaning kind tag content := by
  rw [gather_children, List.append_nil]
  unfold Element.meaning Element.nodeFields Element.edgeFields Dialect.meaning
  rw [read]
  simp only [attribute?_eq, childText?_eq]
  rcases dialect.kind?_cases tag with ⟨node, kind'⟩ | ⟨other, edge, kind'⟩ | ⟨-, kind'⟩
  · cases Option.some.inj (named.symm.trans kind')
    rw [if_pos (show tag.name = _ from node)]
    simp only [NodeFields.toNode, bind_assoc, pure_bind]
    rfl
  · cases Option.some.inj (named.symm.trans kind')
    rw [if_neg (show ¬ tag.name = _ from other)]
    simp only [EdgeFields.toEdge, EdgeFields.isDirected, bind_assoc, pure_bind,
      Dialect.directed_eq]
    rfl
  · cases named.symm.trans kind'

theorem meaning?_eq (tag : StartTag) (content : Forest StartTag Piece) :
    collector.meaning? tag content = dialect.meaning? tag content := by
  show (beginMember? tag).map _ = (dialect.kind? tag).map _
  rw [beginMember?_eq]
  cases named : dialect.kind? tag with
  | none => rfl
  | some kind =>
    refine congrArg some ?_
    cases read : dialect.attributes tag with
    | error fault =>
      unfold Dialect.meaning
      rw [read]
      rfl
    | ok attributes => exact meaning_gather named read content

theorem openFault?_eq (tag : StartTag) : collector.openFault? tag = dialect.openFault? tag := by
  have begun : collector.begin? tag = _ := beginMember?_eq tag
  rw [Collector.openFault?, Dialect.openFault?, begun]
  cases dialect.kind? tag with
  | none => rfl
  | some kind => cases dialect.attributes tag <;> rfl

end ElementReader

/-! ## Documents -/

/-- What is wrong with an end tag that does not match the outline before it. -/
def Markup.Outline.nestingFault (o : Outline StartTag Piece) (name : Bytes) : SyntaxFault :=
  match o.openNames with
  | [] => .unmatchedTag name
  | expected :: _ => .mismatchedTags expected name

theorem Markup.Outline.Mismatches.nested {o : Outline StartTag Piece} {name : Bytes}
    (mismatch : o.Mismatches name) (position : Nat) (rest : Feed (Nat × Token)) :
    nested o.openNames (.item (position, .finish name) rest) =
      .broken (.malformed position (o.nestingFault name)) := by
  unfold Outline.Mismatches at mismatch
  unfold Outline.nestingFault
  cases names : o.openNames with
  | nil => rfl
  | cons expected others =>
    rw [names] at mismatch
    have differ : ¬ (expected == name) = true := by
      intro same
      exact mismatch (congrArg some (eq_of_beq same))
    exact if_neg differ

namespace Streaming

open ElementReader

theorem decode_eq_run (document : Bytes) :
    decode document = (collector.run {} (ElementReader.ofBytes document).feed).graph := by
  have start : outside [] (ElementReader.ofBytes document) = {} := by
    unfold ElementReader.ofBytes
    split <;> rfl
  rw [decode, read, ← run_readFrom, start]

/-- Tokens that spell an outline, with what follows them. -/
theorem run_of_spells {document : Bytes} {tokens : List (Nat × Token)}
    {o : Outline StartTag Piece} (spelled : o.Spells tokens) {rest : Feed (Nat × Token)}
    (read : (ElementReader.ofBytes document).cursor.feed
      (ElementReader.ofBytes document).cursor.position = Feed.prepend tokens rest) :
    decode document =
      (collector.run {} (Feed.prepend o.signals (nested o.openNames rest))).graph := by
  have fresh : (ElementReader.ofBytes document).openNames = [] := by
    unfold ElementReader.ofBytes
    split <;> rfl
  rw [decode_eq_run, feed, fresh, read, nested_of_spells spelled]

/-- A document that splits into tokens gives what the forest of its tokens stands for. Where its
elements do not all close, or an end tag does not match, it gives the first error of a member before
that place, or else the error of that place. -/
theorem decode_of_tokens (document : Bytes) (tokens : List (Nat × Token))
    (split : (ElementReader.ofBytes document).cursor.tokens = .ok tokens) :
    (∀ f : Forest StartTag Piece, f.Spells tokens →
      decode document = (f.rootMembers dialect.meaning?).outcome
        (if f.branches.isEmpty then some .noRoot else none)) ∧
    (∀ o : Outline StartTag Piece, o.Spells tokens → 0 < o.depth →
      decode document = (o.members dialect.meaning? dialect.openFault?).outcome
        (some (.truncated o.depth))) ∧
    (∀ (o : Outline StartTag Piece) (before after : List (Nat × Token)) (position : Nat)
        (name : Bytes), o.Spells before → o.Mismatches name →
      tokens = before ++ (position, .finish name) :: after →
      decode document = (o.members dialect.meaning? dialect.openFault?).outcome
        (some (.malformed position (o.nestingFault name)))) ∧
    ((∃ f : Forest StartTag Piece, f.Spells tokens) ∨
      (∃ o : Outline StartTag Piece, o.Spells tokens ∧ 0 < o.depth) ∨
      ∃ (o : Outline StartTag Piece) (before after : List (Nat × Token)) (position : Nat)
        (name : Bytes), o.Spells before ∧ o.Mismatches name ∧
          tokens = before ++ (position, .finish name) :: after) := by
  have read := Cursor.feed_of_tokens split
  have whole (o : Outline StartTag Piece) (spelled : o.Spells tokens) :
      decode document =
        (o.members dialect.meaning? dialect.openFault?).outcome o.endFault? := by
    rw [run_of_spells spelled read, nested, Collector.run_finished,
      o.members_congr meaning?_eq openFault?_eq, Decoded.graph_ofResults]
  refine ⟨fun f spelled => ?_, fun o spelled deep => ?_, ?_, ?_⟩
  · have ends : Outline.endFault? ⟨[], f⟩ =
        if f.branches.isEmpty then some .noRoot else none := by
      unfold Outline.endFault? Outline.hasElement
      cases f.branches <;> rfl
    exact ends ▸ whole ⟨[], f⟩ ⟨[], tokens, .nil, spelled, rfl⟩
  · rw [whole o spelled, Outline.endFault?, if_pos deep]
  · intro o before after position name spelled mismatch parts
    rw [parts, Feed.prepend_append] at read
    rw [run_of_spells spelled read]
    refine (congrArg (fun rest => (collector.run {} (Feed.prepend o.signals rest)).graph)
      (mismatch.nested position _)).trans ?_
    rw [Collector.run_broken, o.members_congr meaning?_eq openFault?_eq, Decoded.graph_ofResults]
  · rcases Outline.spells_or_mismatches tokens with ⟨o, spelled⟩ | mismatch
    · rcases Nat.eq_zero_or_pos o.depth with flat | deep
      · obtain ⟨first, last, opened, inner, rfl⟩ := spelled
        rw [List.eq_nil_of_length_eq_zero flat] at opened
        cases opened
        exact .inl ⟨o.inner, inner⟩
      · exact .inr (.inl ⟨o, spelled, deep⟩)
    · exact .inr (.inr mismatch)

/-- A node whose cost is given twice has the later one. -/
theorem decode_of_tokens_twoCosts :
    let document := Bytes.ofAscii "<g><node id='1'><cost>2</cost><cost>3</cost></node></g>"
    let cost (position : Nat) (digit : UInt8) (rest : Forest StartTag Piece) :=
      Forest.element ⟨position, Bytes.ofAscii "cost", []⟩ (.data (.text [digit]) .done) rest
    let f := Forest.element ⟨0, Bytes.ofAscii "g", []⟩
      (.element ⟨3, Bytes.ofAscii "node", Bytes.ofAscii " id='1'"⟩
        (cost 16 0x32 (cost 30 0x33 .done)) .done) .done
    decode document = (f.rootMembers dialect.meaning?).outcome none ∧
      (f.rootMembers dialect.meaning?).outcome none =
        .ok ⟨[⟨1, .ofDecimal false 3 0⟩], []⟩ := by
  intro document cost f
  have split : (ElementReader.ofBytes document).cursor.tokens = .ok
      [(0, .start (Bytes.ofAscii "g") [] false),
        (3, .start (Bytes.ofAscii "node") (Bytes.ofAscii " id='1'") false),
        (16, .start (Bytes.ofAscii "cost") [] false), (22, .piece (.text [0x32])),
        (23, .finish (Bytes.ofAscii "cost")), (30, .start (Bytes.ofAscii "cost") [] false),
        (36, .piece (.text [0x33])), (37, .finish (Bytes.ofAscii "cost")),
        (44, .finish (Bytes.ofAscii "node")), (51, .finish (Bytes.ofAscii "g"))] := by
    decide +kernel
  refine ⟨(decode_of_tokens document _ split).1 f ?_, ?_⟩
  · exact .element (.element (.element (.data .done) (.element (.data .done) .done)) .done) .done
  · decide +kernel

end Streaming
end GraphScribe
