import GraphScribe.Proofs.Template.Concatenation
import GraphScribe.Proofs.Text.Boundaries

/-!
# Where a template is at fault

A text that is no template has one place at which it is none: a percent sign after which no
directive can be read, with a template or nothing before it. The error names what stands there.

Compiling finds its way through the bytes of a text by offsets. A part ends at a percent sign, after
a run of digits and points, after a mode letter, or after one more character; all these are offsets
between characters, whatever characters the text holds.

* `Directive.read_of_faulty`, `Directive.faulty_of_read`: the three ways in which no directive can be
  read.
* `FaultAt.unique`: a text has at most one place at which it is at fault.
* `isBoundary_of_cut`: scans of the bytes cut a text between characters.
* `compile_faultAt`: the error of compiling is that of the one place.
-/

namespace GraphScribe

/-! ## What cannot be read -/

namespace CostFunction

/-- The mode letter that follows the digits and points at the front of a text, if one does. -/
def modeLetter (text : List Char) : List Char :=
  ((text.dropWhile isRatioChar).take 1).filter fun c => (Rounding.ofLetter? c).isSome

/-- The longest text at the front of another that could be a cost function. -/
def costPrefix (text : List Char) : List Char :=
  text.takeWhile isRatioChar ++ modeLetter text

/-- The run of digits and points at the front of a text is empty or a number. -/
def HasRatio (text : List Char) : Prop :=
  ∃ ratio, Part.ratioText ratio = text.takeWhile isRatioChar

theorem hasRatio_iff {text : List Char} :
    HasRatio text ↔
      text.takeWhile isRatioChar = [] ∨ ∃ ratio : Ratio, ratio.run = text.takeWhile isRatioChar := by
  constructor
  · rintro ⟨none | ratio, run⟩
    · exact .inl run.symm
    · exact .inr ⟨ratio, run⟩
  · rintro (empty | ⟨ratio, run⟩)
    · exact ⟨none, empty.symm⟩
    · exact ⟨some ratio, run⟩

theorem all_takeWhile (text : List Char) : ∀ c ∈ text.takeWhile isRatioChar, isRatioChar c = true :=
  List.all_eq_true.1 List.all_takeWhile

/-- What follows a cost function, and the mode of the function. -/
theorem exists_readMode (text : List Char) :
    ∃ mode after, readMode (text.dropWhile isRatioChar) = (mode, after) ∧
      text = costPrefix text ++ after := by
  have whole := List.takeWhile_append_dropWhile (p := isRatioChar) (l := text)
  unfold costPrefix modeLetter readMode
  cases left : text.dropWhile isRatioChar with
  | nil =>
    rw [left, List.append_nil] at whole
    exact ⟨none, [], rfl, by simpa using whole.symm⟩
  | cons c rest =>
    rw [left] at whole
    dsimp only
    cases letter : Rounding.ofLetter? c with
    | none => exact ⟨none, c :: rest, rfl, by simpa [letter] using whole.symm⟩
    | some mode => exact ⟨some mode, rest, rfl, by simpa [letter] using whole.symm⟩

theorem readRatio_of_hasRatio {text : List Char} (number : HasRatio text) :
    ∃ ratio, readRatio text = .ok (ratio, text.dropWhile isRatioChar) := by
  unfold readRatio
  dsimp only
  rcases hasRatio_iff.1 number with empty | ⟨ratio, run⟩
  · exact ⟨none, if_pos (List.isEmpty_iff.2 empty)⟩
  · refine ⟨some ratio.value, ?_⟩
    have filled : ¬ ratio.run.isEmpty = true := mt List.isEmpty_iff.1 ratio.nonempty
    rw [← run, if_neg filled, ratio.read_run]

/-- A cost function is read if its run of digits and points is a number or left out. -/
theorem read_of_hasRatio {text : List Char} (number : HasRatio text) :
    ∃ f after, read text = .ok (f, after) ∧ text = costPrefix text ++ after := by
  obtain ⟨ratio, ratioRead⟩ := readRatio_of_hasRatio number
  obtain ⟨mode, after, modeRead, whole⟩ := exists_readMode text
  unfold read
  rw [ratioRead]
  dsimp only
  rw [modeRead]
  cases ratio <;> cases mode <;> exact ⟨_, after, rfl, whole⟩

/-- A run of digits and points that is no number is at fault as a whole. -/
theorem read_of_not_hasRatio {text : List Char} (noNumber : ¬ HasRatio text) :
    read text = .error (.invalidRatio (text.takeWhile isRatioChar) .invalid) := by
  have filled : text.takeWhile isRatioChar ≠ [] := fun empty => noNumber ⟨none, empty.symm⟩
  have unread : Binary64.read (text.takeWhile isRatioChar) = .error .invalid := by
    have eq := Ratio.read_of_chars (all_takeWhile text) filled
    cases decimal : Binary64.readDecimal false (text.takeWhile isRatioChar) with
    | none => rw [eq, decimal]
    | some value =>
      rw [decimal] at eq
      obtain ⟨ratio, run, -⟩ := Ratio.of_read (all_takeWhile text) eq
      exact (noNumber ⟨some ratio, run⟩).elim
  unfold read readRatio
  dsimp only
  rw [if_neg (mt List.isEmpty_iff.1 filled), unread]

end CostFunction

open CostFunction

/-- What is wrong with a text after a percent sign. -/
inductive Faulty (body : List Char) : TemplateError → Prop
  /-- Its run of digits and points is no number. -/
  | ratio (filled : body.takeWhile isRatioChar ≠ [])
      (noNumber : ¬ ∃ ratio : Ratio, ratio.run = body.takeWhile isRatioChar) :
    Faulty body (.invalidRatio (body.takeWhile isRatioChar) .invalid)
  /-- It ends with its cost function, or before. -/
  | missing (whole : costPrefix body = body) (number : HasRatio body) :
    Faulty body (.missingVerb ('%' :: body))
  /-- A character follows its cost function that is no verb, nor one of the single letters if the
  cost function is left out. -/
  | verb {v : Char} {after : List Char} (follows : body = costPrefix body ++ v :: after)
      (number : HasRatio body) (noVerb : v ∉ ['w', 'N', 'M'])
      (noLetter : costPrefix body = [] → v ∉ ['%', 'n', 'm', 'a']) :
    Faulty body (.invalidVerb ('%' :: costPrefix body ++ [v]) v)

namespace Directive

theorem costPrefix_cons_of_letter {c : Char} (letter : c ∈ ['%', 'n', 'm', 'a'])
    (rest : List Char) : costPrefix (c :: rest) = [] := by
  simp only [List.mem_cons, List.not_mem_nil, or_false] at letter
  rcases letter with rfl | rfl | rfl | rfl <;> rfl

/-- A text at fault begins with none of the single letters. -/
theorem beginsList_of_faulty {c : Char} {rest : List Char} {e : TemplateError}
    (fault : Faulty (c :: rest) e) : Part.BeginsList c := by
  have noLetter : c ∉ ['%', 'n', 'm', 'a'] := by
    intro letter
    have none := costPrefix_cons_of_letter letter rest
    cases fault with
    | ratio filled =>
      have run := (List.append_eq_nil_iff.1 none).1
      exact filled run
    | missing whole =>
      rw [none] at whole
      cases whole
    | verb follows _ _ noLetter =>
      rw [none] at follows
      cases follows
      exact noLetter none letter
  simp only [List.mem_cons, List.not_mem_nil, or_false, not_or] at noLetter
  exact noLetter

theorem read_missing {c : Char} {rest : List Char} {f : Option CostFunction}
    (begins : Part.BeginsList c) (cost : CostFunction.read (c :: rest) = .ok (f, [])) :
    read (c :: rest) = .error (.missingVerb ('%' :: c :: rest)) := by
  rw [Part.read_of_beginsList begins, cost]

/-- What is at fault cannot be read, and the error says how. -/
theorem read_of_faulty {body : List Char} {e : TemplateError} (fault : Faulty body e) :
    read body = .error e := by
  cases body with
  | nil =>
    cases fault with
    | ratio filled => exact (filled rfl).elim
    | missing => rfl
    | verb follows =>
      have lengths := congrArg List.length follows
      simp at lengths
  | cons c rest =>
    have begins := beginsList_of_faulty fault
    cases fault with
    | ratio filled noNumber =>
      have unread := read_of_not_hasRatio fun number =>
        (hasRatio_iff.1 number).elim filled noNumber
      rw [Part.read_of_beginsList begins, unread]
    | missing whole number =>
      obtain ⟨f, after, cost, split⟩ := read_of_hasRatio number
      rw [whole] at split
      cases List.self_eq_append_right.1 split
      exact read_missing begins cost
    | @verb v others follows number noVerb =>
      obtain ⟨f, after, cost, split⟩ := read_of_hasRatio number
      cases List.append_cancel_left (follows.symm.trans split)
      simp only [List.mem_cons, List.not_mem_nil, or_false, not_or] at noVerb
      rw [read_of_letter begins cost noVerb]
      have count : (c :: rest).length - others.length = (costPrefix (c :: rest) ++ [v]).length := by
        have lengths := congrArg List.length follows
        simp only [List.length_append, List.length_cons, List.length_nil] at lengths ⊢
        omega
      have front : costPrefix (c :: rest) ++ [v] <+: c :: rest :=
        ⟨others, (List.append_cons _ _ _).symm.trans follows.symm⟩
      rw [count, ← List.prefix_iff_eq_take.1 front, List.cons_append]

/-- Where no directive can be read, the text is at fault. -/
theorem faulty_of_read {body : List Char} {e : TemplateError} (failed : read body = .error e) :
    Faulty body e := by
  cases body with
  | nil =>
    cases failed
    exact .missing rfl ⟨none, rfl⟩
  | cons c rest =>
    have begins : Part.BeginsList c := by
      refine ⟨?_, ?_, ?_, ?_⟩ <;> rintro rfl <;> cases failed
    by_cases number : HasRatio (c :: rest)
    · obtain ⟨f, after, cost, split⟩ := read_of_hasRatio number
      cases after with
      | nil =>
        cases (read_missing begins cost).symm.trans failed
        rw [List.append_nil] at split
        exact .missing split.symm number
      | cons v after =>
        have noVerb : v ∉ ['w', 'N', 'M'] := by
          intro isVerb
          rw [Part.read_of_beginsList begins, cost] at failed
          simp only [List.mem_cons, List.not_mem_nil, or_false] at isVerb
          rcases isVerb with rfl | rfl | rfl <;> cases failed
        have noLetter : costPrefix (c :: rest) = [] → v ∉ ['%', 'n', 'm', 'a'] := by
          intro none
          rw [none] at split
          cases split
          simp only [List.mem_cons, List.not_mem_nil, or_false, not_or]
          exact begins
        have fault := Faulty.verb split number noVerb noLetter
        cases (read_of_faulty fault).symm.trans failed
        exact fault
    · have fault : Faulty (c :: rest) _ := .ratio
        (fun empty => number (hasRatio_iff.2 (.inl empty)))
        (fun isNumber => number (hasRatio_iff.2 (.inr isNumber)))
      cases (read_of_faulty fault).symm.trans failed
      exact fault

end Directive

/-! ## The place of a fault -/

namespace Template

/-- A text is at fault after a percent sign that nothing or a template comes before. -/
structure FaultAt (text front body : List Char) (e : TemplateError) : Prop where
  split : text = front ++ '%' :: body
  before : front = [] ∨ ∃ t, compile (String.ofList front) = .ok t
  fault : Faulty body e

/-- The texts that have directives are the empty one and the templates. -/
theorem exists_directivesOf_iff {front : List Char} :
    (∃ ds, directivesOf front = .ok ds) ↔ front = [] ∨ ∃ t, compile (String.ofList front) = .ok t := by
  by_cases empty : front = []
  · subst empty
    exact iff_of_true ⟨[], by rw [directivesOf]⟩ (.inl rfl)
  · have filled : String.ofList front ≠ "" := fun blank => empty (String.ofList_eq_empty_iff.1 blank)
    rw [compile_of_ne filled, String.toList_ofList]
    constructor
    · rintro ⟨ds, read⟩
      exact .inr ⟨⟨String.ofList front, ds⟩, by rw [read]; rfl⟩
    · rintro (blank | ⟨t, compiled⟩)
      · exact (empty blank).elim
      · cases read : directivesOf front with
        | error e =>
          rw [read] at compiled
          cases compiled
        | ok ds => exact ⟨ds, rfl⟩

/-- What has no directives has a place where none can be read. The recursion reads one part after
the other, and what was read before that place is read again without what follows it. -/
theorem exists_fault {text : List Char} {e : TemplateError} (failed : directivesOf text = .error e) :
    ∃ front body ds, text = front ++ '%' :: body ∧ directivesOf front = .ok ds ∧
      Directive.read body = .error e := by
  fun_induction directivesOf text with
  | case1 => cases failed
  | case2 body e' unread =>
    cases failed
    exact ⟨[], body, [], rfl, by rw [directivesOf], unread⟩
  | case3 body d rest first _ ih =>
    cases later : directivesOf rest with
    | ok ds =>
      rw [later] at failed
      cases failed
    | error e' =>
      rw [later] at failed
      cases failed
      obtain ⟨front, behind, ds, rfl, read, unread⟩ := ih later
      obtain ⟨p, directive, rfl, rfl⟩ := Part.exists_of_read first
      refine ⟨'%' :: (p.body ++ front), behind, p.directive :: ds, ?_, ?_, unread⟩
      · rw [List.cons_append, List.append_assoc]
      · rw [directivesOf_directive (Part.read_append directive front), read]
        rfl
  | case4 c rest unmarked _ ih =>
    cases later : directivesOf (rest.dropWhile isLiteral) with
    | ok ds =>
      rw [later] at failed
      cases failed
    | error e' =>
      rw [later] at failed
      cases failed
      obtain ⟨front, behind, ds, split, read, unread⟩ := ih later
      have plain : ∀ b ∈ c :: rest.takeWhile isLiteral, isLiteral b = true :=
        List.forall_mem_cons.2 ⟨bne_iff_ne.2 unmarked, List.all_eq_true.1 List.all_takeWhile⟩
      refine ⟨c :: rest.takeWhile isLiteral ++ front, behind,
        meet (.text (c :: rest.takeWhile isLiteral)) ds, ?_, ?_, unread⟩
      · rw [List.append_assoc, ← split, List.cons_append, List.takeWhile_append_dropWhile]
      · rw [directivesOf_run plain, read]
        rfl

namespace FaultAt

variable {text front body front' body' : List Char} {e e' : TemplateError}

theorem directivesOf_eq (at_ : FaultAt text front body e) : directivesOf text = .error e := by
  obtain ⟨ds, read⟩ := exists_directivesOf_iff.2 at_.before
  rw [at_.split, directivesOf_append read, directivesOf_error (Directive.read_of_faulty at_.fault)]
  rfl

/-- A text is not at fault within a template that it begins with. -/
theorem not_within (at_ : FaultAt text front body e) {inner : List Char}
    (within : body = inner ++ '%' :: body')
    (before : ∃ ds, directivesOf (front ++ '%' :: inner) = .ok ds) : False := by
  obtain ⟨ds, read⟩ := exists_directivesOf_iff.2 at_.before
  obtain ⟨ds', read'⟩ := before
  rw [directivesOf_append read] at read'
  cases first : Directive.read inner with
  | error fault =>
    rw [directivesOf_error first] at read'
    cases read'
  | ok found =>
    obtain ⟨d, rest⟩ := found
    have again := Directive.read_append first ('%' :: body')
    rw [← within, Directive.read_of_faulty at_.fault] at again
    cases again

/-- A text has at most one place at which it is at fault. -/
theorem unique (at_ : FaultAt text front body e) (other : FaultAt text front' body' e') :
    front' = front ∧ body' = body ∧ e' = e := by
  have error : e' = e := Except.error.inj (other.directivesOf_eq.symm.trans at_.directivesOf_eq)
  rcases List.append_eq_append_iff.1 (at_.split.symm.trans other.split) with
    ⟨inner, longer, rest⟩ | ⟨inner, longer, rest⟩
  · cases inner with
    | nil =>
      cases rest
      exact ⟨by simpa using longer, rfl, error⟩
    | cons c inner =>
      cases rest
      exact (at_.not_within rfl (exists_directivesOf_iff.2 (longer ▸ other.before))).elim
  · cases inner with
    | nil =>
      cases rest
      exact ⟨by simpa using longer.symm, rfl, error⟩
    | cons c inner =>
      cases rest
      exact (other.not_within rfl (exists_directivesOf_iff.2 (longer ▸ at_.before))).elim

end FaultAt

/-! ## Offsets -/

/-- A byte that may stand in a ratio. -/
def isRatioByte (b : UInt8) : Bool :=
  (0x30 ≤ b && b ≤ 0x39) || b == 0x2E

/-- A byte that is a mode letter. -/
def isModeByte (b : UInt8) : Bool :=
  b == 0x58 || b == 0x46 || b == 0x52 || b == 0x43

/-- The offsets before and after the first percent sign in some bytes; their length if there is
none. -/
def markerCuts (bytes : Bytes) : List Nat :=
  let run := (bytes.takeWhile (· != 0x25)).length
  match bytes.drop run with
  | [] => [run]
  | _ :: _ => [run, run + 1]

/-- The offsets after the digits and points at the front of some bytes, after the mode letter that
follows them, and after one more character. A single letter is one more character after nothing. -/
def directiveCuts (bytes : Bytes) : List Nat :=
  let run := (bytes.takeWhile isRatioByte).length
  let letter := (((bytes.dropWhile isRatioByte).take 1).filter isModeByte).length
  match bytes.drop (run + letter) with
  | [] => [run, run + letter]
  | _ :: rest =>
    [run, run + letter, run + letter + (1 + (rest.takeWhile Utf8.isContinuation).length)]

/-- The offsets at which a text is cut on the way through its bytes. Every scan begins where an
earlier one has cut. -/
inductive Cut (bytes : Bytes) : Nat → Prop
  | start : Cut bytes 0
  | marker {offset more : Nat} (before : Cut bytes offset)
      (found : more ∈ markerCuts (bytes.drop offset)) : Cut bytes (offset + more)
  | directive {offset more : Nat} (before : Cut bytes offset)
      (found : more ∈ directiveCuts (bytes.drop offset)) : Cut bytes (offset + more)

/-- Bytes tell the characters that are copied from percent signs. -/
theorem agrees_literal : Utf8.Agrees isLiteral (· != 0x25) := by
  refine Utf8.agrees_of_ascii true (by decide) (fun c wide => ?_) (fun b beyond => ?_)
  · refine bne_iff_ne.2 fun percent => wide ?_
    rw [percent]
    decide
  · refine bne_iff_ne.2 fun percent => ?_
    rw [percent] at beyond
    exact absurd beyond (by decide)

/-- Bytes tell the characters of ratios from others. -/
theorem agrees_ratio : Utf8.Agrees isRatioChar isRatioByte := by
  refine Utf8.agrees_of_ascii false (by decide) (fun c wide => ?_) (fun b beyond => ?_)
  · refine Bool.eq_false_iff.2 fun char => wide ?_
    rcases Bool.or_eq_true_iff.1 char with digit | point
    · exact Nat.le_trans (Char.isDigit_iff_toNat.1 digit).2 (by decide)
    · rw [eq_of_beq point]
      decide
  · unfold isRatioByte
    grind

/-- Bytes tell the mode letters from other characters. -/
theorem agrees_mode : Utf8.Agrees (fun c => (Rounding.ofLetter? c).isSome) isModeByte := by
  refine Utf8.agrees_of_ascii false (by decide) (fun c wide => ?_) (fun b beyond => ?_)
  · refine Bool.eq_false_iff.2 fun letter => wide ?_
    obtain ⟨mode, read⟩ := Option.isSome_iff_exists.1 letter
    rw [Part.letter_of_ofLetter? read]
    cases mode <;> decide
  · unfold isModeByte
    grind

/-! ### What is cut off -/

theorem encode_modeLetter (text : List Char) :
    (((Utf8.encode text).dropWhile isRatioByte).take 1).filter isModeByte =
      Utf8.encode (modeLetter text) := by
  rw [(Utf8.encode_span agrees_ratio text).2, modeLetter]
  cases text.dropWhile isRatioChar with
  | nil => rfl
  | cons c rest =>
    cases letter : Rounding.ofLetter? c with
    | none =>
      obtain ⟨b, tail, bytes, other⟩ := agrees_mode.outside c (by rw [letter]; rfl)
      rw [Utf8.encode_cons, bytes]
      simp [letter, other, Utf8.encode_nil]
    | some mode =>
      rw [Part.letter_of_ofLetter? letter]
      cases mode <;> rfl

theorem drop_encode {text front rest : List Char} (whole : text = front ++ rest) :
    (Utf8.encode text).drop (Utf8.encode front).length = Utf8.encode rest := by
  rw [whole, Utf8.encode_append, List.drop_left]

/-- In the bytes of a text, the cuts at a percent sign are those before and after the first one. -/
theorem mem_markerCuts {text : List Char} {more : Nat} :
    more ∈ markerCuts (Utf8.encode text) ↔
      more = (Utf8.encode (text.takeWhile isLiteral)).length ∨
        ∃ body, text = text.takeWhile isLiteral ++ '%' :: body ∧
          more = (Utf8.encode (text.takeWhile isLiteral ++ ['%'])).length := by
  have whole := (List.takeWhile_append_dropWhile (p := isLiteral) (l := text)).symm
  unfold markerCuts
  dsimp only
  rw [(Utf8.encode_span agrees_literal text).1, drop_encode whole, Utf8.encode_append]
  cases left : text.dropWhile isLiteral with
  | nil =>
    rw [left, List.append_nil] at whole
    rw [← whole]
    simp [Utf8.encode_nil]
  | cons c body =>
    have percent : c = '%' := by
      have stops := List.head?_dropWhile_not isLiteral text
      rw [left] at stops
      exact bne_eq_false_iff_eq.1 stops
    subst percent
    rw [left] at whole
    have follows : ∃ body, text = text.takeWhile isLiteral ++ '%' :: body := ⟨body, whole⟩
    rw [Utf8.encode_cons]
    simp only [exists_and_right, follows, true_and, List.length_append]
    exact List.mem_cons.trans (or_congr_right List.mem_singleton)

/-- In the bytes of a text, the cuts of a directive are those after its digits and points, after its
longest cost function, and after the character that follows. -/
theorem mem_directiveCuts {text : List Char} {more : Nat} :
    more ∈ directiveCuts (Utf8.encode text) ↔
      more = (Utf8.encode (text.takeWhile isRatioChar)).length ∨
        more = (Utf8.encode (costPrefix text)).length ∨
        ∃ v rest, text = costPrefix text ++ v :: rest ∧
          more = (Utf8.encode (costPrefix text ++ [v])).length := by
  obtain ⟨-, after, -, whole⟩ := exists_readMode text
  unfold directiveCuts
  dsimp only
  rw [(Utf8.encode_span agrees_ratio text).1, encode_modeLetter, ← List.length_append,
    ← Utf8.encode_append, ← costPrefix, drop_encode whole]
  cases after with
  | nil =>
    have nothing : ¬ ∃ v rest, text = costPrefix text ++ v :: rest ∧
        more = (Utf8.encode (costPrefix text ++ [v])).length := by
      rintro ⟨v, rest, follows, -⟩
      cases List.append_cancel_left (whole.symm.trans follows)
    simp only [Utf8.encode_nil, nothing, or_false, List.mem_cons, List.not_mem_nil]
  | cons v rest =>
    obtain ⟨lead, tail, bytes⟩ : ∃ lead tail, Utf8.encode (v :: rest) = lead :: tail :=
      List.exists_cons_of_ne_nil (Utf8.encode_cons_ne_nil v rest)
    have length : (Utf8.encode (costPrefix text ++ [v])).length =
        (Utf8.encode (costPrefix text)).length + (1 + (tail.takeWhile Utf8.isContinuation).length) := by
      rw [Utf8.encode_append, List.length_append, Utf8.encode_tail bytes]
    have follows : (∃ v rest, text = costPrefix text ++ v :: rest ∧
          more = (Utf8.encode (costPrefix text ++ [v])).length) ↔
        more = (Utf8.encode (costPrefix text ++ [v])).length := by
      constructor
      · rintro ⟨v', rest', follows, found⟩
        cases List.append_cancel_left (whole.symm.trans follows)
        exact found
      · exact fun found => ⟨v, rest, whole, found⟩
    rw [follows, bytes, length]
    simp only [List.mem_cons, List.not_mem_nil, or_false]

/-! ### Cuts are boundaries -/

/-- Scans of the bytes cut a text between characters. -/
theorem isBoundary_of_cut {text : List Char} {offset : Nat} (cut : Cut (Utf8.encode text) offset) :
    Text.IsBoundary text offset := by
  induction cut with
  | start => exact Text.isBoundary_of_append [] text
  | @marker offset more _ found ih =>
    obtain ⟨front, rest, rfl, rfl, bytes⟩ := ih.exists_drop
    rw [bytes] at found
    refine Text.IsBoundary.add ?_
    rcases mem_markerCuts.1 found with rfl | ⟨body, whole, rfl⟩
    · exact ⟨_, _, List.takeWhile_append_dropWhile.symm, rfl⟩
    · exact ⟨_, body, whole.trans (List.append_cons _ _ _), rfl⟩
  | @directive offset more _ found ih =>
    obtain ⟨front, rest, rfl, rfl, bytes⟩ := ih.exists_drop
    rw [bytes] at found
    refine Text.IsBoundary.add ?_
    rcases mem_directiveCuts.1 found with rfl | rfl | ⟨v, after, whole, rfl⟩
    · exact ⟨_, _, List.takeWhile_append_dropWhile.symm, rfl⟩
    · obtain ⟨-, after, -, whole⟩ := exists_readMode rest
      exact ⟨_, after, whole, rfl⟩
    · exact ⟨_, after, whole.trans (List.append_cons _ _ _), rfl⟩

/-! ### The parts of a text end at cuts -/

theorem costPrefix_list (ratio : Option Ratio) (mode : Option Rounding) (verb : ListVerb)
    (rest : List Char) :
    costPrefix (Part.ratioText ratio ++ (Part.modeText mode ++ verb.letter :: rest)) =
      Part.ratioText ratio ++ Part.modeText mode := by
  have chars : ∀ c ∈ Part.ratioText ratio, isRatioChar c = true := by
    cases ratio with
    | none => exact nofun
    | some ratio => exact ratio.chars
  obtain ⟨run, after⟩ := span_append chars (Part.tail_stops mode verb rest)
  rw [costPrefix, modeLetter, run, after]
  cases mode with
  | none => cases verb <;> rfl
  | some mode => cases mode <;> rfl

/-- The body of a directive is a cost function, which may be left out, and one more character. -/
theorem exists_costPrefix {p : Part} (directive : p.isLiteral = false) (rest : List Char) :
    ∃ v, p.body = costPrefix (p.body ++ rest) ++ [v] := by
  cases p with
  | literal l => cases directive
  | list ratio mode verb =>
    have spelled : (Part.list ratio mode verb).body ++ rest =
        Part.ratioText ratio ++ (Part.modeText mode ++ verb.letter :: rest) := by
      rw [Part.body, List.append_assoc, List.append_assoc, List.singleton_append]
    rw [spelled, costPrefix_list]
    exact ⟨verb.letter, (List.append_assoc _ _ _).symm⟩
  | percent => exact ⟨'%', rfl⟩
  | nodeCount => exact ⟨'n', rfl⟩
  | edgeCount => exact ⟨'m', rfl⟩
  | adjacencyMatrix => exact ⟨'a', rfl⟩

theorem drop_add_encode {bytes : Bytes} {offset : Nat} {front rest : List Char}
    (here : bytes.drop offset = Utf8.encode (front ++ rest)) :
    bytes.drop (offset + (Utf8.encode front).length) = Utf8.encode rest := by
  rw [← List.drop_drop, here, drop_encode rfl]

namespace Cut

variable {bytes : Bytes} {offset : Nat} {body : List Char}

/-- A percent sign ends in a cut. -/
theorem percent (cut : Cut bytes offset) (here : bytes.drop offset = Utf8.encode ('%' :: body)) :
    Cut bytes (offset + (Utf8.encode ['%']).length) := by
  refine .marker cut ?_
  rw [here]
  exact mem_markerCuts.2 (.inr ⟨body, rfl, rfl⟩)

/-- A run that is copied ends in a cut. -/
theorem run (cut : Cut bytes offset) {run rest : List Char}
    (here : bytes.drop offset = Utf8.encode (run ++ rest)) (plain : ∀ c ∈ run, isLiteral c = true)
    (stops : ∀ c, rest.head? = some c → isLiteral c = false) :
    Cut bytes (offset + (Utf8.encode run).length) := by
  refine .marker cut ?_
  rw [here]
  exact mem_markerCuts.2 (.inl (by rw [(span_append plain stops).1]))

/-- A directive ends in a cut. -/
theorem part (cut : Cut bytes offset) {p : Part} (directive : p.isLiteral = false)
    {rest : List Char} (here : bytes.drop offset = Utf8.encode (p.body ++ rest)) :
    Cut bytes (offset + (Utf8.encode p.body).length) := by
  refine .directive cut ?_
  rw [here]
  obtain ⟨v, spelled⟩ := exists_costPrefix directive rest
  have whole : p.body ++ rest = costPrefix (p.body ++ rest) ++ v :: rest :=
    (congrArg (· ++ rest) spelled).trans (List.append_cons _ _ _).symm
  exact mem_directiveCuts.2 (.inr (.inr ⟨v, rest, whole, by rw [← spelled]⟩))

/-- A run that is copied stops at the percent sign behind it, if not before. -/
theorem stops_at_percent (rest body : List Char) :
    ∀ c, (rest.dropWhile isLiteral ++ '%' :: body).head? = some c → isLiteral c = false := by
  intro c head
  have stop := List.head?_dropWhile_not isLiteral rest
  cases left : rest.dropWhile isLiteral with
  | nil =>
    rw [left] at head
    cases head
    rfl
  | cons first others =>
    rw [left] at head stop
    cases head
    exact stop

/-- What has directives ends in a cut, where a percent sign follows. The recursion is that of reading
directives; each part moves the offset on by its bytes. -/
theorem front {front : List Char} {ds : List Directive} (cut : Cut bytes offset)
    (here : bytes.drop offset = Utf8.encode (front ++ '%' :: body))
    (read : directivesOf front = .ok ds) : Cut bytes (offset + (Utf8.encode front).length) := by
  have moved (offset : Nat) (first second : List Char) :
      offset + (Utf8.encode (first ++ second)).length =
        offset + (Utf8.encode first).length + (Utf8.encode second).length := by
    rw [Utf8.encode_append, List.length_append, Nat.add_assoc]
  fun_induction directivesOf front generalizing offset ds with
  | case1 => exact cut
  | case2 => cases read
  | case3 inner d rest first _ ih =>
    cases later : directivesOf rest with
    | error e =>
      rw [later] at read
      cases read
    | ok others =>
      obtain ⟨p, directive, rfl, rfl⟩ := Part.exists_of_read first
      -- Two cuts: after the percent sign, and after what it starts.
      have atSign : bytes.drop offset =
          Utf8.encode (['%'] ++ (p.body ++ (rest ++ '%' :: body))) :=
        here.trans (congrArg (fun text => Utf8.encode ('%' :: text)) (List.append_assoc _ _ _))
      have atBody := drop_add_encode atSign
      have ends := ih ((cut.percent here).part directive atBody) (drop_add_encode atBody) later
      rw [← moved, ← moved] at ends
      exact ends
  | case4 c rest unmarked _ ih =>
    cases later : directivesOf (rest.dropWhile isLiteral) with
    | error e =>
      rw [later] at read
      cases read
    | ok others =>
      have plain : ∀ b ∈ c :: rest.takeWhile isLiteral, isLiteral b = true :=
        List.forall_mem_cons.2 ⟨bne_iff_ne.2 unmarked, List.all_eq_true.1 List.all_takeWhile⟩
      have whole : c :: rest = c :: rest.takeWhile isLiteral ++ rest.dropWhile isLiteral := by
        rw [List.cons_append, List.takeWhile_append_dropWhile]
      rw [whole, List.append_assoc] at here
      have ends := ih (cut.run here plain (stops_at_percent rest body)) (drop_add_encode here) later
      rw [← moved, ← whole] at ends
      exact ends

end Cut

/-! ## Compiling -/

/-- A text that does not compile is at fault in exactly one place, and the error is that of the
place; a text that is at fault does not compile. The bytes of a text are only ever cut between
characters, and among these cuts are those before and after the percent sign at fault. -/
theorem compile_faultAt (source : String) :
    (∀ e, compile source = .error e → e ≠ .empty →
      ∃ front body, FaultAt source.toList front body e ∧
        ∀ front' body' e', FaultAt source.toList front' body' e' →
          front' = front ∧ body' = body ∧ e' = e) ∧
    (∀ front body e, FaultAt source.toList front body e →
      compile source = .error e ∧ Cut (Utf8.encode source.toList) (Utf8.encode front).length ∧
        Cut (Utf8.encode source.toList) (Utf8.encode (front ++ ['%'])).length) ∧
    ∀ offset, Cut (Utf8.encode source.toList) offset → Text.IsBoundary source.toList offset := by
  refine ⟨fun e failed other => ?_, fun front body e at_ => ?_, fun offset => isBoundary_of_cut⟩
  · have filled := ne_of_compile failed (fun same => other (Except.error.inj same))
    obtain ⟨front, body, ds, split, read, unread⟩ := exists_fault (error_of_compile filled failed)
    have at_ : FaultAt source.toList front body e :=
      ⟨split, exists_directivesOf_iff.1 ⟨ds, read⟩, Directive.faulty_of_read unread⟩
    exact ⟨front, body, at_, fun _ _ _ => at_.unique⟩
  · have filled : source ≠ "" := by
      rintro rfl
      cases front <;> cases at_.split
    obtain ⟨ds, read⟩ := exists_directivesOf_iff.2 at_.before
    have here : (Utf8.encode source.toList).drop 0 = Utf8.encode (front ++ '%' :: body) := by
      rw [List.drop_zero, at_.split]
    have atFront := Cut.start.front here read
    have atSign := atFront.percent (drop_add_encode here)
    rw [Nat.zero_add] at atFront atSign
    rw [← List.length_append, ← Utf8.encode_append] at atSign
    refine ⟨?_, atFront, atSign⟩
    rw [compile_of_ne filled, at_.directivesOf_eq]
    rfl

/-- A verb of two bytes after a cost function, behind a template that ends in a percent sign. -/
theorem compile_faultAt_wideVerb :
    compile "é%%%2é!" = .error (.invalidVerb ['%', '2', 'é'] 'é') ∧
      FaultAt "é%%%2é!".toList ['é', '%', '%'] ['2', 'é', '!'] (.invalidVerb ['%', '2', 'é'] 'é') ∧
      Cut (Utf8.encode "é%%%2é!".toList) 5 := by
  have template : compile (String.ofList ['é', '%', '%']) =
      .ok ⟨"é%%", [.text ['é'], .text ['%']]⟩ := by decide +kernel
  have at_ : FaultAt "é%%%2é!".toList ['é', '%', '%'] ['2', 'é', '!']
      (.invalidVerb ['%', '2', 'é'] 'é') :=
    ⟨rfl, .inr ⟨_, template⟩, Directive.faulty_of_read (by decide +kernel)⟩
  obtain ⟨failed, -, cut⟩ := (compile_faultAt "é%%%2é!").2.1 _ _ _ at_
  exact ⟨failed, at_, cut⟩

end Template
end GraphScribe
