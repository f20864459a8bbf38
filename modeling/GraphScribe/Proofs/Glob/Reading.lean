import GraphScribe.Glob
import GraphScribe.Inputs

/-!
# How patterns are read

A pattern is read part by part, each one from a text of its own, and what is read is kept in the
braces that are open. `ReadStep` says what one step does and `Reads` what a whole reading comes to;
what holds of every step is carried through the reading by induction.

* `reads_of_readFrom`: a reading that succeeds is a run of such steps.
* `readFrom_front`: a front without wildcards is read as the text that it stands for.
-/

namespace GraphScribe

namespace Glob

/-! ## Classes -/

/-- A slash is written in a class. -/
def WritesSlash (ranges : List (Char × Char)) : Prop :=
  ∃ range ∈ ranges, range.1 = '/' ∨ range.2 = '/'

theorem writesSlash_cons {range : Char × Char} {ranges : List (Char × Char)} :
    WritesSlash (range :: ranges) ↔ (range.1 = '/' ∨ range.2 = '/') ∨ WritesSlash ranges := by
  simp [WritesSlash]

theorem not_writesSlash_nil : ¬ WritesSlash [] := by
  simp [WritesSlash]

/-- A slash that is written in the ranges stands in their text. -/
theorem readRanges_split {ranges ranges' : List (Char × Char)} {dash : Bool}
    {text rest : List Char} (read : readRanges ranges dash text = .ok (ranges', rest)) :
    ∃ used, text = used ++ rest ∧ (WritesSlash ranges' → WritesSlash ranges ∨ '/' ∈ used) := by
  fun_induction readRanges ranges dash text with
  | case1 => cases read
  | case2 dash c rest ih =>
    obtain ⟨used, rfl, written⟩ := ih read
    refine ⟨c :: used, rfl, fun writes => ?_⟩
    rcases written writes with here | later
    · grind [writesSlash_cons]
    · exact .inr (List.mem_cons_of_mem c later)
  | case3 dash rest low high others =>
    cases read
    refine ⟨[']'], rfl, ?_⟩
    rintro ⟨range, listed, slash⟩
    grind [WritesSlash]
  | case4 => cases read
  | case5 c rest low high others _ _ ih =>
    obtain ⟨used, rfl, written⟩ := ih read
    refine ⟨c :: used, rfl, fun writes => ?_⟩
    rcases written writes with here | later
    · grind [writesSlash_cons]
    · exact .inr (List.mem_cons_of_mem c later)
  | case6 dash rest low high others _ _ ih =>
    obtain ⟨used, rfl, written⟩ := ih read
    exact ⟨'-' :: used, rfl, fun writes => (written writes).imp_right (List.mem_cons_of_mem _)⟩
  | case7 dash c rest low high others _ _ _ ih =>
    obtain ⟨used, rfl, written⟩ := ih read
    refine ⟨c :: used, rfl, fun writes => ?_⟩
    rcases written writes with here | later
    · grind [writesSlash_cons]
    · exact .inr (List.mem_cons_of_mem c later)

/-! ## Steps -/

/-- A part of a pattern that is neither braces nor directories, with its text. -/
inductive Part : GlobToken → List Char → Prop
  | any : Part .any ['?']
  | star : Part .star ['*']
  | oneOf {negated : Bool} {ranges : List (Char × Char)} {text : List Char} :
    (WritesSlash ranges → '/' ∈ text) → Part (.oneOf negated ranges) ('[' :: text)
  | literal (c : Char) : Part (.literal c) [c]
  | escaped (c : Char) : Part (.literal c) ['\\', c]

theorem readClass_split {text rest : List Char} {token : GlobToken}
    (read : readClass text = .ok (token, rest)) :
    ∃ used, text = used ++ rest ∧ Part token ('[' :: used) := by
  have ranged {negated : Bool} {text : List Char}
      (read : (readRanges [] false text).map (fun found =>
        (GlobToken.oneOf negated found.1, found.2)) = .ok (token, rest)) :
      ∃ used ranges, text = used ++ rest ∧ token = .oneOf negated ranges ∧
        (WritesSlash ranges → '/' ∈ used) := by
    rcases found : readRanges [] false text with e | ⟨ranges, left⟩
    · rw [found] at read
      cases read
    · rw [found] at read
      cases read
      obtain ⟨used, same, written⟩ := readRanges_split found
      exact ⟨used, ranges, same, rfl, fun writes =>
        (written writes).resolve_left not_writesSlash_nil⟩
  unfold readClass at read
  split at read
  · obtain ⟨used, ranges, rfl, rfl, written⟩ := ranged read
    exact ⟨'!' :: used, rfl, .oneOf fun writes => List.mem_cons_of_mem _ (written writes)⟩
  · obtain ⟨used, ranges, rfl, rfl, written⟩ := ranged read
    exact ⟨'^' :: used, rfl, .oneOf fun writes => List.mem_cons_of_mem _ (written writes)⟩
  · obtain ⟨used, ranges, rfl, rfl, written⟩ := ranged read
    exact ⟨used, rfl, .oneOf written⟩

/-- What two stars make of a branch, whose last part comes first: one star more, directories at the
front, or directories in place of the slash before the stars. -/
inductive StarsRead : List GlobToken → List GlobToken → Prop
  | star (current : List GlobToken) : StarsRead current (.star :: current)
  | leading : StarsRead [] [.leading]
  | again (earlier : List GlobToken) : StarsRead (.leading :: earlier) (.leading :: earlier)
  | between {last : GlobToken} (earlier : List GlobToken) :
    last ≠ .leading → StarsRead (last :: earlier) (.between :: earlier)
  | trailing {last : GlobToken} (earlier : List GlobToken) :
    last ≠ .leading → StarsRead (last :: earlier) (.trailing :: earlier)

theorem readStars_split (inBraces : Bool) (before : Option Char) (current : List GlobToken)
    (rest : List Char) :
    ∃ used, (used = [] ∨ used = ['/']) ∧
      rest = used ++ (readStars inBraces before current rest).2 ∧
      StarsRead current (readStars inBraces before current rest).1 := by
  rcases current with _ | ⟨last, earlier⟩
  · rcases rest with _ | ⟨c, rest⟩
    · exact ⟨[], .inl rfl, rfl, .leading⟩
    · by_cases slash : c = '/'
      · subst slash
        exact ⟨['/'], .inr rfl, rfl, .leading⟩
      · refine ⟨[], .inl rfl, ?_, ?_⟩ <;> simp [readStars, slash, StarsRead.star]
  · have trailing : StarsRead (last :: earlier)
        (readStars inBraces (some '/') (last :: earlier) []).1 := by
      simp only [readStars, beq_self_eq_true, Bool.true_or, ↓reduceIte]
      split
      · exact .again earlier
      · next notLeading => exact .trailing earlier notLeading
    have between : StarsRead (last :: earlier)
        (readStars inBraces (some '/') (last :: earlier) ['/']).1 := by
      simp only [readStars, beq_self_eq_true, Bool.true_or, ↓reduceIte]
      split
      · exact .again earlier
      · next notLeading => exact .between earlier notLeading
    have star : StarsRead (last :: earlier) (.star :: last :: earlier) := .star _
    simp only [readStars]
    split
    · split
      · exact ⟨[], .inl rfl, rfl, trailing⟩
      · exact ⟨['/'], .inr rfl, rfl, between⟩
      · refine ⟨[], .inl rfl, rfl, ?_⟩
        split
        · exact trailing
        · exact star
      · refine ⟨[], .inl rfl, rfl, ?_⟩
        split
        · exact trailing
        · exact star
      · exact ⟨[], .inl rfl, rfl, star⟩
    · exact ⟨[], .inl rfl, rfl, star⟩

/-- One step of reading: what is read, and the open braces before and after it. -/
inductive ReadStep : List Group → Group → List Char → List Group → Group → Prop
  | part {outer : List Group} {group : Group} {token : GlobToken} {text : List Char} :
    Part token text → ReadStep outer group text outer (group.push token)
  | stars {outer : List Group} {group : Group} {current : List GlobToken} {used : List Char} :
    used = [] ∨ used = ['/'] → StarsRead group.current current →
    ReadStep outer group ('*' :: '*' :: used) outer { group with current }
  | openBrace {outer : List Group} {group : Group} :
    ReadStep outer group ['\x7b'] (group :: outer) {}
  | closeBrace {outer : List Group} {around group : Group} :
    ReadStep (around :: outer) group ['\x7d'] outer (around.push group.close)
  | nextBranch {outer : List Group} {group : Group} :
    outer ≠ [] → ReadStep outer group [','] outer group.endBranch

/-- A reading of a text, from the braces that are open to the whole pattern. -/
inductive Reads : List Group → Group → List Char → Glob → Prop
  | done (group : Group) : Reads [] group [] group.current.reverse
  | step {outer outer' : List Group} {group group' : Group} {text rest : List Char} {glob : Glob} :
    ReadStep outer group text outer' group' → Reads outer' group' rest glob →
    Reads outer group (text ++ rest) glob

/-- A reading that succeeds goes step by step. -/
theorem reads_of_readFrom {outer : List Group} {group : Group} {before : Option Char}
    {text : List Char} {glob : Glob} (read : readFrom outer group before text = .ok glob) :
    Reads outer group text glob := by
  fun_induction readFrom outer group before text with
  | case1 outer group before empty =>
    cases read
    rw [List.isEmpty_iff.1 empty]
    exact .done group
  | case2 => cases read
  | case3 outer group before rest ih => exact .step (.part .any) (ih read)
  | case4 outer group before rest after _ ih =>
    obtain ⟨used, slash, same, stars⟩ :=
      readStars_split (!outer.isEmpty) before group.current rest
    rw [same]
    exact .step (.stars slash stars) (ih read)
  | case5 outer group before rest _ ih => exact .step (.part .star) (ih read)
  | case6 => cases read
  | case7 outer group before rest token left found _ ih =>
    obtain ⟨used, rfl, part⟩ := readClass_split found
    exact .step (.part part) (ih read)
  | case8 outer group before rest ih => exact .step .openBrace (ih read)
  | case9 => cases read
  | case10 group before rest around outer ih => exact .step .closeBrace (ih read)
  | case11 outer group before rest _ ih => exact .step (.part (.literal ',')) (ih read)
  | case12 outer group before rest open' ih =>
    exact .step (.nextBranch fun none => open' (List.isEmpty_iff.2 none)) (ih read)
  | case13 => cases read
  | case14 outer group before c rest ih => exact .step (.part (.escaped c)) (ih read)
  | case15 outer group before c rest _ _ _ _ _ _ _ _ _ ih =>
    exact .step (.part (.literal c)) (ih read)

/-! ## The front of a pattern -/

/-- A part that stands for a slash and perhaps more behind it. -/
inductive TakesSlash : GlobToken → Prop
  | literal : TakesSlash (.literal '/')
  | between : TakesSlash .between
  | trailing : TakesSlash .trailing

/-- At the bottom of a branch, whose last part comes first, is a front with a slash after it. -/
def Keeps (front current : List GlobToken) : Prop :=
  ∃ above slash, TakesSlash slash ∧ current = above ++ slash :: front

theorem Keeps.cons {front current : List GlobToken} (keeps : Keeps front current)
    (token : GlobToken) : Keeps front (token :: current) := by
  obtain ⟨above, slash, takes, rfl⟩ := keeps
  exact ⟨token :: above, slash, takes, rfl⟩

/-- Two stars may take up the slash after the front, but only into directories that begin with
one. -/
theorem Keeps.stars {front current current' : List GlobToken} (keeps : Keeps front current)
    (stars : StarsRead current current') : Keeps front current' := by
  obtain ⟨above, slash, takes, same⟩ := keeps
  cases stars with
  | star _ => exact ⟨.star :: above, slash, takes, congrArg (GlobToken.star :: ·) same⟩
  | leading => simp at same
  | again earlier => exact ⟨above, slash, takes, same⟩
  | between earlier _ =>
    cases above with
    | nil => exact ⟨[], .between, .between, congrArg (GlobToken.between :: ·) (List.cons.inj same).2⟩
    | cons _ above =>
      exact ⟨.between :: above, slash, takes,
        congrArg (GlobToken.between :: ·) (List.cons.inj same).2⟩
  | trailing earlier _ =>
    cases above with
    | nil =>
      exact ⟨[], .trailing, .trailing, congrArg (GlobToken.trailing :: ·) (List.cons.inj same).2⟩
    | cons _ above =>
      exact ⟨.trailing :: above, slash, takes,
        congrArg (GlobToken.trailing :: ·) (List.cons.inj same).2⟩

/-- The braces around all others that are open. -/
def outermost : List Group → Group → Group
  | [], group => group
  | around :: outer, _ => outermost outer around

theorem Keeps.of_inside {front : List GlobToken} {outer : List Group} {group group' : Group}
    (keeps : Keeps front (outermost outer group).current)
    (inside : Keeps front group.current → Keeps front group'.current) :
    Keeps front (outermost outer group').current := by
  cases outer with
  | nil => exact inside keeps
  | cons around outer => exact keeps

/-- A step keeps the front of the outermost braces. -/
theorem Keeps.step {front : List GlobToken} {outer outer' : List Group} {group group' : Group}
    {text : List Char} (keeps : Keeps front (outermost outer group).current)
    (step : ReadStep outer group text outer' group') :
    Keeps front (outermost outer' group').current := by
  cases step with
  | part _ => exact keeps.of_inside fun inside => inside.cons _
  | stars _ stars => exact keeps.of_inside fun inside => inside.stars stars
  | openBrace => exact keeps
  | @closeBrace outer around group =>
    have above : Keeps front (outermost outer' around).current := keeps
    exact above.of_inside fun inside => inside.cons _
  | nextBranch inBraces =>
    cases outer with
    | nil => exact absurd rfl inBraces
    | cons around outer => exact keeps

/-- A whole reading keeps the front. -/
theorem Reads.keeps {front : List GlobToken} {outer : List Group} {group : Group}
    {text : List Char} {glob : Glob} (reads : Reads outer group text glob)
    (keeps : Keeps front (outermost outer group).current) :
    ∃ slash rest, TakesSlash slash ∧ glob = front.reverse ++ slash :: rest := by
  induction reads with
  | done group =>
    obtain ⟨above, slash, takes, same⟩ := keeps
    exact ⟨slash, above.reverse, takes, by simp [show group.current = _ from same]⟩
  | step step _ ih => exact ih (keeps.step step)

/-- The character may be more than itself in a pattern, other than by a backslash. -/
def isWildcard (c : Char) : Bool := c == '*' || c == '?' || c == '[' || c == '\x7b'

/-- The text that a pattern without wildcards stands for. -/
def unescape : List Char → List Char
  | '\\' :: c :: rest => c :: unescape rest
  | c :: rest => c :: unescape rest
  | [] => []

theorem unescape_cons {c : Char} (rest : List Char) (plain : c ≠ '\\') :
    unescape (c :: rest) = c :: unescape rest :=
  unescape.eq_2 c rest (by simp [plain])

theorem count_unescape (text : List Char) : (unescape text).count '/' = text.count '/' := by
  induction text using unescape.induct with
  | case1 c rest ih => simp [unescape, List.count_cons, ih]
  | case2 c rest alone ih => rw [unescape.eq_2 c rest alone, List.count_cons, List.count_cons, ih]
  | case3 => rfl

theorem length_unescape_le (text : List Char) : (unescape text).length ≤ text.length := by
  induction text using unescape.induct with
  | case1 c rest ih =>
    simp only [unescape, List.length_cons]
    omega
  | case2 c rest alone ih =>
    rw [unescape.eq_2 c rest alone]
    exact Nat.succ_le_succ ih
  | case3 => exact Nat.le_refl _

theorem unescape_of_not_mem {text : List Char} (free : '\\' ∉ text) : unescape text = text := by
  induction text with
  | nil => rfl
  | cons c text ih =>
    rw [List.mem_cons, not_or] at free
    rw [unescape_cons _ (Ne.symm free.1), ih free.2]

/-- A backslash with a character behind it is left out. -/
theorem length_unescape_lt {text : List Char} (last : Char) (held : '\\' ∈ text) :
    (unescape (text ++ [last])).length < (text ++ [last]).length := by
  induction text with
  | nil => cases held
  | cons c text ih =>
    by_cases escapes : c = '\\'
    · subst escapes
      obtain ⟨d, rest, same⟩ : ∃ d rest, text ++ [last] = d :: rest :=
        List.exists_cons_of_ne_nil (by simp)
      have short := length_unescape_le rest
      rw [List.cons_append, same]
      simp only [unescape, List.length_cons]
      omega
    · have later := ih ((List.mem_cons.1 held).resolve_left (Ne.symm escapes))
      rw [List.cons_append, unescape_cons _ escapes]
      exact Nat.succ_lt_succ later

/-- A character without a meaning stands for itself. -/
theorem readFrom_cons {group : Group} {before : Option Char} {c : Char} {rest : List Char}
    {glob : Glob} (plain : isWildcard c = false) (unescaped : c ≠ '\\')
    (read : readFrom [] group before (c :: rest) = .ok glob) :
    readFrom [] (group.push (.literal c)) (some c) rest = .ok glob := by
  simp only [isWildcard, Bool.or_eq_false_iff, beq_eq_false_iff_ne] at plain
  obtain ⟨⟨⟨notStar, notAny⟩, notClass⟩, notBrace⟩ := plain
  by_cases closes : c = '\x7d'
  · subst closes
    rw [readFrom] at read
    cases read
  by_cases comma : c = ','
  · subst comma
    rwa [readFrom] at read
  · rwa [readFrom.eq_12] at read <;> simp [*]

/-- A front without wildcards, up to a slash, is read as the text that it stands for. -/
theorem readFrom_front {front rest : List Char} {group : Group} {before : Option Char} {glob : Glob}
    (plain : ∀ c ∈ front, isWildcard c = false)
    (read : readFrom [] group before (front ++ '/' :: rest) = .ok glob) :
    ∃ shown, unescape (front ++ ['/']) = shown ++ ['/'] ∧
      readFrom [] { group with
        current := .literal '/' :: ((shown.map .literal).reverse ++ group.current) } (some '/') rest
        = .ok glob := by
  induction front using unescape.induct generalizing group before with
  | case1 c front ih =>
    rw [List.cons_append, List.cons_append, readFrom] at read
    obtain ⟨shown, same, read'⟩ := ih (fun d isFront => plain d (by simp [isFront])) read
    refine ⟨c :: shown, by rw [List.cons_append, List.cons_append, unescape, same]; rfl, ?_⟩
    simpa [Group.push] using read'
  | case2 c front alone ih =>
    have others : ∀ d ∈ front, isWildcard d = false := fun d isFront => plain d (by simp [isFront])
    by_cases escapes : c = '\\'
    · subst escapes
      cases front with
      | cons d front => exact (alone d front rfl rfl).elim
      | nil =>
        rw [List.cons_append, List.nil_append, readFrom] at read
        exact ⟨[], rfl, read⟩
    · obtain ⟨shown, same, read'⟩ := ih others (readFrom_cons (plain c (by simp)) escapes read)
      refine ⟨c :: shown, by rw [List.cons_append, unescape_cons _ escapes, same]; rfl, ?_⟩
      simpa [Group.push] using read'
  | case3 =>
    exact ⟨[], rfl, readFrom_cons (by decide) (by decide) read⟩

end Glob
end GraphScribe
