import GraphScribe.Proofs.Glob.Reading
import GraphScribe.Proofs.Text.Boundaries
import Mathlib.Algebra.GroupWithZero.Nat

/-!
# What patterns stand for

The text before the first wildcard stands at the front of every text that a pattern accepts. And a
pattern without directories of any number, in which every class that stands for a slash has one
written in it, accepts no text with more slashes than its own.

* `accepts_front`, `front_of_read`: the front of a pattern is the front of what it accepts.
* `accepts_slashes`, `slashesAll_le_of_reads`, `count_le_of_read`: the slashes of what is accepted
  are counted by the parts of the pattern, and these by its text.
-/

namespace GraphScribe

namespace Glob

/-! ## Parts -/

/-- A part stands in a pattern, perhaps between braces. -/
inductive Occurs (token : GlobToken) : Glob → Prop
  | part {glob : Glob} : token ∈ glob → Occurs token glob
  | branch {glob branch : Glob} {branches : List Glob} :
    .choice branches ∈ glob → branch ∈ branches → Occurs token branch → Occurs token glob

theorem Occurs.mono {token : GlobToken} {glob glob' : Glob} (occurs : Occurs token glob)
    (within : ∀ part ∈ glob, part ∈ glob') : Occurs token glob' := by
  cases occurs with
  | part held => exact .part (within _ held)
  | branch held isBranch inside => exact .branch (within _ held) isBranch inside

theorem occurs_cons {token part : GlobToken} {glob : Glob} :
    Occurs token (part :: glob) ↔ Occurs token [part] ∨ Occurs token glob := by
  constructor
  · rintro (held | ⟨held, isBranch, inside⟩)
    · rcases List.mem_cons.1 held with rfl | held
      · exact .inl (.part List.mem_cons_self)
      · exact .inr (.part held)
    · rcases List.mem_cons.1 held with same | held
      · exact .inl (.branch (by simp [same]) isBranch inside)
      · exact .inr (.branch held isBranch inside)
  · rintro (occurs | occurs)
    · exact occurs.mono (by simp)
    · exact occurs.mono fun _ => List.mem_cons_of_mem _

theorem occurs_choice {token : GlobToken} {branches : List Glob} :
    Occurs token [.choice branches] ↔
      token = .choice branches ∨ ∃ branch ∈ branches, Occurs token branch := by
  constructor
  · rintro (held | ⟨held, isBranch, inside⟩)
    · exact .inl (List.mem_singleton.1 held)
    · cases List.mem_singleton.1 held
      exact .inr ⟨_, isBranch, inside⟩
  · rintro (rfl | ⟨branch, isBranch, inside⟩)
    · exact .part List.mem_cons_self
    · exact .branch List.mem_cons_self isBranch inside

/-! ## The front -/

theorem allAccept_literals {text : List Char} {tokens : List GlobToken} {rest : Bytes → Bool}
    {bytes : Bytes} (accepted : allAccept (text.map .literal ++ tokens) rest bytes = true) :
    ∃ left, bytes = Utf8.encode text ++ left ∧ allAccept tokens rest left = true := by
  induction text generalizing bytes with
  | nil => exact ⟨bytes, rfl, accepted⟩
  | cons c text ih =>
    simp only [List.map_cons, List.cons_append, allAccept, tokenAccepts, Bool.and_eq_true] at accepted
    obtain ⟨front, accepted⟩ := accepted
    obtain ⟨after, rfl⟩ := List.isPrefixOf_iff_prefix.1 front
    rw [List.drop_left] at accepted
    obtain ⟨left, rfl, behind⟩ := ih accepted
    exact ⟨left, by rw [← List.append_assoc, ← Utf8.encode_append]; rfl, behind⟩

theorem allAccept_slash {slash : GlobToken} {tokens : List GlobToken} {rest : Bytes → Bool}
    {bytes : Bytes} (takes : TakesSlash slash)
    (accepted : allAccept (slash :: tokens) rest bytes = true) : ∃ left, bytes = 0x2F :: left := by
  rw [allAccept] at accepted
  cases takes with
  | literal =>
    simp only [tokenAccepts, Bool.and_eq_true] at accepted
    obtain ⟨left, same⟩ := List.isPrefixOf_iff_prefix.1 accepted.1
    exact ⟨left, same.symm⟩
  | between =>
    cases bytes with
    | nil => cases accepted
    | cons b left =>
      simp only [tokenAccepts, Bool.and_eq_true, beq_iff_eq] at accepted
      exact ⟨left, by rw [accepted.1]⟩
  | trailing =>
    cases bytes with
    | nil => cases accepted
    | cons b left =>
      simp only [tokenAccepts, Bool.and_eq_true, beq_iff_eq] at accepted
      exact ⟨left, by rw [accepted.1]⟩

/-- The front of a pattern is the front of every text that it accepts. -/
theorem accepts_front {front text : List Char} {slash : GlobToken} {tokens : List GlobToken}
    (takes : TakesSlash slash)
    (accepted : accepts (front.map .literal ++ slash :: tokens) text = true) :
    ∃ behind, text = front ++ '/' :: behind := by
  have whole : allAccept (front.map .literal ++ slash :: tokens) List.isEmpty (Utf8.encode text) := by
    unfold accepts at accepted
    split at accepted
    · next leading =>
      cases front with
      | nil =>
        cases leading
        cases takes
      | cons c front => cases leading
    · exact accepted
  obtain ⟨left, bytes, behind⟩ := allAccept_literals whole
  obtain ⟨left, rfl⟩ := allAccept_slash takes behind
  have isPrefix : front ++ ['/'] <+: text := by
    have begins : Utf8.encode text = Utf8.encode (front ++ ['/']) ++ left := by
      rw [bytes, Utf8.encode_append, List.append_assoc]
      rfl
    exact Utf8.isPrefix_of_encode begins
  obtain ⟨behind, rfl⟩ := isPrefix
  exact ⟨behind, by simp⟩

/-! ## Slashes -/

mutual

/-- The largest number of slashes that a part stands for, but for directories and for classes that
do not show theirs. -/
def slashes : GlobToken → Nat
  | .literal c => if c = '/' then 1 else 0
  | .oneOf _ ranges => if ranges.any fun range => range.1 = '/' || range.2 = '/' then 1 else 0
  | .choice branches => slashesAny branches
  | _ => 0

/-- The same for parts one after the other. -/
def slashesAll : List GlobToken → Nat
  | [] => 0
  | token :: tokens => slashes token + slashesAll tokens

/-- The same for branches, together. -/
def slashesAny : List (List GlobToken) → Nat
  | [] => 0
  | branch :: branches => slashesAll branch + slashesAny branches

end

theorem writesSlash_iff {ranges : List (Char × Char)} :
    WritesSlash ranges ↔ (ranges.any fun range => range.1 = '/' || range.2 = '/') = true := by
  simp [WritesSlash]

/-- A part stands for no slash beyond those that are counted. -/
def Shows : GlobToken → Prop
  | .leading | .between | .trailing => False
  | .oneOf negated ranges => classHolds negated ranges 0x2F = true → WritesSlash ranges
  | _ => True

theorem mem_skipWithin {bytes left : Bytes} (held : left ∈ skipWithin bytes) :
    ∃ used, bytes = used ++ left ∧ used.count 0x2F = 0 := by
  induction bytes with
  | nil =>
    cases List.mem_singleton.1 held
    exact ⟨[], rfl, rfl⟩
  | cons b rest ih =>
    rcases List.mem_cons.1 held with rfl | held
    · exact ⟨[], rfl, rfl⟩
    · split at held
      · cases held
      · next notSlash =>
        obtain ⟨used, rfl, none⟩ := ih held
        exact ⟨b :: used, rfl, by rw [List.count_cons_of_ne notSlash, none]⟩

mutual

theorem tokenAccepts_slashes (token : GlobToken) {rest : Bytes → Bool} {bytes : Bytes}
    (shown : ∀ part, Occurs part [token] → Shows part)
    (accepted : tokenAccepts token rest bytes = true) :
    ∃ used left, bytes = used ++ left ∧ rest left = true ∧ used.count 0x2F ≤ slashes token := by
  have here : Shows token := shown token (.part List.mem_cons_self)
  cases token with
  | literal c =>
    simp only [tokenAccepts, Bool.and_eq_true] at accepted
    obtain ⟨left, rfl⟩ := List.isPrefixOf_iff_prefix.1 accepted.1
    rw [List.drop_left] at accepted
    refine ⟨_, left, rfl, accepted.2, ?_⟩
    have counted : (Utf8.encode [c]).count 0x2F = [c].count '/' :=
      Utf8.count_encode (c := '/') (by decide) [c]
    rw [counted, slashes]
    by_cases slash : c = '/' <;> simp [slash]
  | any =>
    cases bytes with
    | nil => cases accepted
    | cons b left =>
      simp only [tokenAccepts, Bool.and_eq_true, bne_iff_ne] at accepted
      exact ⟨[b], left, rfl, accepted.2, by simp [accepted.1]⟩
  | star =>
    rw [tokenAccepts] at accepted
    obtain ⟨left, held, goesOn⟩ := List.any_eq_true.1 accepted
    obtain ⟨used, rfl, none⟩ := mem_skipWithin held
    exact ⟨used, left, rfl, goesOn, Nat.le_of_eq none⟩
  | oneOf negated ranges =>
    cases bytes with
    | nil => cases accepted
    | cons b left =>
      simp only [tokenAccepts, Bool.and_eq_true] at accepted
      refine ⟨[b], left, rfl, accepted.2, ?_⟩
      by_cases slash : b = 0x2F
      · subst slash
        simp [slashes, writesSlash_iff.1 (here accepted.1)]
      · simp [slash]
  | leading => exact here.elim
  | between => exact here.elim
  | trailing => exact here.elim
  | choice branches =>
    cases branches with
    | nil => exact ⟨[], bytes, rfl, by simpa [tokenAccepts] using accepted, Nat.zero_le _⟩
    | cons branch branches =>
      rw [tokenAccepts] at accepted
      exact anyAccepts_slashes (branch :: branches)
        (fun b held part occurs => shown part (occurs_choice.2 (.inr ⟨b, held, occurs⟩))) accepted

theorem allAccept_slashes (tokens : List GlobToken) {rest : Bytes → Bool} {bytes : Bytes}
    (shown : ∀ part, Occurs part tokens → Shows part)
    (accepted : allAccept tokens rest bytes = true) :
    ∃ used left, bytes = used ++ left ∧ rest left = true ∧
      used.count 0x2F ≤ slashesAll tokens := by
  cases tokens with
  | nil => exact ⟨[], bytes, rfl, accepted, Nat.zero_le _⟩
  | cons token tokens =>
    rw [allAccept] at accepted
    obtain ⟨used, middle, rfl, accepted, few⟩ :=
      tokenAccepts_slashes token (fun part held => shown part (occurs_cons.2 (.inl held))) accepted
    obtain ⟨used', left, rfl, accepted, few'⟩ :=
      allAccept_slashes tokens (fun part held => shown part (occurs_cons.2 (.inr held))) accepted
    refine ⟨used ++ used', left, by simp, accepted, ?_⟩
    rw [List.count_append, slashesAll]
    exact Nat.add_le_add few few'

theorem anyAccepts_slashes (branches : List (List GlobToken)) {rest : Bytes → Bool} {bytes : Bytes}
    (shown : ∀ branch ∈ branches, ∀ part, Occurs part branch → Shows part)
    (accepted : anyAccepts branches rest bytes = true) :
    ∃ used left, bytes = used ++ left ∧ rest left = true ∧
      used.count 0x2F ≤ slashesAny branches := by
  cases branches with
  | nil => cases accepted
  | cons branch branches =>
    rw [anyAccepts, Bool.or_eq_true] at accepted
    rw [slashesAny]
    rcases accepted with accepted | accepted
    · obtain ⟨used, left, rfl, accepted, few⟩ :=
        allAccept_slashes branch (shown branch List.mem_cons_self) accepted
      exact ⟨used, left, rfl, accepted, by omega⟩
    · obtain ⟨used, left, rfl, accepted, few⟩ :=
        anyAccepts_slashes branches (fun b held => shown b (List.mem_cons_of_mem _ held)) accepted
      exact ⟨used, left, rfl, accepted, by omega⟩

end

/-- A text that is accepted has no more slashes than the pattern. -/
theorem accepts_slashes {glob : Glob} {text : List Char}
    (shown : ∀ part, Occurs part glob → Shows part) (accepted : accepts glob text = true) :
    text.count '/' ≤ slashesAll glob := by
  have whole : allAccept glob List.isEmpty (Utf8.encode text) := by
    unfold accepts at accepted
    split at accepted
    · exact (shown _ (.part List.mem_cons_self)).elim
    · exact accepted
  obtain ⟨used, left, bytes, none, few⟩ := allAccept_slashes glob shown whole
  have counted : (Utf8.encode text).count 0x2F = text.count '/' :=
    Utf8.count_encode (c := '/') (by decide) text
  rw [List.isEmpty_iff.1 none, List.append_nil] at bytes
  rwa [← counted, bytes]

/-! ## Slashes of the text -/

theorem slashesAll_eq_sum (tokens : List GlobToken) :
    slashesAll tokens = (tokens.map slashes).sum := by
  induction tokens with
  | nil => rfl
  | cons token tokens ih => rw [slashesAll, ih, List.map_cons, List.sum_cons]

theorem slashesAny_eq_sum (branches : List (List GlobToken)) :
    slashesAny branches = (branches.map slashesAll).sum := by
  induction branches with
  | nil => rfl
  | cons branch branches ih => rw [slashesAny, ih, List.map_cons, List.sum_cons]

theorem slashesAll_reverse (tokens : List GlobToken) :
    slashesAll tokens.reverse = slashesAll tokens := by
  rw [slashesAll_eq_sum, slashesAll_eq_sum, List.map_reverse, List.sum_reverse]

theorem slashes_le_of_part {token : GlobToken} {text : List Char} (part : Part token text) :
    slashes token ≤ text.count '/' := by
  cases part with
  | any => exact Nat.zero_le _
  | star => exact Nat.zero_le _
  | oneOf written =>
    rw [slashes]
    split
    · next shows =>
      exact List.count_pos_iff.2 (List.mem_cons_of_mem _ (written (writesSlash_iff.2 shows)))
    · exact Nat.zero_le _
  | literal c => by_cases slash : c = '/' <;> simp [slashes, slash]
  | escaped c => by_cases slash : c = '/' <;> simp [slashes, slash]

/-- The slashes of braces that are open. -/
def Group.slashes (group : Group) : Nat :=
  slashesAll group.current + slashesAny group.branches

theorem Group.slashes_push (group : Group) (token : GlobToken) :
    (group.push token).slashes = Glob.slashes token + group.slashes := by
  rw [Group.slashes, Group.slashes, Group.push, slashesAll, Nat.add_assoc]

theorem Group.slashes_endBranch (group : Group) : group.endBranch.slashes = group.slashes := by
  rw [Group.slashes, Group.slashes, Group.endBranch, slashesAny, slashesAll_reverse, slashesAll,
    Nat.zero_add]

theorem slashesAny_filter_le (p : List GlobToken → Bool) (branches : List (List GlobToken)) :
    slashesAny (branches.filter p) ≤ slashesAny branches := by
  induction branches with
  | nil => exact Nat.le_refl _
  | cons branch branches ih =>
    rw [List.filter_cons]
    split <;> simp only [slashesAny] <;> omega

theorem Group.slashes_close_le (group : Group) : Glob.slashes group.close ≤ group.slashes := by
  have all : slashesAny group.endBranch.branches.reverse = group.endBranch.slashes := by
    rw [slashesAny_eq_sum, List.map_reverse, List.sum_reverse, ← slashesAny_eq_sum, Group.slashes]
    exact (Nat.zero_add _).symm
  rw [Group.close, Glob.slashes, ← group.slashes_endBranch, ← all]
  exact slashesAny_filter_le _ _

theorem hasTwoStars_of_append {text rest : List Char}
    (single : Inputs.hasTwoStars (text ++ rest) = false) : Inputs.hasTwoStars rest = false := by
  induction text with
  | nil => exact single
  | cons c text ih =>
    refine ih ?_
    rw [List.cons_append] at single
    unfold Inputs.hasTwoStars at single
    split at single
    · cases single
    · next same =>
      cases same
      exact single
    · next same => cases same

/-- The slashes of all braces that are open. -/
def slashesOpen (outer : List Group) (group : Group) : Nat :=
  group.slashes + (outer.map Group.slashes).sum

/-- A step reads no more slashes than its text has, unless it reads two stars. -/
theorem slashesOpen_step {outer outer' : List Group} {group group' : Group} {text rest : List Char}
    (single : Inputs.hasTwoStars (text ++ rest) = false)
    (step : ReadStep outer group text outer' group') :
    slashesOpen outer' group' ≤ slashesOpen outer group + text.count '/' := by
  cases step with
  | part part =>
    have few := slashes_le_of_part part
    rw [slashesOpen, slashesOpen, Group.slashes_push]
    omega
  | stars _ _ => cases single
  | openBrace =>
    have none : Group.slashes {} = 0 := rfl
    simp [slashesOpen, none]
  | @closeBrace outer around group =>
    have few := group.slashes_close_le
    simp only [slashesOpen, Group.slashes_push, List.map_cons, List.sum_cons]
    omega
  | nextBranch _ => simp [slashesOpen, Group.slashes_endBranch]

theorem slashesAll_le_of_reads {outer : List Group} {group : Group} {text : List Char}
    {glob : Glob} (single : Inputs.hasTwoStars text = false) (reads : Reads outer group text glob) :
    slashesAll glob ≤ slashesOpen outer group + text.count '/' := by
  induction reads with
  | done group =>
    rw [slashesAll_reverse, slashesOpen, Group.slashes]
    omega
  | step step _ ih =>
    have few := slashesOpen_step single step
    have later := ih (hasTwoStars_of_append single)
    rw [List.count_append]
    omega

/-! ## Directories -/

/-- No part of a pattern stands for directories. -/
def IsFlat (glob : Glob) : Prop :=
  ∀ part, Occurs part glob → part ≠ .leading ∧ part ≠ .between ∧ part ≠ .trailing

theorem isFlat_nil : IsFlat [] := by
  rintro part (held | ⟨held, -, -⟩) <;> cases held

theorem IsFlat.cons {token : GlobToken} {glob : Glob} (first : IsFlat [token]) (flat : IsFlat glob) :
    IsFlat (token :: glob) :=
  fun part occurs => (occurs_cons.1 occurs).elim (first part) (flat part)

theorem IsFlat.reverse {glob : Glob} (flat : IsFlat glob) : IsFlat glob.reverse :=
  fun part occurs => flat part (occurs.mono fun _ => List.mem_reverse.1)

theorem isFlat_of_part {token : GlobToken} {text : List Char} (part : Part token text) :
    IsFlat [token] := by
  rintro inner (held | ⟨held, -, -⟩)
  · cases List.mem_singleton.1 held
    cases part <;> simp
  · rw [List.mem_singleton] at held
    rw [← held] at part
    cases part

/-- Braces without directories. -/
structure Group.IsFlat (group : Group) : Prop where
  current : Glob.IsFlat group.current
  branches : ∀ branch ∈ group.branches, Glob.IsFlat branch

theorem Group.isFlat_empty : Group.IsFlat {} := ⟨isFlat_nil, nofun⟩

theorem Group.IsFlat.push {group : Group} (flat : group.IsFlat) {token : GlobToken}
    (first : Glob.IsFlat [token]) : (group.push token).IsFlat :=
  ⟨first.cons flat.current, flat.branches⟩

theorem Group.IsFlat.endBranch {group : Group} (flat : group.IsFlat) : group.endBranch.IsFlat :=
  ⟨isFlat_nil, List.forall_mem_cons.2 ⟨flat.current.reverse, flat.branches⟩⟩

theorem Group.IsFlat.close {group : Group} (flat : group.IsFlat) : Glob.IsFlat [group.close] := by
  intro part occurs
  rcases occurs_choice.1 occurs with rfl | ⟨branch, held, inside⟩
  · simp
  · have isBranch := List.mem_reverse.1 (List.mem_filter.1 held).1
    exact flat.endBranch.branches branch isBranch part inside

/-- A step reads no directories, unless it reads two stars. -/
theorem isFlat_step {outer outer' : List Group} {group group' : Group} {text rest : List Char}
    (single : Inputs.hasTwoStars (text ++ rest) = false)
    (step : ReadStep outer group text outer' group')
    (flat : ∀ braces ∈ group :: outer, braces.IsFlat) :
    ∀ braces ∈ group' :: outer', braces.IsFlat := by
  obtain ⟨inner, others⟩ := List.forall_mem_cons.1 flat
  cases step with
  | part part => exact List.forall_mem_cons.2 ⟨inner.push (isFlat_of_part part), others⟩
  | stars _ _ => cases single
  | openBrace => exact List.forall_mem_cons.2 ⟨Group.isFlat_empty, flat⟩
  | closeBrace =>
    obtain ⟨around, others⟩ := List.forall_mem_cons.1 others
    exact List.forall_mem_cons.2 ⟨around.push inner.close, others⟩
  | nextBranch _ => exact List.forall_mem_cons.2 ⟨inner.endBranch, others⟩

theorem isFlat_of_reads {outer : List Group} {group : Group} {text : List Char} {glob : Glob}
    (single : Inputs.hasTwoStars text = false) (reads : Reads outer group text glob)
    (flat : ∀ braces ∈ group :: outer, braces.IsFlat) : IsFlat glob := by
  induction reads with
  | done group => exact (flat group List.mem_cons_self).current.reverse
  | step step _ ih => exact ih (hasTwoStars_of_append single) (isFlat_step single step flat)

/-! ## Patterns of a text -/

/-- What stands before a slash in a pattern and holds no wildcard stands, but for its backslashes, at
the front of all that the pattern accepts. -/
theorem front_of_read {front rest text : List Char} {glob : Glob}
    (plain : ∀ c ∈ front, isWildcard c = false) (isRead : read (front ++ '/' :: rest) = .ok glob)
    (accepted : accepts glob text = true) :
    ∃ shown behind, unescape (front ++ ['/']) = shown ++ ['/'] ∧ text = shown ++ '/' :: behind := by
  obtain ⟨shown, unescaped, isRead⟩ := readFrom_front plain isRead
  have keeps : Keeps (shown.map .literal).reverse
      (.literal '/' :: ((shown.map .literal).reverse ++ [])) :=
    ⟨[], .literal '/', .literal, by rw [List.append_nil]; rfl⟩
  obtain ⟨slash, tokens, takes, rfl⟩ := (reads_of_readFrom isRead).keeps keeps
  rw [List.reverse_reverse] at accepted
  obtain ⟨behind, same⟩ := accepts_front takes accepted
  exact ⟨shown, behind, unescaped, same⟩

/-- Every class that stands for a slash has one written in it. -/
def ShowsSlashes (glob : Glob) : Prop :=
  ∀ negated ranges, Occurs (.oneOf negated ranges) glob → classHolds negated ranges 0x2F = true →
    WritesSlash ranges

/-- Without two stars, and with no slash hidden in a class, a text that is accepted has no more
slashes than the text of the pattern. -/
theorem count_le_of_read {pattern text : List Char} {glob : Glob} (isRead : read pattern = .ok glob)
    (single : Inputs.hasTwoStars pattern = false) (shows : ShowsSlashes glob)
    (accepted : accepts glob text = true) : text.count '/' ≤ pattern.count '/' := by
  have reads : Reads [] {} pattern glob := reads_of_readFrom isRead
  have flat : IsFlat glob := 
    isFlat_of_reads single reads (List.forall_mem_singleton.2 Group.isFlat_empty)
  have shown (part : GlobToken) (occurs : Occurs part glob) : Shows part := by
    obtain ⟨notLeading, notBetween, notTrailing⟩ := flat part occurs
    cases part with
    | leading => exact notLeading rfl
    | between => exact notBetween rfl
    | trailing => exact notTrailing rfl
    | oneOf negated ranges => exact shows negated ranges occurs
    | _ => trivial
  calc text.count '/' ≤ slashesAll glob := accepts_slashes shown accepted
    _ ≤ slashesOpen [] {} + pattern.count '/' := slashesAll_le_of_reads single reads
    _ = pattern.count '/' := Nat.zero_add _

end Glob
end GraphScribe
