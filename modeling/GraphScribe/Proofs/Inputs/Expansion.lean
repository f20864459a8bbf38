import GraphScribe.Inputs
import GraphScribe.Proofs.FileTree.Below
import GraphScribe.Proofs.FileTree.Frame
import GraphScribe.Proofs.Glob.Matching
import GraphScribe.Proofs.Path.Names
import Mathlib.Control.Monad.Basic

/-!
# What the search for inputs finds

The search begins in the directory that the steps before the first wildcard lead to, and goes no
deeper than the pattern has steps. Both are read off the text of the pattern, so both can miss files
that the pattern stands for: a backslash in front of a character is not part of a name, and a class
may stand for a slash that is not written in it. Nothing else is missed.

* `literalNames_isPrefix_iff`: a file that a pattern stands for lies below the directory that is
  searched just if no backslash led there.
* `expand_exact`: what is found, in which order, and when it is all.
-/

namespace GraphScribe

variable {t : FileTree}

namespace Inputs

/-! ## The steps of a pattern -/

/-- The names of a pattern before the first one with a wildcard. -/
def literalNames (names : List FileName) : List FileName :=
  names.takeWhile (!·.val.any Glob.isWildcard)

/-- The names of a pattern from the first one with a wildcard on. -/
def wildcardNames (names : List FileName) : List FileName :=
  names.dropWhile (!·.val.any Glob.isWildcard)

theorem literalSteps_ofNames (names : List FileName) :
    literalSteps (.ofNames names) = (literalNames names).map .name := by
  rw [literalSteps, Path.components_ofNames, List.takeWhile_map]
  rfl

theorem wildcardSteps_ofNames (names : List FileName) :
    wildcardSteps (.ofNames names) = (wildcardNames names).map .name := by
  rw [wildcardSteps, Path.components_ofNames, List.dropWhile_map]
  rfl

theorem literalNames_append_wildcardNames (names : List FileName) :
    literalNames names ++ wildcardNames names = names :=
  List.takeWhile_append_dropWhile

theorem plain_of_literalNames {names : List FileName} {name : FileName}
    (held : name ∈ literalNames names) : ∀ c ∈ name.val, Glob.isWildcard c = false := by
  simpa using List.all_eq_true.1 List.all_takeWhile name held

theorem wildcardNames_ne_nil {names : List FileName}
    (wild : ∃ c ∈ (Path.ofNames names).text, Glob.isWildcard c = true) :
    wildcardNames names ≠ [] := by
  obtain ⟨c, held, isWild⟩ := wild
  have notSlash : c ≠ '/' := by
    rintro rfl
    cases isWild
  obtain ⟨name, isName, inName⟩ := (Path.mem_text_ofNames notSlash).1 held
  intro none
  rw [← literalNames_append_wildcardNames names, none, List.append_nil] at isName
  rw [plain_of_literalNames isName c inName] at isWild
  cases isWild

/-! ## What the pattern stands for -/

/-- The file that names lead to from the working directory is one that a pattern stands for. -/
structure Matches (t : FileTree) (glob : Glob) (names : List FileName) : Prop where
  isFile : ∃ content, t.get? (names.reverse ++ t.home) = some (.file content)
  accepted : glob.accepts (Path.ofNames names).text = true

/-- No backslash stands before the first step with a wildcard. -/
def IsUnescaped (pattern : Path) : Prop :=
  ∀ step ∈ literalSteps pattern, '\\' ∉ step.text

theorem isUnescaped_ofNames {steps : List FileName} :
    IsUnescaped (.ofNames steps) ↔ '\\' ∉ (Path.ofNames (literalNames steps)).text := by
  rw [IsUnescaped, literalSteps_ofNames, Path.mem_text_ofNames (by decide), List.forall_mem_map]
  simp only [Component.text, not_exists, not_and]

/-- What a pattern stands for begins with as many names as stand before its first wildcard: these,
but for their backslashes. -/
theorem names_of_accepted {steps names : List FileName} {glob : Glob}
    (some : literalNames steps ≠ []) (wild : wildcardNames steps ≠ [])
    (isRead : Glob.read (Path.ofNames steps).text = .ok glob)
    (accepted : glob.accepts (Path.ofNames names).text = true) :
    ∃ shown behind,
      Glob.unescape ((Path.ofNames (literalNames steps)).text ++ ['/']) = shown ++ ['/'] ∧
        (Path.pieces shown).length = (literalNames steps).length ∧
        names.map (·.val) = Path.pieces shown ++ Path.pieces behind := by
  have plain : ∀ c ∈ (Path.ofNames (literalNames steps)).text, Glob.isWildcard c = false := by
    intro c held
    by_cases slash : c = '/'
    · rw [slash]
      rfl
    · obtain ⟨name, isName, inName⟩ := (Path.mem_text_ofNames slash).1 held
      exact plain_of_literalNames isName c inName
  rw [← literalNames_append_wildcardNames steps, Path.text_ofNames_append some wild] at isRead
  obtain ⟨shown, behind, unescaped, same⟩ := Glob.front_of_read plain isRead accepted
  have notEmpty : names ≠ [] := by
    rintro rfl
    simp [Path.ofNames] at same
  refine ⟨shown, behind, unescaped, ?_, ?_⟩
  · have count := congrArg (List.count '/') unescaped
    have length := congrArg List.length (Path.pieces_ofNames some)
    rw [Glob.count_unescape, List.count_append, List.count_append] at count
    rw [Path.length_pieces, List.length_map] at length
    rw [Path.length_pieces]
    omega
  · rw [← Path.pieces_ofNames notEmpty, same, Path.pieces_append_slash]

/-- What a pattern stands for lies below the directory that its front leads to just if no backslash
stands in the front. -/
theorem literalNames_isPrefix_iff {steps names : List FileName} {glob : Glob}
    (wild : wildcardNames steps ≠ []) (isRead : Glob.read (Path.ofNames steps).text = .ok glob)
    (accepted : glob.accepts (Path.ofNames names).text = true) :
    literalNames steps <+: names ↔ IsUnescaped (.ofNames steps) := by
  rw [isUnescaped_ofNames]
  by_cases none : literalNames steps = []
  · rw [none]
    exact iff_of_true List.nil_prefix (by simp [Path.ofNames])
  obtain ⟨shown, behind, unescaped, length, values⟩ := names_of_accepted none wild isRead accepted
  have front := Path.pieces_ofNames none
  constructor
  · rintro ⟨more, rfl⟩ held
    rw [List.map_append] at values
    have pieces : Path.pieces (Path.ofNames (literalNames steps)).text = Path.pieces shown :=
      front.trans (List.append_inj values (by rw [List.length_map, length])).1
    have shorter := Glob.length_unescape_lt '/' held
    rw [unescaped, ← Path.intercalate_pieces shown, ← pieces, Path.intercalate_pieces] at shorter
    exact Nat.lt_irrefl _ shorter
  · intro free
    rw [Glob.unescape_of_not_mem (by simpa using free)] at unescaped
    rw [← List.append_cancel_right unescaped, front] at values
    have start : (literalNames steps).map (·.val) =
        (names.take (literalNames steps).length).map (·.val) := by
      rw [List.map_take, values, List.take_left' (List.length_map _)]
    rw [(List.map_inj_right fun _ _ => Subtype.ext).1 start]
    exact List.take_prefix _ _

/-- A file that a pattern stands for does not lie on the way to the directory. -/
theorem length_literalNames_lt {steps names : List FileName} {glob : Glob}
    (wild : wildcardNames steps ≠ []) (isRead : Glob.read (Path.ofNames steps).text = .ok glob)
    (matched : Matches t glob names) : (literalNames steps).length < names.length := by
  by_cases none : literalNames steps = []
  · rw [none]
    refine List.length_pos_iff.2 ?_
    rintro rfl
    obtain ⟨content, isFile⟩ := matched.isFile
    cases t.get?_home.symm.trans isFile
  · obtain ⟨shown, behind, -, length, values⟩ := names_of_accepted none wild isRead matched.accepted
    have whole := congrArg List.length values
    rw [List.length_map, List.length_append, length, Path.length_pieces] at whole
    omega

/-! ## What is found -/

/-- The names of the files that a search below some names finds. -/
def foundNames (t : FileTree) (glob : Glob) (front : List FileName) (directory : Location)
    (limit? : Option Nat) : List (List FileName) :=
  (((t.filesBelow directory).map (·.1)).filter fun names =>
    isWithin limit? names.length && glob.accepts (Path.ofNames (front ++ names)).text).map
      (front ++ ·)

theorem search_ofNames (t : FileTree) (glob : Glob) (front : List FileName) (directory : Location)
    (limit? : Option Nat) :
    search t glob (.ofNames front) directory limit? =
      Path.sort ((foundNames t glob front directory limit?).map .ofNames) := by
  simp only [search, foundNames, ← Path.ofNames_append]
  congr 1
  induction t.filesBelow directory with
  | nil => rfl
  | cons entry rest ih =>
    rw [List.filterMap_cons, List.map_cons, List.filter_cons]
    split
    · next unfit => rw [if_neg (by simpa using unfit), ih]
    · next path fit =>
      obtain ⟨fits, rfl⟩ := Option.ite_some_none_eq_some.1 fit
      rw [if_pos fits, List.map_cons, List.map_cons, ih]

theorem nodup_foundNames (t : FileTree) (glob : Glob) (front : List FileName) (directory : Location)
    (limit? : Option Nat) : (foundNames t glob front directory limit?).Nodup := by
  refine List.pairwise_map.2 (((t.nodup_filesBelow directory).filter _).imp ?_)
  intro names names' ne same
  exact ne (List.append_cancel_left same)

theorem mem_foundNames {glob : Glob} {front names : List FileName} {l : Location}
    {limit? : Option Nat} :
    names ∈ foundNames t glob front (front.reverse ++ l) limit? ↔
      front <+: names ∧ (∃ content, t.get? (names.reverse ++ l) = some (.file content)) ∧
        glob.accepts (Path.ofNames names).text = true ∧
        isWithin limit? (names.length - front.length) = true := by
  simp only [foundNames, List.mem_map, List.mem_filter, Prod.exists, exists_and_right, exists_eq_right,
    FileTree.mem_filesBelow, Bool.and_eq_true]
  constructor
  · rintro ⟨more, ⟨isFile, within, accepted⟩, rfl⟩
    refine ⟨List.prefix_append _ _, ?_, accepted, ?_⟩
    · simpa using isFile
    · simpa using within
  · rintro ⟨⟨more, rfl⟩, isFile, accepted, within⟩
    refine ⟨more, ⟨?_, ?_, accepted⟩, rfl⟩
    · simpa using isFile
    · simpa using within

/-- The names are no more than the steps of the pattern, or it has two stars. -/
def IsInDepth (pattern : Path) (names : List FileName) : Prop :=
  hasTwoStars pattern.text = true ∨ names.length ≤ pattern.components.length

theorem isWithin_depth? {steps names : List FileName} (below : literalNames steps <+: names) :
    isWithin (depth? (.ofNames steps)) (names.length - (literalNames steps).length) = true ↔
      IsInDepth (.ofNames steps) names := by
  have whole := congrArg List.length (literalNames_append_wildcardNames steps)
  have short := below.length_le
  rw [List.length_append] at whole
  unfold depth? IsInDepth
  split
  · next stars => simp [isWithin, stars]
  · next single =>
    rw [wildcardSteps_ofNames, Path.components_ofNames]
    simp only [isWithin, List.length_map, decide_eq_true_eq, single, Bool.false_eq_true, false_or]
    omega

/-- What is found: the files that the pattern stands for, if no backslash leads the search astray
and as far as it goes. -/
theorem expand_ofNames {steps : List FileName} {pattern : String} {glob : Glob}
    (isPath : Path.ofString pattern = .ofNames steps) (wild : wildcardNames steps ≠ [])
    (isRead : Glob.read pattern.toList = .ok glob) :
    ∃ (inputs : Inputs) (found : List (List FileName)), expand t pattern = .ok inputs ∧
      inputs.paths = Path.sort (found.map .ofNames) ∧ found.Nodup ∧ ∀ names, names ∈ found ↔
        Matches t glob names ∧ IsUnescaped (.ofNames steps) ∧ IsInDepth (.ofNames steps) names := by
  have text : (Path.ofNames steps).text = pattern.toList := congrArg Path.text isPath.symm
  have searches : (wildcardSteps (.ofNames steps)).isEmpty = false := by
    simpa [wildcardSteps_ofNames] using wild
  have below {names : List FileName} (matched : Matches t glob names) :
      literalNames steps <+: names ↔ IsUnescaped (.ofNames steps) :=
    literalNames_isPrefix_iff wild (text ▸ isRead) matched.accepted
  rw [expand, isPath, text, isRead]
  simp only [searches, Bool.false_eq_true, ↓reduceIte, literalSteps_ofNames,
    Path.ofComponents_names]
  by_cases isDirectory : t.get? ((literalNames steps).reverse ++ t.home) = some .directory
  · rw [FileTree.follow_names_of_below isDirectory]
    refine ⟨_, _, if_pos isDirectory, search_ofNames _ _ _ _ _, nodup_foundNames _ _ _ _ _, ?_⟩
    intro names
    rw [mem_foundNames]
    constructor
    · rintro ⟨isBelow, isFile, accepted, within⟩
      have matched : Matches t glob names := ⟨isFile, accepted⟩
      exact ⟨matched, (below matched).1 isBelow, (isWithin_depth? isBelow).1 within⟩
    · rintro ⟨matched, unescaped, inDepth⟩
      have isBelow := (below matched).2 unescaped
      exact ⟨isBelow, matched.isFile, matched.accepted, (isWithin_depth? isBelow).2 inDepth⟩
  · -- The directory that the search begins in is not there, so no file can lie below it.
    refine ⟨⟨[], false⟩, [], ?_, by simp [Path.sort], List.nodup_nil,
      fun names => iff_of_false nofun ?_⟩
    · split
      · rfl
      · next directory followed =>
        rw [FileTree.eq_of_follow_names followed, if_neg isDirectory]
    · rintro ⟨matched, unescaped, -⟩
      obtain ⟨more, rfl⟩ := (below matched).2 unescaped
      have longer := length_literalNames_lt wild (text ▸ isRead) matched
      obtain ⟨content, isFile⟩ := matched.isFile
      rw [List.reverse_append, List.append_assoc] at isFile
      have some : more.reverse ≠ [] := by
        rintro none
        rw [List.reverse_eq_nil_iff.1 none, List.append_nil] at longer
        exact Nat.lt_irrefl _ longer
      exact isDirectory (FileTree.get?_of_below some isFile)

/-- Nothing is too deep where no class hides a slash. -/
theorem isInDepth_of_showsSlashes {steps names : List FileName} {glob : Glob}
    (isRead : Glob.read (Path.ofNames steps).text = .ok glob) (some : steps ≠ [])
    (shows : glob.ShowsSlashes) (matched : Matches t glob names) :
    IsInDepth (.ofNames steps) names := by
  cases stars : hasTwoStars (Path.ofNames steps).text with
  | true => exact .inl stars
  | false =>
    refine .inr ?_
    by_cases none : names = []
    · simp [none]
    have few := Glob.count_le_of_read isRead stars shows matched.accepted
    have length := congrArg List.length (Path.pieces_ofNames none)
    have length' := congrArg List.length (Path.pieces_ofNames some)
    rw [Path.length_pieces, List.length_map] at length length'
    rw [Path.components_ofNames, List.length_map]
    omega

/-- The steps of the pattern are names, and it has a wildcard. -/
structure IsSearch (pattern : String) : Prop where
  plain : ∀ piece ∈ Path.pieces pattern.toList, IsFileName piece
  wild : ∃ c ∈ pattern.toList, Glob.isWildcard c = true

/-- A pattern with wildcards whose steps are names is searched for. What is found ascends, and it is
the files that the pattern stands for, except where a backslash before the first wildcard leads the
search astray, or where a class that hides a slash lets the pattern stand for files that are deeper
than it has steps. -/
theorem expand_exact (t : FileTree) (pattern : String) (glob : Glob) (search : IsSearch pattern)
    (isRead : Glob.read pattern.toList = .ok glob) :
    ∃ inputs, expand t pattern = .ok inputs ∧ inputs.paths.Pairwise Path.Precedes ∧
      (∀ p, p ∈ inputs.paths ↔ ∃ names, p = .ofNames names ∧ Matches t glob names ∧
        IsUnescaped (.ofString pattern) ∧ IsInDepth (.ofString pattern) names) ∧
      (IsUnescaped (.ofString pattern) → glob.ShowsSlashes ∨ hasTwoStars pattern.toList = true →
        ∀ p, p ∈ inputs.paths ↔ ∃ names, p = .ofNames names ∧ Matches t glob names) := by
  obtain ⟨steps, some, isPath⟩ := Path.eq_ofNames_of_pieces search.plain
  change Path.ofString pattern = .ofNames steps at isPath
  have text : (Path.ofNames steps).text = pattern.toList := congrArg Path.text isPath.symm
  rw [isPath]
  obtain ⟨inputs, found, expanded, paths, distinct, mem⟩ :=
    expand_ofNames (t := t) isPath (wildcardNames_ne_nil (text ▸ search.wild)) isRead
  have mem_paths (p : Path) : p ∈ inputs.paths ↔ ∃ names, p = .ofNames names ∧
      Matches t glob names ∧ IsUnescaped (.ofNames steps) ∧ IsInDepth (.ofNames steps) names := by
    rw [paths, Path.sort, List.mem_mergeSort, List.mem_map]
    constructor
    · rintro ⟨names, isFound, rfl⟩
      exact ⟨names, rfl, (mem names).1 isFound⟩
    · rintro ⟨names, rfl, isFound⟩
      exact ⟨names, (mem names).2 isFound, rfl⟩
  refine ⟨inputs, expanded, paths ▸ Path.pairwise_sort distinct, mem_paths, ?_⟩
  intro unescaped reaches p
  rw [mem_paths]
  refine exists_congr fun names => and_congr_right fun _ => and_iff_left_of_imp fun matched => ?_
  refine ⟨unescaped, reaches.elim (fun shows => ?_) fun stars => .inl (text ▸ stars)⟩
  exact isInDepth_of_showsSlashes (text ▸ isRead) some shows matched

/-- Of two documents in and below the directory `a`, the pattern stands for the first, and no other
file is found. -/
theorem expand_exact_star :
    let t := FileTree.ofFiles [(.ofString "a/b.xml", []), (.ofString "a/c/d.xml", [])]
    ∃ glob, Glob.read "a/*.xml".toList = .ok glob ∧
      expand t "a/*.xml" = .ok ⟨[.ofString "a/b.xml"], true⟩ ∧
      ∀ names, Matches t glob names → Path.ofNames names = .ofString "a/b.xml" := by
  intro t
  let glob : Glob := [.literal 'a', .literal '/', .star, .literal '.', .literal 'x', .literal 'm',
    .literal 'l']
  have isRead : Glob.read "a/*.xml".toList = .ok glob := by cbv
  have expanded : expand t "a/*.xml" = .ok ⟨[.ofString "a/b.xml"], true⟩ := by decide +kernel
  have unescaped : IsUnescaped (.ofString "a/*.xml") := by unfold IsUnescaped; decide +kernel
  have shows : glob.ShowsSlashes := by
    rintro negated ranges (held | ⟨held, -, -⟩) <;> simp [glob] at held
  obtain ⟨inputs, same, -, -, all⟩ :=
    expand_exact t "a/*.xml" glob ⟨by decide +kernel, '*', by decide +kernel, by decide⟩ isRead
  cases same.symm.trans expanded
  refine ⟨glob, isRead, expanded, fun names matched => ?_⟩
  simpa using (all unescaped (.inl shows) (.ofNames names)).2 ⟨names, rfl, matched⟩

/-! ## What is missed -/

/-- In every tree the search finds all files that the pattern stands for. -/
def FindsAll (pattern : String) : Prop :=
  ∀ t glob inputs, Glob.read pattern.toList = .ok glob → expand t pattern = .ok inputs →
    ∀ names, Matches t glob names → .ofNames names ∈ inputs.paths

/-- With a backslash before the first wildcard another directory is searched than the one of the
file. -/
theorem not_findsAll_escaped : ¬ FindsAll "a\\b/*.xml" := by
  intro finds
  let t := FileTree.ofFiles [(.ofString "ab/c.xml", [])]
  let glob : Glob := [.literal 'a', .literal 'b', .literal '/', .star, .literal '.', .literal 'x',
    .literal 'm', .literal 'l']
  let names : List FileName := [⟨"ab".toList, by decide⟩, ⟨"c.xml".toList, by decide⟩]
  have nothing : expand t "a\\b/*.xml" = .ok ⟨[], false⟩ := by decide +kernel
  have matched : Matches t glob names := ⟨⟨[], by decide +kernel⟩, by decide +kernel⟩
  exact absurd (finds t glob _ (by cbv) nothing names matched) nofun

/-- With a class that stands for a slash the file lies deeper than is searched. -/
theorem not_findsAll_hiddenSlash : ¬ FindsAll "a[!x]b" := by
  intro finds
  let t := FileTree.ofFiles [(.ofString "a/b", [])]
  let glob : Glob := [.literal 'a', .oneOf true [('x', 'x')], .literal 'b']
  let names : List FileName := [⟨['a'], by decide⟩, ⟨['b'], by decide⟩]
  have nothing : expand t "a[!x]b" = .ok ⟨[], true⟩ := by decide +kernel
  have matched : Matches t glob names := ⟨⟨[], by decide +kernel⟩, by decide +kernel⟩
  exact absurd (finds t glob _ (by cbv) nothing names matched) nofun

/-- A search does not always find all files that its pattern stands for, not even where no backslash
or where no hidden slash is to blame. -/
theorem not_expand_exact :
    (¬ ∀ pattern, IsSearch pattern → IsUnescaped (.ofString pattern) → FindsAll pattern) ∧
      ¬ ∀ pattern, IsSearch pattern →
        (∀ glob, Glob.read pattern.toList = .ok glob → glob.ShowsSlashes) → FindsAll pattern := by
  constructor
  · intro finds
    have search : IsSearch "a[!x]b" := ⟨by decide +kernel, '[', by decide +kernel, by decide⟩
    refine not_findsAll_hiddenSlash (finds _ search ?_)
    unfold IsUnescaped
    decide +kernel
  · intro finds
    have search : IsSearch "a\\b/*.xml" := ⟨by decide +kernel, '*', by decide +kernel, by decide⟩
    refine not_findsAll_escaped (finds _ search ?_)
    intro glob isRead
    have same : Glob.read "a\\b/*.xml".toList = .ok [.literal 'a', .literal 'b', .literal '/', .star,
      .literal '.', .literal 'x', .literal 'm', .literal 'l'] := by cbv
    cases same.symm.trans isRead
    rintro negated ranges (held | ⟨held, -, -⟩) <;> simp at held

end Inputs
end GraphScribe
