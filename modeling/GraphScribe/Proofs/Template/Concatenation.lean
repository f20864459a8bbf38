import GraphScribe.Proofs.Template.Grammar
import GraphScribe.Proofs.Template.Output
import GraphScribe.Proofs.Text.Boundaries
import Mathlib.Control.Monad.Basic

/-!
# Templates one after the other

Where one template is followed by another text, the directives of the whole are those of the two
parts one after the other, but for the place where they meet: a run that is copied at the end of the
first and one at the beginning of the second are one run. So the lists of directives do not simply
follow each other, but what they write does.

* `directivesOf_append`: the directives of the whole, or the error of the second part.
* `directivesOf_invalidVerb`: a letter that is no verb stays one, whatever follows.
* `compile_append`: the same for templates and what they write.
-/

namespace GraphScribe

/-! ## What is read from the front of a text -/

namespace CostFunction

theorem readRatio_append {text rest : List Char} {c : Char} {ratio : Option Binary64}
    (read : readRatio text = .ok (ratio, c :: rest)) (more : List Char) :
    readRatio (text ++ more) = .ok (ratio, c :: (rest ++ more)) := by
  unfold readRatio at read ⊢
  dsimp only at read ⊢
  split at read
  · next empty =>
    obtain ⟨rfl, stop⟩ := Prod.mk.inj (Except.ok.inj read)
    obtain ⟨taken, left⟩ := span_append_of_stop stop more
    rw [taken, left, if_pos empty]
  · next filled =>
    split at read
    · next value valueRead =>
      obtain ⟨rfl, stop⟩ := Prod.mk.inj (Except.ok.inj read)
      obtain ⟨taken, left⟩ := span_append_of_stop stop more
      rw [taken, left, if_neg filled, valueRead]
    · cases read

theorem readMode_append {text rest : List Char} {c : Char} {mode : Option Rounding}
    (read : readMode text = (mode, c :: rest)) (more : List Char) :
    readMode (text ++ more) = (mode, c :: (rest ++ more)) := by
  cases text with
  | nil => cases read
  | cons first others =>
    rw [List.cons_append]
    unfold readMode at read ⊢
    dsimp only at read ⊢
    split at read
    · obtain ⟨rfl, rfl⟩ := Prod.mk.inj read
      rfl
    · obtain ⟨rfl, same⟩ := Prod.mk.inj read
      obtain ⟨rfl, rfl⟩ := List.cons.inj same
      rfl

/-- A cost function that something follows is read back, whatever comes then. -/
theorem read_append {text rest : List Char} {c : Char} {f : Option CostFunction}
    (found : read text = .ok (f, c :: rest)) (more : List Char) :
    read (text ++ more) = .ok (f, c :: (rest ++ more)) := by
  unfold read at found ⊢
  split at found
  · cases found
  · next ratio afterRatio ratioRead =>
    rcases modeRead : readMode afterRatio with ⟨mode, left⟩
    rw [modeRead] at found
    have left_eq : left = c :: rest := by
      cases ratio <;> cases mode <;> cases found <;> rfl
    rw [left_eq] at found modeRead
    cases afterRatio with
    | nil => cases modeRead
    | cons next others =>
      rw [readRatio_append ratioRead more]
      dsimp only
      rw [← List.cons_append, readMode_append modeRead more]
      cases ratio <;> cases mode <;> cases found <;> rfl

/-- What is wrong with a cost function is its ratio. -/
theorem exists_ratio_of_error {text : List Char} {e : TemplateError} (failed : read text = .error e) :
    ∃ run fault, e = .invalidRatio run fault := by
  unfold read at failed
  split at failed
  · next e' ratioFailed =>
    cases failed
    unfold readRatio at ratioFailed
    dsimp only at ratioFailed
    split at ratioFailed
    · cases ratioFailed
    · split at ratioFailed
      · cases ratioFailed
      · cases ratioFailed
        exact ⟨_, _, rfl⟩
  · split at failed <;> cases failed

end CostFunction

namespace Directive

theorem read_of_letter {c letter : Char} {text rest : List Char} {f : Option CostFunction}
    (begins : Part.BeginsList c) (cost : CostFunction.read (c :: text) = .ok (f, letter :: rest))
    (noVerb : letter ≠ 'w' ∧ letter ≠ 'N' ∧ letter ≠ 'M') :
    read (c :: text) =
      .error (.invalidVerb ('%' :: (c :: text).take ((c :: text).length - rest.length))
        letter) := by
  rw [Part.read_of_beginsList begins, cost]
  split
  · next same => cases same
  · next same => cases same
  · next same =>
    cases same
    exact (noVerb.1 rfl).elim
  · next same =>
    cases same
    exact (noVerb.2.1 rfl).elim
  · next same =>
    cases same
    exact (noVerb.2.2 rfl).elim
  · next same =>
    cases same
    rfl

/-- A letter that is no verb stays one, whatever follows it. -/
theorem read_invalidVerb {body fragment : List Char} {verb : Char}
    (failed : read body = .error (.invalidVerb fragment verb)) (more : List Char) :
    read (body ++ more) = .error (.invalidVerb fragment verb) := by
  cases body with
  | nil => cases failed
  | cons c text =>
    have begins : Part.BeginsList c := by
      refine ⟨?_, ?_, ?_, ?_⟩ <;> rintro rfl <;> cases failed
    have listed := Part.read_of_beginsList begins text
    rw [failed] at listed
    cases cost : CostFunction.read (c :: text) with
    | error e =>
      obtain ⟨run, fault, rfl⟩ := CostFunction.exists_ratio_of_error cost
      rw [cost] at listed
      cases listed
    | ok found =>
      obtain ⟨f, left⟩ := found
      rw [cost] at listed
      cases left with
      | nil => cases listed
      | cons letter rest =>
        have noVerb : letter ≠ 'w' ∧ letter ≠ 'N' ∧ letter ≠ 'M' := by
          refine ⟨?_, ?_, ?_⟩ <;> rintro rfl <;> cases listed
        have whole : CostFunction.read (c :: (text ++ more)) = .ok (f, letter :: (rest ++ more)) :=
          CostFunction.read_append cost more
        have count : (c :: (text ++ more)).length - (rest ++ more).length =
            (c :: text).length - rest.length := by
          simp only [List.length_cons, List.length_append]
          omega
        have within : (c :: text).length - rest.length ≤ (c :: text).length := Nat.sub_le _ _
        have cut : (c :: (text ++ more)).take ((c :: text).length - rest.length) =
            (c :: text).take ((c :: text).length - rest.length) :=
          List.take_append_of_le_length within
        rw [List.cons_append, read_of_letter begins whole noVerb, count, cut, ← failed,
          read_of_letter begins cost noVerb]

/-- What is read as a directive is no run that is copied. -/
theorem not_run_of_read {body rest copied : List Char} (found : read body = .ok (.text copied, rest)) :
    copied.all Template.isLiteral = false := by
  obtain ⟨p, directive, -, same⟩ := Part.exists_of_read found
  cases p with
  | literal l => cases directive
  | percent =>
    cases same
    rfl
  | list ratio mode verb => cases verb <;> cases same
  | _ => cases same

/-- A directive is read back, whatever follows the text that it was read from. -/
theorem read_append {body rest : List Char} {d : Directive} (found : read body = .ok (d, rest))
    (more : List Char) : read (body ++ more) = .ok (d, rest ++ more) := by
  obtain ⟨p, directive, rfl, rfl⟩ := Part.exists_of_read found
  rw [List.append_assoc]
  exact Part.read_append directive (rest ++ more)

end Directive

/-! ## Where two texts meet -/

namespace Template

/-- A directive before others: two runs that are copied become one. -/
def meet (d : Directive) (rest : List Directive) : List Directive :=
  match d, rest with
  | .text run, .text next :: others =>
    if run.all isLiteral && next.all isLiteral then .text (run ++ next) :: others else d :: rest
  | _, _ => d :: rest

/-- The directives of two texts, one after the other. -/
def join : List Directive → List Directive → List Directive
  | [], rest => rest
  | [last], rest => meet last rest
  | d :: begun, rest => d :: join begun rest

/-- What directives write for a graph. -/
def output (directives : List Directive) (g : Graph) : List Char :=
  (directives.flatMap (·.pieces g)).flatten

theorem output_cons (d : Directive) (rest : List Directive) (g : Graph) :
    output (d :: rest) g = (d.pieces g).flatten ++ output rest g := by
  unfold output
  rw [List.flatMap_cons, List.flatten_append]

theorem output_meet (d : Directive) (rest : List Directive) (g : Graph) :
    output (meet d rest) g = output (d :: rest) g := by
  unfold meet
  split
  · next run next others =>
    split
    · simp only [output_cons, Directive.pieces, List.flatten_cons, List.flatten_nil,
        List.append_nil, List.append_assoc]
    · rfl
  · rfl

/-- Joined directives write what the two lists write, one after the other. -/
theorem output_join (begun rest : List Directive) (g : Graph) :
    output (join begun rest) g = output begun g ++ output rest g := by
  fun_induction join begun rest with
  | case1 rest => rfl
  | case2 rest last =>
    rw [output_meet, output_cons, output_cons]
    exact congrArg (· ++ _) (List.append_nil _).symm
  | case3 rest d begun _ ih => rw [output_cons, output_cons, ih, List.append_assoc]

theorem meet_of_not_run {d : Directive}
    (other : ∀ copied, d = .text copied → copied.all isLiteral = false) (rest : List Directive) :
    meet d rest = d :: rest := by
  unfold meet
  split
  · next run next others =>
    rw [other run rfl]
    rfl
  · rfl

theorem meet_before {rest : List Directive}
    (other : ∀ copied others, rest = .text copied :: others → copied.all isLiteral = false)
    (d : Directive) : meet d rest = d :: rest := by
  unfold meet
  split
  · next run next others =>
    rw [other next others rfl, Bool.and_false]
    rfl
  · rfl

theorem join_of_not_run {d : Directive}
    (other : ∀ copied, d = .text copied → copied.all isLiteral = false)
    (begun rest : List Directive) : join (d :: begun) rest = d :: join begun rest := by
  cases begun with
  | nil => exact meet_of_not_run other rest
  | cons next others => rfl

/-! ## The directives of a text that goes on -/

/-- Only the empty text has no directives. -/
theorem eq_nil_of_directivesOf {text : List Char} (read : directivesOf text = .ok []) :
    text = [] := by
  obtain ⟨parts, ⟨-, rfl⟩, none⟩ := exists_splits read
  rw [List.map_eq_nil_iff.1 none.symm]
  rfl

theorem directivesOf_error {body : List Char} {e : TemplateError}
    (failed : Directive.read body = .error e) : directivesOf ('%' :: body) = .error e := by
  rw [directivesOf]
  split
  · next failed' => exact congrArg Except.error (Except.error.inj (failed'.symm.trans failed))
  · next read => cases failed.symm.trans read

/-- The directives of a text that begins with a percent sign begin with no run that is copied. -/
theorem not_run_of_directivesOf {body copied : List Char} {others : List Directive}
    (read : directivesOf ('%' :: body) = .ok (.text copied :: others)) :
    copied.all isLiteral = false := by
  cases first : Directive.read body with
  | error e => cases (directivesOf_error first).symm.trans read
  | ok found =>
    obtain ⟨d, rest⟩ := found
    rw [directivesOf_directive first] at read
    cases later : directivesOf rest with
    | error e =>
      rw [later] at read
      cases read
    | ok ds =>
      rw [later] at read
      cases read
      exact Directive.not_run_of_read first

/-- A run that is copied, before any text. -/
theorem directivesOf_run {c : Char} {run : List Char} (plain : ∀ b ∈ c :: run, isLiteral b = true)
    (more : List Char) :
    directivesOf (c :: run ++ more) = (directivesOf more).map (meet (.text (c :: run))) := by
  have literal := plain c List.mem_cons_self
  have others : ∀ b ∈ run, isLiteral b = true := fun b held => plain b (List.mem_cons_of_mem c held)
  rw [List.cons_append, directivesOf_literal literal, List.takeWhile_append_of_pos others,
    List.dropWhile_append_of_pos others]
  cases more with
  | nil =>
    rw [List.takeWhile_nil, List.dropWhile_nil, List.append_nil, directivesOf]
    rfl
  | cons next after =>
    by_cases copied : isLiteral next = true
    · rw [List.takeWhile_cons_of_pos copied, List.dropWhile_cons_of_pos copied,
        directivesOf_literal copied]
      cases directivesOf (after.dropWhile isLiteral) with
      | error e => rfl
      | ok ds =>
        have first : (c :: run).all isLiteral = true := List.all_eq_true.2 plain
        have second : (next :: after.takeWhile isLiteral).all isLiteral = true := by
          rw [List.all_cons, copied, List.all_takeWhile]
          rfl
        show _ = Except.ok (meet _ _)
        unfold meet
        dsimp only
        rw [first, second]
        rfl
    · rw [List.takeWhile_cons_of_neg copied, List.dropWhile_cons_of_neg copied, List.append_nil]
      have percent : next = '%' := Classical.not_not.1 (mt bne_iff_ne.2 copied)
      subst percent
      cases read : directivesOf ('%' :: after) with
      | error e => rfl
      | ok ds =>
        have apart : ∀ copied others, ds = .text copied :: others →
            copied.all isLiteral = false := by
          rintro copied others rfl
          exact not_run_of_directivesOf read
        exact congrArg Except.ok (meet_before apart _).symm

/-- The directives of a text that goes on are those of its two parts, joined; or what is wrong with
the second part is wrong with the whole. -/
theorem directivesOf_append {text : List Char} {begun : List Directive}
    (read : directivesOf text = .ok begun) (more : List Char) :
    directivesOf (text ++ more) = (directivesOf more).map (join begun) := by
  fun_induction directivesOf text generalizing begun with
  | case1 =>
    cases read
    rw [List.nil_append]
    cases directivesOf more <;> rfl
  | case2 => cases read
  | case3 body d rest first _ ih =>
    cases later : directivesOf rest with
    | error e =>
      rw [later] at read
      cases read
    | ok others =>
      rw [later] at read
      cases read
      have apart : ∀ copied, d = .text copied → copied.all isLiteral = false := by
        rintro copied rfl
        exact Directive.not_run_of_read first
      rw [List.cons_append, directivesOf_directive (Directive.read_append first more), ih later]
      cases directivesOf more with
      | error e => rfl
      | ok ds => exact congrArg Except.ok (join_of_not_run apart others ds).symm
  | case4 c rest unmarked _ ih =>
    have literal : isLiteral c = true := bne_iff_ne.2 unmarked
    cases later : directivesOf (rest.dropWhile isLiteral) with
    | error e =>
      rw [later] at read
      cases read
    | ok others =>
      rw [later] at read
      cases read
      cases left : rest.dropWhile isLiteral with
      | nil =>
        -- the run reaches the end, so it may go on in what follows
        rw [left, directivesOf] at later
        cases later
        have whole : rest.takeWhile isLiteral = rest := by
          have parts := List.takeWhile_append_dropWhile (p := isLiteral) (l := rest)
          rwa [left, List.append_nil] at parts
        have plain : ∀ b ∈ c :: rest, isLiteral b = true := by
          rw [← whole]
          exact List.forall_mem_cons.2 ⟨literal, List.all_eq_true.1 List.all_takeWhile⟩
        rw [whole, directivesOf_run plain]
        rfl
      | cons next after =>
        obtain ⟨taken, dropped⟩ := span_append_of_stop left more
        rw [List.cons_append, directivesOf_literal literal, taken, dropped, ← List.cons_append,
          ← left, ih later]
        cases others with
        | nil =>
          rw [left] at later
          cases eq_nil_of_directivesOf later
        | cons d others => cases directivesOf more <;> rfl

/-- A letter that is no verb stays one, whatever follows the text. -/
theorem directivesOf_invalidVerb {text fragment : List Char} {verb : Char}
    (failed : directivesOf text = .error (.invalidVerb fragment verb)) (more : List Char) :
    directivesOf (text ++ more) = .error (.invalidVerb fragment verb) := by
  fun_induction directivesOf text with
  | case1 => cases failed
  | case2 body e first =>
    cases failed
    exact directivesOf_error (Directive.read_invalidVerb first more)
  | case3 body d rest first _ ih =>
    cases later : directivesOf rest with
    | ok ds =>
      rw [later] at failed
      cases failed
    | error e =>
      rw [later] at failed
      cases failed
      rw [List.cons_append, directivesOf_directive (Directive.read_append first more), ih later]
      rfl
  | case4 c rest unmarked _ ih =>
    have literal : isLiteral c = true := bne_iff_ne.2 unmarked
    cases later : directivesOf (rest.dropWhile isLiteral) with
    | ok ds =>
      rw [later] at failed
      cases failed
    | error e =>
      rw [later] at failed
      cases failed
      cases left : rest.dropWhile isLiteral with
      | nil =>
        rw [left, directivesOf] at later
        cases later
      | cons next after =>
        obtain ⟨taken, dropped⟩ := span_append_of_stop left more
        rw [List.cons_append, directivesOf_literal literal, dropped, ← List.cons_append, ← left,
          ih later]
        rfl

/-! ## Templates -/

theorem compile_of_ne {source : String} (filled : source ≠ "") :
    compile source = (directivesOf source.toList).map fun directives => ⟨source, directives⟩ := by
  unfold compile
  exact if_neg fun empty => filled (String.isEmpty_iff.1 empty)

theorem ne_of_compile {source : String} {outcome : Except TemplateError Template}
    (compiled : compile source = outcome) (other : outcome ≠ .error .empty) : source ≠ "" := by
  rintro rfl
  exact other compiled.symm

theorem append_ne {first : String} (filled : first ≠ "") (second : String) :
    first ++ second ≠ "" := by
  intro empty
  have lists := congrArg String.toList empty
  rw [String.toList_append] at lists
  exact filled (String.toList_eq_nil_iff.1 (List.append_eq_nil_iff.1 lists).1)

/-- The directives of a template are those of its text. -/
theorem directives_of_compile {source : String} {t : Template} (compiled : compile source = .ok t) :
    directivesOf source.toList = .ok t.directives := by
  rw [compile_of_ne (ne_of_compile compiled (nomatch ·))] at compiled
  cases read : directivesOf source.toList with
  | error e =>
    rw [read] at compiled
    cases compiled
  | ok ds =>
    rw [read] at compiled
    cases compiled
    rfl

theorem error_of_compile {source : String} {e : TemplateError} (filled : source ≠ "")
    (failed : compile source = .error e) : directivesOf source.toList = .error e := by
  rw [compile_of_ne filled] at failed
  cases read : directivesOf source.toList with
  | error e' =>
    rw [read] at failed
    exact congrArg Except.error (Except.error.inj failed)
  | ok ds =>
    rw [read] at failed
    cases failed

/-- Joined directives write what the two lists write, one after the other. -/
theorem render_join (t u : Template) (source : String) (g : Graph) :
    render ⟨source, join t.directives u.directives⟩ g = t.render g ++ u.render g :=
  (congrArg Utf8.encode (output_join t.directives u.directives g)).trans (Utf8.encode_append _ _)

/-- A template followed by another one writes what the two write, one after the other; what is wrong
with a text is wrong with a template followed by it; and a letter that is no verb stays one, whatever
follows. -/
theorem compile_append (first second : String) :
    (∀ t, compile first = .ok t →
      (∀ u, compile second = .ok u → ∃ whole, compile (first ++ second) = .ok whole ∧
        ∀ g, ∃ before after : Array UInt8, t.writeTo ({} : Sink) g = .ok { held := before } ∧
          u.writeTo ({} : Sink) g = .ok { held := after } ∧
          whole.writeTo ({} : Sink) g = .ok { held := before ++ after }) ∧
      (second ≠ "" → ∀ e, compile second = .error e → compile (first ++ second) = .error e)) ∧
    ∀ fragment verb, compile first = .error (.invalidVerb fragment verb) →
      compile (first ++ second) = .error (.invalidVerb fragment verb) := by
  refine ⟨fun t compiled => ?_, fun fragment verb failed => ?_⟩
  · have filled := ne_of_compile compiled (nomatch ·)
    have whole := directivesOf_append (directives_of_compile compiled) second.toList
    rw [← String.toList_append] at whole
    rw [compile_of_ne (append_ne filled second), whole]
    refine ⟨fun u compiled' => ?_, fun filled' e failed => ?_⟩
    · rw [directives_of_compile compiled']
      refine ⟨⟨first ++ second, join t.directives u.directives⟩, rfl, fun g => ?_⟩
      refine ⟨_, _, t.writeTo_unlimited g, u.writeTo_unlimited g, ?_⟩
      rw [writeTo_unlimited, render_join, List.append_toArray]
    · rw [error_of_compile filled' failed]
      rfl
  · have filled := ne_of_compile failed (nomatch ·)
    have whole := directivesOf_invalidVerb (error_of_compile filled failed) second.toList
    rw [← String.toList_append] at whole
    rw [compile_of_ne (append_ne filled second), whole]
    rfl

/-- Two runs that meet become one, a letter that ends in nothing is missed, and one that is no verb
is found before. -/
theorem compile_append_seam :
    let t : Template := ⟨"x%%y", [.text ['x'], .text ['%'], .text ['y']]⟩
    let u : Template := ⟨"z%n", [.text ['z'], .nodeCount]⟩
    (compile "x%%y" = .ok t ∧ compile "z%n" = .ok u ∧
      ∃ whole, compile ("x%%y" ++ "z%n") = .ok whole ∧
        whole.writeTo ({} : Sink) ⟨[], []⟩ = .ok { held := (Bytes.ofAscii "x%yz0").toArray }) ∧
    compile ("x%%y" ++ "z%2F") = .error (.missingVerb "%2F".toList) ∧
    compile ("x%2q" ++ "%") = .error (.invalidVerb "%2q".toList 'q') := by
  intro t u
  have first : compile "x%%y" = .ok t := by decide +kernel
  have second : compile "z%n" = .ok u := by decide +kernel
  refine ⟨⟨first, second, ?_⟩, ?_, ?_⟩
  · obtain ⟨whole, compiled, written⟩ := ((compile_append "x%%y" "z%n").1 _ first).1 _ second
    obtain ⟨before, after, wrote, wrote', both⟩ := written ⟨[], []⟩
    have before_eq : t.writeTo ({} : Sink) ⟨[], []⟩ =
        .ok { held := (Bytes.ofAscii "x%y").toArray } := by decide +kernel
    have after_eq : u.writeTo ({} : Sink) ⟨[], []⟩ =
        .ok { held := (Bytes.ofAscii "z0").toArray } := by decide +kernel
    cases wrote.symm.trans before_eq
    cases wrote'.symm.trans after_eq
    exact ⟨whole, compiled, both⟩
  · exact ((compile_append "x%%y" "z%2F").1 _ first).2 (by decide) _ (by decide +kernel)
  · exact (compile_append "x%2q" "%").2 _ _ (by decide +kernel)

end Template
end GraphScribe
