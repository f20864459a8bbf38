import GraphScribe.Conversion
import GraphScribe.Proofs.Path.Names
import GraphScribe.Proofs.Runs

/-!
# Where outputs go

The output of an input lies in the directory for outputs, under the stem of the input with the
extension for outputs. So two inputs have one output just if they have one stem, and an output that
is taken as an input is its own output.

* `FileName.divide_append`: a stem and an extension without dots are found again in the name.
* `Path.components_join_name`: a name that is joined to a path is its last component.
* `outputPath_determined`: the directory, the stem and the extension of an output, and which inputs
  share one.
-/

namespace GraphScribe

/-! ## Stems and extensions -/

namespace FileName

variable {stem extension : List Char}

/-- A name is divided at the dot that no other dot follows, whatever dots the stem has. -/
theorem divide_append (filled : stem ≠ []) (undotted : '.' ∉ extension) :
    divide (stem ++ '.' :: extension) = (stem, some extension) := by
  have passes : ∀ c ∈ extension.reverse, (c != '.') = true := fun c held =>
    bne_iff_ne.2 fun dot => undotted (dot ▸ List.mem_reverse.1 held)
  have last : (stem ++ '.' :: extension).reverse.takeWhile (· != '.') = extension.reverse := by
    rw [List.reverse_append, List.reverse_cons, List.append_assoc]
    exact (span_append passes (by rintro c ⟨⟩; rfl)).1
  have front : (stem ++ '.' :: extension).take
      ((stem ++ '.' :: extension).length - extension.length - 1) = stem := by
    rw [List.length_append, List.length_cons, Nat.sub_sub, Nat.add_sub_cancel]
    exact List.take_left
  have divides : stem.isEmpty = false := by simpa using filled
  rw [divide, last, List.reverse_reverse, front, divides]
  rfl

theorem stem_ne_nil (name : FileName) : name.stem ≠ [] := by
  rw [FileName.stem, divide]
  split
  · exact name.property.1
  · next filled => exact fun empty => filled (List.isEmpty_iff.2 empty)

theorem slash_not_mem_stem (name : FileName) : '/' ∉ name.stem := by
  intro held
  rw [FileName.stem, divide] at held
  split at held
  · exact name.property.2.2.2 held
  · exact name.property.2.2.2 (List.mem_of_mem_take held)

/-- A stem with an extension is a name, also where the stem alone would lead elsewhere. -/
theorem isFileName_append (filled : stem ≠ []) (plain : '/' ∉ stem) (extended : extension ≠ [])
    (plain' : '/' ∉ extension) : IsFileName (stem ++ '.' :: extension) := by
  have long : 3 ≤ (stem ++ '.' :: extension).length := by
    have := List.length_pos_iff.2 filled
    have := List.length_pos_iff.2 extended
    rw [List.length_append, List.length_cons]
    omega
  refine ⟨?_, ?_, ?_, ?_⟩
  · exact List.append_ne_nil_of_left_ne_nil filled _
  · exact fun same => absurd (same ▸ long) (by decide)
  · exact fun same => absurd (same ▸ long) (by decide)
  · apply List.not_mem_append plain
    exact List.not_mem_cons_of_ne_of_not_mem (by decide) plain'

end FileName

/-! ## Names in a directory -/

namespace Path

/-- Where a path starts is decided by its first character. -/
theorem isAbsolute_append {text : List Char} (filled : text ≠ []) (more : List Char) :
    (Path.mk (text ++ more)).isAbsolute = (Path.mk text).isAbsolute := by
  obtain ⟨first, rest, rfl⟩ := List.exists_cons_of_ne_nil filled
  rfl

theorem stepsBetween_append_name (text : List Char) (name : FileName) :
    (pieces (text ++ '/' :: name.val)).filterMap Component.ofPiece? =
      (pieces text).filterMap Component.ofPiece? ++ [.name name] := by
  rw [pieces_append_slash, pieces_of_not_mem name.property.2.2.2, List.filterMap_append,
    List.filterMap_cons_some (ofPiece?_val name), List.filterMap_nil]

/-- The slash that a path ends in is no step. -/
theorem stepsBetween_slash (text : List Char) :
    (pieces (text ++ ['/'])).filterMap Component.ofPiece? =
      (pieces text).filterMap Component.ofPiece? := by
  rw [pieces_append_slash, List.filterMap_append]
  exact List.append_nil _

theorem steps_join_name (d : Path) (name : FileName) :
    (d.join ⟨name.val⟩).steps = d.steps ++ [.name name] := by
  obtain ⟨text⟩ := d
  rw [join, if_neg (by simp [isAbsolute_name])]
  by_cases empty : text = []
  · subst empty
    change (Path.mk name.val).steps = [.name name]
    rw [steps, isAbsolute_name, pieces_of_not_mem name.property.2.2.2,
      List.filterMap_cons_some (ofPiece?_val name)]
    rfl
  split
  · next ends =>
    have slash : text.getLast? = some '/' := by simpa [empty, endsInSlash] using ends
    obtain ⟨front, rfl⟩ := List.getLast?_eq_some_iff.1 slash
    rw [steps, steps, isAbsolute_append empty, stepsBetween_slash, List.append_assoc front,
      List.singleton_append, stepsBetween_append_name, List.append_assoc]
  · rw [steps, steps, isAbsolute_append empty, stepsBetween_append_name, List.append_assoc]

theorem normalize_append_name (steps : List Component) (name : FileName) :
    normalize (steps ++ [.name name]) = normalize steps ++ [.name name] := by
  cases steps with
  | nil => rfl
  | cons first rest =>
    rw [List.cons_append, normalize, List.filter_append]
    rfl

/-- A name that is joined to a path is the last component of the whole. -/
theorem components_join_name (d : Path) (name : FileName) :
    (d.join ⟨name.val⟩).components = d.components ++ [.name name] := by
  rw [components, steps_join_name, normalize_append_name, components]

variable {d : Path} {name : FileName}

theorem fileName?_join_name : (d.join ⟨name.val⟩).fileName? = some name := by
  rw [fileName?, components_join_name, List.getLast?_concat]

theorem parent?_join_name : (d.join ⟨name.val⟩).parent? = some d.components := by
  rw [parent?, components_join_name, List.getLast?_concat, List.dropLast_concat]

end Path

/-! ## Outputs -/

/-- A text that can follow the last dot of a name. -/
structure IsExtension (text : String) : Prop where
  filled : text ≠ ""
  noDot : '.' ∉ text.toList
  noSlash : '/' ∉ text.toList

namespace FileName

variable {extension : String}

/-- The name with another extension. -/
def withExtension (name : FileName) (isExtension : IsExtension extension) : FileName :=
  ⟨name.stem ++ '.' :: extension.toList,
    isFileName_append name.stem_ne_nil name.slash_not_mem_stem
      (mt String.toList_eq_nil_iff.1 isExtension.filled) isExtension.noSlash⟩

theorem divide_withExtension (name : FileName) (isExtension : IsExtension extension) :
    divide (name.withExtension isExtension).val = (name.stem, some extension.toList) :=
  divide_append name.stem_ne_nil isExtension.noDot

theorem stem_withExtension (name : FileName) (isExtension : IsExtension extension) :
    (name.withExtension isExtension).stem = name.stem := by
  rw [FileName.stem, divide_withExtension]

theorem extension?_withExtension (name : FileName) (isExtension : IsExtension extension) :
    (name.withExtension isExtension).extension? = some extension.toList := by
  rw [extension?, divide_withExtension]

end FileName

section
variable {a b d : Path} {extension : String} {name : FileName}

theorem outputPath_eq (named : a.fileName? = some name) (isExtension : IsExtension extension) :
    outputPath a d extension = d.join ⟨(name.withExtension isExtension).val⟩ := by
  rw [outputPath, Path.stem?, named]
  rfl

theorem fileName?_outputPath (named : a.fileName? = some name)
    (isExtension : IsExtension extension) :
    (outputPath a d extension).fileName? = some (name.withExtension isExtension) := by
  rw [outputPath_eq named isExtension, Path.fileName?_join_name]

theorem stem?_outputPath (named : a.fileName? = some name) (isExtension : IsExtension extension) :
    (outputPath a d extension).stem? = a.stem? := by
  rw [Path.stem?, fileName?_outputPath named isExtension, Path.stem?, named]
  exact congrArg some (name.stem_withExtension isExtension)

/-- Inputs of one stem have one output. -/
theorem outputPath_congr (same : a.stem? = b.stem?) (named : a.stem?.isSome) :
    outputPath a d extension = outputPath b d extension := by
  obtain ⟨stem, isStem⟩ := Option.isSome_iff_exists.1 named
  rw [outputPath, outputPath, ← same, isStem]
  rfl

/-- The output of a named input lies directly in the directory for outputs, has the stem of the input
and the extension for outputs, and is its own output. Two named inputs have one output, as a text or
component by component, just if they have one stem. -/
theorem outputPath_determined (isExtension : IsExtension extension) (named : a.fileName?.isSome)
    (named' : b.fileName?.isSome) :
    (outputPath a d extension).parent? = some d.components ∧
      (outputPath a d extension).stem? = a.stem? ∧
      (outputPath a d extension).extension? = some extension.toList ∧
      outputPath (outputPath a d extension) d extension = outputPath a d extension ∧
      (outputPath a d extension = outputPath b d extension ↔ a.stem? = b.stem?) ∧
      ((outputPath a d extension).components = (outputPath b d extension).components ↔
        a.stem? = b.stem?) := by
  obtain ⟨name, isName⟩ := Option.isSome_iff_exists.1 named
  obtain ⟨other, isOther⟩ := Option.isSome_iff_exists.1 named'
  have stem : (outputPath a d extension).stem? = a.stem? := stem?_outputPath isName isExtension
  have stem' : (outputPath b d extension).stem? = b.stem? := stem?_outputPath isOther isExtension
  have hasStem : a.stem?.isSome := by rw [Path.stem?, Option.isSome_map, named]
  have sameStem (same : (outputPath a d extension).components = (outputPath b d extension).components) :
      a.stem? = b.stem? := by
    rw [← stem, ← stem', Path.stem?, Path.stem?, Path.fileName?, Path.fileName?, same]
  refine ⟨?_, stem, ?_, ?_, ?_, ?_⟩
  · rw [outputPath_eq isName isExtension, Path.parent?_join_name]
  · rw [Path.extension?, fileName?_outputPath isName isExtension]
    exact name.extension?_withExtension isExtension
  · exact (outputPath_congr stem.symm hasStem).symm
  · exact ⟨fun same => sameStem (congrArg Path.components same),
      fun same => outputPath_congr same hasStem⟩
  · exact ⟨sameStem, fun same => congrArg Path.components (outputPath_congr same hasStem)⟩

/-- A stem that alone would lead to where one is, in a directory with idle slashes. -/
theorem outputPath_determined_dots :
    let a : Path := .ofString "x/..xml"
    let b : Path := .ofString "/..tar/"
    let d : Path := .ofString "out//."
    IsExtension "in" ∧ a.fileName?.isSome ∧ b.fileName?.isSome ∧
      outputPath a d "in" = .ofString "out//./..in" ∧ a.stem? = some ['.'] ∧
      (outputPath a d "in").parent? = some d.components ∧
      outputPath a d "in" = outputPath b d "in" := by
  intro a b d
  have isExtension : IsExtension "in" := ⟨by decide, by decide, by decide⟩
  have named : a.fileName?.isSome := by decide
  have named' : b.fileName?.isSome := by decide
  have determined := @outputPath_determined a b d "in" isExtension named named'
  exact ⟨isExtension, named, named', by decide, by decide, determined.1,
    determined.2.2.2.2.1.2 (by decide)⟩

end
end GraphScribe
