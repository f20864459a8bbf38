import GraphScribe.Proofs.Text.Boundaries
import GraphScribe.Template.Directive

/-!
# Lists that are written with separators

A list is written with one separator between every two of its items. If no item holds the separator,
the items are found again between the separators. A list without items is written as nothing, and
then nothing is found.

* `separated_flatten`: a separated list of pieces is its items with the separator between them.
* `Utf8.splitOn_encode`: the items of a text are found again in its bytes.
* `Bytes.parts_encode`: the same where there may be no items.
* `Bytes.parts_table`: a list of lines with columns.
-/

namespace GraphScribe

/-! ## Items with a separator between them -/

theorem separated_flatten (separator : List Char) (items : List (List (List Char))) :
    (separated separator items).flatten = separator.intercalate (items.map List.flatten) := by
  induction items with
  | nil => rfl
  | cons item rest ih =>
    cases rest with
    | nil => exact (List.append_nil _).symm
    | cons next rest =>
      calc (separated separator (item :: next :: rest)).flatten
          = item.flatten ++ (separator ++ (separated separator (next :: rest)).flatten) :=
            List.flatten_append
        _ = separator.intercalate ((item :: next :: rest).map List.flatten) := by
            rw [ih, ← List.append_assoc]
            exact List.intercalate_cons_cons.symm

/-- Items that are one piece each. -/
theorem separated_singletons {α : Type} (separator : List Char) (items : List α)
    (text : α → List Char) :
    (separated separator (items.map fun item => [text item])).flatten =
      separator.intercalate (items.map text) := by
  rw [separated_flatten, List.map_map]
  exact congrArg _ (List.map_congr_left fun item _ => List.append_nil _)

/-- What stands in a separated list is the separator or comes from one of the items. -/
theorem mem_separated_map {α : Type} {line : α → List (List Char)} {items : List α}
    {separator piece : List Char} (mem : piece ∈ separated separator (items.map line)) :
    piece = separator ∨ ∃ item, piece ∈ line item := by
  induction items with
  | nil => cases mem
  | cons item rest ih =>
    cases rest with
    | nil => exact .inr ⟨item, mem⟩
    | cons next rest =>
      rcases List.mem_append.1 mem with first | later
      · exact .inr ⟨item, first⟩
      rcases List.mem_cons.1 later with isSeparator | later
      · exact .inl isSeparator
      · exact ih later

theorem mem_intercalate {separator : List Char} {items : List (List Char)} {c : Char}
    (held : c ∈ separator.intercalate items) : c ∈ separator ∨ ∃ item ∈ items, c ∈ item := by
  induction items with
  | nil => cases held
  | cons item rest ih =>
    cases rest with
    | nil =>
      rw [List.intercalate_singleton] at held
      exact .inr ⟨item, List.mem_cons_self, held⟩
    | cons next rest =>
      rw [List.intercalate_cons_cons, List.append_assoc] at held
      rcases List.mem_append.1 held with first | held
      · exact .inr ⟨item, List.mem_cons_self, first⟩
      rcases List.mem_append.1 held with between | later
      · exact .inl between
      rcases ih later with between | ⟨other, isItem, inside⟩
      · exact .inl between
      · exact .inr ⟨other, List.mem_cons_of_mem _ isItem, inside⟩

theorem intercalate_ne_nil {separator : List Char} {items : List (List Char)} (some : items ≠ [])
    (filled : ∀ item ∈ items, item ≠ []) : separator.intercalate items ≠ [] := by
  obtain ⟨item, rest, rfl⟩ := List.exists_cons_of_ne_nil some
  have first : item ≠ [] := filled item List.mem_cons_self
  cases rest with
  | nil =>
    rw [List.intercalate_singleton]
    exact first
  | cons next rest =>
    rw [List.intercalate_cons_cons, List.append_assoc]
    exact List.append_ne_nil_of_left_ne_nil first _

/-! ## Bytes -/

namespace Utf8

theorem encode_intercalate (separator : List Char) (items : List (List Char)) :
    encode (separator.intercalate items) = (encode separator).intercalate (items.map encode) := by
  induction items with
  | nil => rfl
  | cons item rest ih =>
    cases rest with
    | nil => rw [List.intercalate_singleton, List.map_cons, List.map_nil, List.intercalate_singleton]
    | cons next rest =>
      rw [List.intercalate_cons_cons, encode_append, encode_append, ih]
      exact List.intercalate_cons_cons.symm

theorem encode_ne_nil {text : List Char} (filled : text ≠ []) : encode text ≠ [] := by
  obtain ⟨c, rest, rfl⟩ := List.exists_cons_of_ne_nil filled
  exact encode_cons_ne_nil c rest

theorem isAscii_lineEnd : IsAscii '\n' := by decide

theorem isAscii_space : IsAscii ' ' := by decide

/-- The byte of an ASCII character. -/
def byte (c : Char) : UInt8 := UInt8.ofNat c.val.toNat

variable {separator : Char}

theorem encode_singleton (ascii : IsAscii separator) : encode [separator] = [byte separator] := by
  rw [encode_cons, encodeChar_of_ascii ascii]
  rfl

theorem byte_not_mem_encode (ascii : IsAscii separator) {text : List Char}
    (absent : separator ∉ text) : byte separator ∉ encode text := by
  apply List.count_eq_zero.1
  rw [byte, count_encode ascii]
  exact List.count_eq_zero.2 absent

/-- The items of a text that are free of the separator are found again in its bytes. -/
theorem splitOn_encode (ascii : IsAscii separator) {items : List (List Char)}
    (free : ∀ item ∈ items, separator ∉ item) (some : items ≠ []) :
    (encode ([separator].intercalate items)).splitOn (byte separator) = items.map encode := by
  rw [encode_intercalate, encode_singleton ascii]
  apply List.splitOn_intercalate
  · intro bytes isItem
    obtain ⟨item, held, rfl⟩ := List.mem_map.1 isItem
    exact byte_not_mem_encode ascii (free item held)
  · exact mt List.map_eq_nil_iff.1 some

end Utf8

namespace Bytes

/-- What stands between separators; nothing has no parts. -/
def parts (separator : UInt8) (bytes : Bytes) : List Bytes :=
  if bytes = [] then [] else bytes.splitOn separator

theorem parts_of_ne {bytes : Bytes} (filled : bytes ≠ []) (separator : UInt8) :
    parts separator bytes = bytes.splitOn separator :=
  if_neg filled

/-- Items that are not empty are found again, however many they are. -/
theorem parts_encode {separator : Char} (ascii : Utf8.IsAscii separator) {items : List (List Char)}
    (free : ∀ item ∈ items, separator ∉ item) (filled : ∀ item ∈ items, item ≠ []) :
    parts (Utf8.byte separator) (Utf8.encode ([separator].intercalate items)) =
      items.map Utf8.encode := by
  by_cases some : items = []
  · rw [some]
    rfl
  · rw [parts_of_ne (Utf8.encode_ne_nil (intercalate_ne_nil some filled))]
    exact Utf8.splitOn_encode ascii free some

/-! ## Lines with columns -/

/-- The byte at the end of a line. -/
def lineEnd : UInt8 := 0x0A

/-- The byte between two columns. -/
def space : UInt8 := 0x20

/-- A text that may stand in a column. -/
structure IsColumn (text : List Char) : Prop where
  filled : text ≠ []
  noSpace : ' ' ∉ text
  noLineEnd : '\n' ∉ text

section
variable {columns : List (List Char)}

theorem lineEnd_not_mem_columns (plain : ∀ text ∈ columns, IsColumn text) :
    '\n' ∉ [' '].intercalate columns := by
  intro held
  rcases mem_intercalate held with between | ⟨text, isText, inside⟩
  · exact absurd between (by decide)
  · exact (plain text isText).noLineEnd inside

theorem splitOn_columns (plain : ∀ text ∈ columns, IsColumn text) (some : columns ≠ []) :
    (Utf8.encode ([' '].intercalate columns)).splitOn space = columns.map Utf8.encode :=
  Utf8.splitOn_encode Utf8.isAscii_space (fun text held => (plain text held).noSpace) some

theorem parts_columns (plain : ∀ text ∈ columns, IsColumn text) :
    parts space (Utf8.encode ([' '].intercalate columns)) = columns.map Utf8.encode :=
  parts_encode Utf8.isAscii_space (fun text held => (plain text held).noSpace)
    fun text held => (plain text held).filled

end

/-- Lines of columns are found again, and the columns of each. -/
theorem parts_table {α : Type} {items : List α} {line : α → List (List Char)}
    (columns : α → List (List Char))
    (shape : ∀ item ∈ items, (line item).flatten = [' '].intercalate (columns item))
    (some : ∀ item ∈ items, columns item ≠ [])
    (plain : ∀ item ∈ items, ∀ text ∈ columns item, IsColumn text) :
    (parts lineEnd (Utf8.encode (separated ['\n'] (items.map line)).flatten)).map
      (·.splitOn space) = items.map fun item => (columns item).map Utf8.encode := by
  have lines : (items.map line).map List.flatten =
      items.map fun item => [' '].intercalate (columns item) := by
    rw [List.map_map]
    exact List.map_congr_left shape
  have free : ∀ text ∈ items.map fun item => [' '].intercalate (columns item), '\n' ∉ text := by
    intro text isLine
    obtain ⟨item, held, rfl⟩ := List.mem_map.1 isLine
    exact lineEnd_not_mem_columns (plain item held)
  have filled : ∀ text ∈ items.map fun item => [' '].intercalate (columns item), text ≠ [] := by
    intro text isLine
    obtain ⟨item, held, rfl⟩ := List.mem_map.1 isLine
    exact intercalate_ne_nil (some item held) fun column isColumn =>
      (plain item held column isColumn).filled
  have found := parts_encode Utf8.isAscii_lineEnd free filled
  rw [separated_flatten, lines]
  change (parts (Utf8.byte '\n') _).map _ = _
  rw [found, List.map_map, List.map_map]
  exact List.map_congr_left fun item held => splitOn_columns (plain item held) (some item held)

end Bytes
end GraphScribe
