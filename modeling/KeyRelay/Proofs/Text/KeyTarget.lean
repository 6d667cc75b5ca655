import KeyRelay.Proofs.Text.Blank
import KeyRelay.Proofs.Text.Decimal
import KeyRelay.Text.KeyTarget

/-! # The grammar of key targets

A key target is a number, or two numbers with a colon between them, each with white space
around it. What is not of this form is reported by its first bad part, as it stands in the
argument without the white space at its ends. -/
set_option autoImplicit false

namespace KeyRelay.Text

/-- One or more digits, with or without a plus sign in front, that denote a 32-bit number. -/
def Unsigned (text : List Char) (value : UInt32) : Prop :=
  ∃ plus digits, text = plus ++ digits ∧ (plus = [] ∨ plus = ['+']) ∧ digits ≠ [] ∧
    (∀ c ∈ digits, isDigit c = true) ∧ placeValue digits = value.toNat

/-- Such a number with white space around it. -/
def Numeral (text : List Char) (value : UInt32) : Prop :=
  ∃ before core after, text = before ++ core ++ after ∧ AllBlank before ∧ AllBlank after ∧
    Unsigned core value

/-- A text is cut behind its plus sign, if it has one. -/
theorem unsigned?_append {bound : Nat} {plus digits : List Char} (sign : plus = [] ∨ plus = ['+'])
    (plain : plus = [] → ∀ rest, digits ≠ '+' :: rest) :
    unsigned? bound (plus ++ digits) =
      if digits ≠ [] ∧ digits.all isDigit ∧ digitsValue digits < bound then
        some (digitsValue digits)
      else none := by
  rcases sign with rfl | rfl
  · rw [List.nil_append, unsigned?]
    exact plain rfl
  · rfl

theorem exists_plus (text : List Char) :
    ∃ plus digits, text = plus ++ digits ∧ (plus = [] ∨ plus = ['+']) ∧
      (plus = [] → ∀ rest, digits ≠ '+' :: rest) := by
  by_cases signed : ∃ rest, text = '+' :: rest
  · obtain ⟨rest, rfl⟩ := signed
    exact ⟨['+'], rest, rfl, .inr rfl, nofun⟩
  · exact ⟨[], text, rfl, .inl rfl, fun _ rest same => signed ⟨rest, same⟩⟩

theorem unsigned?_eq_some_iff {text : List Char} {value : UInt32} :
    unsigned? UInt32.size text = some value.toNat ↔ Unsigned text value := by
  constructor
  · intro found
    obtain ⟨plus, digits, rfl, sign, plain⟩ := exists_plus text
    rw [unsigned?_append sign plain, Option.ite_none_right_eq_some, Option.some.injEq,
      digitsValue_eq_placeValue] at found
    obtain ⟨⟨nonempty, all, _⟩, same⟩ := found
    exact ⟨plus, digits, rfl, sign, nonempty, List.all_eq_true.mp all, same⟩
  · rintro ⟨plus, digits, rfl, sign, nonempty, all, same⟩
    have plain : plus = [] → ∀ rest, digits ≠ '+' :: rest := by
      rintro _ rest rfl
      exact absurd (all '+' List.mem_cons_self) (by decide)
    have small : placeValue digits < UInt32.size := same ▸ value.toNat_lt
    rw [unsigned?_append sign plain, digitsValue_eq_placeValue,
      if_pos ⟨nonempty, List.all_eq_true.mpr all, small⟩, same]

theorem unsigned?_lt {bound value : Nat} {text : List Char}
    (found : unsigned? bound text = some value) : value < bound := by
  obtain ⟨plus, digits, rfl, sign, plain⟩ := exists_plus text
  rw [unsigned?_append sign plain, Option.ite_none_right_eq_some, Option.some.injEq] at found
  exact found.2 ▸ found.1.2.2

/-- The characters of a number without white space. -/
theorem Unsigned.mem {text : List Char} {value : UInt32} (number : Unsigned text value) {c : Char}
    (member : c ∈ text) : c = '+' ∨ isDigit c = true := by
  obtain ⟨plus, digits, rfl, sign, _, all, _⟩ := number
  rcases List.mem_append.mp member with inSign | inDigits
  · rcases sign with rfl | rfl
    · simp at inSign
    · exact .inl (List.mem_singleton.mp inSign)
  · exact .inr (all c inDigits)

theorem Unsigned.trim_eq {text : List Char} {value : UInt32} (number : Unsigned text value) :
    trim text = text := by
  have solid : ∀ c ∈ text, isBlank c = false := by
    intro c member
    rcases number.mem member with rfl | digit
    · decide
    · exact not_isBlank_of_isDigit digit
  have trimmed : Trimmed text text := by
    refine ⟨⟨[], [], (List.append_nil text).symm, allBlank_nil, allBlank_nil⟩, ?_, ?_⟩
    · exact fun c head => solid c (List.mem_of_head? head)
    · exact fun c head => solid c (List.mem_reverse.mp (List.mem_of_head? head))
  exact trimmed.trim_eq

theorem numeral_iff_trim {text : List Char} {value : UInt32} :
    Numeral text value ↔ Unsigned (trim text) value := by
  constructor
  · rintro ⟨before, core, after, rfl, blank, blankBehind, number⟩
    rw [trim_surrounded core blank blankBehind, number.trim_eq]
    exact number
  · intro number
    obtain ⟨⟨before, after, joined, blank, blankBehind⟩, _, _⟩ := trimmed_trim text
    exact ⟨before, trim text, after, joined, blank, blankBehind, number⟩

theorem numeral_trim {text : List Char} {value : UInt32} :
    Numeral (trim text) value ↔ Numeral text value := by
  rw [numeral_iff_trim, numeral_iff_trim, trim_trim]

theorem numeral_surrounded {before after : List Char} {value : UInt32} (text : List Char)
    (blank : AllBlank before) (blankBehind : AllBlank after) :
    Numeral (before ++ text ++ after) value ↔ Numeral text value := by
  rw [numeral_iff_trim, numeral_iff_trim, trim_surrounded text blank blankBehind]

theorem numeral_behind_blank {before text : List Char} {value : UInt32}
    (blank : AllBlank before) : Numeral (before ++ text) value ↔ Numeral text value := by
  rw [← numeral_surrounded text blank allBlank_nil, List.append_nil]

theorem numeral_before_blank {text after : List Char} {value : UInt32}
    (blank : AllBlank after) : Numeral (text ++ after) value ↔ Numeral text value := by
  rw [← numeral_surrounded text allBlank_nil blank, List.nil_append]

theorem Numeral.colon_notMem {text : List Char} {value : UInt32} (number : Numeral text value) :
    ':' ∉ text := by
  obtain ⟨before, core, after, rfl, blank, blankBehind, digits⟩ := number
  intro member
  rcases List.mem_append.mp member with inFront | inAfter
  · rcases List.mem_append.mp inFront with inBefore | inCore
    · exact absurd (blank ':' inBefore) (by decide)
    · rcases digits.mem inCore with plus | digit
      · exact absurd plus (by decide)
      · exact absurd digit (by decide)
  · exact absurd (blankBehind ':' inAfter) (by decide)

theorem numeral_decimal (value : UInt32) : Numeral (decimal value.toNat) value := by
  refine ⟨[], decimal value.toNat, [], (List.append_nil _).symm, allBlank_nil, allBlank_nil, ?_⟩
  exact ⟨[], _, rfl, .inl rfl, decimal_ne_nil _, fun _ member => isDigit_of_mem_decimal member,
    placeValue_decimal _⟩

end KeyRelay.Text

namespace KeyRelay.KeyTarget

open Text

/-- What a text denotes as a key target. -/
inductive Denotes (text : List Char) : KeyAddress → Prop
  | position {index : UInt32} (number : Numeral text index) : Denotes text (.position index)
  | coordinate {row column : List Char} {place : Coordinate} (split : text = row ++ ':' :: column)
    (first : Numeral row place.row) (second : Numeral column place.col) :
    Denotes text (.coordinate place)

/-- The part of a trimmed argument that is found bad, and how it stands there. Everything behind
the first colon is the column, which is looked at only if the row is good. -/
inductive Complains (core : List Char) : String → List Char → Prop
  | position (single : ':' ∉ core) (bad : ∀ value, ¬ Numeral core value) :
    Complains core "position" core
  | row {row column : List Char} (split : core = row ++ ':' :: column) (first : ':' ∉ row)
    (bad : ∀ value, ¬ Numeral row value) : Complains core "row" row
  | column {row column : List Char} {value : UInt32} (split : core = row ++ ':' :: column)
    (good : Numeral row value) (bad : ∀ value, ¬ Numeral column value) :
    Complains core "column" column

theorem parsePart_of_numeral {written : List Char} {value : UInt32} (part : Part)
    (number : Numeral written value) : parsePart part written = .ok value := by
  rw [numeral_iff_trim, ← unsigned?_eq_some_iff] at number
  rw [parsePart, number]
  exact congrArg Except.ok (UInt32.ofNat_toNat)

theorem parsePart_of_bad {written : List Char} (part : Part)
    (bad : ∀ value, ¬ Numeral written value) :
    parsePart part written = .error ⟨part, written⟩ := by
  cases found : unsigned? UInt32.size (trim written) with
  | none => rw [parsePart, found]
  | some number =>
    have same : (UInt32.ofNat number).toNat = number :=
      UInt32.toNat_ofNat_of_lt' (unsigned?_lt found)
    apply absurd _ (bad (UInt32.ofNat number))
    rw [numeral_iff_trim, ← unsigned?_eq_some_iff, found, same]

theorem splitColon_append {row : List Char} (first : ':' ∉ row) (column : List Char) :
    splitColon (row ++ ':' :: column) = some (row, column) := by
  induction row with
  | nil => rfl
  | cons c rest ih =>
    rw [List.mem_cons, not_or] at first
    rw [List.cons_append, splitColon, ih first.2]
    · rfl
    · exact first.1 ∘ Eq.symm

theorem splitColon_of_notMem {text : List Char} (single : ':' ∉ text) :
    splitColon text = none := by
  induction text with
  | nil => rfl
  | cons c rest ih =>
    rw [List.mem_cons, not_or] at single
    rw [splitColon, ih single.2]
    · rfl
    · exact single.1 ∘ Eq.symm

/-- A text has no colon, or is cut at its first. -/
theorem exists_split (text : List Char) :
    ':' ∉ text ∨ ∃ row column, text = row ++ ':' :: column ∧ ':' ∉ row := by
  by_cases colon : ':' ∈ text
  · obtain ⟨row, column, joined, first⟩ := List.eq_append_cons_of_mem colon
    exact .inr ⟨row, column, joined, first⟩
  · exact .inl colon

variable {argument : List Char}

theorem parseChars_of_denotes {address : KeyAddress} (denotes : Denotes argument address) :
    parseChars argument = .ok address := by
  cases denotes with
  | @position index number =>
    have trimmed : Numeral (trim argument) index := numeral_trim.mpr number
    rw [parseChars]
    simp only [splitColon_of_notMem trimmed.colon_notMem, parsePart_of_numeral _ trimmed]
    rfl
  | @coordinate row column place split first second =>
    obtain ⟨before, rowCut, blank⟩ := exists_trimStart row
    obtain ⟨after, columnCut, blankBehind⟩ := exists_trimEnd column
    have inner : Numeral (trimStart row) place.row := by
      rw [rowCut] at first
      exact (numeral_behind_blank blank).mp first
    have outer : Numeral (trimEnd column) place.col := by
      rw [columnCut] at second
      exact (numeral_before_blank blankBehind).mp second
    rw [parseChars, split, trim_append_cons (by decide)]
    simp only [splitColon_append inner.colon_notMem, parsePart_of_numeral _ inner,
      parsePart_of_numeral _ outer]
    rfl

theorem parseChars_of_complains {name : String} {quoted : List Char}
    (complains : Complains (trim argument) name quoted) :
    ∃ bad, parseChars argument = .error bad ∧ bad.part.name = name ∧ bad.written = quoted := by
  rw [parseChars]
  cases complains with
  | position single bad =>
    simp only [splitColon_of_notMem single, parsePart_of_bad _ bad]
    exact ⟨_, rfl, rfl, rfl⟩
  | @row row column split first bad =>
    simp only [split, splitColon_append first, parsePart_of_bad _ bad]
    exact ⟨_, rfl, rfl, rfl⟩
  | @column row column value split good bad =>
    simp only [split, splitColon_append good.colon_notMem, parsePart_of_numeral _ good,
      parsePart_of_bad _ bad]
    exact ⟨_, rfl, rfl, rfl⟩

/-- What is denoted without the white space at the ends is denoted with it. -/
theorem denotes_of_trim {address : KeyAddress} (denotes : Denotes (trim argument) address) :
    Denotes argument address := by
  cases denotes with
  | position number => exact .position (numeral_trim.mp number)
  | @coordinate row column place split first second =>
    obtain ⟨⟨before, after, joined, blank, blankBehind⟩, _, _⟩ := trimmed_trim argument
    have cut : argument = (before ++ row) ++ ':' :: (column ++ after) := by
      rw [joined, split]
      simp
    exact .coordinate cut ((numeral_behind_blank blank).mpr first)
      ((numeral_before_blank blankBehind).mpr second)

theorem denotes_or_complains (argument : List Char) :
    (∃ address, Denotes argument address) ∨
      ∃ name quoted, Complains (trim argument) name quoted := by
  rcases exists_split (trim argument) with single | ⟨row, column, split, first⟩
  · by_cases number : ∃ value, Numeral (trim argument) value
    · obtain ⟨index, number⟩ := number
      exact .inl ⟨_, denotes_of_trim (.position number)⟩
    · exact .inr ⟨_, _, .position single (not_exists.mp number)⟩
  · by_cases rowNumber : ∃ value, Numeral row value
    · obtain ⟨r, good⟩ := rowNumber
      by_cases columnNumber : ∃ value, Numeral column value
      · obtain ⟨c, number⟩ := columnNumber
        have denoted : Denotes (trim argument) (.coordinate ⟨r, c⟩) :=
          .coordinate split good number
        exact .inl ⟨_, denotes_of_trim denoted⟩
      · exact .inr ⟨_, _, .column split good (not_exists.mp columnNumber)⟩
    · exact .inr ⟨_, _, .row split first (not_exists.mp rowNumber)⟩

theorem parseChars_eq_ok {address : KeyAddress} :
    parseChars argument = .ok address ↔ Denotes argument address := by
  constructor
  · intro parsed
    rcases denotes_or_complains argument with ⟨found, denotes⟩ | ⟨name, quoted, complains⟩
    · cases parsed.symm.trans (parseChars_of_denotes denotes)
      exact denotes
    · obtain ⟨bad, refused, _⟩ := parseChars_of_complains complains
      cases parsed.symm.trans refused
  · exact parseChars_of_denotes

theorem complains_of_refused {bad : BadPart} (refused : parseChars argument = .error bad) :
    Complains (trim argument) bad.part.name bad.written := by
  rcases denotes_or_complains argument with ⟨found, denotes⟩ | ⟨name, quoted, complains⟩
  · cases refused.symm.trans (parseChars_of_denotes denotes)
  · obtain ⟨found, refusedSo, rfl, rfl⟩ := parseChars_of_complains complains
    cases refused.symm.trans refusedSo
    exact complains

theorem parse_toString (position row column : UInt32) :
    parse (toString position) = .ok (.position position) ∧
    parse (toString row ++ ":" ++ toString column) = .ok (.coordinate ⟨row, column⟩) := by
  have written : ∀ value : UInt32, (toString value).toList = decimal value.toNat := by
    intro value
    change (Nat.repr value.toNat).toList = decimal value.toNat
    exact Nat.toList_repr
  constructor
  · rw [parse, written]
    exact parseChars_of_denotes (.position (numeral_decimal position))
  · have split : (toString row ++ ":" ++ toString column).toList =
        decimal row.toNat ++ ':' :: decimal column.toNat := by
      rw [String.toList_append, String.toList_append, written, written, List.append_assoc]
      rfl
    exact parseChars_of_denotes
      (.coordinate split (numeral_decimal row) (numeral_decimal column))

/-- Exactly the texts of the grammar are key targets, and give what they denote. Of any other
the message says which part is bad and quotes it. A number and a cell are read back from their
decimal forms. -/
theorem parse_by_grammar :
    (∀ (argument : String) (address : KeyAddress),
      parse argument = .ok address ↔ Denotes argument.toList address) ∧
    (∀ (argument message : String), (parse argument).mapError BadPart.text = .error message ↔
      ∃ core name quoted, Trimmed argument.toList core ∧ Complains core name quoted ∧
        message = "invalid " ++ name ++ " `" ++ String.ofList quoted ++
          "`: expected a non-negative integer") ∧
    ∀ position row column : UInt32,
      parse (toString position) = .ok (.position position) ∧
      parse (toString row ++ ":" ++ toString column) = .ok (.coordinate ⟨row, column⟩) := by
  refine ⟨fun argument address => parseChars_eq_ok, ?_, parse_toString⟩
  intro argument message
  constructor
  · intro refused
    cases parsed : parse argument with
    | ok address =>
      rw [parsed] at refused
      cases refused
    | error bad =>
      rw [parsed] at refused
      cases refused
      exact ⟨_, _, _, trimmed_trim argument.toList, complains_of_refused parsed, rfl⟩
  · rintro ⟨core, name, quoted, trimmed, complains, rfl⟩
    rw [← trimmed.trim_eq] at complains
    obtain ⟨bad, refused, rfl, rfl⟩ := parseChars_of_complains complains
    rw [parse, refused]
    rfl

/-- The sign and the zeros in front do not count; everything behind the first colon is the
column. -/
example : parse " +007 : 3\t" = .ok (.coordinate ⟨7, 3⟩) ∧
    (parse "1:2:3").mapError BadPart.text =
      .error "invalid column `2:3`: expected a non-negative integer" := by
  decide +kernel

end KeyRelay.KeyTarget
