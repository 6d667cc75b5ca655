import KeyRelay.Proofs.Toml.Standard
import KeyRelay.Toml.Builtin.Document
import KeyRelay.Toml.Builtin.Render

/-! # Strings are read and written by the rules

Whatever notation a string is in, what is read is the string, and what stands behind the
closing quotes is left. Whichever form a string is written in is one of the notations. A form
with double quotes would do for any string, because every character that cannot stand for
itself has an escape; the forms with single quotes are only taken for strings that need none. -/
set_option autoImplicit false

namespace KeyRelay.Toml

open Standard

/-! ## Characters -/

theorem isPlain_iff {c : Char} : isPlain c = true ↔ Plain c := by
  have codes : ' '.toNat = 32 ∧ '\t'.toNat = 9 ∧ '~'.toNat = 126 ∧ '\u0080'.toNat = 128 := by
    decide
  simp only [isPlain, Plain, Char.le_def, UInt32.le_iff_toNat_le, Bool.or_eq_true,
    Bool.and_eq_true, beq_iff_eq, decide_eq_true_eq, ← Char.toNat_inj, ne_eq, Char.toNat_val,
    codes]
  omega

theorem plain_iff {c : Char} : Plain c ↔ needsEscape c = false ∧ c ≠ '\n' := by
  have codes : ' '.toNat = 32 ∧ '\t'.toNat = 9 ∧ '\n'.toNat = 10 ∧ '\x7f'.toNat = 127 := by
    decide
  simp only [Plain, needsEscape, Char.lt_def, UInt32.lt_iff_toNat_lt, Bool.or_eq_false_iff,
    Bool.and_eq_false_iff, ← Char.toNat_inj, ne_eq, Char.toNat_val, beq_eq_false_iff_ne,
    decide_eq_false_iff_not, bne_eq_false_iff_eq, codes]
  omega

theorem toNat_lt_of_needsEscape {c : Char} (needed : needsEscape c = true) : c.toNat < 128 := by
  have codes : ' '.toNat = 32 ∧ '\x7f'.toNat = 127 := by decide
  simp only [needsEscape, Char.lt_def, UInt32.lt_iff_toNat_lt, Bool.or_eq_true, Bool.and_eq_true,
    beq_iff_eq, decide_eq_true_eq, ← Char.toNat_inj, Char.toNat_val, codes] at needed
  omega

theorem isBasic_of_plain {c : Char} (plain : Plain c) (quote : c ≠ '"') (backslash : c ≠ '\\') :
    isBasic c = true := by
  simp [isBasic, isPlain_iff.mpr plain, quote, backslash]

theorem ne_return {c : Char} (plain : Plain c ∨ c = '\n') : c ≠ '\r' := by
  rintro rfl
  rw [← isPlain_iff] at plain
  revert plain
  decide

/-! ## Reading escapes -/

theorem hexValue?_hexDigit {c : Char} {value : Nat} (digit : HexDigit c value) :
    hexValue? c = some value := by
  have decimal : ∀ value : Fin 10, hexValue? (.ofNat ('0'.toNat + value)) = some value.val := by
    decide
  have upper : ∀ value : Fin 6,
      hexValue? (.ofNat ('A'.toNat + value)) = some (10 + value.val) := by
    decide
  have lower : ∀ value : Fin 6,
      hexValue? (.ofNat ('a'.toNat + value)) = some (10 + value.val) := by
    decide
  cases digit with
  | decimal small => exact decimal ⟨_, small⟩
  | upper small => exact upper ⟨_, small⟩
  | lower small => exact lower ⟨_, small⟩

theorem hexNumber?_hexadecimal {digits : List Char} {number : Nat}
    (written : Hexadecimal digits number) : hexNumber? digits = some number := by
  induction written with
  | nil => rfl
  | snoc high low ih =>
    rw [hexNumber?] at ih ⊢
    rw [List.foldl_append, ih]
    simp [hexValue?_hexDigit low]

theorem scalar?_toNat (c : Char) : scalar? c.toNat = some c := by
  have valid : c.toNat.isValidChar := c.valid
  rw [scalar?, if_pos valid, Char.ofNat_toNat]

theorem codePointEscape?_hexadecimal {digits : List Char} {c : Char}
    (written : Hexadecimal digits c.toNat) (rest : List Char) :
    codePointEscape? digits.length (digits ++ rest) = some (c, rest) := by
  rw [codePointEscape?, List.take_left, List.drop_left, if_pos rfl, hexNumber?_hexadecimal written,
    Option.bind_eq_bind, Option.bind_some, scalar?_toNat]
  rfl

theorem escape?_escaped {code : List Char} {c : Char} (escaped : Escaped code c)
    (rest : List Char) : escape? (code ++ rest) = some (c, rest) := by
  cases escaped with
  | short four codePoint =>
    rw [List.cons_append, escape?, ← four, codePointEscape?_hexadecimal codePoint]
  | long eight codePoint =>
    rw [List.cons_append, escape?, ← eight, codePointEscape?_hexadecimal codePoint]
  | _ => rfl

/-- An escape is no line that goes on. -/
theorem continuation?_escaped {code : List Char} {c : Char} (escaped : Escaped code c)
    (rest : List Char) : continuation? (code ++ rest) = none := by
  cases escaped <;> rfl

/-! ## Reading strings in double quotes -/

/-- Each step reads what one character was written in. -/
theorem basicString?_basic {code text : List Char} (body : Basic code text) (rest : List Char)
    {more : Nat} (enough : text.length < more) :
    basicString? more (code ++ '"' :: rest) = some (text, rest) := by
  induction body generalizing more with
  | nil =>
    obtain ⟨more, rfl⟩ := Nat.exists_eq_add_one.mpr enough
    rfl
  | plain plain noQuote noBackslash _ ih =>
    obtain ⟨more, rfl⟩ := Nat.exists_eq_add_one.mpr (Nat.zero_lt_of_lt enough)
    rw [List.cons_append, basicString?, if_pos (isBasic_of_plain plain noQuote noBackslash),
      ih (by simpa using enough)]
    · rfl
    · exact noQuote
    · exact noBackslash
  | escape escaped _ ih =>
    obtain ⟨more, rfl⟩ := Nat.exists_eq_add_one.mpr (Nat.zero_lt_of_lt enough)
    rw [List.cons_append, List.append_assoc, basicString?, escape?_escaped escaped]
    simp only [ih (by simpa using enough : _ < more), Option.bind_eq_bind, Option.bind_some,
      Option.pure_def]

theorem closing_none {quote : Char} {rest : List Char} (apart : rest.head? ≠ some quote) :
    closing quote rest = ([], rest) := by
  cases rest with
  | nil => rfl
  | cons first rest =>
    have other : first ≠ quote := fun same => apart (by rw [same]; rfl)
    cases rest with
    | nil => rw [closing, if_neg other]
    | cons second rest => rw [closing, if_neg (fun both => other both.1), if_neg other]

theorem closing_one {quote : Char} {rest : List Char} (apart : rest.head? ≠ some quote) :
    closing quote (quote :: rest) = ([quote], rest) := by
  cases rest with
  | nil => rw [closing, if_pos rfl]
  | cons second rest =>
    have other : second ≠ quote := fun same => apart (by rw [same]; rfl)
    rw [closing, if_neg (fun both => other both.2), if_pos rfl]

theorem closing_two (quote : Char) (rest : List Char) :
    closing quote (quote :: quote :: rest) = ([quote, quote], rest) := by
  rw [closing, if_pos ⟨rfl, rfl⟩]

/-- A quote that does not begin three of them stands for itself. -/
theorem longBasicString?_quote {rest : List Char} (lone : ∀ behind, rest ≠ '"' :: '"' :: behind)
    (more : Nat) :
    longBasicString? (more + 1) ('"' :: rest) =
      (longBasicString? more rest).map fun (text, rest) => ('"' :: text, rest) := by
  rw [longBasicString?, if_pos (by decide)]
  · cases longBasicString? more rest <;> rfl
  · exact fun behind _ same => lone behind same
  · exact fun _ same => absurd same (by decide)
  · decide

/-- Three quotes in a row only come about where the string ends, so up to two in front of the
closing ones belong to it. -/
theorem longBasicString?_longBasic {run : Nat} {code text : List Char}
    (body : LongBasic run code text) {rest : List Char} (apart : rest.head? ≠ some '"') {more : Nat}
    (enough : text.length < more) :
    longBasicString? more (code ++ '"' :: '"' :: '"' :: rest) = some (text, rest) := by
  induction body generalizing more with
  | nil run =>
    obtain ⟨more, rfl⟩ := Nat.exists_eq_add_one.mpr enough
    rw [List.nil_append, longBasicString?, closing_none apart]
  | @plain run c code text plain noQuote noBackslash _ ih =>
    obtain ⟨more, rfl⟩ := Nat.exists_eq_add_one.mpr (Nat.zero_lt_of_lt enough)
    have stands : (isBasic c || c == '"' || c == '\n') = true := by
      rcases plain with plain | rfl
      · simp [isBasic_of_plain plain noQuote noBackslash]
      · rfl
    rw [List.cons_append, longBasicString?, if_pos stands, ih (by simpa using enough)]
    · rfl
    · exact fun _ same _ => noQuote same
    · exact fun _ same _ => ne_return plain same
    · exact noBackslash
  | escape escaped _ ih =>
    obtain ⟨more, rfl⟩ := Nat.exists_eq_add_one.mpr (Nat.zero_lt_of_lt enough)
    rw [List.cons_append, List.append_assoc, longBasicString?, continuation?_escaped escaped]
    simp only [escape?_escaped escaped, ih (by simpa using enough : _ < more), Option.bind_eq_bind,
      Option.bind_some, Option.pure_def]
  | @quote run code text few following ih =>
    obtain ⟨more, rfl⟩ := Nat.exists_eq_add_one.mpr (Nat.zero_lt_of_lt enough)
    have read := ih (by simpa using enough : text.length < more)
    -- what follows this quote decides whether it is one of the last three, four or five
    cases following with
    | nil => rw [List.cons_append, List.nil_append, longBasicString?, closing_one apart]
    | plain plain noQuote noBackslash others =>
      rw [List.cons_append, longBasicString?_quote (by simp [noQuote]), read, Option.map_some]
    | escape escaped others =>
      rw [List.cons_append, longBasicString?_quote (by simp), read, Option.map_some]
    | quote fewer others =>
      cases others with
      | nil =>
        rw [List.cons_append, List.cons_append, List.nil_append, longBasicString?, closing_two]
      | plain plain noQuote noBackslash others =>
        rw [List.cons_append, longBasicString?_quote (by simp [noQuote]), read, Option.map_some]
      | escape escaped others =>
        rw [List.cons_append, longBasicString?_quote (by simp), read, Option.map_some]
      | quote fewest others => omega

/-! ## Reading strings in single quotes -/

theorem literalString?_text (text rest : List Char) (plain : ∀ c ∈ text, Plain c ∧ c ≠ '\'') :
    literalString? (text ++ '\'' :: rest) = some (text, rest) := by
  induction text with
  | nil => rfl
  | cons c text ih =>
    obtain ⟨stands, quote⟩ := plain c List.mem_cons_self
    rw [List.cons_append, literalString?, if_pos (isPlain_iff.mpr stands),
      ih fun d member => plain d (List.mem_cons_of_mem c member)]
    · rfl
    · exact quote

theorem longLiteralString?_quote {rest : List Char}
    (lone : ∀ behind, rest ≠ '\'' :: '\'' :: behind) :
    longLiteralString? ('\'' :: rest) =
      (longLiteralString? rest).map fun (text, rest) => ('\'' :: text, rest) := by
  rw [longLiteralString?, if_pos (by decide)]
  · cases longLiteralString? rest <;> rfl
  · exact fun behind _ same => lone behind same
  · exact fun _ same => absurd same (by decide)

theorem longLiteralString?_longLiteral {run : Nat} {text : List Char}
    (body : LongLiteral run text) {rest : List Char} (apart : rest.head? ≠ some '\'') :
    longLiteralString? (text ++ '\'' :: '\'' :: '\'' :: rest) = some (text, rest) := by
  induction body with
  | nil run => rw [List.nil_append, longLiteralString?, closing_none apart]
  | @plain run c text plain noQuote _ ih =>
    have stands : (isPlain c || c == '\n') = true := by
      rcases plain with plain | rfl
      · simp [isPlain_iff.mpr plain]
      · rfl
    rw [List.cons_append, longLiteralString?, if_pos stands, ih]
    · rfl
    · exact fun _ same _ => noQuote same
    · exact fun _ same _ => ne_return plain same
  | @quote run text few following ih =>
    cases following with
    | nil => rw [List.cons_append, List.nil_append, longLiteralString?, closing_one apart]
    | plain plain noQuote others =>
      rw [List.cons_append, longLiteralString?_quote (by simp [noQuote]), ih, Option.map_some]
    | quote fewer others =>
      cases others with
      | nil =>
        rw [List.cons_append, List.cons_append, List.nil_append, longLiteralString?, closing_two]
      | plain plain noQuote others =>
        rw [List.cons_append, longLiteralString?_quote (by simp [noQuote]), ih, Option.map_some]
      | quote fewest others => omega

/-! ## Reading any string -/

/-! Each character is written in one or more, so the number of steps that a reader takes is
bounded by what it reads. -/

theorem length_le_basic {code text : List Char} (body : Basic code text) :
    text.length ≤ code.length := by
  induction body with
  | nil => exact Nat.le_refl 0
  | plain _ _ _ _ ih => exact Nat.succ_le_succ ih
  | escape _ _ ih =>
    simp only [List.length_cons, List.length_append]
    omega

theorem length_le_longBasic {run : Nat} {code text : List Char} (body : LongBasic run code text) :
    text.length ≤ code.length := by
  induction body with
  | nil => exact Nat.le_refl 0
  | plain _ _ _ _ ih => exact Nat.succ_le_succ ih
  | escape _ _ ih =>
    simp only [List.length_cons, List.length_append]
    omega
  | quote _ _ ih => exact Nat.succ_le_succ ih

/-- A line end behind the opening quotes is skipped, and there is none in front of anything else. -/
theorem skipFirstNewline_opened {written body : List Char} (opened : Opened written body)
    (noReturn : body.head? ≠ some '\r') {mark : Char} (feed : mark ≠ '\n') (carriage : mark ≠ '\r')
    (rest : List Char) : skipFirstNewline (written ++ mark :: rest) = body ++ mark :: rest := by
  cases opened with
  | line => rfl
  | direct noLine =>
    have none : ∀ (c : Char) (more : List Char), c ≠ '\n' → c ≠ '\r' →
        skipFirstNewline (c :: more) = c :: more := by
      intro c more noFeed noCarriage
      rw [skipFirstNewline, newline?]
      · rfl
      · exact fun _ same => noFeed (List.cons.inj same).1
      · exact fun _ same => noCarriage (List.cons.inj same).1
    cases written with
    | nil => exact none mark rest feed carriage
    | cons c written =>
      simp only [List.head?_cons, ne_eq, Option.some.injEq] at noLine noReturn
      exact none c _ noLine noReturn

theorem head?_longBasic {run : Nat} {code text : List Char} (body : LongBasic run code text) :
    code.head? ≠ some '\r' := by
  cases body with
  | plain plain _ _ _ => simpa using ne_return plain
  | _ => simp

theorem head?_longLiteral {run : Nat} {text : List Char} (body : LongLiteral run text) :
    text.head? ≠ some '\r' := by
  cases body with
  | plain plain _ _ => simpa using ne_return plain
  | _ => simp

theorem anyString?_basic {code text : List Char} (body : Basic code text) {rest : List Char}
    (apart : rest.head? ≠ some '"') :
    anyString? ('"' :: (code ++ '"' :: rest)) = some (text, rest) := by
  have read : lineString? ('"' :: (code ++ '"' :: rest)) = some (text, rest) := by
    refine basicString?_basic body rest ?_
    have bounded := length_le_basic body
    rw [List.length_append]
    omega
  rw [anyString?, read]
  · intro behind same
    cases body with
    | nil =>
      apply apart
      simp only [List.nil_append, List.cons.injEq, true_and] at same
      rw [same]
      rfl
    | plain plain noQuote _ _ => exact noQuote (List.cons.inj (List.cons.inj same).2).1
    | escape escaped _ => cases (List.cons.inj same).2
  · simp

theorem anyString?_literal {text : List Char} (plain : ∀ c ∈ text, Plain c ∧ c ≠ '\'')
    {rest : List Char} (apart : rest.head? ≠ some '\'') :
    anyString? ('\'' :: (text ++ '\'' :: rest)) = some (text, rest) := by
  rw [anyString?, lineString?, literalString?_text text rest plain]
  · simp
  · intro behind same
    cases text with
    | nil =>
      apply apart
      simp only [List.nil_append, List.cons.injEq, true_and] at same
      rw [same]
      rfl
    | cons c text =>
      exact (plain c List.mem_cons_self).2 (List.cons.inj (List.cons.inj same).2).1

/-- In whichever notation a string is written, it is read back. -/
theorem anyString?_quoted {code text : List Char} (quoted : Quoted code text) {rest : List Char}
    (doubles : rest.head? ≠ some '"') (singles : rest.head? ≠ some '\'') :
    anyString? (code ++ rest) = some (text, rest) := by
  cases quoted with
  | basic body => simpa using anyString?_basic body doubles
  | literal plain => simpa using anyString?_literal plain singles
  | @longBasic written code text opened body =>
    have bounded := length_le_longBasic body
    have shape : "\"\"\"".toList ++ (written ++ "\"\"\"".toList) ++ rest =
        '"' :: '"' :: '"' :: (written ++ '"' :: '"' :: '"' :: rest) := by
      simp
    rw [shape, anyString?, skipFirstNewline_opened opened (head?_longBasic body) (by decide)
      (by decide)]
    refine longBasicString?_longBasic body doubles ?_
    rw [List.length_append]
    omega
  | @longLiteral written text opened body =>
    have shape : "\'\'\'".toList ++ (written ++ "\'\'\'".toList) ++ rest =
        '\'' :: '\'' :: '\'' :: (written ++ '\'' :: '\'' :: '\'' :: rest) := by
      simp
    rw [shape, anyString?, skipFirstNewline_opened opened (head?_longLiteral body) (by decide)
      (by decide)]
    exact longLiteralString?_longLiteral body singles

theorem head?_quoted {code text : List Char} (quoted : Quoted code text) :
    (∃ more, code = '"' :: more) ∨ ∃ more, code = '\'' :: more := by
  cases quoted with
  | basic => exact .inl ⟨_, rfl⟩
  | literal => exact .inr ⟨_, rfl⟩
  | longBasic => exact .inl ⟨_, rfl⟩
  | longLiteral => exact .inr ⟨_, rfl⟩

theorem value?_quoted (depth : Nat) {code text : List Char} (quoted : Quoted code text)
    (rest : List Char) :
    value? depth (code ++ '\n' :: rest) =
      some (.string (String.ofList text), '\n' :: rest) := by
  have read : anyString? (code ++ '\n' :: rest) = some (text, '\n' :: rest) :=
    anyString?_quoted quoted (by simp) (by simp)
  rcases head?_quoted quoted with ⟨more, rfl⟩ | ⟨more, rfl⟩
  all_goals
    rw [List.cons_append] at read ⊢
    rw [value?]
    · simp only [read, Option.map_some]

/-! ## Writing in double quotes -/

theorem hexDigit_upperHexDigit {value : Nat} (small : value < 16) :
    HexDigit (upperHexDigit value) value := by
  rw [upperHexDigit]
  split
  next low => exact .decimal low
  next high =>
    obtain ⟨more, rfl⟩ := Nat.exists_eq_add_of_le (Nat.le_of_not_lt high)
    rw [Nat.add_sub_cancel_left]
    exact .upper (by omega)

/-- Four digits are enough for the code points that are written in digits. -/
theorem escaped_hexEscape {c : Char} (low : c.toNat < 65536) :
    ∃ digits, hexEscape c = '\\' :: 'u' :: digits ∧ Escaped ('u' :: digits) c := by
  refine ⟨_, rfl, .short rfl ?_⟩
  have digit : ∀ value, HexDigit (upperHexDigit (value % 16)) (value % 16) :=
    fun value => hexDigit_upperHexDigit (Nat.mod_lt value (by decide))
  have written := Hexadecimal.nil.snoc (digit (c.toNat / 4096)) |>.snoc (digit (c.toNat / 256))
    |>.snoc (digit (c.toNat / 16)) |>.snoc (digit c.toNat)
  have whole : (((0 * 16 + c.toNat / 4096 % 16) * 16 + c.toNat / 256 % 16) * 16 +
      c.toNat / 16 % 16) * 16 + c.toNat % 16 = c.toNat := by
    omega
  rw [whole] at written
  exact written

theorem escaped_of_escapeOf? {c : Char} {code : List Char} (found : escapeOf? c = some code) :
    ∃ escaped, code = '\\' :: escaped ∧ Escaped escaped c := by
  unfold escapeOf? at found
  split at found
  next same => cases found; subst same; exact ⟨_, rfl, .backslash⟩
  next =>
  split at found
  next same => cases found; subst same; exact ⟨_, rfl, .backspace⟩
  next =>
  split at found
  next same => cases found; subst same; exact ⟨_, rfl, .tab⟩
  next =>
  split at found
  next same => cases found; subst same; exact ⟨_, rfl, .formFeed⟩
  next =>
  split at found
  next same => cases found; subst same; exact ⟨_, rfl, .carriageReturn⟩
  next =>
  split at found
  next needed =>
    cases found
    have low := toNat_lt_of_needsEscape needed
    obtain ⟨digits, same, escaped⟩ := escaped_hexEscape (by omega : c.toNat < 65536)
    exact ⟨_, same, escaped⟩
  next => cases found

/-- What has no escape stands for itself. -/
theorem plain_of_escapeOf? {c : Char} (free : escapeOf? c = none) :
    (Plain c ∨ c = '\n') ∧ c ≠ '\\' := by
  constructor
  · by_cases line : c = '\n'
    · exact .inr line
    · refine .inl (plain_iff.mpr ⟨?_, line⟩)
      cases needed : needsEscape c with
      | false => rfl
      | true =>
        unfold escapeOf? at free
        repeat' split at free
        all_goals simp_all only [reduceCtorEq]
  · rintro rfl
    simp [escapeOf?] at free

theorem basic_escapeLine (text : List Char) : Basic (escapeLine text) text := by
  induction text using escapeLine.induct with
  | case1 => exact .nil
  | case2 text ih => exact .escape .quote ih
  | case3 text ih => exact .escape .lineFeed ih
  | case4 c text quote line ih =>
    rw [escapeLine]
    · cases found : escapeOf? c with
      | none =>
        obtain ⟨plain, backslash⟩ := plain_of_escapeOf? found
        exact .plain (plain.resolve_right line) quote backslash ih
      | some code =>
        obtain ⟨escaped, rfl, means⟩ := escaped_of_escapeOf? found
        exact .escape means ih
    · exact quote
    · exact line

theorem longBasic_escapeLong (written : Nat) (text : List Char) :
    LongBasic written (escapeLong written text) text := by
  induction written, text using escapeLong.induct with
  | case1 written => exact .nil written
  | case2 written text third ih =>
    rw [escapeLong, if_pos third]
    exact .escape .quote ih
  | case3 written text early ih =>
    rw [escapeLong, if_neg early]
    exact .quote (Nat.lt_of_not_le early) ih
  | case4 written c text quote ih =>
    rw [escapeLong]
    · cases found : escapeOf? c with
      | none =>
        obtain ⟨plain, backslash⟩ := plain_of_escapeOf? found
        exact .plain plain quote backslash ih
      | some code =>
        obtain ⟨escaped, rfl, means⟩ := escaped_of_escapeOf? found
        exact .escape means ih
    · exact quote

/-! ## Writing in single quotes -/

theorem le_longestRun (target : Char) (current : Nat) (text : List Char) :
    current ≤ longestRun target current text := by
  induction text generalizing current with
  | nil => exact Nat.le_refl _
  | cons c text ih =>
    rw [longestRun]
    split
    next => exact Nat.le_of_succ_le (ih (current + 1))
    next => exact Nat.le_max_left ..

/-- Two numbers bound the run at hand: how long it is, and how long it may become. -/
theorem longLiteral_of_longestRun {run : Nat} {text : List Char}
    (plain : ∀ c ∈ text, Plain c ∨ c = '\n') (runs : longestRun '\'' run text ≤ 2) :
    LongLiteral run text := by
  induction text generalizing run with
  | nil => exact .nil run
  | cons c text ih =>
    have others : ∀ d ∈ text, Plain d ∨ d = '\n' :=
      fun d member => plain d (List.mem_cons_of_mem c member)
    rw [longestRun] at runs
    split at runs
    next same =>
      subst same
      have counted := le_longestRun '\'' (run + 1) text
      exact .quote (by omega) (ih others runs)
    next other =>
      exact .plain (plain c List.mem_cons_self) other (ih others (by omega))

theorem not_mem_of_longestRun {target : Char} {run : Nat} {text : List Char}
    (absent : longestRun target run text = 0) : target ∉ text := by
  induction text generalizing run with
  | nil => exact List.not_mem_nil
  | cons c text ih =>
    rw [longestRun] at absent
    split at absent
    next =>
      have counted := le_longestRun target (run + 1) text
      omega
    next other =>
      have unfound := ih (Nat.max_eq_zero_iff.mp absent).2
      exact List.not_mem_cons_of_ne_of_not_mem (Ne.symm other) unfound

/-! ## Writing any string -/

theorem plain_or_newline {text : List Char} (free : text.any needsEscape = false) {c : Char}
    (member : c ∈ text) : Plain c ∨ c = '\n' := by
  by_cases line : c = '\n'
  · exact .inr line
  · rw [List.any_eq_false] at free
    exact .inl (plain_iff.mpr ⟨eq_false_of_ne_true (free c member), line⟩)

theorem literal_of_quoteForm {text : List Char} (form : quoteForm text = .literal) :
    ∀ c ∈ text, Plain c ∧ c ≠ '\'' := by
  obtain ⟨free, quotes, lines⟩ : text.any needsEscape = false ∧ longestRun '\'' 0 text = 0 ∧
      '\n' ∉ text := by
    simp only [quoteForm] at form
    split at form
    next => cases form
    next =>
    split at form
    next single => simpa [and_assoc] using single
    next =>
    repeat' split at form
    all_goals cases form
  intro c member
  constructor
  · exact (plain_or_newline free member).resolve_right fun line => lines (line ▸ member)
  · rintro rfl
    exact not_mem_of_longestRun quotes member

theorem longLiteral_of_quoteForm {text : List Char} (form : quoteForm text = .longLiteral) :
    LongLiteral 0 text := by
  obtain ⟨free, runs⟩ : text.any needsEscape = false ∧ longestRun '\'' 0 text ≤ 2 := by
    simp only [quoteForm] at form
    split at form
    next => cases form
    next =>
    split at form
    next => cases form
    next =>
    split at form
    next => cases form
    next =>
    split at form
    next single => simpa using single
    next =>
    split at form
    all_goals cases form
  exact longLiteral_of_longestRun (fun c member => plain_or_newline free member) runs

theorem mem_of_head?_longBasic {run : Nat} {code text : List Char} (body : LongBasic run code text)
    (front : code.head? = some '\n') : '\n' ∈ text := by
  cases body with
  | plain => exact List.mem_of_mem_head? front
  | _ => simp at front

/-- The line end that is written behind the opening quotes is the one that does not count. -/
theorem opened_opening {text body : List Char} (stays : body.head? = some '\n' → '\n' ∈ text) :
    Opened ((if text.contains '\n' then ['\n'] else []) ++ body) body := by
  split
  next => exact .line body
  next lines => exact .direct fun front => lines (by simpa using stays front)

/-- Whatever stands in a string, it is written in one of the notations. -/
theorem quoted_quote (text : List Char) : Quoted (quote text) text := by
  unfold quote
  cases form : quoteForm text with
  | basic => exact .basic (basic_escapeLine text)
  | literal => exact .literal (literal_of_quoteForm form)
  | longBasic =>
    have body := longBasic_escapeLong 0 text
    simpa using Quoted.longBasic (opened_opening (mem_of_head?_longBasic body)) body
  | longLiteral =>
    simpa using Quoted.longLiteral (opened_opening List.mem_of_mem_head?)
      (longLiteral_of_quoteForm form)

end KeyRelay.Toml
