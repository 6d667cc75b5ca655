import KeyRelay.Proofs.Text.Decimal
import KeyRelay.Proofs.Toml.Standard
import KeyRelay.Toml.Builtin.Document

/-! # Numbers are read and written by the rules

In front of a line end the digits of a number are no date, no time and no number with a
fraction, for each of these needs a character that is no digit. They do not begin with
a zero that another digit or a radix follows. -/
set_option autoImplicit false

namespace KeyRelay.Toml

open Standard (Decimals)
open Text (isDigit digitsValue decimal)

/-- A character of a class is none outside of it. -/
theorem ne_of_accepts {accepts : Char → Bool} {c other : Char} (inside : accepts c = true)
    (outside : accepts other = false) : c ≠ other := by
  rintro rfl
  rw [inside] at outside
  cases outside

theorem cons_ne_of_isDigit {c : Char} (digit : isDigit c = true) {other : Char}
    (different : isDigit other = false) (rest behind : List Char) : c :: rest ≠ other :: behind :=
  fun same => ne_of_accepts digit different (List.cons.inj same).1

theorem decimals_decimal (value : Nat) : Decimals (decimal value) := by
  rcases Nat.eq_zero_or_pos value with rfl | positive
  · exact .zero
  · have front := Text.head?_decimal_ne positive
    have all : ∀ d ∈ decimal value, isDigit d = true := fun _ => Text.isDigit_of_mem_decimal
    obtain ⟨c, digits, same⟩ := List.exists_cons_of_ne_nil (Text.decimal_ne_nil value)
    rw [same] at front all ⊢
    exact .positive (fun zero => front (by rw [zero]; rfl)) all

theorem all_decimals {digits : List Char} (decimals : Decimals digits) :
    ∀ d ∈ digits, isDigit d = true := by
  cases decimals with
  | zero =>
    intro d member
    rw [List.mem_singleton.mp member]
    rfl
  | positive front all => exact all

/-! ## Points in time -/

/-- Behind a number of fixed width stands a digit or the line end, no mark. -/
theorem expect?_fixedNumber? {digits : List Char} (all : ∀ d ∈ digits, isDigit d = true)
    {count low high value : Nat} {rest behind : List Char}
    (read : fixedNumber? count low high (digits ++ '\n' :: rest) = some (value, behind))
    (mark : Char) (noDigit : isDigit mark = false) (noLine : mark ≠ '\n') :
    expect? mark behind = none := by
  simp only [fixedNumber?] at read
  split at read
  next shape =>
    obtain ⟨wide, allTaken, -⟩ := shape
    obtain ⟨-, rfl⟩ := Prod.mk.inj (Option.some.inj read)
    by_cases within : count ≤ digits.length
    · rw [List.drop_append_of_le_length within]
      cases left : digits.drop count with
      | nil => rw [List.nil_append, expect?, if_neg noLine.symm]
      | cons d more =>
        have digit := all d (List.mem_of_mem_drop (left ▸ List.mem_cons_self))
        rw [List.cons_append, expect?, if_neg (ne_of_accepts digit noDigit)]
    · -- The number would take in the line end.
      have taken : '\n' ∈ (digits ++ '\n' :: rest).take count := by
        rw [List.take_append]
        obtain ⟨more, excess⟩ := Nat.exists_eq_add_of_lt (Nat.lt_of_not_le within)
        rw [show count - digits.length = more + 1 by omega]
        simp
      exact absurd (List.all_eq_true.mp allTaken _ taken) (by decide)
  next => cases read

theorem moment?_digits {digits : List Char} (all : ∀ d ∈ digits, isDigit d = true)
    (rest : List Char) : moment? (digits ++ '\n' :: rest) = none := by
  have noDate : date? (digits ++ '\n' :: rest) = none := by
    cases read : fixedNumber? 4 0 9999 (digits ++ '\n' :: rest) with
    | none => simp [date?, read]
    | some taken =>
      obtain ⟨year, behind⟩ := taken
      have mark := expect?_fixedNumber? all read '-' (by decide) (by decide)
      simp [date?, read, mark]
  have noTime : time? (digits ++ '\n' :: rest) = none := by
    cases read : fixedNumber? 2 0 23 (digits ++ '\n' :: rest) with
    | none => simp [time?, read]
    | some taken =>
      obtain ⟨hour, behind⟩ := taken
      have mark := expect?_fixedNumber? all read ':' (by decide) (by decide)
      simp [time?, read, mark]
  rw [moment?, noDate, noTime]

/-! ## Digits -/

theorem moreDigits_digits {digits : List Char} (all : ∀ d ∈ digits, isDigit d = true)
    (rest : List Char) :
    moreDigits isDigit (digits ++ '\n' :: rest) = (digits, '\n' :: rest) := by
  induction digits with
  | nil =>
    cases rest with
    | nil => rfl
    | cons next rest => rfl
  | cons d digits ih =>
    have digit := all d List.mem_cons_self
    have others := ih fun e member => all e (List.mem_cons_of_mem d member)
    obtain ⟨next, more, follows⟩ : ∃ next more, digits ++ '\n' :: rest = next :: more := by
      cases digits with
      | nil => exact ⟨_, _, rfl⟩
      | cons e digits => exact ⟨_, _, rfl⟩
    rw [follows] at others
    rw [List.cons_append, follows, moreDigits, if_pos digit, others]

theorem decimalDigits?_decimals {digits : List Char} (decimals : Decimals digits)
    (rest : List Char) : decimalDigits? (digits ++ '\n' :: rest) = some (digits, '\n' :: rest) := by
  cases decimals with
  | zero => rfl
  | @positive c digits front all =>
    rw [List.cons_append, decimalDigits?, digits?, if_pos (all c List.mem_cons_self),
      moreDigits_digits (fun d member => all d (List.mem_cons_of_mem c member))]
    exact fun _ same => front (List.cons.inj same).1

theorem front_decimals {digits : List Char} (decimals : Decimals digits) :
    ∃ c more, digits = c :: more ∧ isDigit c = true := by
  cases decimals with
  | zero => exact ⟨_, _, rfl, rfl⟩
  | @positive c digits front all => exact ⟨c, digits, rfl, all c List.mem_cons_self⟩

theorem sign_digits {digits : List Char} (decimals : Decimals digits) (rest : List Char) :
    sign (digits ++ '\n' :: rest) = (false, digits ++ '\n' :: rest) := by
  obtain ⟨c, more, rfl, digit⟩ := front_decimals decimals
  rw [List.cons_append, sign]
  · exact cons_ne_of_isDigit digit (by decide) _
  · exact cons_ne_of_isDigit digit (by decide) _

/-! ## Numbers -/

theorem float?_digits {digits : List Char} (decimals : Decimals digits) (rest : List Char) :
    float? (digits ++ '\n' :: rest) = none := by
  obtain ⟨c, more, same, digit⟩ := front_decimals decimals
  have noTail : floatTail? ('\n' :: rest) = none := rfl
  unfold float?
  rw [sign_digits decimals]
  split
  next negative unsignedText equal =>
    obtain ⟨rfl, rfl⟩ := Prod.mk.inj equal
    split
    next behind equal =>
      rw [same] at equal
      exact absurd equal (cons_ne_of_isDigit digit (by decide) _ _)
    next behind equal =>
      rw [same] at equal
      exact absurd equal (cons_ne_of_isDigit digit (by decide) _ _)
    next =>
      rw [decimalDigits?_decimals decimals, Option.bind_eq_bind, Option.bind_some]
      dsimp only
      rw [noTail]
      rfl

theorem int64?_natCast {number : Nat} (small : number < 0x8000000000000000) :
    int64? number = some (.ofNat number) := by
  rw [int64?, if_pos (by omega)]
  rfl

theorem integer?_digits {digits : List Char} (decimals : Decimals digits)
    (small : digitsValue digits < 0x8000000000000000) (rest : List Char) :
    integer? (digits ++ '\n' :: rest) = some (.ofNat (digitsValue digits), '\n' :: rest) := by
  have radix : ∀ mark, mark ≠ '\n' → ∀ behind,
      digits ++ '\n' :: rest ≠ '0' :: mark :: behind := by
    intro mark noLine behind equal
    cases decimals with
    | zero => exact noLine (List.cons.inj (List.cons.inj equal).2).1.symm
    | positive front all => exact front (List.cons.inj equal).1
  rw [integer?, decimalInteger?, sign_digits decimals]
  · dsimp only
    rw [decimalDigits?_decimals decimals, Option.bind_eq_bind, Option.bind_some]
    dsimp only
    rw [if_neg Bool.false_ne_true, int64?_natCast small]
    rfl
  · exact radix 'x' (by decide)
  · exact radix 'o' (by decide)
  · exact radix 'b' (by decide)

theorem numeric?_digits {digits : List Char} (decimals : Decimals digits)
    (small : digitsValue digits < 0x8000000000000000) (rest : List Char) :
    numeric? (digits ++ '\n' :: rest) =
      some (.integer (.ofNat (digitsValue digits)), '\n' :: rest) := by
  rw [numeric?, moment?_digits (all_decimals decimals), float?_digits decimals,
    integer?_digits decimals small]
  rfl

theorem value?_digits (depth : Nat) {digits : List Char} (decimals : Decimals digits)
    (small : digitsValue digits < 0x8000000000000000) (rest : List Char) :
    value? depth (digits ++ '\n' :: rest) =
      some (.integer (.ofNat (digitsValue digits)), '\n' :: rest) := by
  have read := numeric?_digits decimals small rest
  obtain ⟨c, more, rfl, digit⟩ := front_decimals decimals
  rw [List.cons_append] at read ⊢
  rw [value?, read]
  all_goals
    intro behind
    exact cons_ne_of_isDigit digit (by decide) _ _

/-- A number is written in its digits. -/
theorem written_decimal {number : Nat} (small : number < 0x8000000000000000) :
    Standard.Written (decimal number) (.integer (.ofNat number)) := by
  have written := Standard.Written.integer (decimals_decimal number)
    (by rwa [Text.digitsValue_decimal])
  rwa [Text.digitsValue_decimal] at written

end KeyRelay.Toml
