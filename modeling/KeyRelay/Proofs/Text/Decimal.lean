import KeyRelay.Text.Decimal
import KeyRelay.Text.Blank
import Mathlib.Data.List.Induction
import Mathlib.Data.Nat.Digits.Defs

/-! # Decimal numbers are read back

The digits of a number are at least one, have its value, and begin with a zero only
where it is the only one. Digits that are gathered one after the other count by their places. -/
set_option autoImplicit false

namespace KeyRelay.Text

theorem toNat_of_isDigit {c : Char} (digit : isDigit c = true) : 48 ≤ c.toNat ∧ c.toNat ≤ 57 := by
  simpa [isDigit, Char.le_def, UInt32.le_iff_toNat_le] using digit

theorem not_isBlank_of_isDigit {c : Char} (digit : isDigit c = true) : isBlank c = false := by
  have range := toNat_of_isDigit digit
  simp only [isBlank, blankRanges, List.any_cons, List.any_nil, Bool.or_false,
    Bool.or_eq_false_iff, Bool.and_eq_false_imp, decide_eq_true_eq, decide_eq_false_iff_not]
  omega

theorem decimal_ne_nil (value : Nat) : decimal value ≠ [] :=
  Nat.toDigits_ne_nil

theorem isDigit_of_mem_decimal {value : Nat} {c : Char} (member : c ∈ decimal value) :
    isDigit c = true :=
  Nat.isDigit_of_mem_toDigits (by decide) (by decide) member

theorem digitsValue_decimal (value : Nat) : digitsValue (decimal value) = value := by
  have same : ∀ digits : List Char, digitsValue digits = Nat.ofDigitChars 10 digits 0 := by
    intro digits
    simp only [digitsValue, digitValue, Nat.ofDigitChars, Nat.mul_comm 10]
  rw [same, decimal]
  exact Nat.ofDigitChars_toDigits (by decide) (by decide)

theorem decimal_injective : Function.Injective decimal := by
  intro left right same
  rw [← digitsValue_decimal left, same, digitsValue_decimal]

/-- What digits denote by their places, the last of which counts ones. -/
def placeValue (digits : List Char) : Nat :=
  Nat.ofDigits 10 (digits.map digitValue).reverse

theorem digitsValue_eq_placeValue (digits : List Char) :
    digitsValue digits = placeValue digits := by
  induction digits using List.reverseRecOn with
  | nil => rfl
  | append_singleton front c ih =>
    have next : digitsValue (front ++ [c]) = digitsValue front * 10 + digitValue c :=
      List.foldl_append
    rw [next, ih, placeValue, placeValue, List.map_append, List.reverse_append, List.map_singleton,
      List.reverse_singleton, List.singleton_append, Nat.ofDigits_cons, Nat.mul_comm, Nat.add_comm]

theorem placeValue_decimal (value : Nat) : placeValue (decimal value) = value := by
  rw [← digitsValue_eq_placeValue, digitsValue_decimal]

/-- The first digit of a number but zero is no zero. -/
theorem head?_decimal_ne {value : Nat} (positive : 0 < value) :
    (decimal value).head? ≠ some '0' := by
  induction value using Nat.strongRecOn with
  | ind value ih =>
    rw [decimal, Nat.toDigits_eq_if (by decide)]
    split
    next small =>
      have digit := Nat.toNat_digitChar_of_lt_ten small
      intro zero
      rw [List.head?_cons, Option.some.injEq] at zero
      rw [zero] at digit
      have code : '0'.toNat = 48 := rfl
      omega
    next large =>
      have front := ih (value / 10) (by omega) (by omega)
      obtain ⟨c, rest, digits⟩ := List.exists_cons_of_ne_nil (decimal_ne_nil (value / 10))
      rw [digits] at front
      rw [← decimal, digits]
      exact front

end KeyRelay.Text
