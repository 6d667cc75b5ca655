import KeyRelay.Wire.Varint
import Mathlib.Algebra.Group.Nat.Defs
import Mathlib.Data.Nat.Log

/-! # Shortest base-128 forms

The writer's form of a number is read back whatever follows it, and its length
is the number of seven-bit groups that the number needs. -/
set_option autoImplicit false

namespace KeyRelay.Wire.Varint

theorem toNat_last {value : Nat} (small : value < 128) : (UInt8.ofNat value).toNat = value := by
  rw [UInt8.toNat_ofNat']
  omega

/-- A group before the last keeps its seven bits under a set high bit. -/
theorem toNat_continued (value : Nat) :
    (UInt8.ofNat (value % 128 + 128)).toNat = value % 128 + 128 := by
  rw [UInt8.toNat_ofNat']
  omega

theorem read_last (more : Nat) {byte : UInt8} (rest : List UInt8) (last : byte.toNat < 128) :
    read (more + 1) (byte :: rest) = .complete byte.toNat rest := by
  have low : byte < 128 := UInt8.lt_iff_toNat_lt.mpr last
  rw [read, if_pos low]

theorem read_continued {more high : Nat} {byte : UInt8} {rest remaining : List UInt8}
    (continued : 128 ≤ byte.toNat) (next : read more rest = .complete high remaining) :
    read (more + 1) (byte :: rest) =
      .complete (byte.toNat % 128 + 128 * high) remaining := by
  have notLow : ¬ byte < 128 := by
    rw [UInt8.lt_iff_toNat_lt]
    exact Nat.not_lt.mpr continued
  rw [read, if_neg notLow, next]

theorem read_groups (more value : Nat) (rest : List UInt8) (fits : value < 128 ^ (more + 1)) :
    read (more + 1) (groups more value ++ rest) = .complete value rest := by
  induction more generalizing value with
  | zero =>
    have small : value < 128 := by simpa using fits
    have byte := toNat_last small
    rw [groups, List.singleton_append, read_last _ _ (by omega), byte]
  | succ more ih =>
    rw [groups]
    split
    next small =>
      have byte := toNat_last small
      rw [List.singleton_append, read_last _ _ (by omega), byte]
    next large =>
      have smaller : value / 128 < 128 ^ (more + 1) := by
        rw [Nat.div_lt_iff_lt_mul (by decide), ← Nat.pow_succ]
        exact fits
      have byte := toNat_continued value
      rw [List.cons_append, read_continued (by omega) (ih (value / 128) smaller), byte]
      congr 1
      omega

/-- A 64-bit number is read back, and what follows it stays. -/
theorem read_encode (value : UInt64) (rest : List UInt8) :
    read maxLength (encode value ++ rest) = .complete value.toNat rest := by
  apply read_groups
  have bound := value.toNat_lt
  omega

theorem log2_of_lt {value : Nat} (small : value < 128) : value.log2 / 7 = 0 := by
  rw [Nat.log2_eq_log_two]
  have bound : Nat.log 2 value ≤ Nat.log 2 127 := Nat.log_mono_right (by omega)
  have top : Nat.log 2 127 = 6 := by decide
  omega

theorem log2_of_ge {value : Nat} (large : ¬ value < 128) :
    value.log2 / 7 = (value / 128).log2 / 7 + 1 := by
  have shifted : (value / 128).log2 = value.log2 - 7 := by
    rw [Nat.log2_eq_log_two, Nat.log2_eq_log_two]
    exact Nat.log_div_base_pow 2 value 7
  have enough : 7 ≤ value.log2 := (Nat.le_log2 (by omega)).mpr (by omega)
  omega

theorem length_groups (more value : Nat) (fits : value < 128 ^ (more + 1)) :
    (groups more value).length = value.log2 / 7 + 1 := by
  induction more generalizing value with
  | zero =>
    have small : value < 128 := by simpa using fits
    rw [groups, log2_of_lt small, List.length_singleton]
  | succ more ih =>
    rw [groups]
    split
    next small => rw [log2_of_lt small, List.length_singleton]
    next large =>
      have smaller : value / 128 < 128 ^ (more + 1) := by
        rw [Nat.div_lt_iff_lt_mul (by decide), ← Nat.pow_succ]
        exact fits
      rw [List.length_cons, ih _ smaller, log2_of_ge large]

theorem length_encode (value : UInt64) : (encode value).length = length value := by
  apply length_groups
  have bound := value.toNat_lt
  omega

theorem encode_ne_nil (value : UInt64) : encode value ≠ [] :=
  groups_ne_nil 9 value.toNat

/-- A number below `128 ^ count` takes at most `count` bytes. -/
theorem length_le {value : UInt64} {count : Nat} (positive : 0 < count)
    (fits : value.toNat < 128 ^ count) : length value ≤ count := by
  rw [length]
  by_cases zero : value.toNat = 0
  · rw [zero, Nat.log2_zero]
    omega
  · have powers : 128 ^ count = 2 ^ (7 * count) := by
      rw [Nat.pow_mul]
    have bound : value.toNat.log2 < 7 * count := by
      rw [Nat.log2_lt zero, ← powers]
      exact fits
    omega

theorem length_mono {small large : UInt64} (le : small ≤ large) : length small ≤ length large := by
  have logs : small.toNat.log2 ≤ large.toNat.log2 := by
    rw [Nat.log2_eq_log_two, Nat.log2_eq_log_two]
    exact Nat.log_mono_right (UInt64.le_iff_toNat_le.mp le)
  rw [length, length]
  omega

end KeyRelay.Wire.Varint
