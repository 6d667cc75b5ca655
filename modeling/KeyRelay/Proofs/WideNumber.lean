import KeyRelay.Proofs.Message.Reading
import Mathlib.Algebra.BigOperators.Fin
import Mathlib.Algebra.BigOperators.Ring.Finset
import Mathlib.Tactic.Ring

/-! # Numbers that do not fit 64 bits

Ten groups of seven bits hold more than 64 bits. What is read is the exact number
as long as the tenth byte is at most one; a larger tenth byte is not refused, and
its upper bits are lost. Then a key beyond the largest field number, or a number
beyond 32 bits in a field of 32 bits, passes for a small one. -/
set_option autoImplicit false

namespace KeyRelay.Wire

namespace Varint

/-- The number that some bytes stand for, seven bits of each. -/
def total (bytes : List UInt8) : Nat :=
  ∑ index : Fin bytes.length, bytes[index].toNat % 128 * 128 ^ index.val

/-- The last byte alone has its high bit clear. -/
def Terminated (bytes : List UInt8) : Prop :=
  ∃ front last, bytes = front ++ [last] ∧ (∀ byte ∈ front, 128 ≤ byte.toNat) ∧ last.toNat < 128

/-- There is no tenth byte, or it holds one bit at most. -/
def TenthFits (bytes : List UInt8) : Prop :=
  ∀ tenth, bytes[9]? = some tenth → tenth.toNat ≤ 1

theorem total_nil : total [] = 0 :=
  rfl

theorem total_cons (byte : UInt8) (rest : List UInt8) :
    total (byte :: rest) = byte.toNat % 128 + 128 * total rest := by
  have shifted : ∀ index : Fin rest.length,
      rest[index].toNat % 128 * 128 ^ (index.val + 1) =
        128 * (rest[index].toNat % 128 * 128 ^ index.val) := by
    intro index
    ring
  have split : total (byte :: rest) =
      byte.toNat % 128 * 128 ^ 0 +
        ∑ index : Fin rest.length, rest[index].toNat % 128 * 128 ^ (index.val + 1) :=
    Fin.sum_univ_succ _
  rw [split, Finset.sum_congr rfl fun index _ => shifted index, ← Finset.mul_sum, total]
  omega

theorem total_lt (bytes : List UInt8) : total bytes < 128 ^ bytes.length := by
  induction bytes with
  | nil => simp [total_nil]
  | cons byte rest ih =>
    rw [total_cons, List.length_cons, Nat.pow_succ]
    omega

theorem total_append (front back : List UInt8) :
    total (front ++ back) = total front + 128 ^ front.length * total back := by
  induction front with
  | nil => simp [total_nil]
  | cons byte rest ih =>
    rw [List.cons_append, total_cons, total_cons, ih, List.length_cons, Nat.pow_succ]
    ring

theorem Terminated.cons {byte : UInt8} {rest : List UInt8} (marked : 128 ≤ byte.toNat)
    (tail : Terminated rest) : Terminated (byte :: rest) := by
  obtain ⟨front, last, rfl, others, final⟩ := tail
  refine ⟨byte :: front, last, rfl, ?_, final⟩
  intro other member
  rcases List.mem_cons.mp member with rfl | inFront
  · exact marked
  · exact others other inFront

theorem Denotes.total_eq {bytes : List UInt8} {number : Nat} (denotes : Denotes bytes number) :
    Terminated bytes ∧ total bytes = number := by
  induction denotes with
  | @last byte final =>
    refine ⟨⟨[], byte, rfl, by simp, final⟩, ?_⟩
    rw [total_cons, total_nil]
    omega
  | continued marked tail ih =>
    exact ⟨ih.1.cons marked, by rw [total_cons, ih.2]⟩

/-- Up to nine groups always fit, and of the tenth only its lowest bit does. -/
theorem total_lt_iff {bytes : List UInt8} (terminated : Terminated bytes)
    (short : bytes.length ≤ maxLength) : total bytes < 2 ^ 64 ↔ TenthFits bytes := by
  obtain ⟨front, last, rfl, _, final⟩ := terminated
  have length : (front ++ [last]).length = front.length + 1 := List.length_append
  have value : total (front ++ [last]) = total front + 128 ^ front.length * last.toNat := by
    rw [total_append, total_cons, total_nil, Nat.mod_eq_of_lt final, Nat.mul_zero, Nat.add_zero]
  have low := total_lt front
  rw [maxLength, length] at short
  by_cases ten : front.length = 9
  · have tenth : (front ++ [last])[9]? = some last := by
      rw [List.getElem?_append_right (by omega), ten]
      rfl
    rw [ten] at low value
    simp only [TenthFits, tenth, Option.some.injEq, forall_eq', value]
    omega
  · have none : (front ++ [last])[9]? = none := List.getElem?_eq_none (by omega)
    have fits : total (front ++ [last]) < 128 ^ 9 := by
      apply (total_lt _).trans_le
      exact Nat.pow_le_pow_right (by omega) (by omega)
    have vacuous : TenthFits (front ++ [last]) := by
      simp [TenthFits, none]
    exact ⟨fun _ => vacuous, fun _ => by omega⟩

/-- The bytes of a number, at most ten, in front of what is left. -/
structure Consumed (bytes whole rest : List UInt8) : Prop where
  joined : whole = bytes ++ rest
  short : bytes.length ≤ maxLength
  terminated : Terminated bytes

theorem Form.consumed {value : UInt64} {bytes whole rest : List UInt8} (form : Form value bytes)
    (joined : whole = bytes ++ rest) :
    Consumed bytes whole rest ∧ value.toNat = total bytes % 2 ^ 64 := by
  obtain ⟨short, number, denotes, low⟩ := form
  obtain ⟨terminated, rfl⟩ := denotes.total_eq
  exact ⟨⟨joined, short, terminated⟩, low⟩

/-- Nothing is lost as long as the tenth byte fits. -/
theorem Consumed.exact_iff {value : UInt64} {bytes whole rest : List UInt8}
    (consumed : Consumed bytes whole rest) (low : value.toNat = total bytes % 2 ^ 64) :
    value.toNat = total bytes ↔ TenthFits bytes := by
  have bound := value.toNat_lt
  rw [← total_lt_iff consumed.terminated consumed.short]
  omega

/-- A number whose low 64 bits are below a bound is below it if nothing is lost. -/
theorem Consumed.lt_iff {value : UInt64} {bytes whole rest : List UInt8} {bound : Nat}
    (consumed : Consumed bytes whole rest) (low : value.toNat = total bytes % 2 ^ 64)
    (fits : value.toNat < bound) (le : bound ≤ 2 ^ 64) : total bytes < bound ↔ TenthFits bytes := by
  rw [← total_lt_iff consumed.terminated consumed.short]
  omega

end Varint

open Varint

/-- A number that is read has at most ten bytes, of which the last alone has its
high bit clear. It is their exact number if and only if the tenth byte, where there
is one, is at most one. So a key that is accepted carries a legal field number, and
a field of 32 bits a number below `2 ^ 32`, if and only if that holds of its bytes. -/
theorem exact_iff_tenthFits (cursor next : Cursor) :
    (∀ value, cursor.varint = (.ok value, next) →
      ∃ bytes, Consumed bytes cursor.rest next.rest ∧ value.toNat = total bytes % 2 ^ 64 ∧
        (value.toNat = total bytes ↔ TenthFits bytes)) ∧
    (∀ key, cursor.key = (.ok (some key), next) →
      ∃ bytes, Consumed bytes cursor.rest next.rest ∧
        key.field.toNat = total bytes % 2 ^ 64 / 8 ∧
        (0 < total bytes / 8 ∧ total bytes / 8 ≤ Cursor.maxFieldNumber ↔ TenthFits bytes)) ∧
    ∀ value name number found, cursor.varint = (.ok value, next) →
      uint32 name number value = .ok found →
      ∃ bytes, Consumed bytes cursor.rest next.rest ∧ found.toNat = total bytes % 2 ^ 64 ∧
        (total bytes < 2 ^ 32 ↔ TenthFits bytes) := by
  refine ⟨?_, ?_, ?_⟩
  · intro value success
    obtain ⟨bytes, joined, form⟩ := Cursor.form_of_varint success
    obtain ⟨consumed, low⟩ := form.consumed joined
    exact ⟨bytes, consumed, low, consumed.exact_iff low⟩
  · intro key success
    obtain ⟨bytes, joined, valid, form⟩ := Cursor.form_of_key success
    obtain ⟨consumed, low⟩ := form.consumed joined
    have code := key.kind.toNat_code_lt
    have packed := Put.toNat_keyValue key.field key.kind
    have legal : 0 < key.field.toNat ∧ key.field.toNat ≤ Cursor.maxFieldNumber := valid
    have below : (Put.keyValue key.field key.kind).toNat < 2 ^ 32 := by
      rw [packed]
      unfold Cursor.maxFieldNumber at legal
      omega
    refine ⟨bytes, consumed, by omega, ?_⟩
    rw [← consumed.lt_iff low below (by omega)]
    unfold Cursor.maxFieldNumber at legal ⊢
    omega
  · intro value name number found success accepted
    obtain ⟨bytes, joined, form⟩ := Cursor.form_of_varint success
    obtain ⟨consumed, low⟩ := form.consumed joined
    have same : value.toNat = found.toNat := uint32_eq_ok.mp accepted
    have below : value.toNat < 2 ^ 32 := same ▸ found.toNat_lt
    exact ⟨bytes, consumed, same ▸ low, consumed.lt_iff low below (by omega)⟩

/-- The last byte is one, the largest that fits. -/
theorem exact_iff_tenthFits_largest :
    (Cursor.ofBytes [255, 255, 255, 255, 255, 255, 255, 255, 255, 1, 7]).varint =
      (.ok 18446744073709551615, ⟨10, [7]⟩) ∧
    ∃ bytes, Consumed bytes [255, 255, 255, 255, 255, 255, 255, 255, 255, 1, 7] [7] ∧
      (18446744073709551615 : UInt64).toNat = total bytes % 2 ^ 64 ∧
      ((18446744073709551615 : UInt64).toNat = total bytes ↔ TenthFits bytes) := by
  have read : (Cursor.ofBytes [255, 255, 255, 255, 255, 255, 255, 255, 255, 1, 7]).varint =
      (.ok 18446744073709551615, ⟨10, [7]⟩) := by
    decide
  exact ⟨read, (exact_iff_tenthFits _ _).1 _ read⟩

/-- With a two as the tenth byte, `2 ^ 64` is read as zero, the field number
`2 ^ 61 + 1` as one, and the position `2 ^ 64 + 5` as five. -/
theorem tenth_byte_lost :
    Terminated [128, 128, 128, 128, 128, 128, 128, 128, 128, 2] ∧
    total [128, 128, 128, 128, 128, 128, 128, 128, 128, 2] = 2 ^ 64 ∧
    (Cursor.ofBytes [128, 128, 128, 128, 128, 128, 128, 128, 128, 2]).varint =
      (.ok 0, ⟨10, []⟩) ∧
    total [136, 128, 128, 128, 128, 128, 128, 128, 128, 2] / 8 = 2 ^ 61 + 1 ∧
    (Cursor.ofBytes [136, 128, 128, 128, 128, 128, 128, 128, 128, 2]).key =
      (.ok (some ⟨1, .varint⟩), ⟨10, []⟩) ∧
    total [133, 128, 128, 128, 128, 128, 128, 128, 128, 2] = 2 ^ 64 + 5 ∧
    Command.decode [10, 11, 24, 133, 128, 128, 128, 128, 128, 128, 128, 128, 2] =
      .ok ⟨some ⟨.press, some (.position 5)⟩⟩ := by
  have terminated : Terminated [128, 128, 128, 128, 128, 128, 128, 128, 128, 2] :=
    ⟨[128, 128, 128, 128, 128, 128, 128, 128, 128], 2, rfl, by decide +kernel, by decide⟩
  refine ⟨terminated, ?_, by decide, ?_, by decide, ?_, by decide +kernel⟩ <;>
    simp [total_cons, total_nil]

end KeyRelay.Wire
