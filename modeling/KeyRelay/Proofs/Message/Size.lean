import KeyRelay.Message.Size
import KeyRelay.Proofs.Wire.Put

/-! # How long a written field can get

The bounds that the largest sizes are made of. Field numbers below sixteen keep
the key to one byte; the rest of a field is bounded by the range of its value. -/
set_option autoImplicit false

namespace KeyRelay.Size

open Wire

/-- The one-byte keys of the messages. -/
def SmallNumber (number : UInt32) : Prop :=
  number.toNat < 16

instance (number : UInt32) : Decidable (SmallNumber number) :=
  inferInstanceAs (Decidable (_ < _))

theorem length_key (key : Key) (small : SmallNumber key.field) : key.bytes.length = 1 := by
  have codeBound := key.kind.toNat_code_lt
  have value : (Put.keyValue key.field key.kind).toNat < 128 := by
    rw [Put.toNat_keyValue]
    rw [SmallNumber] at small
    omega
  rw [Key.bytes, Varint.length_encode, Varint.length, Varint.log2_of_lt value]

theorem length_varint_field {number : UInt32} {value : UInt64} {count : Nat}
    (small : SmallNumber number) (positive : 0 < count) (fits : value.toNat < 128 ^ count) :
    (Wire.Field.mk number (.varint value)).bytes.length ≤ 1 + count := by
  have keyLength := length_key ⟨number, .varint⟩ small
  have valueLength := Varint.length_le positive fits
  simp only [Wire.Field.bytes, Wire.Field.key, FieldValue.kind, FieldValue.bytes,
    List.length_append, Varint.length_encode, keyLength]
  omega

theorem embedded_mono {inner outer : Nat} (le : inner ≤ outer) (bounded : outer < UInt64.size) :
    embedded inner ≤ embedded outer := by
  have lengths : Varint.length (UInt64.ofNat inner) ≤ Varint.length (UInt64.ofNat outer) := by
    apply Varint.length_mono
    rw [UInt64.le_iff_toNat_le, UInt64.toNat_ofNat', UInt64.toNat_ofNat',
      Nat.mod_eq_of_lt bounded, Nat.mod_eq_of_lt (Nat.lt_of_le_of_lt le bounded)]
    exact le
  rw [embedded, embedded]
  omega

theorem length_embedded_field {number : UInt32} {content : List UInt8}
    (small : SmallNumber number) :
    (Wire.Field.mk number (.lengthDelimited content)).bytes.length = embedded content.length := by
  have keyLength := length_key ⟨number, .lengthDelimited⟩ small
  simp only [Wire.Field.bytes, Wire.Field.key, FieldValue.kind, FieldValue.bytes,
    List.length_append, Varint.length_encode, keyLength, embedded, Nat.add_assoc]

theorem length_lengthDelimited {number : UInt32} {content : List UInt8}
    (small : SmallNumber number) :
    (Put.lengthDelimited number content).encoding.length = embedded content.length := by
  rw [Put.encoding, Put.atoms, Put.encoding_lengthDelimitedAtoms, length_embedded_field small]

theorem length_lengthDelimited_le {number : UInt32} {content : List UInt8} {capacity : Nat}
    (small : SmallNumber number) (le : content.length ≤ capacity)
    (bounded : capacity < UInt64.size) :
    (Put.lengthDelimited number content).encoding.length ≤ embedded capacity := by
  rw [length_lengthDelimited small]
  exact embedded_mono le bounded

theorem length_bytes_le {number : UInt32} {content : List UInt8} {capacity : Nat}
    (small : SmallNumber number) (le : content.length ≤ capacity)
    (bounded : capacity < UInt64.size) :
    (Put.bytes number content).encoding.length ≤ embedded capacity := by
  by_cases empty : content.isEmpty
  · simp [Put.encoding, Put.atoms, empty]
  · simp only [Put.encoding, Put.atoms, if_neg empty]
    exact length_lengthDelimited_le small le bounded

theorem length_uintAtoms {number : UInt32} {value : UInt64} {count : Nat}
    (small : SmallNumber number) (positive : 0 < count) (fits : value.toNat < 128 ^ count) :
    (Put.uintAtoms number value).flatten.length ≤ 1 + count := by
  by_cases zero : value = 0
  · simp [Put.uintAtoms, zero]
  · rw [Put.uintAtoms, if_neg zero, Put.encoding_varintAtoms]
    exact length_varint_field small positive fits

theorem length_uint64_le {number : UInt32} (value : UInt64) (small : SmallNumber number) :
    (Put.uint number value).encoding.length ≤ uint64Field := by
  apply length_uintAtoms small (by decide)
  have bound := value.toNat_lt
  rw [Varint.maxLength]
  omega

theorem length_uint32_le {number : UInt32} (value : UInt32) (small : SmallNumber number) :
    (Put.uint number value.toUInt64).encoding.length ≤ uint32Field := by
  apply length_uintAtoms small (by decide)
  have bound := value.toNat_lt
  rw [Varint.maxLength32, UInt32.toNat_toUInt64]
  omega

theorem length_uint8_le {number : UInt32} (value : UInt8) (small : SmallNumber number) :
    (Put.uint number value.toUInt64).encoding.length ≤ byteField := by
  apply length_uintAtoms small (by decide)
  have bound := value.toNat_lt
  rw [UInt8.toNat_toUInt64]
  omega

theorem length_bool_le {number : UInt32} (value : Bool) (small : SmallNumber number) :
    (Put.bool number value).encoding.length ≤ boolField := by
  apply length_uintAtoms small (by decide)
  cases value <;> decide

theorem length_int32_le {number : UInt32} (value : Int32) (small : SmallNumber number) :
    (Put.int32 number value).encoding.length ≤ int32Field :=
  length_uint64_le (Put.extended value) small

theorem length_varintField_le {number : UInt32} (value : UInt32) (small : SmallNumber number) :
    (Put.varintField number value.toUInt64).encoding.length ≤ uint32Field := by
  rw [Put.encoding, Put.atoms, Put.encoding_varintAtoms]
  apply length_varint_field small (by decide)
  have bound := value.toNat_lt
  rw [Varint.maxLength32, UInt32.toNat_toUInt64]
  omega

end KeyRelay.Size
