import KeyRelay.Wire.Reader
import KeyRelay.Wire.Writer
import KeyRelay.Proofs.Wire.Varint

/-! # Fields as they are written

The written form of a field is a key and a value, each in its shortest form.
A cursor in front of a written field reads exactly that field, so a scan of
written fields gives them back, whatever stands behind them. -/
set_option autoImplicit false

namespace KeyRelay.Wire

def Key.bytes (key : Key) : List UInt8 :=
  Varint.encode (Put.keyValue key.field key.kind)

def FieldValue.bytes : FieldValue → List UInt8
  | .varint value => Varint.encode value
  | .fixed64 content => content
  | .lengthDelimited content => Varint.encode (UInt64.ofNat content.length) ++ content
  | .fixed32 content => content

def Field.bytes (field : Field) : List UInt8 :=
  field.key.bytes ++ field.value.bytes

/-- A field number that a key may carry. -/
def ValidNumber (number : UInt32) : Prop :=
  0 < number.toNat ∧ number.toNat ≤ Cursor.maxFieldNumber

instance (number : UInt32) : Decidable (ValidNumber number) :=
  inferInstanceAs (Decidable (_ ∧ _))

/-- The content of a value has the length that its form implies or can announce. -/
def FieldValue.Fits : FieldValue → Prop
  | .varint _ => True
  | .fixed64 content => content.length = 8
  | .lengthDelimited content => content.length < UInt64.size
  | .fixed32 content => content.length = 4

structure Field.Valid (field : Field) : Prop where
  number : ValidNumber field.number
  fits : field.value.Fits

theorem WireType.toNat_code_lt (kind : WireType) : kind.code.toNat < 8 := by
  cases kind <;> decide

theorem Put.toNat_keyValue (field : UInt32) (kind : WireType) :
    (keyValue field kind).toNat = field.toNat * 8 + kind.code.toNat := by
  have fieldBound := field.toNat_lt
  have codeBound := kind.toNat_code_lt
  rw [keyValue, UInt64.toNat_ofNat']
  omega

namespace Cursor

/-- Moving over a prefix of what is ahead. -/
theorem moveTo_append (offset : Nat) (front rest : List UInt8) :
    moveTo ⟨offset, front ++ rest⟩ rest = ⟨offset + front.length, rest⟩ := by
  simp only [moveTo, List.length_append, Nat.add_sub_cancel]

theorem varint_encode (offset : Nat) (value : UInt64) (rest : List UInt8) :
    varint ⟨offset, Varint.encode value ++ rest⟩ =
      (.ok value, ⟨offset + (Varint.encode value).length, rest⟩) := by
  rw [varint, Varint.read_encode]
  dsimp only
  rw [moveTo_append, UInt64.ofNat_toNat]

theorem take_append (offset : Nat) (content rest : List UInt8) :
    take ⟨offset, content ++ rest⟩ content.length =
      (.ok content, ⟨offset + content.length, rest⟩) := by
  simp [take]

theorem lengthDelimited_bytes (offset : Nat) (content rest : List UInt8)
    (fits : content.length < UInt64.size) :
    lengthDelimited ⟨offset, (FieldValue.lengthDelimited content).bytes ++ rest⟩ =
      (.ok content, ⟨offset + (FieldValue.lengthDelimited content).bytes.length, rest⟩) := by
  have announced : (UInt64.ofNat content.length).toNat = content.length := by
    rw [UInt64.toNat_ofNat']
    exact Nat.mod_eq_of_lt fits
  rw [FieldValue.bytes, List.append_assoc, lengthDelimited, varint_encode]
  dsimp only
  rw [announced, take_append, List.length_append, Nat.add_assoc]

theorem keyOf_keyValue (offset : Nat) (number : UInt32) (kind : WireType)
    (valid : ValidNumber number) :
    keyOf offset (Put.keyValue number kind) = .ok ⟨number, kind⟩ := by
  have codeBound := kind.toNat_code_lt
  have high : (Put.keyValue number kind).toNat / 8 = number.toNat := by
    rw [Put.toNat_keyValue]
    omega
  have low : (Put.keyValue number kind).toNat % 8 = kind.code.toNat := by
    rw [Put.toNat_keyValue]
    omega
  have allowed : ¬ (number.toNat = 0 ∨ maxFieldNumber < number.toNat) := by
    obtain ⟨positive, bounded⟩ := valid
    omega
  simp only [keyOf, high, low, if_neg allowed, UInt8.ofNat_toNat, UInt32.ofNat_toNat,
    WireType.ofCode?_code]

theorem key_bytes (offset : Nat) (found : Key) (rest : List UInt8)
    (valid : ValidNumber found.field) :
    key ⟨offset, found.bytes ++ rest⟩ =
      (.ok (some found), ⟨offset + found.bytes.length, rest⟩) := by
  have nonempty : (found.bytes ++ rest).isEmpty = false := by
    simp [Key.bytes, Varint.encode_ne_nil]
  rw [key, nonempty, Key.bytes, varint_encode]
  simp only [keyOf_keyValue offset found.field found.kind valid, Except.map, if_neg,
    Bool.false_eq_true, not_false_eq_true]

theorem value_bytes (offset : Nat) (number : UInt32) (found : FieldValue) (rest : List UInt8)
    (fits : found.Fits) :
    value ⟨offset, found.bytes ++ rest⟩ ⟨number, found.kind⟩ =
      (.ok found, ⟨offset + found.bytes.length, rest⟩) := by
  cases found with
  | varint number => simp only [value, FieldValue.kind, FieldValue.bytes, varint_encode, Except.map]
  | fixed64 content =>
    have taken := take_append offset content rest
    rw [show content.length = 8 from fits] at taken
    simp only [value, FieldValue.kind, FieldValue.bytes, taken, Except.map,
      show content.length = 8 from fits]
  | lengthDelimited content =>
    have read := lengthDelimited_bytes offset content rest fits
    simp only [value, FieldValue.kind, read, Except.map]
  | fixed32 content =>
    have taken := take_append offset content rest
    rw [show content.length = 4 from fits] at taken
    simp only [value, FieldValue.kind, FieldValue.bytes, taken, Except.map,
      show content.length = 4 from fits]

end Cursor

theorem scan_nil (offset : Nat) : scan ⟨offset, []⟩ = ⟨[], .finished, ⟨offset, []⟩⟩ := by
  rw [scan]
  rfl

/-- A scan that reads a key and its value goes on behind them. -/
theorem scan_of_read {cursor middle next : Cursor} {key : Key} {found : FieldValue}
    (keyRead : cursor.key = (.ok (some key), middle))
    (valueRead : middle.value key = (.ok found, next)) :
    scan cursor = { scan next with fields := ⟨key.field, found⟩ :: (scan next).fields } := by
  rw [scan]
  split
  next ended => simp [keyRead] at ended
  next failed => simp [keyRead] at failed
  next call =>
    simp only [keyRead, Prod.mk.injEq, Except.ok.injEq, Option.some.injEq] at call
    obtain ⟨rfl, rfl⟩ := call
    split
    next failed => simp [valueRead] at failed
    next call =>
      simp only [valueRead, Prod.mk.injEq, Except.ok.injEq] at call
      obtain ⟨rfl, rfl⟩ := call
      rfl

theorem scan_field (offset : Nat) (field : Field) (rest : List UInt8) (valid : field.Valid) :
    scan ⟨offset, field.bytes ++ rest⟩ =
      { scan ⟨offset + field.bytes.length, rest⟩ with
        fields := field :: (scan ⟨offset + field.bytes.length, rest⟩).fields } := by
  have keyRead := Cursor.key_bytes offset field.key (field.value.bytes ++ rest) valid.number
  have valueRead := Cursor.value_bytes (offset + field.key.bytes.length) field.number field.value
    rest valid.fits
  rw [← List.append_assoc] at keyRead
  rw [Nat.add_assoc, ← List.length_append] at valueRead
  exact scan_of_read keyRead valueRead

/-- A scan takes written fields off the front and goes on behind them. -/
theorem scan_fields (offset : Nat) (fields : List Field) (rest : List UInt8)
    (valid : ∀ field ∈ fields, field.Valid) :
    scan ⟨offset, fields.flatMap Field.bytes ++ rest⟩ =
      { scan ⟨offset + (fields.flatMap Field.bytes).length, rest⟩ with
        fields := fields ++
          (scan ⟨offset + (fields.flatMap Field.bytes).length, rest⟩).fields } := by
  induction fields generalizing offset with
  | nil => simp
  | cons field others ih =>
    have headValid : field.Valid := valid field (by simp)
    have tailValid : ∀ other ∈ others, other.Valid := by
      intro other member
      exact valid other (by simp [member])
    rw [List.flatMap_cons, List.append_assoc, scan_field _ _ _ headValid, ih _ tailValid,
      List.length_append, Nat.add_assoc, List.cons_append]

/-- Written fields are all there is to scan. -/
theorem scan_bytes (fields : List Field) (valid : ∀ field ∈ fields, field.Valid) :
    scan (.ofBytes (fields.flatMap Field.bytes)) =
      ⟨fields, .finished, ⟨(fields.flatMap Field.bytes).length, []⟩⟩ := by
  have scanned := scan_fields 0 fields [] valid
  rw [List.append_nil, scan_nil, List.append_nil, Nat.zero_add] at scanned
  exact scanned

end KeyRelay.Wire
