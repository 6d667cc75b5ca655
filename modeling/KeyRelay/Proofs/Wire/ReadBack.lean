import KeyRelay.Proofs.Wire.Put
import Mathlib.Algebra.GroupWithZero.Nat

/-! # Reading back what was written

Writer and reader are inverse on fields. A list of puts succeeds exactly if the buffer
has room for the sizes of its fields, where an omitted default takes none; it then
takes these sizes and no more, and a scan of what was written gives the fields and
reaches the end. -/
set_option autoImplicit false

namespace KeyRelay.Wire

/-- The bytes that a value takes behind its key. -/
def FieldValue.size : FieldValue → Nat
  | .varint value => Varint.length value
  | .lengthDelimited content => Varint.length (UInt64.ofNat content.length) + content.length
  | .fixed64 content | .fixed32 content => content.length

def Field.size (field : Field) : Nat :=
  Varint.length (Put.keyValue field.number field.value.kind) + field.value.size

theorem FieldValue.length_bytes (value : FieldValue) : value.bytes.length = value.size := by
  cases value with
  | varint value => exact Varint.length_encode value
  | lengthDelimited content => rw [bytes, size, List.length_append, Varint.length_encode]
  | fixed64 content => rfl
  | fixed32 content => rfl

theorem Field.length_bytes (field : Field) : field.bytes.length = field.size := by
  rw [bytes, size, List.length_append, field.value.length_bytes, Key.bytes, Varint.length_encode,
    key]

namespace Put

theorem length_encodingAll {puts : List Put} (numbered : ∀ put ∈ puts, put.Numbered) :
    (encodingAll puts).length = ((fields puts).map Field.size).sum := by
  rw [encodingAll_eq numbered, List.length_flatMap]
  simp only [Field.length_bytes]

/-- A content is no longer than the field that carries it. -/
theorem valid_of_length {put : Put} (numbered : put.Numbered)
    (fits : put.encoding.length < UInt64.size) : put.Valid := by
  cases put with
  | varint value => exact numbered
  | key number kind => exact numbered
  | varintField number value => exact numbered
  | uint number value => exact numbered
  | int32 number value => exact numbered
  | bool number value => exact numbered
  | bytes number value =>
    refine ⟨numbered, ?_⟩
    by_cases empty : value.isEmpty
    · rw [List.isEmpty_iff.mp empty]
      decide
    · simp only [encoding, atoms, if_neg empty, lengthDelimitedAtoms, List.flatten_cons,
        List.flatten_nil, List.length_append] at fits
      omega
  | lengthDelimited number value =>
    refine ⟨numbered, ?_⟩
    simp only [encoding, atoms, lengthDelimitedAtoms, List.flatten_cons, List.flatten_nil,
      List.length_append] at fits
    omega

theorem valid_of_length_all {puts : List Put} (numbered : ∀ put ∈ puts, put.Numbered)
    (fits : (encodingAll puts).length < UInt64.size) : ∀ put ∈ puts, put.Valid := by
  intro put member
  have part : put.encoding.length ≤ (encodingAll puts).length :=
    (List.sublist_flatten_of_mem (List.mem_map_of_mem member)).length_le
  exact valid_of_length (numbered put member) (by omega)

end Put

namespace Writer

theorem append_ok {writer next : Writer} {atom : List UInt8}
    (success : writer.append atom = (.ok (), next)) :
    atom.length ≤ writer.spare.length ∧ next = writer.advance atom := by
  by_cases fits : atom.length ≤ writer.spare.length
  · rw [append_of_fits fits] at success
    exact ⟨fits, (Prod.mk.inj success).2.symm⟩
  · rw [append, if_neg fits] at success
    simp at success

theorem appendAll_ok {writer next : Writer} {atoms : List (List UInt8)}
    (success : writer.appendAll atoms = (.ok (), next)) :
    atoms.flatten.length ≤ writer.spare.length ∧ next = writer.advance atoms.flatten := by
  induction atoms generalizing writer with
  | nil =>
    rw [appendAll] at success
    rw [List.flatten_nil, advance_nil]
    exact ⟨Nat.zero_le _, (Prod.mk.inj success).2.symm⟩
  | cons atom rest ih =>
    rw [appendAll] at success
    split at success
    next middle first =>
      obtain ⟨fits, rfl⟩ := append_ok first
      obtain ⟨restFits, rfl⟩ := ih success
      rw [advance, List.length_drop] at restFits
      rw [List.flatten_cons, List.length_append, advance_append]
      exact ⟨by omega, rfl⟩
    next => simp at success

/-- Puts that all succeed have had room for their encodings. -/
theorem putAll_ok {writer next : Writer} {items : List Put}
    (success : writer.putAll items = (.ok (), next)) :
    (Put.encodingAll items).length ≤ writer.spare.length ∧
      next = writer.advance (Put.encodingAll items) := by
  induction items generalizing writer with
  | nil =>
    rw [putAll] at success
    rw [Put.encodingAll, List.flatMap_nil, advance_nil]
    exact ⟨Nat.zero_le _, (Prod.mk.inj success).2.symm⟩
  | cons item rest ih =>
    rw [putAll] at success
    split at success
    next middle first =>
      obtain ⟨fits, rfl⟩ := appendAll_ok first
      obtain ⟨restFits, rfl⟩ := ih success
      rw [advance, List.length_drop] at restFits
      rw [Put.encodingAll, List.flatMap_cons, List.length_append, ← Put.encodingAll,
        ← advance_append, Put.encoding]
      exact ⟨by omega, rfl⟩
    next => simp at success

theorem putAll_ok_iff (writer : Writer) (items : List Put) :
    (writer.putAll items).1 = .ok () ↔ (Put.encodingAll items).length ≤ writer.spare.length := by
  constructor
  · intro success
    have done : writer.putAll items = (.ok (), (writer.putAll items).2) := Prod.ext success rfl
    exact (putAll_ok done).1
  · intro fits
    rw [putAll_of_fits _ _ fits]

end Writer

/-- Puts of fields into a buffer in memory succeed exactly if it has room for the sizes
of the fields that they write. Then so many bytes are written, and a scan of them gives
these fields, in order, and comes to the end. -/
theorem fields_read_back (name : String) {buffer : List UInt8}
    (addressable : buffer.length < UInt64.size) {puts : List Put}
    (numbered : ∀ put ∈ puts, put.Numbered) :
    let (outcome, writer) := (Writer.start name buffer).putAll puts
    let size := ((Put.fields puts).map Field.size).sum
    (outcome = .ok () ↔ size ≤ buffer.length) ∧
    (size ≤ buffer.length →
      writer.written.length = size ∧
      scan (.ofBytes writer.written) = ⟨Put.fields puts, .finished, ⟨size, []⟩⟩) := by
  have size : (Put.encodingAll puts).length = ((Put.fields puts).map Field.size).sum :=
    Put.length_encodingAll numbered
  have success := Writer.putAll_ok_iff (Writer.start name buffer) puts
  rw [size] at success
  refine ⟨success, ?_⟩
  intro room
  have fits : (Put.encodingAll puts).length ≤ (Writer.start name buffer).spare.length := by
    rw [size]
    exact room
  have valid : ∀ put ∈ puts, put.Valid := Put.valid_of_length_all numbered (by omega)
  have written : ((Writer.start name buffer).putAll puts).2.written = Put.encodingAll puts := by
    rw [Writer.putAll_of_fits _ _ fits]
    rfl
  rw [written, scan_encodingAll valid, size]
  exact ⟨rfl, rfl⟩

/-- Two of six puts are omitted defaults, one value is negative, two keys are longer than a
byte, and the buffer has just enough room. -/
theorem fields_read_back_mixed :
    let puts : List Put := [.varintField 1 0, .uint 2 0, .int32 3 (-1), .bool 16 true,
      .bytes 5 [], .lengthDelimited 0x1FFFFFFF [7, 8]]
    let (outcome, writer) := (Writer.start "Sample" (List.replicate 24 255)).putAll puts
    outcome = .ok () ∧ writer.written.length = 24 ∧
      scan (.ofBytes writer.written) =
        ⟨[⟨1, .varint 0⟩, ⟨3, .varint 0xFFFFFFFFFFFFFFFF⟩, ⟨16, .varint 1⟩,
          ⟨0x1FFFFFFF, .lengthDelimited [7, 8]⟩], .finished, ⟨24, []⟩⟩ := by
  intro puts
  have numbered : ∀ put ∈ puts, put.Numbered := by
    simp only [puts, List.forall_mem_cons, Put.Numbered]
    exact ⟨by decide, by decide, by decide, by decide, by decide, by decide, by simp⟩
  have addressable : (List.replicate 24 (255 : UInt8)).length < UInt64.size := by decide
  have size : ((Put.fields puts).map Field.size).sum = 24 := by decide
  obtain ⟨success, written⟩ := fields_read_back "Sample" addressable numbered
  rw [size] at success written
  have room : 24 ≤ (List.replicate 24 (255 : UInt8)).length := by decide
  exact ⟨success.mpr room, written room⟩

end KeyRelay.Wire
