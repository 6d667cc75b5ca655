import KeyRelay.Proofs.Wire.Field

/-! # Puts as fields

A put of a field writes that field, or nothing when the field is an omitted
default. In a buffer with enough room a list of puts leaves the bytes of its
fields, one behind the other. -/
set_option autoImplicit false

namespace KeyRelay.Wire

namespace Put

/-- The field that a put writes, unless it is an omitted default. A bare number
or key is no field. -/
def field? : Put → Option Field
  | .varint _ | .key _ _ => none
  | .varintField number value => some ⟨number, .varint value⟩
  | .uint number value => if value = 0 then none else some ⟨number, .varint value⟩
  | .int32 number value =>
    if extended value = 0 then none else some ⟨number, .varint (extended value)⟩
  | .bool number value => if value then some ⟨number, .varint 1⟩ else none
  | .bytes number value => if value.isEmpty then none else some ⟨number, .lengthDelimited value⟩
  | .lengthDelimited number value => some ⟨number, .lengthDelimited value⟩

/-- A put of a whole field, with a number that a key may carry. -/
def Numbered : Put → Prop
  | .varint _ | .key _ _ => False
  | .varintField number _ | .uint number _ | .int32 number _ | .bool number _
  | .bytes number _ | .lengthDelimited number _ => ValidNumber number

/-- A put of a whole field, with a number that a key may carry and a length
that can be announced. -/
def Valid : Put → Prop
  | .varint _ | .key _ _ => False
  | .varintField number _ | .uint number _ | .int32 number _ | .bool number _ =>
    ValidNumber number
  | .bytes number value | .lengthDelimited number value =>
    ValidNumber number ∧ value.length < UInt64.size

theorem Valid.numbered {put : Put} (valid : put.Valid) : put.Numbered := by
  cases put with
  | varint value => exact valid
  | key number kind => exact valid
  | varintField number value => exact valid
  | uint number value => exact valid
  | int32 number value => exact valid
  | bool number value => exact valid
  | bytes number value => exact valid.1
  | lengthDelimited number value => exact valid.1

theorem valid_field {put : Put} {field : Field} (valid : put.Valid)
    (written : put.field? = some field) : field.Valid := by
  cases put with
  | varint value => exact valid.elim
  | key number kind => exact valid.elim
  | varintField number value =>
    cases written
    exact ⟨valid, trivial⟩
  | uint number value =>
    simp only [field?, Option.ite_none_left_eq_some, Option.some.injEq] at written
    obtain ⟨_, rfl⟩ := written
    exact ⟨valid, trivial⟩
  | int32 number value =>
    simp only [field?, Option.ite_none_left_eq_some, Option.some.injEq] at written
    obtain ⟨_, rfl⟩ := written
    exact ⟨valid, trivial⟩
  | bool number value =>
    simp only [field?, Option.ite_none_right_eq_some, Option.some.injEq] at written
    obtain ⟨_, rfl⟩ := written
    exact ⟨valid, trivial⟩
  | bytes number value =>
    simp only [field?, Option.ite_none_left_eq_some, Option.some.injEq] at written
    obtain ⟨_, rfl⟩ := written
    exact ⟨valid.1, valid.2⟩
  | lengthDelimited number value =>
    cases written
    exact ⟨valid.1, valid.2⟩

theorem encoding_varintAtoms (number : UInt32) (value : UInt64) :
    (varintAtoms number value).flatten = (Field.mk number (.varint value)).bytes := by
  simp [varintAtoms, Field.bytes, Key.bytes, Field.key, FieldValue.kind, FieldValue.bytes]

theorem encoding_lengthDelimitedAtoms (number : UInt32) (value : List UInt8) :
    (lengthDelimitedAtoms number value).flatten =
      (Field.mk number (.lengthDelimited value)).bytes := by
  simp [lengthDelimitedAtoms, Field.bytes, Key.bytes, Field.key, FieldValue.kind, FieldValue.bytes]

theorem encoding_eq {put : Put} (numbered : put.Numbered) :
    put.encoding = put.field?.toList.flatMap Field.bytes := by
  cases put with
  | varint value => exact numbered.elim
  | key number kind => exact numbered.elim
  | varintField number value => simp [encoding, atoms, field?, encoding_varintAtoms]
  | uint number value =>
    by_cases zero : value = 0
    · simp [encoding, atoms, uintAtoms, field?, zero]
    · simp [encoding, atoms, uintAtoms, field?, zero, encoding_varintAtoms]
  | int32 number value =>
    by_cases zero : extended value = 0
    · simp [encoding, atoms, uintAtoms, field?, zero]
    · simp [encoding, atoms, uintAtoms, field?, zero, encoding_varintAtoms]
  | bool number value =>
    cases value with
    | false => simp [encoding, atoms, uintAtoms, field?]
    | true => simp [encoding, atoms, uintAtoms, field?, encoding_varintAtoms]
  | bytes number value =>
    by_cases empty : value.isEmpty
    · simp [encoding, atoms, field?, empty]
    · simp [encoding, atoms, field?, empty, encoding_lengthDelimitedAtoms]
  | lengthDelimited number value => simp [encoding, atoms, field?, encoding_lengthDelimitedAtoms]

def encodingAll (puts : List Put) : List UInt8 :=
  puts.flatMap encoding

/-- The fields of a list of puts, without the omitted ones. -/
def fields (puts : List Put) : List Field :=
  puts.filterMap field?

theorem valid_fields {puts : List Put} (valid : ∀ put ∈ puts, put.Valid) :
    ∀ field ∈ fields puts, field.Valid := by
  intro field member
  obtain ⟨put, putMember, written⟩ := List.mem_filterMap.mp member
  exact valid_field (valid put putMember) written

theorem fields_cons (put : Put) (rest : List Put) :
    fields (put :: rest) = put.field?.toList ++ fields rest := by
  rw [fields, List.filterMap_cons]
  cases put.field? <;> rfl

theorem encodingAll_eq {puts : List Put} (numbered : ∀ put ∈ puts, put.Numbered) :
    encodingAll puts = (fields puts).flatMap Field.bytes := by
  induction puts with
  | nil => rfl
  | cons put rest ih =>
    have restNumbered : ∀ other ∈ rest, other.Numbered := by
      intro other member
      exact numbered other (by simp [member])
    rw [fields_cons, List.flatMap_append, ← encoding_eq (numbered put (by simp)),
      ← ih restNumbered]
    rfl

end Put

/-- A scan of what puts have written gives their fields. -/
theorem scan_encodingAll {puts : List Put} (valid : ∀ put ∈ puts, put.Valid) :
    scan (.ofBytes (Put.encodingAll puts)) =
      ⟨Put.fields puts, .finished, ⟨(Put.encodingAll puts).length, []⟩⟩ := by
  rw [Put.encodingAll_eq fun put member => (valid put member).numbered]
  exact scan_bytes _ (Put.valid_fields valid)

namespace Writer

/-- The writer behind bytes that fitted. -/
def advance (writer : Writer) (bytes : List UInt8) : Writer :=
  { writer with
    written := writer.written ++ bytes
    spare := writer.spare.drop bytes.length }

theorem advance_nil (writer : Writer) : writer.advance [] = writer := by
  simp [advance]

theorem advance_append (writer : Writer) (front back : List UInt8) :
    (writer.advance front).advance back = writer.advance (front ++ back) := by
  simp [advance, List.append_assoc, List.drop_drop]

theorem append_of_fits {writer : Writer} {atom : List UInt8}
    (fits : atom.length ≤ writer.spare.length) :
    writer.append atom = (.ok (), writer.advance atom) := by
  rw [append, if_pos fits]
  rfl

theorem appendAll_of_fits (writer : Writer) (atoms : List (List UInt8))
    (fits : atoms.flatten.length ≤ writer.spare.length) :
    writer.appendAll atoms = (.ok (), writer.advance atoms.flatten) := by
  induction atoms generalizing writer with
  | nil => rw [appendAll, List.flatten_nil, advance_nil]
  | cons atom rest ih =>
    rw [List.flatten_cons, List.length_append] at fits
    have restFits : rest.flatten.length ≤ (writer.advance atom).spare.length := by
      simp only [advance, List.length_drop]
      omega
    rw [appendAll, append_of_fits (by omega)]
    dsimp only
    rw [ih _ restFits, advance_append, List.flatten_cons]

theorem putAll_of_fits (writer : Writer) (items : List Put)
    (fits : (Put.encodingAll items).length ≤ writer.spare.length) :
    writer.putAll items = (.ok (), writer.advance (Put.encodingAll items)) := by
  induction items generalizing writer with
  | nil => rw [putAll, Put.encodingAll, List.flatMap_nil, advance_nil]
  | cons item rest ih =>
    rw [Put.encodingAll, List.flatMap_cons, List.length_append] at fits
    have itemFits : item.atoms.flatten.length ≤ writer.spare.length := by
      rw [Put.encoding] at fits
      omega
    have restFits :
        (Put.encodingAll rest).length ≤ (writer.advance item.encoding).spare.length := by
      simp only [advance, List.length_drop, Put.encodingAll]
      omega
    rw [putAll, put, appendAll_of_fits _ _ itemFits]
    dsimp only
    rw [← Put.encoding, ih _ restFits, advance_append]
    rfl

/-- A buffer of its own with enough room takes a list of puts. -/
theorem render_of_fits (message : String) {capacity : Nat} {items : List Put}
    (fits : (Put.encodingAll items).length ≤ capacity) :
    render message capacity items = .ok (Put.encodingAll items) := by
  have spare : (Put.encodingAll items).length ≤ (ofCapacity message capacity).spare.length := by
    simpa [ofCapacity, start] using fits
  rw [render, putAll_of_fits _ _ spare]
  simp [advance, ofCapacity, start]

end Writer

end KeyRelay.Wire
