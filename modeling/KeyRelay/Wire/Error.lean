/-! # Wire types and the ways in which reading and writing fail

A field on the wire is a key, which packs the field number with a wire type,
and a value of that type. Encoding fails only for want of room. A decoding
error names either the byte offset at which the input is at fault or the
message and field whose value is not one the schema admits. -/
set_option autoImplicit false

namespace KeyRelay.Wire

inductive WireType
  | varint
  | fixed64
  | lengthDelimited
  | startGroup
  | endGroup
  | fixed32
  deriving DecidableEq, Repr

namespace WireType

def code : WireType → UInt8
  | .varint => 0
  | .fixed64 => 1
  | .lengthDelimited => 2
  | .startGroup => 3
  | .endGroup => 4
  | .fixed32 => 5

def ofCode? : UInt8 → Option WireType
  | 0 => some .varint
  | 1 => some .fixed64
  | 2 => some .lengthDelimited
  | 3 => some .startGroup
  | 4 => some .endGroup
  | 5 => some .fixed32
  | _ => none

def name : WireType → String
  | .varint => "Varint"
  | .fixed64 => "Fixed64"
  | .lengthDelimited => "LengthDelimited"
  | .startGroup => "StartGroup"
  | .endGroup => "EndGroup"
  | .fixed32 => "Fixed32"

theorem ofCode?_code (kind : WireType) : ofCode? kind.code = some kind := by
  cases kind <;> rfl

end WireType

/-- The write that failed would have ended at `needed`, beyond `capacity`. -/
structure EncodeError where
  message : String
  needed : Nat
  capacity : Nat
  deriving DecidableEq, Repr

def EncodeError.text (failure : EncodeError) : String :=
  s!"{failure.message} does not fit: need at least {failure.needed} bytes, " ++
    s!"buffer holds {failure.capacity}"

inductive DecodeError
  | truncated (offset : Nat)
  | varintOverflow (offset : Nat)
  | invalidFieldNumber (offset : Nat)
  | unsupportedWireType (field : UInt32) (code : UInt8)
  | wireTypeMismatch (message : String) (field : UInt32) (expected found : WireType)
  | fieldTooLong (message : String) (field : UInt32) (length capacity : Nat)
  | valueOutOfRange (message : String) (field : UInt32) (value : UInt64)
  | unknownEnumValue (message : String) (field : UInt32) (value : Int32)
  | missingPayload
  deriving DecidableEq, Repr

def DecodeError.text : DecodeError → String
  | .truncated offset => s!"input truncated at byte {offset}"
  | .varintOverflow offset => s!"varint at byte {offset} is longer than 10 bytes"
  | .invalidFieldNumber offset => s!"invalid field number in key at byte {offset}"
  | .unsupportedWireType field code => s!"field {field} uses unsupported wire type {code}"
  | .wireTypeMismatch message field expected found =>
    s!"{message}.{field}: expected wire type {expected.name}, found {found.name}"
  | .fieldTooLong message field length capacity =>
    s!"{message}.{field}: {length} bytes exceeds capacity {capacity}"
  | .valueOutOfRange message field value => s!"{message}.{field}: value {value} out of range"
  | .unknownEnumValue message field value => s!"{message}.{field}: unknown enum value {value}"
  | .missingPayload => "event has no payload"

end KeyRelay.Wire
