import KeyRelay.Wire.Reader

/-! # Message schemas

A schema gives, for each field number it knows, how a value is stored into the
message built so far. Every known field is a number or a run of bytes. Decoding
folds the fields of a scan from the left, so a later field overrides an
earlier one, an unknown field changes nothing, and the first fault wins. -/
set_option autoImplicit false

namespace KeyRelay.Wire

/-- The form a known field has on the wire, and what its value does to the message. -/
inductive Rule (α : Type)
  | varint (store : UInt64 → α → Except DecodeError α)
  | bytes (store : List UInt8 → α → Except DecodeError α)

def Rule.kind {α : Type} : Rule α → WireType
  | .varint _ => .varint
  | .bytes _ => .lengthDelimited

structure Schema (α : Type) where
  message : String
  rule? : UInt32 → Option (Rule α)

/-- Fails unless a field has the wire type that its schema gives it. -/
def expectKind (message : String) (field : UInt32) (expected found : WireType) :
    Except DecodeError Unit :=
  if found = expected then .ok ()
  else .error (.wireTypeMismatch message field expected found)

namespace Schema

variable {α : Type}

def absorb (schema : Schema α) (field : Field) (message : α) : Except DecodeError α :=
  match schema.rule? field.number, field.value with
  | none, _ => .ok message
  | some (.varint store), .varint value => store value message
  | some (.bytes store), .lengthDelimited bytes => store bytes message
  | some rule, other =>
    .error (.wireTypeMismatch schema.message field.number rule.kind other.kind)

def absorbAll (schema : Schema α) : List Field → α → Except DecodeError α
  | [], message => .ok message
  | field :: rest, message =>
    match schema.absorb field message with
    | .ok next => schema.absorbAll rest next
    | .error failure => .error failure

/-- The error of a scan that stopped early. The wire type of a known field is
checked before its value is read. -/
def stopFailure? (schema : Schema α) : Stop → Option DecodeError
  | .finished => none
  | .badKey failure => some failure
  | .badValue key failure =>
    match schema.rule? key.field with
    | none => some failure
    | some rule =>
      match expectKind schema.message key.field rule.kind key.kind with
      | .ok () => some failure
      | .error mismatch => some mismatch

def decode (schema : Schema α) (default : α) (bytes : List UInt8) : Except DecodeError α :=
  let found := scan (.ofBytes bytes)
  match schema.absorbAll found.fields default with
  | .error failure => .error failure
  | .ok message =>
    match schema.stopFailure? found.stop with
    | none => .ok message
    | some failure => .error failure

end Schema

def uint32 (message : String) (field : UInt32) (value : UInt64) : Except DecodeError UInt32 :=
  if value.toNat < UInt32.size then .ok value.toUInt32
  else .error (.valueOutOfRange message field value)

def int32 (value : UInt64) : Int32 :=
  value.toUInt32.toInt32

end KeyRelay.Wire
