import KeyRelay.Wire.Error
import KeyRelay.Wire.Varint

/-! # Writing fields into a bounded buffer

A put is broken into atoms, each written whole or not at all: a key, a number,
a run of bytes. A writer takes the atoms of a put one after another and stops
at the first that does not fit, keeping those before it. What is behind the
written part of the buffer stays as it was. -/
set_option autoImplicit false

namespace KeyRelay.Wire

/-- One put of a message writer. A scalar equal to its default and an empty
run of bytes are omitted, except in the forms that carry presence. -/
inductive Put
  | varint (value : UInt64)
  | key (field : UInt32) (kind : WireType)
  | varintField (field : UInt32) (value : UInt64)
  | uint (field : UInt32) (value : UInt64)
  | int32 (field : UInt32) (value : Int32)
  | bool (field : UInt32) (value : Bool)
  | bytes (field : UInt32) (value : List UInt8)
  | lengthDelimited (field : UInt32) (value : List UInt8)
  deriving DecidableEq, Repr

namespace Put

/-- The number that carries a field number and a wire type. -/
def keyValue (field : UInt32) (kind : WireType) : UInt64 :=
  UInt64.ofNat (field.toNat * 8 + kind.code.toNat)

/-- A signed value travels sign-extended to 64 bits. -/
def extended (value : Int32) : UInt64 :=
  value.toInt64.toUInt64

def varintAtoms (field : UInt32) (value : UInt64) : List (List UInt8) :=
  [Varint.encode (keyValue field .varint), Varint.encode value]

def uintAtoms (field : UInt32) (value : UInt64) : List (List UInt8) :=
  if value = 0 then [] else varintAtoms field value

def lengthDelimitedAtoms (field : UInt32) (value : List UInt8) : List (List UInt8) :=
  [Varint.encode (keyValue field .lengthDelimited),
    Varint.encode (UInt64.ofNat value.length), value]

def atoms : Put → List (List UInt8)
  | .varint value => [Varint.encode value]
  | .key field kind => [Varint.encode (keyValue field kind)]
  | .varintField field value => varintAtoms field value
  | .uint field value => uintAtoms field value
  | .int32 field value => uintAtoms field (extended value)
  | .bool field value => uintAtoms field (if value then 1 else 0)
  | .bytes field value => if value.isEmpty then [] else lengthDelimitedAtoms field value
  | .lengthDelimited field value => lengthDelimitedAtoms field value

def encoding (put : Put) : List UInt8 :=
  put.atoms.flatten

end Put

/-- A buffer of which the front part has been written; `message` names the
value being written, for the error. -/
structure Writer where
  message : String
  written : List UInt8
  spare : List UInt8
  deriving DecidableEq, Repr

namespace Writer

def start (message : String) (buffer : List UInt8) : Writer :=
  ⟨message, [], buffer⟩

/-- A writer over a cleared buffer of the given size. -/
def ofCapacity (message : String) (capacity : Nat) : Writer :=
  start message (List.replicate capacity 0)

def length (writer : Writer) : Nat :=
  writer.written.length

def isEmpty (writer : Writer) : Bool :=
  writer.written.isEmpty

def buffer (writer : Writer) : List UInt8 :=
  writer.written ++ writer.spare

def capacity (writer : Writer) : Nat :=
  writer.written.length + writer.spare.length

def append (writer : Writer) (atom : List UInt8) : Except EncodeError Unit × Writer :=
  if atom.length ≤ writer.spare.length then
    (.ok (), { writer with
      written := writer.written ++ atom
      spare := writer.spare.drop atom.length })
  else
    (.error ⟨writer.message, writer.length + atom.length, writer.capacity⟩, writer)

def appendAll (writer : Writer) : List (List UInt8) → Except EncodeError Unit × Writer
  | [] => (.ok (), writer)
  | atom :: rest =>
    match writer.append atom with
    | (.ok (), next) => next.appendAll rest
    | (.error failure, next) => (.error failure, next)

def put (writer : Writer) (item : Put) : Except EncodeError Unit × Writer :=
  writer.appendAll item.atoms

def putAll (writer : Writer) : List Put → Except EncodeError Unit × Writer
  | [] => (.ok (), writer)
  | item :: rest =>
    match writer.put item with
    | (.ok (), next) => next.putAll rest
    | (.error failure, next) => (.error failure, next)

/-- Puts every item, going on after failures, and gives each outcome with the
writer it left. -/
def putEach (writer : Writer) : List Put → List (Except EncodeError Unit × Writer)
  | [] => []
  | item :: rest => writer.put item :: (writer.put item).2.putEach rest

/-- The bytes of a list of puts in a cleared buffer of the given size. -/
def render (message : String) (capacity : Nat) (items : List Put) :
    Except EncodeError (List UInt8) :=
  match (ofCapacity message capacity).putAll items with
  | (.ok (), done) => .ok done.written
  | (.error failure, _) => .error failure

end Writer

end KeyRelay.Wire
