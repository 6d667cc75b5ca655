import KeyRelay.Wire.Error
import KeyRelay.Wire.Varint

/-! # Reading keys and values

A cursor stands at an offset of one encoded message. Every reading step gives
its outcome together with the cursor it leaves, also when it fails: bytes that
were consumed before the failure stay consumed. `scan` splits the rest of a
message into its complete fields and says why it stopped. -/
set_option autoImplicit false

namespace KeyRelay.Wire

structure Key where
  field : UInt32
  kind : WireType
  deriving DecidableEq, Repr

inductive FieldValue
  | varint (value : UInt64)
  | fixed64 (bytes : List UInt8)
  | lengthDelimited (bytes : List UInt8)
  | fixed32 (bytes : List UInt8)
  deriving DecidableEq, Repr

def FieldValue.kind : FieldValue → WireType
  | .varint _ => .varint
  | .fixed64 _ => .fixed64
  | .lengthDelimited _ => .lengthDelimited
  | .fixed32 _ => .fixed32

structure Field where
  number : UInt32
  value : FieldValue
  deriving DecidableEq, Repr

def Field.key (field : Field) : Key :=
  ⟨field.number, field.value.kind⟩

/-- A place in a message: how many bytes are behind it, and those ahead. -/
structure Cursor where
  offset : Nat
  rest : List UInt8
  deriving DecidableEq, Repr

namespace Cursor

def ofBytes (bytes : List UInt8) : Cursor :=
  ⟨0, bytes⟩

def limit (cursor : Cursor) : Nat :=
  cursor.offset + cursor.rest.length

/-- The cursor in front of a tail of its rest. -/
def moveTo (cursor : Cursor) (rest : List UInt8) : Cursor :=
  ⟨cursor.offset + (cursor.rest.length - rest.length), rest⟩

/-- The largest field number a key can carry. -/
def maxFieldNumber : Nat := 0x1FFFFFFF

def varint (cursor : Cursor) : Except DecodeError UInt64 × Cursor :=
  match Varint.read Varint.maxLength cursor.rest with
  | .complete value rest => (.ok (UInt64.ofNat value), cursor.moveTo rest)
  | .truncated => (.error (.truncated cursor.limit), cursor.moveTo [])
  | .overlong rest => (.error (.varintOverflow cursor.offset), cursor.moveTo rest)

def take (cursor : Cursor) (count : Nat) : Except DecodeError (List UInt8) × Cursor :=
  if count ≤ cursor.rest.length then
    (.ok (cursor.rest.take count), ⟨cursor.offset + count, cursor.rest.drop count⟩)
  else
    (.error (.truncated cursor.limit), cursor)

def lengthDelimited (cursor : Cursor) : Except DecodeError (List UInt8) × Cursor :=
  match cursor.varint with
  | (.ok length, next) => next.take length.toNat
  | (.error failure, next) => (.error failure, next)

/-- The key that a number stands for; `offset` is where the number began. -/
def keyOf (offset : Nat) (value : UInt64) : Except DecodeError Key :=
  let number := value.toNat / 8
  let code := UInt8.ofNat (value.toNat % 8)
  if number = 0 ∨ maxFieldNumber < number then .error (.invalidFieldNumber offset)
  else
    match WireType.ofCode? code with
    | some kind => .ok ⟨UInt32.ofNat number, kind⟩
    | none => .error (.unsupportedWireType (UInt32.ofNat number) code)

/-- The next key, or none at the end of the message. -/
def key (cursor : Cursor) : Except DecodeError (Option Key) × Cursor :=
  if cursor.rest.isEmpty then (.ok none, cursor)
  else
    match cursor.varint with
    | (.ok value, next) => ((keyOf cursor.offset value).map some, next)
    | (.error failure, next) => (.error failure, next)

/-- The value behind a key. Groups are not supported. -/
def value (cursor : Cursor) (key : Key) : Except DecodeError FieldValue × Cursor :=
  match key.kind with
  | .varint =>
    let (outcome, next) := cursor.varint
    (outcome.map .varint, next)
  | .fixed64 =>
    let (outcome, next) := cursor.take 8
    (outcome.map .fixed64, next)
  | .lengthDelimited =>
    let (outcome, next) := cursor.lengthDelimited
    (outcome.map .lengthDelimited, next)
  | .fixed32 =>
    let (outcome, next) := cursor.take 4
    (outcome.map .fixed32, next)
  | .startGroup | .endGroup => (.error (.unsupportedWireType key.field key.kind.code), cursor)

/-- Passes over the value of a field that the schema does not know. -/
def skip (cursor : Cursor) (key : Key) : Except DecodeError Unit × Cursor :=
  let (outcome, next) := cursor.value key
  (outcome.map fun _ => (), next)

theorem rest_moveTo (cursor : Cursor) (rest : List UInt8) : (cursor.moveTo rest).rest = rest :=
  rfl

theorem varint_shortens {cursor next : Cursor} {found : UInt64}
    (success : cursor.varint = (.ok found, next)) : next.rest.length < cursor.rest.length := by
  unfold varint at success
  split at success
  next value rest call =>
    simp only [Prod.mk.injEq, Except.ok.injEq] at success
    rw [← success.2, rest_moveTo]
    exact Varint.length_lt_of_read call
  next => simp at success
  next => simp at success

theorem take_shortens {cursor next : Cursor} {count : Nat} {found : List UInt8}
    (success : cursor.take count = (.ok found, next)) :
    next.rest.length ≤ cursor.rest.length := by
  unfold take at success
  split at success
  · simp only [Prod.mk.injEq, Except.ok.injEq] at success
    rw [← success.2]
    simp
  · simp at success

theorem lengthDelimited_shortens {cursor next : Cursor} {found : List UInt8}
    (success : cursor.lengthDelimited = (.ok found, next)) :
    next.rest.length ≤ cursor.rest.length := by
  unfold lengthDelimited at success
  split at success
  next length middle call =>
    have first := varint_shortens call
    have second := take_shortens success
    omega
  next => simp at success

theorem key_shortens {cursor next : Cursor} {found : Key}
    (success : cursor.key = (.ok (some found), next)) :
    next.rest.length < cursor.rest.length := by
  unfold key at success
  split at success
  · simp at success
  · split at success
    next value middle call =>
      have shorter := varint_shortens call
      simp only [Prod.mk.injEq] at success
      rw [← success.2]
      exact shorter
    next => simp at success

theorem value_shortens {cursor next : Cursor} {key : Key} {found : FieldValue}
    (success : cursor.value key = (.ok found, next)) :
    next.rest.length ≤ cursor.rest.length := by
  unfold value at success
  split at success
  · cases call : cursor.varint with
    | mk outcome middle =>
      cases outcome with
      | error failure => simp [call, Except.map] at success
      | ok number =>
        have shorter := varint_shortens call
        simp only [call, Prod.mk.injEq] at success
        rw [← success.2]
        omega
  · cases call : cursor.take 8 with
    | mk outcome middle =>
      cases outcome with
      | error failure => simp [call, Except.map] at success
      | ok bytes =>
        simp only [call, Prod.mk.injEq] at success
        rw [← success.2]
        exact take_shortens call
  · cases call : cursor.lengthDelimited with
    | mk outcome middle =>
      cases outcome with
      | error failure => simp [call, Except.map] at success
      | ok bytes =>
        simp only [call, Prod.mk.injEq] at success
        rw [← success.2]
        exact lengthDelimited_shortens call
  · cases call : cursor.take 4 with
    | mk outcome middle =>
      cases outcome with
      | error failure => simp [call, Except.map] at success
      | ok bytes =>
        simp only [call, Prod.mk.injEq] at success
        rw [← success.2]
        exact take_shortens call
  · simp at success
  · simp at success

end Cursor

/-- Why a scan ended: at the end of the message, at a bad key, or at a key
whose value is bad. -/
inductive Stop
  | finished
  | badKey (failure : DecodeError)
  | badValue (key : Key) (failure : DecodeError)
  deriving DecidableEq, Repr

def Stop.failure? : Stop → Option DecodeError
  | .finished => none
  | .badKey failure => some failure
  | .badValue _ failure => some failure

structure Scan where
  fields : List Field
  stop : Stop
  cursor : Cursor
  deriving DecidableEq, Repr

/-- The keys of a scan: those of the complete fields, then the one whose value is bad. -/
def Scan.keys (found : Scan) : List Key :=
  found.fields.map Field.key ++
    match found.stop with
    | .badValue key _ => [key]
    | _ => []

def scan (cursor : Cursor) : Scan :=
  match _keyRead : cursor.key with
  | (.ok none, next) => ⟨[], .finished, next⟩
  | (.error failure, next) => ⟨[], .badKey failure, next⟩
  | (.ok (some key), middle) =>
    match _valueRead : middle.value key with
    | (.error failure, next) => ⟨[], .badValue key failure, next⟩
    | (.ok found, next) =>
      let remaining := scan next
      ⟨⟨key.field, found⟩ :: remaining.fields, remaining.stop, remaining.cursor⟩
termination_by cursor.rest.length
decreasing_by
  have first := Cursor.key_shortens _keyRead
  have second := Cursor.value_shortens _valueRead
  omega

end KeyRelay.Wire
