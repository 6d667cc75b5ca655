import KeyRelay.Message.Command
import KeyRelay.Message.Event
import KeyRelay.Wire.Schema

/-! # Decoding messages

The schemas of the messages. A repeated field keeps its last occurrence, and an
embedded message that occurs again replaces the earlier one whole. An event
has to carry one of its variants; a command may be empty. -/
set_option autoImplicit false

namespace KeyRelay

open Wire

def Endpoint.schema : Schema Endpoint where
  message := "Endpoint"
  rule?
    | 1 => some (.varint fun value endpoint =>
        match Transport.ofCode? (int32 value) with
        | some transport => .ok { endpoint with transport }
        | none => .error (.unknownEnumValue "Endpoint" 1 (int32 value)))
    | 2 => some (.varint fun value endpoint => do
        return { endpoint with profile := ← uint32 "Endpoint" 2 value })
    | _ => none

def Endpoint.decode (bytes : List UInt8) : Except DecodeError Endpoint :=
  schema.decode {} bytes

def KscanEvent.schema : Schema KscanEvent where
  message := "KscanEvent"
  rule?
    | 1 => some (.varint fun value event => do
        return { event with source := ← uint32 "KscanEvent" 1 value })
    | 2 => some (.varint fun value event => do
        return { event with position := ← uint32 "KscanEvent" 2 value })
    | 3 => some (.varint fun value event => .ok { event with pressed := value != 0 })
    | 4 => some (.varint fun value event => .ok { event with timestamp := value })
    | _ => none

def KscanEvent.decode (bytes : List UInt8) : Except DecodeError KscanEvent :=
  schema.decode {} bytes

/-- A key array that has to fit the capacity of its report. -/
def boundedKeys {capacity : Nat} (message : String) (field : UInt32) (codes : List UInt8) :
    Except DecodeError (KeyArray capacity) :=
  if fits : codes.length ≤ capacity then .ok ⟨codes, fits⟩
  else .error (.fieldTooLong message field codes.length capacity)

def uint8 (message : String) (field : UInt32) (value : UInt64) : Except DecodeError UInt8 :=
  if value.toNat < UInt8.size then .ok value.toUInt8
  else .error (.valueOutOfRange message field value)

def KeyboardReport.schema : Schema KeyboardReport where
  message := "HidKeyboardReport"
  rule?
    | 1 => some (.bytes fun bytes report => do
        return { report with endpoint := ← Endpoint.decode bytes })
    | 2 => some (.varint fun value report => do
        return { report with modifiers := ← uint8 "HidKeyboardReport" 2 value })
    | 3 => some (.bytes fun bytes report => do
        return { report with keys := ← boundedKeys "HidKeyboardReport" 3 bytes })
    | _ => none

def KeyboardReport.decode (bytes : List UInt8) : Except DecodeError KeyboardReport :=
  schema.decode {} bytes

def ConsumerReport.schema : Schema ConsumerReport where
  message := "HidConsumerReport"
  rule?
    | 1 => some (.bytes fun bytes report => do
        return { report with endpoint := ← Endpoint.decode bytes })
    | 2 => some (.bytes fun bytes report => do
        return { report with keys := ← boundedKeys "HidConsumerReport" 2 bytes })
    | _ => none

def ConsumerReport.decode (bytes : List UInt8) : Except DecodeError ConsumerReport :=
  schema.decode {} bytes

def MouseReport.schema : Schema MouseReport where
  message := "HidMouseReport"
  rule?
    | 1 => some (.bytes fun bytes report => do
        return { report with endpoint := ← Endpoint.decode bytes })
    | 2 => some (.varint fun value report => do
        return { report with buttons := ← uint32 "HidMouseReport" 2 value })
    | 3 => some (.varint fun value report => .ok { report with dx := int32 value })
    | 4 => some (.varint fun value report => .ok { report with dy := int32 value })
    | 5 => some (.varint fun value report => .ok { report with scrollX := int32 value })
    | 6 => some (.varint fun value report => .ok { report with scrollY := int32 value })
    | _ => none

def MouseReport.decode (bytes : List UInt8) : Except DecodeError MouseReport :=
  schema.decode {} bytes

/-- The variants of an event; what was decoded before is forgotten. -/
def Event.schema : Schema (Option Event) where
  message := "Event"
  rule?
    | 1 => some (.bytes fun bytes _ => do return some (.kscan (← KscanEvent.decode bytes)))
    | 2 => some (.bytes fun bytes _ => do return some (.keyboard (← KeyboardReport.decode bytes)))
    | 3 => some (.bytes fun bytes _ => do return some (.consumer (← ConsumerReport.decode bytes)))
    | 4 => some (.bytes fun bytes _ => do return some (.mouse (← MouseReport.decode bytes)))
    | _ => none

def Event.decode (bytes : List UInt8) : Except DecodeError Event :=
  match schema.decode none bytes with
  | .ok (some event) => .ok event
  | .ok none => .error .missingPayload
  | .error failure => .error failure

def Coordinate.schema : Schema Coordinate where
  message := "KeyPosition"
  rule?
    | 1 => some (.varint fun value place => do
        return { place with row := ← uint32 "KeyPosition" 1 value })
    | 2 => some (.varint fun value place => do
        return { place with col := ← uint32 "KeyPosition" 2 value })
    | _ => none

def Coordinate.decode (bytes : List UInt8) : Except DecodeError Coordinate :=
  schema.decode {} bytes

def KeyEvent.schema : Schema KeyEvent where
  message := "KeyEvent"
  rule?
    | 1 => some (.varint fun value event =>
        .ok { event with action := KeyAction.ofCode (int32 value) })
    | 2 => some (.bytes fun bytes event => do
        return { event with address := some (.coordinate (← Coordinate.decode bytes)) })
    | 3 => some (.varint fun value event => do
        return { event with address := some (.position (← uint32 "KeyEvent" 3 value)) })
    | _ => none

def KeyEvent.decode (bytes : List UInt8) : Except DecodeError KeyEvent :=
  schema.decode {} bytes

def Command.schema : Schema Command where
  message := "ClientMessage"
  rule?
    | 1 => some (.bytes fun bytes _ => do return { keyEvent := some (← KeyEvent.decode bytes) })
    | _ => none

def Command.decode (bytes : List UInt8) : Except DecodeError Command :=
  schema.decode {} bytes

end KeyRelay
