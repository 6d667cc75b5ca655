import KeyRelay.Message.Event
import KeyRelay.Wire.Varint

/-! # Largest encoded sizes

Every field number is below sixteen, so a key takes one byte. A message's bound
is the sum of the bounds of its fields, and an embedded message adds its key
and its length. The bounds of the two outermost messages are the frame limits
of the two sockets. -/
set_option autoImplicit false

namespace KeyRelay.Size

open Wire

def embedded (inner : Nat) : Nat :=
  1 + Varint.length (UInt64.ofNat inner) + inner

/-- A known enum value is small and not negative. -/
def enumField : Nat := 1 + 1

def boolField : Nat := 1 + 1

def byteField : Nat := 1 + 2

def uint32Field : Nat := 1 + Varint.maxLength32

def uint64Field : Nat := 1 + Varint.maxLength

/-- A negative value is sign-extended and needs the full length. -/
def int32Field : Nat := 1 + Varint.maxLength

def endpoint : Nat := enumField + uint32Field

def kscanEvent : Nat := uint32Field + uint32Field + boolField + uint64Field

def keyboardReport : Nat :=
  embedded endpoint + byteField + embedded keyboardKeyCapacity

def consumerReport : Nat :=
  embedded endpoint + embedded consumerKeyCapacity

def mouseReport : Nat :=
  embedded endpoint + uint32Field + 4 * int32Field

def event : Nat :=
  embedded (max (max kscanEvent keyboardReport) (max consumerReport mouseReport))

def coordinate : Nat := uint32Field + uint32Field

/-- The action is an open enum, so it may take the length of any signed value. -/
def keyEvent : Nat := int32Field + max (embedded coordinate) uint32Field

def command : Nat := embedded keyEvent

end KeyRelay.Size
