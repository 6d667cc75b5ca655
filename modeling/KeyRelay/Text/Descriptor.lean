import KeyRelay.Message.Endpoint
import KeyRelay.Text.Blank
import KeyRelay.Text.Decimal

/-! # Transport descriptors

A keyboard names its transport in a few characters: anything that begins with
`USB` is the wired transport, `BLE:` and a number a wireless profile, and all
else no transport. The number may have white space and a sign in front of it
and anything behind it. It is held to the range of a signed 32-bit value, and
a negative one is read as its two's complement. -/
set_option autoImplicit false

namespace KeyRelay.Text

/-- One more digit, held to one above the largest signed 32-bit value. -/
def saturatingDigit (magnitude : Nat) (c : Char) : Nat :=
  min (magnitude * 10 + digitValue c) 0x80000000

/-- The sign in front of a text, if there is one, and the text behind it. -/
def splitSign : List Char → Bool × List Char
  | '-' :: rest => (true, rest)
  | '+' :: rest => (false, rest)
  | text => (false, text)

/-- The signed number at the start of a text, zero if there is none. -/
def leadingInt32 (text : List Char) : Int32 :=
  let (negative, rest) := splitSign (trimStart text)
  let magnitude := (rest.takeWhile isDigit).foldl saturatingDigit 0
  let value : Int := if negative then -magnitude else magnitude
  Int32.ofInt (min value 0x7FFFFFFF)

end KeyRelay.Text

namespace KeyRelay

def Endpoint.ofDescriptorChars : List Char → Endpoint
  | 'U' :: 'S' :: 'B' :: _ => ⟨.usb, 0⟩
  | 'B' :: 'L' :: 'E' :: ':' :: rest => ⟨.ble, (Text.leadingInt32 rest).toUInt32⟩
  | _ => {}

def Endpoint.ofDescriptor (descriptor : String) : Endpoint :=
  ofDescriptorChars descriptor.toList

end KeyRelay
