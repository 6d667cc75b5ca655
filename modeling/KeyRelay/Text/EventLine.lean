import KeyRelay.Message.Event
import KeyRelay.Text.Decimal

/-! # Event lines

One line of text for an observer event. Columns are padded on the right; a zero
in a key array is an empty slot and is not shown, and an array without keys is
shown as a dash. -/
set_option autoImplicit false

namespace KeyRelay.Text

def padEnd (width : Nat) (text : List Char) : List Char :=
  text ++ List.replicate (width - text.length) ' '

def hexDigit (value : Nat) : Char :=
  if value < 10 then Char.ofNat ('0'.toNat + value) else Char.ofNat ('a'.toNat + (value - 10))

def hexByte (byte : UInt8) : List Char :=
  [hexDigit (byte.toNat / 16), hexDigit (byte.toNat % 16)]

def hexLiteral (byte : UInt8) : List Char :=
  '0' :: 'x' :: hexByte byte

def joinCodes : List (List Char) → List Char
  | [] => []
  | [only] => only
  | first :: rest => first ++ ", ".toList ++ joinCodes rest

def heldKeys (codes : List UInt8) : List Char :=
  match codes.filter (· ≠ 0) with
  | [] => ['-']
  | held => joinCodes (held.map hexLiteral)

/-- The column that says how a report left the keyboard. -/
def transportColumn (endpoint : Endpoint) : List Char :=
  padEnd 15 endpoint.transport.name.toList

def stateColumn (pressed : Bool) : List Char :=
  if pressed then "PRESS  ".toList else "RELEASE".toList

def eventLine : Event → List Char
  | .kscan event =>
    "[kscan   ] ".toList ++ stateColumn event.pressed ++
      "  pos=".toList ++ padEnd 4 (decimal event.position.toNat) ++
      "  source=".toList ++ decimal event.source.toNat ++
      "  ts=".toList ++ decimal event.timestamp.toNat ++ " ms".toList
  | .keyboard report =>
    "[keyboard] transport=".toList ++ transportColumn report.endpoint ++
      "  modifiers=".toList ++ hexLiteral report.modifiers ++
      "  keys=[".toList ++ heldKeys report.keys.toList ++ "]".toList
  | .consumer report =>
    "[consumer] transport=".toList ++ transportColumn report.endpoint ++
      "  keys=[".toList ++ heldKeys report.keys.toList ++ "]".toList
  | .mouse report =>
    "[mouse   ] transport=".toList ++ transportColumn report.endpoint ++
      "  buttons=".toList ++ decimal report.buttons.toNat ++
      "  dx=".toList ++ signedDecimal report.dx.toInt ++
      "  dy=".toList ++ signedDecimal report.dy.toInt ++
      "  scroll_x=".toList ++ signedDecimal report.scrollX.toInt ++
      "  scroll_y=".toList ++ signedDecimal report.scrollY.toInt

theorem eventLine_kscan (event : KscanEvent) :
    eventLine (.kscan event) =
      "[kscan   ] ".toList ++ stateColumn event.pressed ++
        "  pos=".toList ++ padEnd 4 (decimal event.position.toNat) ++
        "  source=".toList ++ decimal event.source.toNat ++
        "  ts=".toList ++ decimal event.timestamp.toNat ++ " ms".toList :=
  rfl

theorem eventLine_keyboard (report : KeyboardReport) :
    eventLine (.keyboard report) =
      "[keyboard] transport=".toList ++ transportColumn report.endpoint ++
        "  modifiers=".toList ++ hexLiteral report.modifiers ++
        "  keys=[".toList ++ heldKeys report.keys.toList ++ "]".toList :=
  rfl

theorem eventLine_consumer (report : ConsumerReport) :
    eventLine (.consumer report) =
      "[consumer] transport=".toList ++ transportColumn report.endpoint ++
        "  keys=[".toList ++ heldKeys report.keys.toList ++ "]".toList :=
  rfl

theorem eventLine_mouse (report : MouseReport) :
    eventLine (.mouse report) =
      "[mouse   ] transport=".toList ++ transportColumn report.endpoint ++
        "  buttons=".toList ++ decimal report.buttons.toNat ++
        "  dx=".toList ++ signedDecimal report.dx.toInt ++
        "  dy=".toList ++ signedDecimal report.dy.toInt ++
        "  scroll_x=".toList ++ signedDecimal report.scrollX.toInt ++
        "  scroll_y=".toList ++ signedDecimal report.scrollY.toInt :=
  rfl

end KeyRelay.Text

namespace KeyRelay

def Event.line (event : Event) : String :=
  String.ofList (Text.eventLine event)

end KeyRelay
