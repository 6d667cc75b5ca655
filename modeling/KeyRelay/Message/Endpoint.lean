/-! # Endpoints

The transport on which a report leaves the keyboard, and the wireless profile
it goes to. -/
set_option autoImplicit false

namespace KeyRelay

inductive Transport
  | none
  | usb
  | ble
  deriving DecidableEq, Repr, Inhabited

namespace Transport

def name : Transport → String
  | .none => "TRANSPORT_NONE"
  | .usb => "TRANSPORT_USB"
  | .ble => "TRANSPORT_BLE"

def code : Transport → Int32
  | .none => 0
  | .usb => 1
  | .ble => 2

def ofCode? (code : Int32) : Option Transport :=
  if code = 0 then some .none
  else if code = 1 then some .usb
  else if code = 2 then some .ble
  else Option.none

theorem ofCode?_code (transport : Transport) : ofCode? transport.code = some transport := by
  cases transport <;> rfl

end Transport

structure Endpoint where
  transport : Transport := .none
  profile : UInt32 := 0
  deriving DecidableEq, Repr, Inhabited

end KeyRelay
