import KeyRelay.Device.Basic

/-! # Named callbacks

Callbacks that are told apart by name. One may switch the device on or off when
it runs, or register another callback in its place. -/
set_option autoImplicit false

namespace KeyRelay

inductive NamedCallback
  | plain (name : String)
  | enabling (name : String)
  | disabling (name : String)
  | replacing (name : String) (next : NamedCallback)
  deriving DecidableEq, Repr

namespace NamedCallback

def name : NamedCallback → String
  | .plain name => name
  | .enabling name => name
  | .disabling name => name
  | .replacing name _ => name

def react (call : Call NamedCallback) : List (DeviceChange NamedCallback) :=
  match call.callback with
  | .plain _ => []
  | .enabling _ => [.enable]
  | .disabling _ => [.disable]
  | .replacing _ next => [.configure (some next)]

end NamedCallback

end KeyRelay
