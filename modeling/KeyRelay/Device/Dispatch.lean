import KeyRelay.Device.Basic
import KeyRelay.Matrix

/-! # Dispatching commands

A command is refused, whatever the device, if it lacks its key event, has an
unknown action, lacks its address or has one that cannot be resolved, in this
order. Otherwise the device decides. -/
set_option autoImplicit false

namespace KeyRelay

inductive Refusal
  | missingPayload
  | unrecognizedAction (code : Int32)
  | missingAddress
  | unresolvable (failure : Unresolvable)
  deriving DecidableEq, Repr

/-- The cell and the direction that a command asks for. -/
def Command.transition (command : Command) (geometry : Geometry) :
    Except Refusal (Coordinate × Bool) :=
  match command.keyEvent with
  | none => .error .missingPayload
  | some event =>
    match event.action with
    | .unrecognized code => .error (.unrecognizedAction code)
    | .press => resolved event.address true
    | .release => resolved event.address false
where
  resolved (address : Option KeyAddress) (pressed : Bool) : Except Refusal (Coordinate × Bool) :=
    match address with
    | none => .error .missingAddress
    | some address =>
      match address.resolve geometry with
      | .ok place => .ok (place, pressed)
      | .error failure => .error (.unresolvable failure)

inductive Outcome
  | refused (cause : Refusal)
  | reported (delivery : Delivery) (place : Coordinate) (pressed : Bool)
  deriving DecidableEq, Repr

/-- What became of a command: its outcome, the device afterwards, and the calls made. -/
structure Dispatched (κ : Type) where
  outcome : Outcome
  device : Device κ
  calls : List (Call κ)
  deriving DecidableEq, Repr

def Command.dispatch {κ : Type} (react : Call κ → List (DeviceChange κ)) (geometry : Geometry)
    (device : Device κ) (command : Command) : Dispatched κ :=
  match command.transition geometry with
  | .error cause => ⟨.refused cause, device, []⟩
  | .ok (place, pressed) =>
    let result := device.report react place pressed
    ⟨.reported result.delivery place pressed, result.device, result.calls⟩

end KeyRelay
