import KeyRelay.Message.Command

/-! # The key-matrix device

The device holds one callback and a switch that turns delivery on and off. A
key transition reaches the callback only while the device is enabled and a
callback is registered. While a callback runs it may change the device; the
change counts from the next transition on, since the callback to run was
chosen before.

Callbacks are values of any type, and what one does to the device is a
function of its call, so every behaviour of a callback is covered. -/
set_option autoImplicit false

namespace KeyRelay

structure Device (κ : Type) where
  callback : Option κ := none
  enabled : Bool := false
  deriving DecidableEq, Repr

structure Call (κ : Type) where
  callback : κ
  place : Coordinate
  pressed : Bool
  deriving DecidableEq, Repr

/-- What a callback, or anyone else, may do to a device. -/
inductive DeviceChange (κ : Type)
  | enable
  | disable
  | configure (callback : Option κ)
  deriving DecidableEq, Repr

inductive Delivery
  | delivered
  | disabled
  | noCallback
  deriving DecidableEq, Repr

/-- A device was configured without a callback. -/
inductive DeviceError
  | missingCallback
  deriving DecidableEq, Repr

def DeviceError.text : DeviceError → String
  | .missingCallback => "no key callback supplied"

namespace Device

variable {κ : Type}

/-- Registers a callback in place of the one before. Without one the earlier
registration stays. -/
def configure (device : Device κ) : Option κ → Except DeviceError (Device κ)
  | some callback => .ok { device with callback := some callback }
  | none => .error .missingCallback

def enable (device : Device κ) : Device κ :=
  { device with enabled := true }

def disable (device : Device κ) : Device κ :=
  { device with enabled := false }

def change (device : Device κ) : DeviceChange κ → Device κ
  | .enable => device.enable
  | .disable => device.disable
  | .configure callback =>
    match device.configure callback with
    | .ok configured => configured
    | .error _ => device

def changeAll (device : Device κ) (changes : List (DeviceChange κ)) : Device κ :=
  changes.foldl change device

end Device

/-- What became of a transition: how it was delivered, the device afterwards, and the calls made. -/
structure Reported (κ : Type) where
  delivery : Delivery
  device : Device κ
  calls : List (Call κ)
  deriving DecidableEq, Repr

def Device.report {κ : Type} (react : Call κ → List (DeviceChange κ)) (device : Device κ)
    (place : Coordinate) (pressed : Bool) : Reported κ :=
  if device.enabled then
    match device.callback with
    | none => ⟨.noCallback, device, []⟩
    | some callback =>
      let call : Call κ := ⟨callback, place, pressed⟩
      ⟨.delivered, device.changeAll (react call), [call]⟩
  else ⟨.disabled, device, []⟩

end KeyRelay
