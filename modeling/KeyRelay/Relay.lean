import KeyRelay.Device.CommandStream
import KeyRelay.Notification
import KeyRelay.Observer.Hub

/-! # The relay

The command connections feed a device whose only callback notifies the
observers of every key: the cell becomes a linear position again, held to the
largest number, and the time comes from a clock. The clock is given as the
time of each notification in turn. -/
set_option autoImplicit false

namespace KeyRelay

structure Relay where
  geometry : Geometry
  hub : Hub
  device : Device Unit
  /-- How many notifications were made so far. -/
  notified : Nat := 0
  deriving DecidableEq, Repr

namespace Relay

/-- A relay that is ready: its device is configured and enabled. -/
def start (geometry : Geometry) (maxClients : Nat) : Relay :=
  { geometry, hub := .start maxClients, device := { callback := some (), enabled := true } }

/-- The notification that a key call makes. -/
def notification (geometry : Geometry) (time : UInt64) (call : Call Unit) : Notification :=
  .kscan 0 (geometry.flatten call.place) call.pressed time

/-- The events of calls in order, each at its own time. -/
def eventsOf (geometry : Geometry) (clock : Nat → UInt64) : Nat → List (Call Unit) → List Event
  | _, [] => []
  | count, call :: rest =>
    (notification geometry (clock count) call).event {} ::
      eventsOf geometry clock (count + 1) rest

/-- Serves one command connection: every call is broadcast. Gives the dropped observers. -/
def serveConnection (clock : Nat → UInt64) (relay : Relay) (source : Source) :
    List Subscriber × Relay :=
  let served := serveCommands (fun _ => []) relay.geometry relay.device source
  let events := eventsOf relay.geometry clock relay.notified served.calls
  let (dropped, hub) := relay.hub.broadcastAll events
  (dropped, { relay with
    hub
    device := served.device
    notified := relay.notified + served.calls.length })

/-- Stops the servers; no key is delivered any more. -/
def stop (relay : Relay) : List Subscriber × Relay :=
  let (dropped, hub) := relay.hub.stop
  (dropped, { relay with hub, device := relay.device.disable })

end Relay

end KeyRelay
