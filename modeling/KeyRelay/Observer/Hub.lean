import KeyRelay.Message.Encode
import KeyRelay.Observer.SubscriberTable

/-! # The event hub

The hub takes in observers while it runs and broadcasts events to them. An
event is encoded in place behind the room for the frame header. Stopping closes
every observer and removes the socket file; a second stop does nothing. -/
set_option autoImplicit false

namespace KeyRelay

structure Hub where
  table : SubscriberTable
  running : Bool := true
  socketFile : Bool := true
  deriving DecidableEq, Repr

/-- The frame of an event, built in one buffer. -/
def Event.frame? (event : Event) : Option (List UInt8) :=
  let room := List.replicate Frame.headerLength 0
  match event.encodeInto (List.replicate Size.event 0) with
  | (.error _, _) => none
  | (.ok length, body) =>
    match Frame.complete (room ++ body) length Size.event with
    | (.error _, _) => none
    | (.ok frame, _) => some frame

namespace Hub

def start (maxClients : Nat) : Hub :=
  { table := .ofCapacity maxClients }

def reachable (hub : Hub) : Bool :=
  hub.running && hub.socketFile

/-- Takes in an observer that connected; one too many is closed at once. -/
def accept (hub : Hub) (subscriber : Subscriber) : Bool × Hub :=
  match hub.table.insert subscriber with
  | some (_, table) => (true, { hub with table })
  | none => (false, hub)

/-- Sends an event to every observer, and gives those that were dropped. -/
def broadcast (hub : Hub) (event : Event) : List Subscriber × Hub :=
  match event.frame? with
  | none => ([], hub)
  | some frame =>
    let (_, dropped, table) := hub.table.sendToAll frame
    (dropped, { hub with table })

/-- Broadcasts events in order, and gives all that were dropped. -/
def broadcastAll (hub : Hub) : List Event → List Subscriber × Hub
  | [] => ([], hub)
  | event :: rest =>
    let (first, next) := hub.broadcast event
    let (others, last) := next.broadcastAll rest
    (first ++ others, last)

def removeSocketFile (hub : Hub) : Hub :=
  { hub with socketFile := false }

/-- Stops the hub, and gives the observers that were closed. -/
def stop (hub : Hub) : List Subscriber × Hub :=
  if hub.running then
    let (dropped, table) := hub.table.clear
    (dropped, { table, running := false, socketFile := false })
  else ([], hub)

end Hub

end KeyRelay
