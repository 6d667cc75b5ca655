import KeyRelay.Frame.Transfer

/-! # The subscriber table

A fixed number of slots, each free or holding one subscriber. A new subscriber
takes the first free slot. A frame is offered to every subscriber in slot
order; those that do not take it whole are dropped, which closes their
connection. -/
set_option autoImplicit false

namespace KeyRelay

/-- A connection to an observer, told apart by number. -/
structure Subscriber where
  number : Nat
  sink : Sink := {}
  deriving DecidableEq, Repr

structure SubscriberTable where
  slots : List (Option Subscriber)
  deriving DecidableEq, Repr

/-- The result of offering a frame: the slots afterwards, how many subscribers
took it, and those that were dropped. -/
structure Offered where
  slots : List (Option Subscriber)
  delivered : Nat
  dropped : List Subscriber
  deriving DecidableEq, Repr

namespace SubscriberTable

def ofCapacity (capacity : Nat) : SubscriberTable :=
  ⟨List.replicate capacity none⟩

def capacity (table : SubscriberTable) : Nat :=
  table.slots.length

def subscribers (table : SubscriberTable) : List Subscriber :=
  table.slots.filterMap id

def length (table : SubscriberTable) : Nat :=
  table.slots.countP Option.isSome

def isEmpty (table : SubscriberTable) : Bool :=
  table.length == 0

def fillFirst (subscriber : Subscriber) :
    List (Option Subscriber) → Option (Nat × List (Option Subscriber))
  | [] => none
  | none :: rest => some (0, some subscriber :: rest)
  | some taken :: rest =>
    (fillFirst subscriber rest).map fun (index, slots) => (index + 1, some taken :: slots)

/-- Takes in a subscriber, or nothing if every slot is taken. -/
def insert (table : SubscriberTable) (subscriber : Subscriber) : Option (Nat × SubscriberTable) :=
  (fillFirst subscriber table.slots).map fun (index, slots) => (index, ⟨slots⟩)

def offerEach (frame : List UInt8) : List (Option Subscriber) → Offered
  | [] => ⟨[], 0, []⟩
  | none :: rest =>
    let others := offerEach frame rest
    { others with slots := none :: others.slots }
  | some subscriber :: rest =>
    let others := offerEach frame rest
    match Frame.offer subscriber.sink frame with
    | (.ok (), sink) =>
      { others with
        slots := some { subscriber with sink } :: others.slots
        delivered := others.delivered + 1 }
    | (.error _, sink) =>
      { others with
        slots := none :: others.slots
        dropped := { subscriber with sink } :: others.dropped }

def sendToAll (table : SubscriberTable) (frame : List UInt8) :
    Nat × List Subscriber × SubscriberTable :=
  let offered := offerEach frame table.slots
  (offered.delivered, offered.dropped, ⟨offered.slots⟩)

def clear (table : SubscriberTable) : List Subscriber × SubscriberTable :=
  (table.subscribers, ⟨table.slots.map fun _ => none⟩)

/-- What the far end of one connection does to its writable side. -/
def adjust (table : SubscriberTable) (number : Nat) (effect : Sink → Sink) : SubscriberTable :=
  ⟨table.slots.map (Option.map fun subscriber =>
    if subscriber.number = number then { subscriber with sink := effect subscriber.sink }
    else subscriber)⟩

end SubscriberTable

end KeyRelay
