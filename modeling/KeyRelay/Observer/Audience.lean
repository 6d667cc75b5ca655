import KeyRelay.Observer.SubscriberTable

/-! # The far ends of observer connections

What clients see of a subscriber table. A client that does not read leaves its
connection full, so nothing more is accepted from the relay; one that has
closed its end makes the next write fail. After each step the clients that read
report the bytes that arrived and whether their connection was closed, which
each reports once. -/
set_option autoImplicit false

namespace KeyRelay

structure Client where
  number : Nat
  reading : Bool := true
  /-- Its own end is closed. -/
  gone : Bool := false
  /-- The relay dropped the connection. -/
  dropped : Bool := false
  /-- It has reported that the connection was closed. -/
  toldDropped : Bool := false
  /-- How many bytes it has reported. -/
  seen : Nat := 0
  deriving DecidableEq, Repr

structure Receipt where
  number : Nat
  bytes : List UInt8
  closed : Bool
  deriving DecidableEq, Repr

abbrev Audience := List Client

/-- A connection that is full and that no one reads. -/
def Sink.clog (sink : Sink) : Sink :=
  { sink with outcomes := [.failure ⟨.wouldBlock, none⟩] }

/-- A connection whose client closed its end. -/
def Sink.abandon (sink : Sink) : Sink :=
  { sink with outcomes := [.failure ⟨.brokenPipe, none⟩] }

def Sink.unclog (sink : Sink) : Sink :=
  { sink with outcomes := [] }

namespace Audience

def update (audience : Audience) (number : Nat) (effect : Client → Client) : Audience :=
  audience.map fun client => if client.number = number then effect client else client

def markDropped (audience : Audience) (dropped : List Subscriber) : Audience :=
  dropped.foldl (fun clients subscriber =>
    clients.update subscriber.number fun client => { client with dropped := true }) audience

def client? (audience : Audience) (number : Nat) : Option Client :=
  audience.find? fun client => client.number == number

/-- What one client sees of the connections that are there or were just dropped. -/
def observe (connections : List Subscriber) (client : Client) : Option Receipt × Client :=
  if client.reading && !client.gone && !client.toldDropped then
    let connection := connections.find? fun subscriber => subscriber.number == client.number
    let accepted := match connection with
      | some subscriber => subscriber.sink.accepted
      | none => []
    let fresh := accepted.drop client.seen
    if fresh.isEmpty && !client.dropped then (none, client)
    else
      (some ⟨client.number, fresh, client.dropped⟩,
        { client with seen := client.seen + fresh.length, toldDropped := client.dropped })
  else (none, client)

def receipts (audience : Audience) (table : SubscriberTable) (dropped : List Subscriber) :
    List Receipt × Audience :=
  let results := (audience.markDropped dropped).map (observe (table.subscribers ++ dropped))
  (results.filterMap (·.1), results.map (·.2))

end Audience

end KeyRelay
