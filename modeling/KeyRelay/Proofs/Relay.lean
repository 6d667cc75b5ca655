import KeyRelay.Proofs.Client.EventStream
import KeyRelay.Proofs.Client.Sender
import KeyRelay.Proofs.Device.Ingestion
import KeyRelay.Proofs.Matrix
import KeyRelay.Proofs.Observer.Table
import KeyRelay.Relay

/-! # From keystroke to watcher

What a sender puts on the command connection comes out as events at every
watcher that keeps up: one event for each key that has a position, in order.
The argument follows the bytes: frames of the sender, commands of the
connection, calls of the device, events of the calls, frames of the hub. -/
set_option autoImplicit false

namespace KeyRelay

namespace KeyEvent

/-- A key that the sender presses or releases. -/
def Plain (event : KeyEvent) : Prop :=
  event.action = .press ∨ event.action = .release

theorem known_of_plain {event : KeyEvent} (plain : event.Plain) : event.known = event := by
  obtain ⟨action, address⟩ := event
  rcases plain with rfl | rfl <;> rfl

end KeyEvent

namespace Keystroke

theorem plain_events {keystroke : Keystroke} {event : KeyEvent}
    (member : event ∈ keystroke.events) : event.Plain := by
  cases keystroke with
  | press address =>
    rw [List.mem_singleton.mp member]
    exact .inl rfl
  | release address =>
    rw [List.mem_singleton.mp member]
    exact .inr rfl
  | tap address =>
    rcases List.mem_cons.mp member with rfl | second
    · exact .inl rfl
    · rw [List.mem_singleton.mp second]
      exact .inr rfl

def address : Keystroke → KeyAddress
  | .press address => address
  | .release address => address
  | .tap address => address

def directions : Keystroke → List Bool
  | .press _ => [true]
  | .release _ => [false]
  | .tap _ => [true, false]

/-- The moves that observers are to see: none of a key without a position. -/
def moves (geometry : Geometry) (keystroke : Keystroke) : List (UInt32 × Bool) :=
  match keystroke.address.linear? geometry with
  | none => []
  | some position => keystroke.directions.map fun pressed => (position, pressed)

end Keystroke

namespace Command

/-- The call that a command makes of a device that is ready. -/
def call? (geometry : Geometry) (command : Command) : Option (Call Unit) :=
  (command.transition geometry).toOption.map fun move => ⟨(), move.1, move.2⟩

theorem dispatchAll_ready (geometry : Geometry) {device : Device Unit}
    (ready : device = { callback := some (), enabled := true }) (commands : List Command) :
    dispatchAll (fun _ => []) geometry device commands =
      (device, commands.filterMap (call? geometry)) := by
  induction commands with
  | nil => rfl
  | cons command rest ih =>
    cases moved : command.transition geometry with
    | error cause =>
      have first : command.dispatch (fun _ => []) geometry device =
          ⟨.refused cause, device, []⟩ := by
        rw [dispatch, moved]
      have none : command.call? geometry = none := by
        simp [call?, moved, Except.toOption]
      rw [dispatchAll, first]
      simp only [ih, List.filterMap_cons, none, List.nil_append]
    | ok move =>
      have first : command.dispatch (fun _ => []) geometry device =
          ⟨.reported .delivered move.1 move.2, device, [⟨(), move.1, move.2⟩]⟩ := by
        rw [dispatch, moved, ready]
        rfl
      have some : command.call? geometry = some ⟨(), move.1, move.2⟩ := by
        simp [call?, moved, Except.toOption]
      rw [dispatchAll, first]
      simp only [ih, List.filterMap_cons, some, List.singleton_append]

/-- A key that is pressed or released is called at its cell, which stands for its position. -/
theorem call?_move (geometry : Geometry) (event : KeyEvent) {address : KeyAddress} {pressed : Bool}
    (place : event.address = some address) (way : event.action.pressed? = some pressed) :
    (call? geometry ⟨some event⟩).map (fun call => (geometry.flatten call.place, call.pressed)) =
      (address.linear? geometry).map fun position => (position, pressed) := by
  obtain ⟨action, given⟩ := event
  have known : transition ⟨some ⟨action, given⟩⟩ geometry =
      transition.resolved geometry (some address) pressed := by
    cases action with
    | press =>
      cases way
      rw [← place]
      rfl
    | release =>
      cases way
      rw [← place]
      rfl
    | unrecognized code => simp [KeyAction.pressed?] at way
  rw [address.linear?_eq, call?, known]
  cases resolved : address.resolve geometry with
  | error failure => simp [transition.resolved, resolved, Except.toOption]
  | ok place => simp [transition.resolved, resolved, Except.toOption]

/-- Plain key events come back from their encodings as they were. -/
theorem decoded_bytes {events : List KeyEvent} (plain : ∀ event ∈ events, event.Plain) :
    (events.map fun event => bytes ⟨some event⟩).filterMap
      (fun payload => (decode payload).toOption) = events.map fun event => ⟨some event⟩ := by
  induction events with
  | nil => rfl
  | cons event rest ih =>
    have others := ih fun other member => plain other (List.mem_cons_of_mem _ member)
    have same : known ⟨some event⟩ = ⟨some event⟩ := by
      rw [known, Option.map_some, KeyEvent.known_of_plain (plain event List.mem_cons_self)]
    have decoded : (decode (bytes ⟨some event⟩)).toOption = some ⟨some event⟩ := by
      rw [decode_bytes, same]
      rfl
    rw [List.map_cons, List.filterMap_cons, decoded, others, List.map_cons]

/-- A connection that carries their frames gives their commands. -/
theorem received_wires {source : Source} {events : List KeyEvent}
    (plain : ∀ event ∈ events, event.Plain)
    (front : source.stream = events.flatMap KeyEvent.wire) :
    received source = events.map fun event => ⟨some event⟩ := by
  have stuck : ¬ Frame.Starts Size.command [] := by decide
  have fits : ∀ payload ∈ events.map (fun event => bytes ⟨some event⟩),
      payload.length ≤ Size.command := by
    intro payload member
    obtain ⟨event, _, rfl⟩ := List.mem_map.mp member
    exact length_bytes_le ⟨some event⟩
  have frames : source.stream =
      (events.map fun event => bytes ⟨some event⟩).flatMap Frame.whole ++ [] := by
    rw [front, List.flatMap_map, List.append_nil]
    rfl
  rw [received, frames, Frame.split_flatMap [] fits Sender.bounded_command,
    Frame.split_of_not_starts stuck, List.append_nil]
  exact decoded_bytes plain

end Command

theorem Keystroke.moves_eq (geometry : Geometry) (keystroke : Keystroke) :
    (keystroke.events.filterMap fun event => Command.call? geometry ⟨some event⟩).map
      (fun call => (geometry.flatten call.place, call.pressed)) = keystroke.moves geometry := by
  rw [List.map_filterMap]
  cases keystroke with
  | press address =>
    have press := Command.call?_move geometry (.press address) rfl rfl
    simp only [events, List.filterMap_cons, List.filterMap_nil, press, moves, Keystroke.address,
      directions]
    cases address.linear? geometry <;> rfl
  | release address =>
    have release := Command.call?_move geometry (.release address) rfl rfl
    simp only [events, List.filterMap_cons, List.filterMap_nil, release, moves, Keystroke.address,
      directions]
    cases address.linear? geometry <;> rfl
  | tap address =>
    have press := Command.call?_move geometry (.press address) rfl rfl
    have release := Command.call?_move geometry (.release address) rfl rfl
    simp only [events, List.filterMap_cons, List.filterMap_nil, press, release, moves,
      Keystroke.address, directions]
    cases address.linear? geometry <;> rfl

namespace Hub

/-- An observer that takes every event keeps its slot and has the frames of all. -/
theorem broadcastAll_slot {hub : Hub} {events : List Event} {index : Nat} {before : Subscriber}
    (present : hub.table.slots[index]? = some (some before))
    (takes : before.sink.Takes (events.map Event.wire)) :
    ∃ after, (hub.broadcastAll events).2.table.slots[index]? = some (some after) ∧
      after.number = before.number ∧
      after.sink.accepted = before.sink.accepted ++ events.flatMap Event.wire := by
  induction events generalizing hub before with
  | nil => exact ⟨before, present, rfl, by rw [List.flatMap_nil, List.append_nil]⟩
  | cons event rest ih =>
    obtain ⟨takesFirst, takesRest⟩ := takes
    have kept := SubscriberTable.offerEach_slot present takesFirst
    have accepted := Frame.accepted_of_isOk event.length_wire_pos takesFirst
    have stepped : (hub.broadcast event).2.table.slots =
        (SubscriberTable.offerEach event.wire hub.table.slots).slots := by
      simp only [broadcast, event.frame?_eq]
      rfl
    rw [← stepped] at kept
    obtain ⟨after, slot, number, received⟩ := ih kept takesRest
    refine ⟨after, slot, number, ?_⟩
    rw [received, accepted, List.flatMap_cons, List.append_assoc]

end Hub

namespace Relay

def connectAll (relay : Relay) (observers : List Subscriber) : Relay :=
  { relay with hub := observers.foldl (fun hub observer => (hub.accept observer).2) relay.hub }

theorem eventsOf_eq (geometry : Geometry) (clock : Nat → UInt64) (count : Nat)
    (calls : List (Call Unit)) :
    eventsOf geometry clock count calls =
      (calls.map fun call => (geometry.flatten call.place, call.pressed)).mapIdx fun index move =>
        .kscan ⟨0, move.1, move.2, clock (count + index)⟩ := by
  induction calls generalizing count with
  | nil => rfl
  | cons call rest ih =>
    rw [eventsOf, ih, List.map_cons, List.mapIdx_cons]
    simp only [Nat.add_zero, Nat.add_assoc, Nat.add_comm 1]
    rfl

/-- The events of keystrokes, each at the time of its notification. -/
def events (geometry : Geometry) (clock : Nat → UInt64) (keystrokes : List Keystroke) :
    List Event :=
  (keystrokes.flatMap (Keystroke.moves geometry)).mapIdx fun count move =>
    .kscan ⟨0, move.1, move.2, clock count⟩

theorem moves_flatMap (geometry : Geometry) (keystrokes : List Keystroke) :
    (((keystrokes.flatMap Keystroke.events).map fun event => Command.mk (some event)).filterMap
      (Command.call? geometry)).map (fun call => (geometry.flatten call.place, call.pressed)) =
        keystrokes.flatMap (Keystroke.moves geometry) := by
  induction keystrokes with
  | nil => rfl
  | cons keystroke rest ih =>
    rw [List.flatMap_cons, List.flatMap_cons, List.map_append, List.filterMap_append,
      List.map_append, ih, List.filterMap_map]
    exact congrArg (· ++ _) (keystroke.moves_eq geometry)

theorem serveConnection_events (relay : Relay) (clock : Nat → UInt64) {source : Source}
    {keystrokes : List Keystroke}
    (ready : relay.device = { callback := some (), enabled := true }) (fresh : relay.notified = 0)
    (front : source.stream = (keystrokes.flatMap Keystroke.events).flatMap KeyEvent.wire) :
    (relay.serveConnection clock source).2.hub =
      (relay.hub.broadcastAll (events relay.geometry clock keystrokes)).2 := by
  have plain : ∀ event ∈ keystrokes.flatMap Keystroke.events, event.Plain := by
    intro event member
    obtain ⟨keystroke, _, inside⟩ := List.mem_flatMap.mp member
    exact Keystroke.plain_events inside
  obtain ⟨unread, served, _⟩ :=
    serveCommands_spec (fun _ : Call Unit => []) relay.geometry relay.device source
  -- A callback that changes nothing leaves the device ready for every command.
  have broadcast : eventsOf relay.geometry clock relay.notified
      (serveCommands (fun _ => []) relay.geometry relay.device source).calls =
        events relay.geometry clock keystrokes := by
    rw [served, Command.received_wires plain front, Command.dispatchAll_ready _ ready, eventsOf_eq,
      moves_flatMap, fresh, events]
    simp only [Nat.zero_add]
  rw [serveConnection]
  dsimp only
  rw [broadcast]

/-- Keystrokes can be sent on every connection that makes progress. However the
sent bytes arrive, an observer that connected before and takes every frame
stays, and its watcher gets the events of the keystrokes, all of them and no
other. A position that is resolved and made linear again stays as it was. -/
theorem keystrokes_reach_watchers (geometry : Geometry) (maxClients : Nat)
    (observers : List Subscriber) (clock : Nat → UInt64) (sink : Sink)
    (keystrokes : List Keystroke) :
    (sink.Progresses → ∃ done, Keystroke.performAll sink keystrokes = (.ok (), done)) ∧
    (geometry.columns ≠ 0 → ∀ position, ∃ place, geometry.resolvePosition position = .ok place ∧
      place.row.toNat * geometry.columns.toNat + place.col.toNat = position.toNat) ∧
    ∀ done, Keystroke.performAll sink keystrokes = (.ok (), done) →
      ∃ sent, done.accepted = sink.accepted ++ sent ∧
      ∀ arrivals : Source, arrivals.Flows → arrivals.bytes = sent →
      ∀ (index : Nat) (before : Subscriber),
        ((start geometry maxClients).connectAll observers).hub.table.slots[index]? =
          some (some before) →
        before.sink.Takes ((events geometry clock keystrokes).map Event.wire) →
        ∃ (after : Subscriber) (received : List UInt8),
          (((start geometry maxClients).connectAll observers).serveConnection clock
            arrivals).2.hub.table.slots[index]? = some (some after) ∧
          after.number = before.number ∧
          after.sink.accepted = before.sink.accepted ++ received ∧
          ∀ chunks : List (List UInt8), (∀ chunk ∈ chunks, chunk ≠ []) →
            chunks.flatten = received →
            Watcher.results (chunks.map .chunk) =
              (events geometry clock keystrokes).map .ok ++ [.error (.frame .peerClosed)] := by
  refine ⟨?_, fun columns => Geometry.resolvePosition_linear columns, ?_⟩
  · intro progresses
    rw [Keystroke.performAll_eq]
    exact Sender.sendAll_progresses progresses _
  · intro done performed
    rw [Keystroke.performAll_eq] at performed
    refine ⟨_, Sender.sendAll_accepted performed, ?_⟩
    intro arrivals flows carried index before present takes
    have front : arrivals.stream =
        (keystrokes.flatMap Keystroke.events).flatMap KeyEvent.wire := by
      have whole := Source.stream_append flows []
      rwa [List.append_nil, Source.stream, List.append_nil, carried] at whole
    have served : (((start geometry maxClients).connectAll observers).serveConnection clock
        arrivals).2.hub = (((start geometry maxClients).connectAll observers).hub.broadcastAll
          (events geometry clock keystrokes)).2 :=
      serveConnection_events _ clock rfl rfl front
    obtain ⟨after, slot, number, accepted⟩ := Hub.broadcastAll_slot present takes
    rw [← served] at slot
    refine ⟨after, _, slot, number, accepted, ?_⟩
    intro chunks nonempty joined
    exact Watcher.results_whole_chunks nonempty joined

/-- A sender whose first write is short and whose second is interrupted. -/
def haltingSender : Sink :=
  { outcomes := [.atMost 3, .failure ⟨.interrupted, none⟩] }

/-- A position, and a tap on a cell beyond the end of its row. -/
def pressThenTap : List Keystroke :=
  [.press (.position 7), .tap (.coordinate ⟨1, 9⟩)]

/-- Their bytes in two pieces. -/
def pressThenTapArrivals : Source :=
  [.chunk [0, 0, 0, 4, 10], .failure ⟨.interrupted, none⟩,
    .chunk [2, 24, 7, 0, 0, 0, 8, 10, 6, 18, 4, 8, 1, 16, 9,
      0, 0, 0, 10, 10, 8, 8, 1, 18, 4, 8, 1, 16, 9]]

theorem keystrokes_reach_watchers_pressThenTap :
    ∃ after,
      (((start ⟨2, 5⟩ 1).connectAll [⟨0, { outcomes := [.atMost 100] }⟩]).serveConnection
        (fun count => UInt64.ofNat (100 + count))
        pressThenTapArrivals).2.hub.table.slots[0]? = some (some after) ∧
      Watcher.results (after.sink.accepted.map fun byte => .chunk [byte]) =
        [.ok (.kscan ⟨0, 7, true, 100⟩), .ok (.kscan ⟨0, 14, true, 101⟩),
          .ok (.kscan ⟨0, 14, false, 102⟩), .error (.frame .peerClosed)] := by
  obtain ⟨succeeds, _, reaches⟩ := keystrokes_reach_watchers ⟨2, 5⟩ 1
    [⟨0, { outcomes := [.atMost 100] }⟩] (fun count => UInt64.ofNat (100 + count)) haltingSender
    pressThenTap
  have progresses : haltingSender.Progresses := by
    simp [Sink.Progresses, haltingSender]
  obtain ⟨done, performed⟩ := succeeds progresses
  have written : done.accepted = pressThenTapArrivals.bytes := by
    have same : (Keystroke.performAll haltingSender pressThenTap).2.accepted =
        pressThenTapArrivals.bytes := by
      decide +kernel
    rwa [performed] at same
  obtain ⟨sent, accepted, reached⟩ := reaches done performed
  have carried : pressThenTapArrivals.bytes = sent := by
    rw [← written, accepted]
    rfl
  have flows : pressThenTapArrivals.Flows := by
    simp [Source.Flows, pressThenTapArrivals]
  obtain ⟨after, received, slot, _, bytes, watched⟩ := reached pressThenTapArrivals flows carried 0
    ⟨0, { outcomes := [.atMost 100] }⟩ rfl (by decide +kernel)
  refine ⟨after, slot, ?_⟩
  have all : (after.sink.accepted.map fun byte => [byte]).flatten = received := by
    rw [← List.flatMap_def, List.flatMap_singleton', bytes]
    rfl
  have singles := watched (after.sink.accepted.map fun byte => [byte]) (by simp) all
  rw [List.map_map] at singles
  exact singles

end Relay

end KeyRelay
