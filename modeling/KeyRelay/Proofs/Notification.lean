import KeyRelay.Notification
import KeyRelay.Proofs.Relay
import Mathlib.Data.List.Forall2

/-! # Notifications arrive as notified

What observers are to be told of a notification is said without the functions that build its
event. Every event has a frame, so a notification is never lost in the hub: each is one frame
to every observer, and its watcher gets the one event that was to be told. -/
set_option autoImplicit false

namespace KeyRelay

namespace KeyArray

variable {capacity : Nat} {codes : List UInt8}

/-- As much of the codes as there is room for, from their front. -/
def Holds (keys : KeyArray capacity) (codes : List UInt8) : Prop :=
  keys.toList <+: codes ∧ keys.toList.length = min codes.length capacity

theorem holds_iff {keys : KeyArray capacity} : keys.Holds codes ↔ keys = .truncate codes := by
  constructor
  · rintro ⟨front, length⟩
    have same : keys.toList = codes.take capacity := by
      rw [List.prefix_iff_eq_take.mp front, length, Nat.min_comm, ← List.take_eq_take_min]
    obtain ⟨kept, bounded⟩ := keys
    cases same
    rfl
  · rintro rfl
    refine ⟨List.take_prefix capacity codes, ?_⟩
    rw [truncate, List.length_take, Nat.min_comm]

end KeyArray

namespace Notification

/-- What observers are to be told: the four arguments of a switch as they were given, or the
report of that moment on the transport that the descriptor names. -/
inductive Tells (reports : Reports) : Notification → Event → Prop
  | kscan (source position : UInt32) (pressed : Bool) (timestamp : UInt64) :
    Tells reports (.kscan source position pressed timestamp)
      (.kscan ⟨source, position, pressed, timestamp⟩)
  | keyboard (transport : String) {keys : KeyArray 32} (held : keys.Holds reports.keyboard.keys) :
    Tells reports (.keyboard transport)
      (.keyboard ⟨.ofDescriptor transport, reports.keyboard.modifiers, keys⟩)
  | consumer (transport : String) {keys : KeyArray 12} (held : keys.Holds reports.consumer) :
    Tells reports (.consumer transport) (.consumer ⟨.ofDescriptor transport, keys⟩)
  | mouse (transport : String) :
    Tells reports (.mouse transport)
      (.mouse ⟨.ofDescriptor transport, reports.mouse.buttons, reports.mouse.dx, reports.mouse.dy,
        reports.mouse.scrollX, reports.mouse.scrollY⟩)

theorem tells_iff {reports : Reports} {notification : Notification} {event : Event} :
    notification.Tells reports event ↔ event = notification.event reports := by
  constructor
  · intro tells
    cases tells with
    | kscan => rfl
    | keyboard transport held =>
      rw [KeyArray.holds_iff.mp held]
      rfl
    | consumer transport held =>
      rw [KeyArray.holds_iff.mp held]
      rfl
    | mouse => rfl
  · rintro rfl
    cases notification with
    | kscan source position pressed timestamp => exact .kscan source position pressed timestamp
    | keyboard transport => exact .keyboard transport (KeyArray.holds_iff.mpr rfl)
    | consumer transport => exact .consumer transport (KeyArray.holds_iff.mpr rfl)
    | mouse transport => exact .mouse transport

/-- The events of notifications, each made of the reports of its moment. -/
def events (calls : List (Reports × Notification)) : List Event :=
  calls.map fun call => call.2.event call.1

theorem forall₂_tells_iff {calls : List (Reports × Notification)} {told : List Event} :
    List.Forall₂ (fun call event => call.2.Tells call.1 event) calls told ↔
      told = events calls := by
  induction calls generalizing told with
  | nil => rw [List.forall₂_nil_left_iff, events, List.map_nil]
  | cons call rest ih =>
    rw [List.forall₂_cons_left_iff]
    constructor
    · rintro ⟨event, others, tells, remaining, rfl⟩
      rw [tells_iff.mp tells, ih.mp remaining]
      rfl
    · rintro rfl
      exact ⟨_, _, tells_iff.mpr rfl, ih.mpr rfl, rfl⟩

/-- Each notification is one frame to all observers and changes nothing else. Its payload is
decoded, and a watcher reads the frame in any pieces, as the one event that was to be told. Of
notifications in a row, an observer that keeps up gets each event once, in order. -/
theorem notifications_arrive :
    (∀ (hub : Hub) (reports : Reports) (notification : Notification),
      ∃ (frame payload : List UInt8) (event : Event),
        hub.broadcast (notification.event reports) =
          ((hub.table.sendToAll frame).2.1,
            { hub with table := (hub.table.sendToAll frame).2.2 }) ∧
        Frame.encode payload Size.event = .ok frame ∧ Event.decode payload = .ok event ∧
        (∀ chunks : List (List UInt8), (∀ chunk ∈ chunks, chunk ≠ []) → chunks.flatten = frame →
          Watcher.results (chunks.map .chunk) = [.ok event, .error (.frame .peerClosed)]) ∧
        ∀ told, notification.Tells reports told ↔ told = event) ∧
    ∀ (hub : Hub) (calls : List (Reports × Notification)) (index : Nat) (before : Subscriber),
      hub.table.slots[index]? = some (some before) →
      before.sink.Takes ((events calls).map Event.wire) →
      ∃ (after : Subscriber) (received : List UInt8) (told : List Event),
        (hub.broadcastAll (events calls)).2.table.slots[index]? = some (some after) ∧
        after.number = before.number ∧
        after.sink.accepted = before.sink.accepted ++ received ∧
        List.Forall₂ (fun call event => call.2.Tells call.1 event) calls told ∧
        ∀ chunks : List (List UInt8), (∀ chunk ∈ chunks, chunk ≠ []) →
          chunks.flatten = received →
          Watcher.results (chunks.map .chunk) = told.map .ok ++ [.error (.frame .peerClosed)] := by
  constructor
  · intro hub reports notification
    obtain ⟨_, framed⟩ := (notification.event reports).encode_wire
    refine ⟨_, _, _, ?_, framed, Event.decode_bytes _, ?_, fun told => tells_iff⟩
    · rw [Hub.broadcast, Event.frame?_eq]
    · intro chunks nonempty joined
      have alone : chunks.flatten = [notification.event reports].flatMap Event.wire := by
        rw [joined, List.flatMap_singleton]
      exact Watcher.results_whole_chunks nonempty alone
  · intro hub calls index before present takes
    obtain ⟨after, slot, number, accepted⟩ := Hub.broadcastAll_slot present takes
    refine ⟨after, _, _, slot, number, accepted, forall₂_tells_iff.mpr rfl, ?_⟩
    intro chunks nonempty joined
    exact Watcher.results_whole_chunks nonempty joined

/-- Longer key arrays than a report holds, and a pointer that moves back. -/
def overlongReports : Reports where
  keyboard := ⟨0x81, (List.range 40).map UInt8.ofNat⟩
  consumer := (List.range 13).map UInt8.ofNat
  mouse := ⟨0xFFFFFFFF, -1, Int32.minValue, 7, 0⟩

/-- One of each kind, the switch at the ends of its ranges. -/
def oneOfEach : List (Reports × Notification) :=
  [(overlongReports, .keyboard "BLE:-1"), ({}, .kscan 0xFFFFFFFF 0 true 0xFFFFFFFFFFFFFFFF),
    (overlongReports, .consumer "USB"), (overlongReports, .mouse "none")]

/-- A hub with one observer behind a free slot. -/
def oneObserver : Hub :=
  { table := ⟨[none, some ⟨3, {}⟩]⟩ }

theorem notifications_arrive_oneOfEach :
    ∃ after,
      (oneObserver.broadcastAll (events oneOfEach)).2.table.slots[1]? = some (some after) ∧
      Watcher.results (after.sink.accepted.map fun byte => .chunk [byte]) =
        [.ok (.keyboard ⟨⟨.ble, 0xFFFFFFFF⟩, 0x81, .truncate ((List.range 32).map UInt8.ofNat)⟩),
          .ok (.kscan ⟨0xFFFFFFFF, 0, true, 0xFFFFFFFFFFFFFFFF⟩),
          .ok (.consumer ⟨⟨.usb, 0⟩, .truncate ((List.range 12).map UInt8.ofNat)⟩),
          .ok (.mouse ⟨⟨.none, 0⟩, 0xFFFFFFFF, -1, Int32.minValue, 7, 0⟩),
          .error (.frame .peerClosed)] := by
  obtain ⟨after, received, told, slot, _, accepted, tells, watched⟩ :=
    notifications_arrive.2 oneObserver oneOfEach 1 ⟨3, {}⟩ rfl (by decide +kernel)
  refine ⟨after, slot, ?_⟩
  have all : (after.sink.accepted.map fun byte => [byte]).flatten = received := by
    rw [← List.flatMap_def, List.flatMap_singleton', accepted]
    rfl
  have singles := watched (after.sink.accepted.map fun byte => [byte]) (by simp) all
  rw [List.map_map, forall₂_tells_iff.mp tells] at singles
  exact singles

end Notification

end KeyRelay
