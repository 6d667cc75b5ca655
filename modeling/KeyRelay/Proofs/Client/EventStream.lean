import KeyRelay.Observer.Hub
import KeyRelay.Proofs.Client.Watcher
import KeyRelay.Proofs.Message.EventRoundTrip

/-! # Events on a stream

The frame that the hub builds for an event is its encoding behind the header. A
watcher gets back the events whose frames came whole; a last frame that was
cut off gives no event and no other error than that the peer is gone. -/
set_option autoImplicit false

namespace KeyRelay

namespace Event

def wire (event : Event) : List UInt8 :=
  Frame.whole event.bytes

theorem encode_wire (event : Event) :
    event.encode = .ok event.bytes ∧ Frame.encode event.bytes Size.event = .ok event.wire :=
  ⟨event.encode_eq, Frame.encode_eq event.length_bytes_le Watcher.bounded_event⟩

theorem frame?_eq (event : Event) : event.frame? = some event.wire := by
  have fits : event.bytes.length ≤ (List.replicate Size.event (0 : UInt8)).length := by
    rw [List.length_replicate]
    exact event.length_bytes_le
  have room : (List.replicate Frame.headerLength (0 : UInt8)).length = Frame.headerLength :=
    List.length_replicate
  rw [frame?]
  simp only [encodeInto_of_fits event fits,
    Frame.complete_of_fits room event.length_bytes_le Watcher.bounded_event]
  rfl

theorem length_wire_pos (event : Event) : 0 < event.wire.length := by
  have length : Frame.headerLength = 4 := rfl
  rw [wire, Frame.length_whole]
  omega

/-- Frames in order, the last of which may be cut off. -/
theorem split_wires {events : List Event} {cut : List UInt8} {next : Event}
    (part : cut <+: next.wire) (shorter : cut.length < next.wire.length) :
    Frame.split Size.event (events.flatMap wire ++ cut) = (events.map bytes, cut) := by
  have bounded := Watcher.bounded_event
  have frames : events.flatMap wire = (events.map bytes).flatMap Frame.whole := by
    rw [List.flatMap_map]
    rfl
  have fits : ∀ payload ∈ events.map bytes, payload.length ≤ Size.event := by
    intro payload member
    obtain ⟨event, _, rfl⟩ := List.mem_map.mp member
    exact event.length_bytes_le
  have nextFits := next.length_bytes_le
  have stuck : ¬ Frame.Starts Size.event cut :=
    Frame.not_starts_of_cut part shorter (by omega)
  rw [frames, Frame.split_flatMap cut fits bounded, Frame.split_of_not_starts stuck,
    List.append_nil]

end Event

namespace Watcher

theorem outcome_bytes (event : Event) : outcome event.bytes = .ok event := by
  rw [outcome, event.decode_bytes]

/-- A watcher gets exactly the events whose frames are whole, and then the end. -/
theorem results_wires {source : Source} {events : List Event} {cut : List UInt8} {next : Event}
    (front : source.stream = events.flatMap Event.wire ++ cut) (part : cut <+: next.wire)
    (shorter : cut.length < next.wire.length) :
    results source = events.map .ok ++ [.error (.frame (.ofFailure source.ending))] := by
  have outcomes : (events.map Event.bytes).map outcome = events.map .ok := by
    rw [List.map_map]
    apply List.map_congr_left
    intro event _
    exact outcome_bytes event
  rw [results_eq, front, Event.split_wires part shorter, outcomes,
    Frame.endError_of_cut source.ending part next.length_bytes_le bounded_event]

/-- The same for bytes that come in any pieces, after which the peer closes. -/
theorem results_chunks {chunks : List (List UInt8)} {events : List Event} {cut : List UInt8}
    {next : Event} (nonempty : ∀ chunk ∈ chunks, chunk ≠ [])
    (joined : chunks.flatten = events.flatMap Event.wire ++ cut) (part : cut <+: next.wire)
    (shorter : cut.length < next.wire.length) :
    results (chunks.map .chunk) = events.map .ok ++ [.error (.frame .peerClosed)] := by
  have front : Source.stream (chunks.map .chunk) = events.flatMap Event.wire ++ cut := by
    rw [Source.stream_chunks chunks nonempty, joined]
  rw [results_wires front part shorter, Source.ending_chunks]
  rfl

theorem results_whole_chunks {chunks : List (List UInt8)} {events : List Event}
    (nonempty : ∀ chunk ∈ chunks, chunk ≠ [])
    (joined : chunks.flatten = events.flatMap Event.wire) :
    results (chunks.map .chunk) = events.map .ok ++ [.error (.frame .peerClosed)] := by
  have uncut : chunks.flatten = events.flatMap Event.wire ++ [] := by
    rw [joined, List.append_nil]
  have part : [] <+: Event.longest.wire := List.nil_prefix
  exact results_chunks nonempty uncut part Event.longest.length_wire_pos

end Watcher

end KeyRelay
