import KeyRelay.Proofs.Client.EventStream

/-! # Frames built where their payload stands

The hub encodes an event behind room for a header and then completes the frame in the same
buffer. That gives the frame that would have been built from the payload alone, and leaves
what is behind the header as it was; where no such frame can be built, the buffer is left
alone. For an event there always is one, so a broadcast always reaches the table. -/
set_option autoImplicit false

namespace KeyRelay.Frame

variable {buffer : List UInt8} {length max : Nat}

/-- The payload is within the limit, it is all there, and the header can tell its length. -/
def Completable (buffer : List UInt8) (length max : Nat) : Prop :=
  length ≤ max ∧ headerLength + length ≤ buffer.length ∧ length < UInt32.size

/-- With its new header at the front, the buffer begins with the frame. -/
theorem take_completed (buffer : List UInt8) (length : Nat) :
    (header length ++ buffer.drop headerLength).take (headerLength + length) =
      header length ++ (buffer.drop headerLength).take length := by
  rw [← length_header length, List.take_length_add_append]

theorem length_completed (room : headerLength ≤ buffer.length) :
    (header length ++ buffer.drop headerLength).length = buffer.length := by
  rw [List.length_append, length_header, List.length_drop]
  omega

theorem complete_of_completable (completable : Completable buffer length max) :
    complete buffer length max =
      (.ok (header length ++ (buffer.drop headerLength).take length),
        header length ++ buffer.drop headerLength) := by
  rw [complete, if_pos (show _ ∧ _ ∧ _ from completable)]
  simp only [take_completed]

theorem complete_of_not (refused : ¬ Completable buffer length max) :
    complete buffer length max = (.error (.tooLarge length max), buffer) :=
  if_neg refused

theorem complete_ok_iff :
    (∃ frame, (complete buffer length max).1 = .ok frame) ↔ Completable buffer length max := by
  constructor
  · rintro ⟨frame, completed⟩
    by_contra refused
    rw [complete_of_not refused] at completed
    cases completed
  · intro completable
    rw [complete_of_completable completable]
    exact ⟨_, rfl⟩

theorem encode_content (completable : Completable buffer length max) :
    encode ((buffer.drop headerLength).take length) max =
      .ok (header length ++ (buffer.drop headerLength).take length) := by
  obtain ⟨fits, there, short⟩ := completable
  have size : ((buffer.drop headerLength).take length).length = length := by
    rw [List.length_take, List.length_drop]
    omega
  rw [encode, size, if_pos ⟨fits, short⟩]

/-- Completing a frame in its buffer changes the header at most, and agrees with building it
from the payload. It is refused exactly if the payload is beyond the limit, the buffer or the
header, and an event in the hub's buffer never is. -/
theorem complete_agrees_with_encode :
    (∀ (buffer : List UInt8) (length max : Nat),
      ((∃ frame, (complete buffer length max).1 = .ok frame) ↔
        length ≤ max ∧ 4 + length ≤ buffer.length ∧ length < 2 ^ 32) ∧
      (∀ frame after, complete buffer length max = (.ok frame, after) →
        encode ((buffer.drop 4).take length) max = .ok frame ∧
        after.take (4 + length) = frame ∧
        after.length = buffer.length ∧ after.drop 4 = buffer.drop 4) ∧
      ∀ failure after, complete buffer length max = (.error failure, after) →
        failure = .tooLarge length max ∧ after = buffer) ∧
    ∀ (event : Event) (hub : Hub), ∃ payload frame body completed : List UInt8,
      event.encode = .ok payload ∧ encode payload Size.event = .ok frame ∧
      event.encodeInto (List.replicate Size.event 0) = (.ok payload.length, body) ∧
      complete (List.replicate headerLength 0 ++ body) payload.length Size.event =
        (.ok frame, completed) ∧
      event.frame? = some frame ∧
      hub.broadcast event =
        ((hub.table.sendToAll frame).2.1,
          { hub with table := (hub.table.sendToAll frame).2.2 }) := by
  constructor
  · intro buffer length max
    refine ⟨complete_ok_iff, ?_, ?_⟩
    · intro frame after completed
      have completable : Completable buffer length max :=
        complete_ok_iff.mp ⟨frame, by rw [completed]⟩
      have room : headerLength ≤ buffer.length :=
        Nat.le_of_add_right_le completable.2.1
      rw [complete_of_completable completable] at completed
      cases completed
      exact ⟨encode_content completable, take_completed buffer length, length_completed room,
        List.drop_left' (length_header length)⟩
    · intro failure after refused
      have notCompletable : ¬ Completable buffer length max := by
        intro completable
        rw [complete_of_completable completable] at refused
        cases refused
      rw [complete_of_not notCompletable] at refused
      cases refused
      exact ⟨rfl, rfl⟩
  · intro event hub
    obtain ⟨encoded, framed⟩ := event.encode_wire
    have fits : event.bytes.length ≤ (List.replicate Size.event (0 : UInt8)).length := by
      rw [List.length_replicate]
      exact event.length_bytes_le
    have room : (List.replicate headerLength (0 : UInt8)).length = headerLength :=
      List.length_replicate
    refine ⟨event.bytes, event.wire, _, _, encoded, framed, event.encodeInto_of_fits fits,
      complete_of_fits room event.length_bytes_le Watcher.bounded_event, event.frame?_eq, ?_⟩
    rw [Hub.broadcast, event.frame?_eq]

/-- Three of the four bytes behind the room make a frame; a fifth is not there. -/
theorem complete_agrees_with_encode_partly_filled :
    complete [1, 1, 1, 1, 7, 8, 9, 2] 3 8 =
      (.ok [0, 0, 0, 3, 7, 8, 9], [0, 0, 0, 3, 7, 8, 9, 2]) ∧
    encode [7, 8, 9] 8 = .ok [0, 0, 0, 3, 7, 8, 9] ∧
    ¬ ∃ frame, (complete [1, 1, 1, 1, 7, 8, 9, 2] 5 8).1 = .ok frame := by
  have completed : complete [1, 1, 1, 1, 7, 8, 9, 2] 3 8 =
      (.ok [0, 0, 0, 3, 7, 8, 9], [0, 0, 0, 3, 7, 8, 9, 2]) := by
    decide
  have agrees := (complete_agrees_with_encode.1 _ 3 8).2.1 _ _ completed
  have beyond : ¬ (5 ≤ 8 ∧ 4 + 5 ≤ 8 ∧ 5 < 2 ^ 32) := by decide
  exact ⟨completed, agrees.1, (complete_agrees_with_encode.1 _ 5 8).1.not.mpr beyond⟩

end KeyRelay.Frame
