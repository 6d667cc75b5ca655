import KeyRelay.Client.Watcher
import KeyRelay.Proofs.Frame.Receive

/-! # What a watcher gets from a stream

The outcomes of a watcher are those of the whole frames at the front of its
stream, one each and in order, and then the one error that ends the stream. -/
set_option autoImplicit false

namespace KeyRelay.Watcher

/-- What the frame with this payload gives the watcher. -/
def outcome (payload : List UInt8) : Except ClientError Event :=
  match Event.decode payload with
  | .ok event => .ok event
  | .error failure => .error (.decode failure)

theorem bounded_event : Size.event < UInt32.size := by
  decide

theorem nextEvent_of_receive {source next : Source} {payload : List UInt8}
    (received : Frame.receive source Size.event = (.ok payload, next)) :
    nextEvent source = (outcome payload, next) := by
  simp only [nextEvent, received, outcome]
  cases Event.decode payload <;> rfl

theorem results_of_nextEvent {source next : Source} {payload : List UInt8}
    (read : nextEvent source = (outcome payload, next)) :
    results source = outcome payload :: results next := by
  cases decoded : Event.decode payload with
  | ok event =>
    have given : outcome payload = .ok event := by rw [outcome, decoded]
    rw [given] at read ⊢
    rw [results]
    split
    next call =>
      simp only [read, Prod.mk.injEq, Except.ok.injEq] at call
      obtain ⟨rfl, rfl⟩ := call
      rfl
    next call => simp [read] at call
    next notDecode call => simp [read] at call
  | error failure =>
    have given : outcome payload = .error (.decode failure) := by rw [outcome, decoded]
    rw [given] at read ⊢
    rw [results]
    split
    next call => simp [read] at call
    next call =>
      simp only [read, Prod.mk.injEq, Except.error.injEq, ClientError.decode.injEq] at call
      obtain ⟨rfl, rfl⟩ := call
      rfl
    next notDecode call =>
      simp only [read, Prod.mk.injEq, Except.error.injEq] at call
      exact absurd call.1.symm (notDecode failure)

theorem results_of_failure {source next : Source} {failure : FrameError}
    (received : Frame.receive source Size.event = (.error failure, next)) :
    results source = [.error (.frame failure)] := by
  have read : nextEvent source = (.error (.frame failure), next) := by
    rw [nextEvent, received]
  rw [results]
  split
  next call => simp [read] at call
  next call => simp [read] at call
  next notDecode call =>
    simp only [read, Prod.mk.injEq, Except.error.injEq] at call
    rw [← call.1]

/-- One outcome for each whole frame, and the error of the end. -/
theorem results_eq (source : Source) :
    results source = (Frame.split Size.event source.stream).1.map outcome ++
      [.error (.frame (Frame.endError Size.event (Frame.split Size.event source.stream).2
        source.ending))] := by
  induction size : source.stream.length using Nat.strongRecOn generalizing source with
  | ind total ih =>
    rcases Frame.receive_cases bounded_event source with
      ⟨payload, next, received, splits, nextEnding, shorter⟩ | ⟨next, received, splits, _⟩
    · -- Whether or not the payload decodes, the watcher goes on with the next frame.
      have remaining := ih _ (size ▸ shorter) next rfl
      rw [results_of_nextEvent (nextEvent_of_receive received), remaining, splits, nextEnding]
      rfl
    · rw [results_of_failure received, splits]
      rfl

end KeyRelay.Watcher
