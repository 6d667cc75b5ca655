import KeyRelay.Frame.Transfer
import KeyRelay.Proofs.Stream.Sink

/-! # Offering a frame

A single attempt either puts the whole frame on the connection or leaves it
with a part of the frame that is shorter, which may be nothing. Interrupted
writes before the attempt put nothing there. -/
set_option autoImplicit false

namespace KeyRelay

namespace Sink

/-- A write accepts the front of the data, or fails and accepts nothing. -/
theorem write_accepted (sink : Sink) (data : List UInt8) :
    (∃ written next, sink.write data = (.ok written, next) ∧ written ≤ data.length ∧
      next.accepted = sink.accepted ++ data.take written) ∨
    ∃ cause next, sink.write data = (.error cause, next) ∧ next.accepted = sink.accepted := by
  unfold write
  split
  next => exact .inl ⟨_, _, rfl, Nat.le_refl _, by rw [List.take_length]⟩
  next count rest ahead =>
    refine .inl ⟨_, _, rfl, Nat.min_le_right _ _, ?_⟩
    rw [← List.take_eq_take_min]
  next cause rest ahead => exact .inr ⟨_, _, rfl, rfl⟩

/-- What holds for one write holds for the write that was not interrupted. -/
theorem writeOnce_accepted (sink : Sink) (data : List UInt8) :
    (∃ written next, sink.writeOnce data = (.ok written, next) ∧ written ≤ data.length ∧
      next.accepted = sink.accepted ++ data.take written) ∨
    ∃ cause next, sink.writeOnce data = (.error cause, next) ∧ next.accepted = sink.accepted := by
  induction ahead : sink.outcomes generalizing sink with
  | nil =>
    rw [writeOnce_final data (by simp [ahead])]
    exact write_accepted sink data
  | cons outcome rest ih =>
    cases outcome with
    | atMost count =>
      rw [writeOnce_final data (by simp [ahead])]
      exact write_accepted sink data
    | failure cause =>
      by_cases interrupted : cause.kind = .interrupted
      · -- The interrupted write left nothing, so the next one starts from the same bytes.
        rw [writeOnce_interrupted ahead interrupted, ← write_failure ahead data]
        exact ih (sink.write data).2 (outcomes_write_cons ahead data)
      · rw [writeOnce_final data (by simp [ahead, interrupted])]
        exact write_accepted sink data

end Sink

namespace Frame

theorem offer_accepted (sink : Sink) {frame : List UInt8} (nonempty : 0 < frame.length) :
    (∃ next, offer sink frame = (.ok (), next) ∧ next.accepted = sink.accepted ++ frame) ∨
    ∃ failure next cut, offer sink frame = (.error failure, next) ∧
      next.accepted = sink.accepted ++ cut ∧ cut <+: frame ∧ cut.length < frame.length := by
  rcases sink.writeOnce_accepted frame with
    ⟨written, next, call, bound, accepted⟩ | ⟨cause, next, call, accepted⟩
  · by_cases whole : written = frame.length
    · rw [whole, List.take_length] at accepted
      exact .inl ⟨next, by simp only [offer, call, if_pos whole], accepted⟩
    · refine .inr ⟨.partialWrite written frame.length, next, frame.take written, ?_, accepted,
        List.take_prefix written frame, ?_⟩
      · simp only [offer, call, if_neg whole]
      · rw [List.length_take]
        omega
  · refine .inr ⟨.ofFailure cause, next, [], ?_, ?_, List.nil_prefix, nonempty⟩
    · simp only [offer, call]
    · rw [accepted, List.append_nil]

/-- An attempt that succeeds puts the whole frame behind what was there. -/
theorem accepted_of_isOk {sink : Sink} {frame : List UInt8} (nonempty : 0 < frame.length)
    (takes : (offer sink frame).1.isOk) :
    (offer sink frame).2.accepted = sink.accepted ++ frame := by
  rcases offer_accepted sink nonempty with ⟨next, call, accepted⟩ | ⟨failure, next, cut, call, _⟩
  · rw [call]
    exact accepted
  · simp [call, Except.isOk, Except.toBool] at takes

end Frame

/-- Frames are offered one after another, and each is taken whole. -/
def Sink.Takes : Sink → List (List UInt8) → Prop
  | _, [] => True
  | sink, frame :: rest =>
    (Frame.offer sink frame).1.isOk ∧ (Frame.offer sink frame).2.Takes rest

instance Sink.decidableTakes : (sink : Sink) → (frames : List (List UInt8)) →
    Decidable (sink.Takes frames)
  | _, [] => .isTrue trivial
  | sink, frame :: rest =>
    have := decidableTakes (Frame.offer sink frame).2 rest
    inferInstanceAs (Decidable (_ ∧ _))

end KeyRelay
