import KeyRelay.Proofs.Frame.Split
import KeyRelay.Proofs.Stream.Sink

/-! # Writing frames

A write of all bytes that succeeds has put exactly these bytes on the
connection, however it was cut up and interrupted. It succeeds on every
connection whose writes make progress. -/
set_option autoImplicit false

namespace KeyRelay

namespace Sink

theorem writeAll_accepted {sink next : Sink} {data : List UInt8}
    (written : sink.writeAll data = (.ok (), next)) :
    next.accepted = sink.accepted ++ data := by
  -- Every write takes the next outcome, so the induction is on those that are left.
  induction ahead : sink.outcomes generalizing sink data with
  | nil =>
    by_cases bytes : data = []
    · rw [bytes, writeAll_empty, Prod.mk.injEq] at written
      rw [bytes, ← written.2, List.append_nil]
    · rw [writeAll_nil ahead bytes, Prod.mk.injEq] at written
      rw [← written.2, write_nil ahead]
  | cons outcome rest ih =>
    have remaining := outcomes_write_cons ahead data
    by_cases bytes : data = []
    · rw [bytes, writeAll_empty, Prod.mk.injEq] at written
      rw [bytes, ← written.2, List.append_nil]
    · cases outcome with
      | atMost count =>
        rw [writeAll_atMost ahead bytes] at written
        split at written
        next => simp at written
        next =>
          rw [ih written remaining, write_atMost ahead, List.append_assoc,
            List.take_append_drop]
      | failure cause =>
        rw [writeAll_failure ahead bytes] at written
        split at written
        next => rw [ih written remaining, write_failure ahead]
        next => simp at written

theorem flush_accepted (sink : Sink) : sink.flush.2.accepted = sink.accepted := by
  rw [flush]
  split <;> rfl

/-- Every write is interrupted or accepts something, and flushing works. -/
def Progresses (sink : Sink) : Prop :=
  sink.flushFailure = none ∧ ∀ outcome ∈ sink.outcomes,
    (∃ count, outcome = .atMost count ∧ 0 < count) ∨
      ∃ cause, outcome = .failure cause ∧ cause.kind = .interrupted

theorem write_progresses {sink : Sink} (progresses : sink.Progresses) (data : List UInt8) :
    (sink.write data).2.Progresses := by
  obtain ⟨flushes, outcomes⟩ := progresses
  constructor
  · rw [write]
    split <;> exact flushes
  · rw [outcomes_write]
    intro outcome member
    exact outcomes outcome (List.mem_of_mem_tail member)

theorem writeAll_progresses {sink : Sink} (progresses : sink.Progresses) (data : List UInt8) :
    ∃ next, sink.writeAll data = (.ok (), next) ∧ next.Progresses := by
  induction ahead : sink.outcomes generalizing sink data with
  | nil =>
    by_cases bytes : data = []
    · rw [bytes]
      exact ⟨sink, writeAll_empty sink, progresses⟩
    · exact ⟨_, writeAll_nil ahead bytes, write_progresses progresses data⟩
  | cons outcome rest ih =>
    have remaining := outcomes_write_cons ahead data
    have goesOn := write_progresses progresses data
    by_cases bytes : data = []
    · rw [bytes]
      exact ⟨sink, writeAll_empty sink, progresses⟩
    · have possible := progresses.2 outcome (by rw [ahead]; exact List.mem_cons_self)
      rcases possible with ⟨count, rfl, positive⟩ | ⟨cause, rfl, interrupted⟩
      · rw [writeAll_atMost ahead bytes, if_neg (by omega)]
        exact ih goesOn _ remaining
      · rw [writeAll_failure ahead bytes, if_pos interrupted]
        exact ih goesOn data remaining

end Sink

namespace Frame

theorem write_accepted {sink next : Sink} {payload : List UInt8} {max : Nat}
    (fits : payload.length ≤ max) (bounded : max < UInt32.size)
    (written : write sink payload max = (.ok (), next)) :
    next.accepted = sink.accepted ++ whole payload := by
  simp only [write, encode_eq fits bounded] at written
  split at written
  next => simp at written
  next between call =>
    rw [← Sink.writeAll_accepted call]
    split at written
    next flushed =>
      simp only [Prod.mk.injEq, true_and] at written
      rw [← written, ← Sink.flush_accepted between, flushed]
    next => simp at written

theorem write_progresses {sink : Sink} (progresses : sink.Progresses) {payload : List UInt8}
    {max : Nat} (fits : payload.length ≤ max) (bounded : max < UInt32.size) :
    ∃ next, write sink payload max = (.ok (), next) ∧ next.Progresses := by
  obtain ⟨between, call, flushes, outcomes⟩ :=
    Sink.writeAll_progresses progresses (whole payload)
  refine ⟨between.flush.2, ?_, ?_⟩
  · simp only [write, encode_eq fits bounded, call, Sink.flush, flushes]
  · simp only [Sink.flush, flushes]
    exact ⟨rfl, outcomes⟩

end Frame

end KeyRelay
