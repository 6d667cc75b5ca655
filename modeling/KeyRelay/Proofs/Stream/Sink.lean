import KeyRelay.Stream.Sink

/-! # Writes, by what they meet

One equation for each kind of outcome that a write can meet, for the single
write that is repeated while it is interrupted and for the write of all bytes. -/
set_option autoImplicit false

namespace KeyRelay.Sink

variable {sink : Sink} {rest : List Acceptance}

theorem write_nil (ahead : sink.outcomes = []) (data : List UInt8) :
    (sink.write data).2.accepted = sink.accepted ++ data := by
  simp [write, ahead]

theorem write_atMost {count : Nat} (ahead : sink.outcomes = .atMost count :: rest)
    (data : List UInt8) : (sink.write data).2.accepted = sink.accepted ++ data.take count := by
  simp [write, ahead]

theorem write_failure {cause : StreamFailure} (ahead : sink.outcomes = .failure cause :: rest)
    (data : List UInt8) : (sink.write data).2.accepted = sink.accepted := by
  simp [write, ahead]

theorem outcomes_write_cons {outcome : Acceptance} (ahead : sink.outcomes = outcome :: rest)
    (data : List UInt8) : (sink.write data).2.outcomes = rest := by
  rw [outcomes_write, ahead, List.tail_cons]

/-- Only an interruption makes a second write. -/
theorem writeOnce_final (data : List UInt8)
    (final : ∀ cause others, sink.outcomes = .failure cause :: others → cause.kind ≠ .interrupted) :
    sink.writeOnce data = sink.write data := by
  rw [writeOnce]
  split
  next => rfl
  next => rfl
  next cause others ahead => rw [if_neg (final cause others ahead)]

theorem writeOnce_interrupted {cause : StreamFailure}
    (ahead : sink.outcomes = .failure cause :: rest) (interrupted : cause.kind = .interrupted)
    (data : List UInt8) : sink.writeOnce data = (sink.write data).2.writeOnce data := by
  rw [writeOnce]
  split
  next found => simp [ahead] at found
  next found => simp [ahead] at found
  next other others found =>
    rw [ahead, List.cons.injEq, Acceptance.failure.injEq] at found
    rw [if_pos (found.1 ▸ interrupted)]

theorem writeAll_empty (sink : Sink) : sink.writeAll [] = (.ok (), sink) := by
  rw [writeAll]
  rfl

variable {data : List UInt8}

theorem writeAll_nil (ahead : sink.outcomes = []) (bytes : data ≠ []) :
    sink.writeAll data = (.ok (), (sink.write data).2) := by
  rw [writeAll, if_neg (by simpa using bytes)]
  split
  next => rfl
  next found => simp [ahead] at found
  next found => simp [ahead] at found

theorem writeAll_atMost {count : Nat} (ahead : sink.outcomes = .atMost count :: rest)
    (bytes : data ≠ []) :
    sink.writeAll data =
      if count = 0 then
        (.error ⟨.writeZero, some "failed to write whole buffer"⟩, (sink.write data).2)
      else (sink.write data).2.writeAll (data.drop count) := by
  rw [writeAll, if_neg (by simpa using bytes)]
  split
  next found => simp [ahead] at found
  next other others found =>
    rw [ahead, List.cons.injEq, Acceptance.atMost.injEq] at found
    rw [found.1]
  next found => simp [ahead] at found

theorem writeAll_failure {cause : StreamFailure} (ahead : sink.outcomes = .failure cause :: rest)
    (bytes : data ≠ []) :
    sink.writeAll data =
      if cause.kind = .interrupted then (sink.write data).2.writeAll data
      else (.error cause, (sink.write data).2) := by
  rw [writeAll, if_neg (by simpa using bytes)]
  split
  next found => simp [ahead] at found
  next found => simp [ahead] at found
  next other others found =>
    rw [ahead, List.cons.injEq, Acceptance.failure.injEq] at found
    rw [found.1]

end KeyRelay.Sink
