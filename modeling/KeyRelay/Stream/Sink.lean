import KeyRelay.Stream.Failure

/-! # Writing to a stream

The writable side of a connection is the list of what its writes will meet,
with a record of what it accepted. A write takes the next outcome; behind the
last one every write is accepted whole. -/
set_option autoImplicit false

namespace KeyRelay

inductive Acceptance
  /-- Accepts at most this many bytes. -/
  | atMost (count : Nat)
  | failure (cause : StreamFailure)
  deriving DecidableEq, Repr

structure Sink where
  outcomes : List Acceptance := []
  flushFailure : Option StreamFailure := none
  accepted : List UInt8 := []
  writes : Nat := 0
  flushes : Nat := 0
  deriving DecidableEq, Repr

namespace Sink

/-- One write call: how many bytes of `data` were accepted. -/
def write (sink : Sink) (data : List UInt8) : Except StreamFailure Nat × Sink :=
  match sink.outcomes with
  | [] =>
    (.ok data.length, { sink with
      accepted := sink.accepted ++ data
      writes := sink.writes + 1 })
  | .atMost count :: rest =>
    (.ok (min count data.length), { sink with
      outcomes := rest
      accepted := sink.accepted ++ data.take count
      writes := sink.writes + 1 })
  | .failure cause :: rest =>
    (.error cause, { sink with outcomes := rest, writes := sink.writes + 1 })

def flush (sink : Sink) : Except StreamFailure Unit × Sink :=
  match sink.flushFailure with
  | none => (.ok (), { sink with flushes := sink.flushes + 1 })
  | some cause => (.error cause, { sink with flushes := sink.flushes + 1 })

theorem outcomes_write (sink : Sink) (data : List UInt8) :
    (sink.write data).2.outcomes = sink.outcomes.tail := by
  unfold write
  split <;> simp_all

/-- Writes until an attempt is not interrupted. -/
def writeOnce (sink : Sink) (data : List UInt8) : Except StreamFailure Nat × Sink :=
  match _ahead : sink.outcomes with
  | [] => sink.write data
  | .atMost _ :: _ => sink.write data
  | .failure cause :: _ =>
    if cause.kind = .interrupted then (sink.write data).2.writeOnce data
    else sink.write data
termination_by sink.outcomes.length
decreasing_by simp [outcomes_write, _ahead]

/-- Writes until all of `data` is accepted. A write that accepts nothing is a failure. -/
def writeAll (sink : Sink) (data : List UInt8) : Except StreamFailure Unit × Sink :=
  if data.isEmpty then (.ok (), sink)
  else
    match _ahead : sink.outcomes with
    | [] => (.ok (), (sink.write data).2)
    | .atMost count :: _ =>
      if count = 0 then
        (.error ⟨.writeZero, some "failed to write whole buffer"⟩, (sink.write data).2)
      else (sink.write data).2.writeAll (data.drop count)
    | .failure cause :: _ =>
      if cause.kind = .interrupted then (sink.write data).2.writeAll data
      else (.error cause, (sink.write data).2)
termination_by sink.outcomes.length
decreasing_by all_goals simp [outcomes_write, _ahead]

end Sink

end KeyRelay
