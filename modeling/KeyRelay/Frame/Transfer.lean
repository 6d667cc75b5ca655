import KeyRelay.Frame.Basic
import KeyRelay.Stream.Sink
import KeyRelay.Stream.Source

/-! # Moving frames over streams

`offer` makes a single attempt, for connections that must not wait: less than
the whole frame accepted is an error, and the connection is then of no more
use. `write` goes on until the frame is out. `receive` reads one frame, and
leaves the body of an announced frame unread if it is too long. -/
set_option autoImplicit false

namespace KeyRelay.Frame

def offer (sink : Sink) (frame : List UInt8) : Except FrameError Unit × Sink :=
  match sink.writeOnce frame with
  | (.ok written, next) =>
    if written = frame.length then (.ok (), next)
    else (.error (.partialWrite written frame.length), next)
  | (.error cause, next) => (.error (.ofFailure cause), next)

def send (sink : Sink) (payload : List UInt8) (max : Nat) : Except FrameError Unit × Sink :=
  match encode payload max with
  | .error failure => (.error failure, sink)
  | .ok frame => offer sink frame

def write (sink : Sink) (payload : List UInt8) (max : Nat) : Except FrameError Unit × Sink :=
  match encode payload max with
  | .error failure => (.error failure, sink)
  | .ok frame =>
    match sink.writeAll frame with
    | (.error cause, next) => (.error (.ofFailure cause), next)
    | (.ok (), next) =>
      match next.flush with
      | (.ok (), done) => (.ok (), done)
      | (.error cause, done) => (.error (.ofFailure cause), done)

def receive (source : Source) (max : Nat) : Except FrameError (List UInt8) × Source :=
  match source.readExact headerLength with
  | (.error cause, next) => (.error (.ofFailure cause), next)
  | (.ok received, next) =>
    match announced received max with
    | .error failure => (.error failure, next)
    | .ok length =>
      match next.readExact length with
      | (.error cause, done) => (.error (.ofFailure cause), done)
      | (.ok payload, done) => (.ok payload, done)

/-- A received frame takes its header and its payload off the stream. -/
theorem receive_bytes {source next : Source} {max : Nat} {payload : List UInt8}
    (success : receive source max = (.ok payload, next)) :
    source.bytes.length = headerLength + payload.length + next.bytes.length := by
  unfold receive at success
  split at success
  · simp at success
  · rename_i received middle headerRead
    split at success
    · simp at success
    · rename_i length announcedLength
      split at success
      · simp at success
      · rename_i body done bodyRead
        simp only [Prod.mk.injEq, Except.ok.injEq] at success
        obtain ⟨rfl, rfl⟩ := success
        obtain ⟨headerSize, headerBytes⟩ := Source.readExact_bytes headerRead
        obtain ⟨bodySize, bodyBytes⟩ := Source.readExact_bytes bodyRead
        rw [headerBytes, bodyBytes, List.length_append, List.length_append]
        omega

theorem receive_shortens {source next : Source} {max : Nat} {payload : List UInt8}
    (success : receive source max = (.ok payload, next)) :
    next.bytes.length < source.bytes.length := by
  have sizes := receive_bytes success
  simp only [headerLength] at sizes
  omega

end KeyRelay.Frame
