import KeyRelay.Stream.Failure

/-! # Frames

A frame is a payload behind its length in four bytes, most significant first.
Each direction of a connection bounds the payload; a longer one is neither sent
nor read. -/
set_option autoImplicit false

namespace KeyRelay

inductive FrameError
  | tooLarge (length max : Nat)
  | oversized (declared max : Nat)
  | peerClosed
  | congested
  | partialWrite (written expected : Nat)
  | stream (cause : StreamFailure)
  deriving DecidableEq, Repr

namespace FrameError

def text : FrameError → String
  | .tooLarge length max => s!"frame payload of {length} bytes exceeds maximum {max}"
  | .oversized declared max => s!"peer announced a {declared}-byte frame, maximum is {max}"
  | .peerClosed => "peer closed the connection"
  | .congested => "peer is not draining its socket"
  | .partialWrite written expected => s!"short write: {written} of {expected} bytes"
  | .stream cause => s!"socket I/O failed: {cause.text}"

/-- A lost peer is told apart from a full connection and from all other failures. -/
def ofFailure (cause : StreamFailure) : FrameError :=
  match cause.kind with
  | .unexpectedEof | .connectionReset | .connectionAborted | .brokenPipe => .peerClosed
  | .wouldBlock => .congested
  | _ => .stream cause

end FrameError

namespace Frame

def headerLength : Nat := 4

/-- A length below 2^32 in four bytes. -/
def header (length : Nat) : List UInt8 :=
  [UInt8.ofNat (length / 0x1000000), UInt8.ofNat (length / 0x10000),
    UInt8.ofNat (length / 0x100), UInt8.ofNat length]

def bigEndian (bytes : List UInt8) : Nat :=
  bytes.foldl (fun value byte => value * 256 + byte.toNat) 0

def encode (payload : List UInt8) (max : Nat) : Except FrameError (List UInt8) :=
  if payload.length ≤ max ∧ payload.length < UInt32.size then
    .ok (header payload.length ++ payload)
  else .error (.tooLarge payload.length max)

/-- Completes a frame whose payload of the given length already stands in the
buffer behind the room for the header. Gives the frame and the buffer
afterwards. -/
def complete (buffer : List UInt8) (length max : Nat) :
    Except FrameError (List UInt8) × List UInt8 :=
  if length ≤ max ∧ headerLength + length ≤ buffer.length ∧ length < UInt32.size then
    let completed := header length ++ buffer.drop headerLength
    (.ok (completed.take (headerLength + length)), completed)
  else (.error (.tooLarge length max), buffer)

def announced (received : List UInt8) (max : Nat) : Except FrameError Nat :=
  let declared := bigEndian received
  if declared ≤ max then .ok declared else .error (.oversized declared max)

end Frame

end KeyRelay
