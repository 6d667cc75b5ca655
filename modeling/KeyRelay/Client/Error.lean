import KeyRelay.Frame.Basic
import KeyRelay.Wire.Error

/-! # What can go wrong for a client -/
set_option autoImplicit false

namespace KeyRelay

inductive ClientError
  | connect (path : String) (cause : StreamFailure)
  | frame (failure : FrameError)
  | decode (failure : Wire.DecodeError)
  | encode (failure : Wire.EncodeError)
  deriving DecidableEq, Repr

namespace ClientError

def text : ClientError → String
  | .connect path cause => s!"failed to connect to {path}: {cause.text}"
  | .frame failure => failure.text
  | .decode failure => s!"received an undecodable event: {failure.text}"
  | .encode failure => s!"failed to encode command: {failure.text}"

def isClosed : ClientError → Bool
  | .frame .peerClosed => true
  | _ => false

end ClientError

end KeyRelay
