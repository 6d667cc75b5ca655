import KeyRelay.Device.Dispatch
import KeyRelay.Frame.Transfer
import KeyRelay.Message.Decode
import KeyRelay.Message.Size

/-! # Serving a command connection

A connection is a stream of frames, each with one command. A frame that does
not decode, and a command that is refused or not delivered, end nothing. The
connection ends with the first frame that cannot be read: the peer is gone, the
stream failed, or the announced length is beyond any command. -/
set_option autoImplicit false

namespace KeyRelay

/-- What a connection left: the device, the calls it led to, the error that
ended it, and what is still unread. -/
structure Served (κ : Type) where
  device : Device κ
  calls : List (Call κ)
  ending : FrameError
  unread : Source
  deriving DecidableEq, Repr

def serveCommands {κ : Type} (react : Call κ → List (DeviceChange κ)) (geometry : Geometry)
    (device : Device κ) (source : Source) : Served κ :=
  match _received : Frame.receive source Size.command with
  | (.error ending, rest) => ⟨device, [], ending, rest⟩
  | (.ok payload, rest) =>
    match Command.decode payload with
    | .error _ => serveCommands react geometry device rest
    | .ok command =>
      let first := command.dispatch react geometry device
      let remaining := serveCommands react geometry first.device rest
      { remaining with calls := first.calls ++ remaining.calls }
termination_by source.bytes.length
decreasing_by all_goals exact Frame.receive_shortens _received

def serveConnections {κ : Type} (react : Call κ → List (DeviceChange κ)) (geometry : Geometry) :
    Device κ → List Source → Device κ × List (Call κ)
  | device, [] => (device, [])
  | device, source :: rest =>
    let first := serveCommands react geometry device source
    let (last, calls) := serveConnections react geometry first.device rest
    (last, first.calls ++ calls)

end KeyRelay
