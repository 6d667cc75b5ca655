import KeyRelay.Device.CommandStream

/-! # The command server

One client at a time is served. A connection whose client has not ended it
waits for more bytes and is held until the client closes it or the server
stops; stopping closes the held connection and removes the socket file, and a
second stop does nothing. -/
set_option autoImplicit false

namespace KeyRelay

structure CommandServer (κ : Type) where
  geometry : Geometry
  device : Device κ := {}
  running : Bool := true
  connected : Bool := false
  socketFile : Bool := true
  deriving DecidableEq, Repr

namespace CommandServer

variable {κ : Type}

/-- A client connects, sends bytes and ends its stream. Gives the calls made,
or nothing if no one listens. -/
def serveClient (react : Call κ → List (DeviceChange κ)) (server : CommandServer κ)
    (source : Source) : Option (List (Call κ)) × CommandServer κ :=
  if server.running then
    let served := serveCommands react server.geometry server.device source
    (some served.calls, { server with device := served.device })
  else (none, server)

/-- A client connects, sends bytes and leaves its stream open. The connection
is held unless its bytes were at fault. Gives the calls made, or nothing if no
one listens. -/
def holdClient (react : Call κ → List (DeviceChange κ)) (server : CommandServer κ)
    (source : Source) : Option (List (Call κ)) × CommandServer κ :=
  if server.running then
    let served := serveCommands react server.geometry server.device source
    (some served.calls, { server with
      device := served.device
      connected := served.ending = .peerClosed })
  else (none, server)

def releaseClient (server : CommandServer κ) : CommandServer κ :=
  { server with connected := false }

/-- Stops the server; says whether a connection was held and is now closed. -/
def stop (server : CommandServer κ) : Bool × CommandServer κ :=
  if server.running then
    (server.connected,
      { server with running := false, connected := false, socketFile := false })
  else (false, server)

end CommandServer

end KeyRelay
