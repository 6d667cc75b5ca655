import KeyRelay.CommandLine.Help
import KeyRelay.Text.KeyTarget

/-! # The command line of the client

The first argument names a command, and the others belong to it. A client
either watches the events of a relay or sends key taps to it. -/
set_option autoImplicit false

namespace KeyRelay.CommandLine

structure SendRequest where
  socket : Path := .ofString "/tmp/zmk_kscan_ipc.sock"
  /-- How long a key is held, in milliseconds. -/
  hold : UInt64 := 50
  /-- How long to wait behind a key, in milliseconds. -/
  interval : UInt64 := 200
  keys : List KeyAddress
  deriving DecidableEq, Repr

inductive ClientRequest
  | watch (socket : Path)
  | send (request : SendRequest)
  deriving DecidableEq, Repr

def defaultWatchSocket : Path := .ofString "/tmp/zmk_ipc.sock"

namespace ClientRequest

/-! Watching. -/

inductive WatchSwitch
  | socket
  | help
  deriving DecidableEq, Repr

def watchSwitches : List (Switch WatchSwitch) :=
  [⟨.socket, "socket", none, true⟩, ⟨.help, "help", some 'h', false⟩]

def takeWatch (environment : Environment) (socket : Option Path) :
    Item WatchSwitch → Except Stop (Option Path)
  | .setting _ value => once "socket" (readPath "socket") socket value
  | .flag _ => .error (.shown (watchHelp environment))
  | .operand value => .error (.misuse (.unexpectedOperand value))

def parseWatch (environment : Environment) (arguments : List String) :
    Except Stop ClientRequest := do
  let given ← takeAll (takeWatch environment) none (scan watchSwitches arguments)
  let socket ← orFrom environment observerVariable (readPath "socket") given
  return .watch (socket.getD defaultWatchSocket)

/-! Sending. -/

inductive SendSwitch
  | socket
  | hold
  | interval
  | help
  deriving DecidableEq, Repr

def sendSwitches : List (Switch SendSwitch) :=
  [⟨.socket, "socket", none, true⟩, ⟨.hold, "hold-ms", none, true⟩,
    ⟨.interval, "interval-ms", none, true⟩, ⟨.help, "help", some 'h', false⟩]

structure SendOptions where
  socket : Option Path := none
  hold : Option UInt64 := none
  interval : Option UInt64 := none
  keys : List KeyAddress := []
  deriving DecidableEq, Repr

def takeSend (environment : Environment) (options : SendOptions) :
    Item SendSwitch → Except Stop SendOptions
  | .setting .socket value => do
    return { options with socket := ← once "socket" (readPath "socket") options.socket value }
  | .setting .hold value => do
    return { options with hold := ← once "hold-ms" (readCount "hold-ms") options.hold value }
  | .setting .interval value => do
    return { options with
      interval := ← once "interval-ms" (readCount "interval-ms") options.interval value }
  | .operand value =>
    match KeyTarget.parse value with
    | .ok address => .ok { options with keys := options.keys ++ [address] }
    | .error bad => .error (.misuse (.badValue "<KEYS>..." value bad.text))
  | .flag _ => .error (.shown (sendHelp environment))
  | .setting .help _ => .ok options

def parseSend (environment : Environment) (arguments : List String) :
    Except Stop ClientRequest := do
  let options ← takeAll (takeSend environment) {} (scan sendSwitches arguments)
  let socket ← orFrom environment kscanVariable (readPath "socket") options.socket
  if options.keys.isEmpty then throw (.misuse (.missingOperand "<KEYS>..."))
  let request : SendRequest := { keys := options.keys }
  return .send { request with
    socket := socket.getD request.socket
    hold := options.hold.getD request.hold
    interval := options.interval.getD request.interval }

/-! The commands. -/

def commandHelp? (environment : Environment) (name : String) : Option String :=
  if name = "watch" then some (watchHelp environment)
  else if name = "send" then some (sendHelp environment)
  else if name = "help" then some helpHelp
  else none

/-- What a request for help leads to; no command has commands of its own. -/
def helpFor (environment : Environment) : List String → Stop
  | [] => .shown clientHelp
  | name :: others =>
    match commandHelp? environment name, others with
    | some text, [] => .shown text
    | some _, other :: _ => .misuse (.unknownCommand other)
    | none, _ => .misuse (.unknownCommand name)

inductive GeneralSwitch
  | help
  | version
  deriving DecidableEq, Repr

def generalSwitches : List (Switch GeneralSwitch) :=
  [⟨.help, "help", some 'h', false⟩, ⟨.version, "version", some 'V', false⟩]

def takeGeneral (_ : Unit) : Item GeneralSwitch → Except Stop Unit
  | .flag .help => .error (.shown clientHelp)
  | .flag .version => .error (.shown clientVersion)
  | .setting _ _ => .ok ()
  | .operand value => .error (.misuse (.unknownCommand value))

/-- What an argument says that names no command. -/
def withoutCommand (argument : String) : Stop :=
  match takeAll takeGeneral () (scan generalSwitches [argument]) with
  | .error stop => stop
  | .ok () => .misuse .missingCommand

def parse (environment : Environment) : List String → Except Stop ClientRequest
  | [] => .error (.misuse .missingCommand)
  | "watch" :: rest => parseWatch environment rest
  | "send" :: rest => parseSend environment rest
  | "help" :: rest => .error (helpFor environment rest)
  | other :: _ => .error (withoutCommand other)

end ClientRequest

end KeyRelay.CommandLine
