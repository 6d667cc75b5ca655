import KeyRelay.Client.Sender
import KeyRelay.Client.Watcher
import KeyRelay.CommandLine.ClientRequest
import KeyRelay.Files.Tree
import KeyRelay.Text.EventLine

/-! # Running the client

A watch prints a line for every event until the relay closes the connection,
passes over what does not decode, and fails at any other error of the stream.
Sending prints a line for every key before its tap and stops at the first tap
that fails. -/
set_option autoImplicit false

namespace KeyRelay.CommandLine

def unreachable (socket : Path) (cause : FileFailure) : Report :=
  ⟨"is the bridge running?",
    [(ClientError.connect socket.display cause.streamFailure).text, cause.text]⟩

/-- The lines for the events of a stream, and the report of a stream that failed. -/
def watchLines (source : Source) : List String × Option Report :=
  match call : Watcher.nextEvent source with
  | (.ok event, rest) =>
    have := Watcher.nextEvent_shortens call (by simp)
    let (others, report) := watchLines rest
    (event.line :: others, report)
  | (.error (.decode _), rest) =>
    have := Watcher.nextEvent_shortens call (by simp)
    watchLines rest
  | (.error failure, _) =>
    ([], if failure.isClosed then none else some ⟨"reading events", [failure.text]⟩)
termination_by source.bytes.length

def conclude (texts : List String) : Option Report → Conclusion
  | none => ⟨lines texts, .success⟩
  | some report => ⟨lines texts, .failure report⟩

/-- Watches what arrives on a connection to the socket, if it could be made. -/
def runWatch (socket : Path) : Except FileFailure Source → Conclusion
  | .error cause => conclude [] (some (unreachable socket cause))
  | .ok source =>
    let (texts, report) := watchLines source
    conclude (s!"Watching {socket.display} (Ctrl-C to stop)" :: texts) report

/-- The lines for taps, the report of one that failed, and the stream afterwards. -/
def tapLines (sink : Sink) : List KeyAddress → List String × Option Report × Sink
  | [] => (["Done."], none, sink)
  | address :: rest =>
    match Sender.tap sink address with
    | (.ok (), next) =>
      let (others, report, last) := tapLines next rest
      (s!"  TAP     {address.label}" :: others, report, last)
    | (.error failure, next) =>
      ([s!"  TAP     {address.label}"],
        some ⟨s!"sending {address.label}", [failure.text]⟩, next)

/-- Sends taps on a connection to the socket, if it could be made, and gives
the connection afterwards. -/
def runSend (socket : Path) (keys : List KeyAddress) :
    Except FileFailure Sink → Conclusion × Option Sink
  | .error cause => (conclude [] (some (unreachable socket cause)), none)
  | .ok sink =>
    let (texts, report, last) := tapLines sink keys
    let opening := s!"Connected to {socket.display}. Sending {keys.length} key(s)."
    (conclude (opening :: texts) report, some last)

end KeyRelay.CommandLine
