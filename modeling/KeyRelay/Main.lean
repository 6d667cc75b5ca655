import KeyRelay.CommandLine.ClientRun
import KeyRelay.CommandLine.RelayStart
import KeyRelay.Relay
import KeyRelay.Toml.Builtin

/-! # The programs

One executable holds the relay and its client, and the first argument chooses.
A socket path is opened like any file, so it may name a pipe. The relay serves
one command connection and then ends. -/
set_option autoImplicit false

namespace KeyRelay.Main

open CommandLine

/-- A system call reports the number of its failure as it is or negated. -/
def isNumber (number reported : UInt32) : Bool :=
  reported == number || reported == 0 - number

/-- The failures that have a meaning for the programs; any other ends them. -/
def attempt {α : Type} (action : IO α) : IO (Except FileFailure α) := do
  try
    return .ok (← action)
  catch
    | .noFileOrDirectory .. => return .error .notFound
    | .alreadyExists .. => return .error .alreadyExists
    | .inappropriateType _ reported _ =>
      return .error (if isNumber 20 reported then .notADirectory else .isADirectory)
    | failure@(.invalidArgument _ reported _) =>
      if isNumber 36 reported then return .error .nameTooLong else throw failure
    | failure => throw failure

def readFile (path : Path) : IO (Except FileFailure (List UInt8)) :=
  attempt do return (← IO.FS.readBinFile path.display).toList

def writeFile (path : Path) (content : List UInt8) : IO (Except FileFailure Unit) :=
  attempt do IO.FS.writeBinFile path.display ⟨content.toArray⟩

def createDirectory (path : Path) : IO (Except ConfigError Unit) := do
  if path.bytes.isEmpty then return .ok ()
  let created ← attempt do IO.FS.createDirAll path.display
  return created.mapError (.access path)

def environment : IO Environment := do
  let mut found := []
  for variableName in [configVariable, observerVariable, kscanVariable,
      Environment.plainVariable, Environment.styledVariable] do
    if let some value := ← IO.getEnv variableName then
      found := (variableName, value) :: found
  return found

/-- Prints what a program printed and reports how it ended. -/
def finish (conclusion : Conclusion) : IO UInt32 := do
  IO.print conclusion.printed
  match conclusion.ending with
  | .success => pure ()
  | .failure report => IO.eprintln report.text
  | .misuse cause => IO.eprintln s!"error: {cause.text}"
  return UInt32.ofNat conclusion.ending.status

def writeConfig (path : Path) (config : Config) : IO (Except ConfigError Unit) := do
  let prepared ← match path.parent? with
    | some directory => createDirectory directory
    | none => pure (.ok ())
  match prepared with
  | .error failure => return .error failure
  | .ok () =>
    match Toml.builtin.write config.settings with
    | .error reason => return .error (.unwritable reason)
    | .ok text =>
      match ← writeFile path (Text.utf8Bytes text) with
      | .error failure => return .error (.access path failure)
      | .ok () => return .ok ()

def serve (config : Config) : IO UInt32 := do
  let started ← IO.monoMsNow
  let received ← IO.FS.readBinFile config.kscan.socketPath.display
  let uptime := UInt64.ofNat ((← IO.monoMsNow) - started)
  let relay := Relay.start config.kscan.geometry config.observer.maxClients.toNat
  let (_, hub) := relay.hub.accept { number := 0 }
  let (_, served) := { relay with hub }.serveConnection (fun _ => uptime) [.chunk received.toList]
  let sent := served.hub.table.subscribers.flatMap fun subscriber => subscriber.sink.accepted
  IO.FS.writeBinFile config.observer.socketPath.display ⟨sent.toArray⟩
  return 0

def runRelay (arguments : List String) : IO UInt32 := do
  let surroundings ← environment
  match RelayOptions.parse surroundings arguments with
  | .error stop => finish (stop.conclusion surroundings)
  | .ok options =>
    let content ← match options.config with
      | some path => readFile path
      | none => pure (.error .notFound)
    match options.effective Toml.builtin fun _ => content with
    | .error report => finish ⟨"", .failure report⟩
    | .ok config =>
      match options.target? with
      | some path => finish (writtenBack path (← writeConfig path config))
      | none => serve config

def runClient (arguments : List String) : IO UInt32 := do
  let surroundings ← environment
  match ClientRequest.parse surroundings arguments with
  | .error stop => finish (stop.conclusion surroundings)
  | .ok (.watch socket) =>
    let received ← readFile socket
    finish (runWatch socket (received.map fun bytes => [.chunk bytes]))
  | .ok (.send request) =>
    let (conclusion, last) := runSend request.socket request.keys (.ok {})
    match ← writeFile request.socket ((last.map (·.accepted)).getD []) with
    | .ok () => finish conclusion
    | .error cause => finish (runSend request.socket request.keys (.error cause)).1

end KeyRelay.Main

def main (arguments : List String) : IO UInt32 :=
  match arguments with
  | "relay" :: rest => KeyRelay.Main.runRelay rest
  | "client" :: rest => KeyRelay.Main.runClient rest
  | _ => do
    IO.eprintln "usage: keyrelay (relay | client) [OPTIONS]"
    return 2
