import KeyRelay.CommandLine.RelayOptions
import KeyRelay.Files.Listener

/-! # Starting the relay

The configuration is loaded, its paths are replaced, and the result is checked;
only then is it written back or used. The observer socket is opened first. If
the command socket cannot be opened, the observer socket is closed again. -/
set_option autoImplicit false

namespace KeyRelay

def ConfigError.causes (failure : ConfigError) : List String :=
  failure.text :: failure.cause?.toList

def ListenError.causes (failure : ListenError) : List String :=
  [failure.text, failure.cause.text]

namespace CommandLine

open Toml (Library)

/-- The configuration in a file, or the defaults if none is named. -/
def loadNamed (library : Library) (content : Path → Except FileFailure (List UInt8)) :
    Option Path → Except Report Config
  | none => .ok {}
  | some path =>
    match Config.ofContent library path (content path) with
    | .ok config => .ok config
    | .error failure => .error ⟨s!"loading config from {path.display}", failure.causes⟩

def RelayOptions.effective (options : RelayOptions) (library : Library)
    (content : Path → Except FileFailure (List UInt8)) : Except Report Config :=
  match loadNamed library content options.config with
  | .error report => .error report
  | .ok loaded =>
    let config := options.override loaded
    match config.validate with
    | .ok () => .ok config
    | .error failure => .error ⟨"invalid configuration", failure.causes⟩

/-- The end of a program that wrote a configuration to its file, or tried to. -/
def writtenBack (path : Path) : Except ConfigError Unit → Conclusion
  | .ok () => ⟨lines [s!"Wrote {path.display}"], .success⟩
  | .error failure => ⟨"", .failure ⟨s!"writing config to {path.display}", failure.causes⟩⟩

/-- What a start leads to: the program has ended, or it is to run. -/
inductive Start
  | ended (conclusion : Conclusion)
  | ready (config : Config)
  deriving DecidableEq, Repr

/-- Loads and checks the configuration, and writes it back if that is asked for. -/
def RelayOptions.run (options : RelayOptions) (library : Library) (tree : FileTree) :
    Start × FileTree :=
  match options.effective library tree.read with
  | .error report => (.ended ⟨"", .failure report⟩, tree)
  | .ok config =>
    match options.target? with
    | some path =>
      let (outcome, left) := config.save library tree path
      (.ended (writtenBack path outcome), left)
    | none => (.ready config, tree)

def startRelay (environment : Environment) (library : Library) (tree : FileTree)
    (arguments : List String) : Start × FileTree :=
  match RelayOptions.parse environment arguments with
  | .error stop => (.ended (stop.conclusion environment), tree)
  | .ok options => options.run library tree

def openSockets (config : Config) (tree : FileTree) : Except Report Unit × FileTree :=
  match tree.listen config.observer.socketPath with
  | .error failure => (.error ⟨"starting observer socket", failure.causes⟩, tree)
  | .ok listening =>
    match listening.listen config.kscan.socketPath with
    | .error failure =>
      (.error ⟨"starting kscan socket", failure.causes⟩,
        listening.unlisten config.observer.socketPath)
    | .ok both => (.ok (), both)

def closeSockets (config : Config) (tree : FileTree) : FileTree :=
  (tree.unlisten config.kscan.socketPath).unlisten config.observer.socketPath

end CommandLine

end KeyRelay
