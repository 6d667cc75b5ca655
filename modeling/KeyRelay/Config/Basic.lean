import KeyRelay.Files.Tree
import KeyRelay.Matrix

/-! # The configuration

What the relay is told at start: the log level, the socket and size of the
observer side, and the socket and matrix of the command side. A configuration
is usable if it has room for an observer and its two sockets are not the same
path. -/
set_option autoImplicit false

namespace KeyRelay

structure ObserverSettings where
  socketPath : Path := .ofString "/tmp/zmk_ipc.sock"
  maxClients : UInt64 := 4
  deriving DecidableEq, Repr

structure KscanSettings where
  socketPath : Path := .ofString "/tmp/zmk_kscan_ipc.sock"
  rows : UInt32 := 4
  columns : UInt32 := 12
  deriving DecidableEq, Repr

def KscanSettings.geometry (settings : KscanSettings) : Geometry :=
  ⟨settings.rows, settings.columns⟩

structure Config where
  logLevel : String := "info"
  observer : ObserverSettings := {}
  kscan : KscanSettings := {}
  deriving DecidableEq, Repr

inductive ConfigError
  | access (path : Path) (cause : FileFailure)
  | malformed
  /-- There is no document for the configuration. -/
  | unwritable (reason : String)
  | noClients
  | sharedSocket (path : Path)
  deriving DecidableEq, Repr

namespace ConfigError

def cause? : ConfigError → Option String
  | .access _ failure => some failure.text
  | .malformed => some "malformed document"
  | .unwritable reason => some reason
  | .noClients | .sharedSocket _ => none

def text : ConfigError → String
  | .access path failure => s!"I/O error accessing config at {path.display}: {failure.text}"
  | .malformed => "failed to parse config TOML"
  | .unwritable reason => s!"failed to serialize config: {reason}"
  | .noClients => "invalid config: observer.max_clients must be at least 1"
  | .sharedSocket path =>
    s!"invalid config: observer and kscan share socket path {path.display}"

end ConfigError

def Config.validate (config : Config) : Except ConfigError Unit :=
  if config.observer.maxClients = 0 then .error .noClients
  else if Path.Same config.observer.socketPath config.kscan.socketPath then
    .error (.sharedSocket config.observer.socketPath)
  else .ok ()

/-- Whether two configurations agree, paths by their components. -/
def Config.Same (left right : Config) : Prop :=
  left.logLevel = right.logLevel ∧
    Path.Same left.observer.socketPath right.observer.socketPath ∧
    left.observer.maxClients = right.observer.maxClients ∧
    Path.Same left.kscan.socketPath right.kscan.socketPath ∧
    left.kscan.geometry = right.kscan.geometry

instance (left right : Config) : Decidable (Config.Same left right) :=
  inferInstanceAs (Decidable (_ ∧ _))

end KeyRelay
