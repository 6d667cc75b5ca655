import KeyRelay.CommandLine.Help
import KeyRelay.Config.Store

/-! # The command line of the relay

The options name the configuration file and replace its two socket paths. The
effective configuration is written back to its file if that is asked for, so
there must be a file then. -/
set_option autoImplicit false

namespace KeyRelay.CommandLine

inductive RelaySwitch
  | config
  | observerSocket
  | kscanSocket
  | writeConfig
  | help
  | version
  deriving DecidableEq, Repr

structure RelayOptions where
  config : Option Path := none
  observerSocket : Option Path := none
  kscanSocket : Option Path := none
  writeConfig : Bool := false
  deriving DecidableEq, Repr

namespace RelayOptions

def switches : List (Switch RelaySwitch) :=
  [⟨.config, "config", some 'c', true⟩,
    ⟨.observerSocket, "observer-socket", none, true⟩,
    ⟨.kscanSocket, "kscan-socket", none, true⟩,
    ⟨.writeConfig, "write-config", none, false⟩,
    ⟨.help, "help", some 'h', false⟩,
    ⟨.version, "version", some 'V', false⟩]

def take (environment : Environment) (options : RelayOptions) :
    Item RelaySwitch → Except Stop RelayOptions
  | .setting .config value => do
    return { options with config := ← once "config" (readPath "config") options.config value }
  | .setting .observerSocket value => do
    return { options with
      observerSocket := ←
        once "observer-socket" (readPath "observer-socket") options.observerSocket value }
  | .setting .kscanSocket value => do
    return { options with
      kscanSocket := ← once "kscan-socket" (readPath "kscan-socket") options.kscanSocket value }
  | .flag .writeConfig =>
    if options.writeConfig then .error (.misuse (.repeated "write-config"))
    else .ok { options with writeConfig := true }
  | .flag .help => .error (.shown (relayHelp environment))
  | .flag .version => .error (.shown relayVersion)
  | .operand value => .error (.misuse (.unexpectedOperand value))
  | .setting _ _ | .flag _ => .ok options

/-- Takes from the environment what was not given. -/
def complete (environment : Environment) (options : RelayOptions) : Except Stop RelayOptions := do
  return { options with
    config := ← orFrom environment configVariable (readPath "config") options.config
    observerSocket := ←
      orFrom environment observerVariable (readPath "observer-socket") options.observerSocket
    kscanSocket := ←
      orFrom environment kscanVariable (readPath "kscan-socket") options.kscanSocket }

def parse (environment : Environment) (arguments : List String) : Except Stop RelayOptions := do
  let taken ← takeAll (take environment) {} (scan switches arguments)
  let options ← taken.complete environment
  if options.writeConfig && options.config.isNone then
    throw (.misuse (.needs "write-config" "config"))
  return options

/-- The file that the configuration is to be written to. -/
def target? (options : RelayOptions) : Option Path :=
  if options.writeConfig then options.config else none

/-- Replaces the socket paths that the options give. -/
def override (options : RelayOptions) (config : Config) : Config :=
  { config with
    observer := { config.observer with
      socketPath := options.observerSocket.getD config.observer.socketPath }
    kscan := { config.kscan with
      socketPath := options.kscanSocket.getD config.kscan.socketPath } }

end RelayOptions

end KeyRelay.CommandLine
