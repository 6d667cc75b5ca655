import KeyRelay.CommandLine.Options

/-! # Help texts

Each text shows what the environment says for an option at that moment. Names
that are to be written as they stand are bold, and headings underlined too. -/
set_option autoImplicit false

namespace KeyRelay.CommandLine

def configVariable : String := "KEYBRIDGE_CONFIG"

def observerVariable : String := "KEYBRIDGE_OBSERVER_SOCKET"

def kscanVariable : String := "KEYBRIDGE_KSCAN_SOCKET"

def relayVersion : String := lines ["keybridge-server 0.1.0"]

def clientVersion : String := lines ["keybridge-client 0.1.0"]

def bold (text : String) : String :=
  "\x1b[1m" ++ text ++ "\x1b[0m"

def heading (text : String) : String :=
  "\x1b[1m\x1b[4m" ++ text ++ "\x1b[0m"

def usage (program operands : String) : String :=
  heading "Usage:" ++ " " ++ bold program ++ " " ++ operands

def shortOption (short long : String) : String :=
  "  " ++ bold short ++ ", " ++ bold long

def longOption (long : String) : String :=
  "      " ++ bold long

/-- What the environment says. The later lines of a value stand in the column
of the descriptions. -/
def fromVariable (environment : Environment) (column : Nat) (variableName : String) : String :=
  "[env: " ++ variableName ++ "=" ++
    String.ofList (Report.indentRest ("".pushn ' ' column) (environment.valueOf variableName)) ++
    "]"

/-- The descriptions stand below the names, since one of those is long. -/
def relayHelp (environment : Environment) : String :=
  lines [
    "Event broadcast and key injection sockets for an emulated keyboard",
    "",
    usage "keybridge-server" "[OPTIONS]",
    "",
    heading "Options:",
    shortOption "-c" "--config" ++ " <CONFIG>",
    "          TOML configuration file.  Defaults apply when it is absent " ++
      fromVariable environment 10 configVariable,
    longOption "--observer-socket" ++ " <OBSERVER_SOCKET>",
    "          Overrides `observer.socket_path` " ++ fromVariable environment 10 observerVariable,
    longOption "--kscan-socket" ++ " <KSCAN_SOCKET>",
    "          Overrides `kscan.socket_path` " ++ fromVariable environment 10 kscanVariable,
    longOption "--write-config",
    "          Writes the effective configuration to `--config` and exits",
    shortOption "-h" "--help",
    "          Print help",
    shortOption "-V" "--version",
    "          Print version"]

def clientHelp : String :=
  lines [
    "Watch events from, and inject keys into, a running keybridge",
    "",
    usage "keybridge-client" "<COMMAND>",
    "",
    heading "Commands:",
    "  " ++ bold "watch" ++ "  Subscribe to the observer socket and print every event",
    "  " ++ bold "send" ++ "   Press and release each key in turn",
    "  " ++ bold "help" ++ "   Print this message or the help of the given subcommand(s)",
    "",
    heading "Options:",
    shortOption "-h" "--help" ++ "     Print help",
    shortOption "-V" "--version" ++ "  Print version"]

def watchHelp (environment : Environment) : String :=
  lines [
    "Subscribe to the observer socket and print every event",
    "",
    usage "keybridge-client watch" "[OPTIONS]",
    "",
    heading "Options:",
    longOption "--socket" ++ " <SOCKET>  " ++ fromVariable environment 25 observerVariable ++
      " [default: /tmp/zmk_ipc.sock]",
    shortOption "-h" "--help" ++ "             Print help"]

def sendHelp (environment : Environment) : String :=
  lines [
    "Press and release each key in turn",
    "",
    usage "keybridge-client send" "[OPTIONS] <KEYS>...",
    "",
    heading "Arguments:",
    "  <KEYS>...  Linear positions or ROW:COL pairs",
    "",
    heading "Options:",
    longOption "--socket" ++ " <SOCKET>            " ++
      fromVariable environment 35 kscanVariable ++ " [default: /tmp/zmk_kscan_ipc.sock]",
    longOption "--hold-ms" ++ " <HOLD_MS>          How long each key is held [default: 50]",
    longOption "--interval-ms" ++ " <INTERVAL_MS>  Pause after each release [default: 200]",
    shortOption "-h" "--help" ++ "                       Print help"]

def helpHelp : String :=
  lines [
    "Print this message or the help of the given subcommand(s)",
    "",
    usage "keybridge-client help" "[COMMAND]...",
    "",
    heading "Arguments:",
    "  [COMMAND]...  Print help for the subcommand(s)"]

end KeyRelay.CommandLine
