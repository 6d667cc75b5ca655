import KeyRelay.CommandLine.Conclusion
import KeyRelay.Files.Path
import KeyRelay.Text.Decimal
import KeyRelay.Text.Plain

/-! # The values of options

Items are taken in order, so the first request for help or the version, and
the first fault, decides. An option is given once at most. One that is not
given may come from the environment, under the same rules. -/
set_option autoImplicit false

namespace KeyRelay.CommandLine

/-- Why a command line asks for nothing to be run. -/
inductive Stop
  /-- A text with styles was asked for. -/
  | shown (text : String)
  | misuse (cause : Misuse)
  deriving DecidableEq, Repr

abbrev Environment := List (String × String)

namespace Environment

def find? (environment : Environment) (variableName : String) : Option String :=
  (environment.lookup variableName)

def valueOf (environment : Environment) (variableName : String) : String :=
  (environment.find? variableName).getD ""

def plainVariable : String := "NO_COLOR"

def styledVariable : String := "CLICOLOR_FORCE"

def forcesStyles (environment : Environment) : Bool :=
  (environment.valueOf plainVariable).isEmpty && !(environment.valueOf styledVariable).isEmpty

end Environment

def Stop.conclusion (environment : Environment) : Stop → Conclusion
  | .shown text => ⟨if environment.forcesStyles then text else Text.plain text, .success⟩
  | .misuse cause => ⟨"", .misuse cause⟩

/-- Takes items in order, then reports what ended the reading early. -/
def takeAll {ν σ : Type} (take : σ → Item ν → Except Stop σ) (start : σ) (scanned : Scanned ν) :
    Except Stop σ := do
  let taken ← scanned.items.foldlM take start
  match scanned.fault with
  | none => return taken
  | some cause => throw (.misuse cause)

def once {α : Type} (option : String) (read : String → Except Misuse α) (earlier : Option α)
    (value : String) : Except Stop (Option α) :=
  match earlier, read value with
  | some _, _ => .error (.misuse (.repeated option))
  | none, .error cause => .error (.misuse cause)
  | none, .ok found => .ok (some found)

/-- What was given, or else what the environment says. -/
def orFrom {α : Type} (environment : Environment) (variableName : String)
    (read : String → Except Misuse α) : Option α → Except Stop (Option α)
  | some given => .ok (some given)
  | none =>
    match environment.find? variableName with
    | none => .ok none
    | some value =>
      match read value with
      | .ok found => .ok (some found)
      | .error cause => .error (.misuse cause)

def readPath (option : String) (value : String) : Except Misuse Path :=
  if value.isEmpty then .error (.missingValue option) else .ok (.ofString value)

def readCount (option : String) (value : String) : Except Misuse UInt64 :=
  match Text.unsigned? UInt64.size value.toList with
  | some count => .ok (UInt64.ofNat count)
  | none => .error (.badValue ("--" ++ option) value "expected a non-negative integer")

end KeyRelay.CommandLine
