import KeyRelay.Text.Decimal
import KeyRelay.Toml.Library

/-! # Writing documents

A string is written in the first form that suits it. The forms with single
quotes have no escapes; those with double quotes escape what they cannot hold. A
string with a line feed takes a form with three quotes and begins on a line of
its own. The settings stand one a line, and a blank line in front of each section. -/
set_option autoImplicit false

namespace KeyRelay.Toml

/-- A character that only an escape can write: a control character other than
the tab and the line feed. -/
def needsEscape (c : Char) : Bool :=
  (c < ' ' && c != '\t' && c != '\n') || c == '\x7f'

/-- The longest run of a character. The first number is the run at hand. -/
def longestRun (target : Char) : Nat → List Char → Nat
  | current, [] => current
  | current, c :: rest =>
    if c = target then longestRun target (current + 1) rest
    else max current (longestRun target 0 rest)

def upperHexDigit (value : Nat) : Char :=
  if value < 10 then Char.ofNat ('0'.toNat + value) else Char.ofNat ('A'.toNat + (value - 10))

def hexEscape (c : Char) : List Char :=
  ['\\', 'u', upperHexDigit (c.toNat / 4096 % 16), upperHexDigit (c.toNat / 256 % 16),
    upperHexDigit (c.toNat / 16 % 16), upperHexDigit (c.toNat % 16)]

/-- The escape of a character that is neither a quote nor a line feed, if it needs one. -/
def escapeOf? (c : Char) : Option (List Char) :=
  if c = '\\' then some ['\\', '\\']
  else if c = '\x08' then some ['\\', 'b']
  else if c = '\t' then some ['\\', 't']
  else if c = '\x0c' then some ['\\', 'f']
  else if c = '\r' then some ['\\', 'r']
  else if needsEscape c then some (hexEscape c)
  else none

def escapeLine : List Char → List Char
  | [] => []
  | '"' :: rest => '\\' :: '"' :: escapeLine rest
  | '\n' :: rest => '\\' :: 'n' :: escapeLine rest
  | c :: rest => (escapeOf? c).getD [c] ++ escapeLine rest

/-- The body of a string in three double quotes: of a run of quotes every third
and later one is escaped, and a run starts anew behind an escape. The number is
how many quotes of the run were written. -/
def escapeLong : Nat → List Char → List Char
  | _, [] => []
  | written, '"' :: rest =>
    if 2 ≤ written then '\\' :: '"' :: escapeLong 0 rest
    else '"' :: escapeLong (written + 1) rest
  | _, c :: rest => (escapeOf? c).getD [c] ++ escapeLong 0 rest

inductive QuoteForm
  | basic
  | literal
  | longBasic
  | longLiteral
  deriving DecidableEq, Repr

def quoteForm (text : List Char) : QuoteForm :=
  let escaped := text.any needsEscape
  let backslash := text.contains '\\'
  let lines := text.contains '\n'
  let doubles := longestRun '"' 0 text
  let singles := longestRun '\'' 0 text
  if !escaped && !backslash && doubles == 0 && !lines then .basic
  else if !escaped && singles == 0 && !lines then .literal
  else if !escaped && !backslash && doubles ≤ 2 then .longBasic
  else if !escaped && singles ≤ 2 then .longLiteral
  else if lines then .longBasic
  else .basic

def quote (text : List Char) : List Char :=
  let opening := if text.contains '\n' then ['\n'] else []
  match quoteForm text with
  | .basic => '"' :: escapeLine text ++ ['"']
  | .literal => '\'' :: text ++ ['\'']
  | .longBasic => "\"\"\"".toList ++ opening ++ escapeLong 0 text ++ "\"\"\"".toList
  | .longLiteral => "'''".toList ++ opening ++ text ++ "'''".toList

def settingLine (key : String) (value : List Char) : List Char :=
  key.toList ++ " = ".toList ++ value ++ ['\n']

def headerLine (key : String) : List Char :=
  '[' :: key.toList ++ "]\n".toList

def writeScalar : Scalar → Except String (List Char)
  | .text text => .ok (quote text.toList)
  | .path path =>
    match path.text? with
    | some text => .ok (quote text.toList)
    | none => .error "path contains invalid UTF-8 characters"
  | .number number =>
    if number < 0x8000000000000000 then .ok (Text.decimal number)
    else .error "out-of-range value for u64 type"

def writeAssignments : List Assignment → Except String (List Char)
  | [] => .ok []
  | (key, scalar) :: rest => do
    let value ← writeScalar scalar
    return settingLine key value ++ (← writeAssignments rest)

def writeSections : List Section → Except String (List Char)
  | [] => .ok []
  | part :: rest => do
    let body ← writeAssignments part.settings
    return '\n' :: headerLine part.key ++ body ++ (← writeSections rest)

def write (settings : Settings) : Except String String := do
  let front ← writeAssignments settings.top
  return String.ofList (front ++ (← writeSections settings.sections))

end KeyRelay.Toml
