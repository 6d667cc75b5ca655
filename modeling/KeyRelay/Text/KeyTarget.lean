import KeyRelay.Message.Command
import KeyRelay.Text.Blank
import KeyRelay.Text.Decimal

/-! # Key targets

A key is named on the command line by its linear position or by its row and
column with a colon between them. White space around each number is ignored.
What is wrong is reported for the first bad part, as it was written. -/
set_option autoImplicit false

namespace KeyRelay.KeyTarget

inductive Part
  | position
  | row
  | column
  deriving DecidableEq, Repr

def Part.name : Part → String
  | .position => "position"
  | .row => "row"
  | .column => "column"

structure BadPart where
  part : Part
  written : List Char
  deriving DecidableEq, Repr

def BadPart.text (bad : BadPart) : String :=
  "invalid " ++ bad.part.name ++ " `" ++ String.ofList bad.written ++
    "`: expected a non-negative integer"

def parsePart (part : Part) (written : List Char) : Except BadPart UInt32 :=
  match Text.unsigned? UInt32.size (Text.trim written) with
  | some value => .ok (UInt32.ofNat value)
  | none => .error ⟨part, written⟩

def splitColon : List Char → Option (List Char × List Char)
  | [] => none
  | ':' :: rest => some ([], rest)
  | c :: rest => (splitColon rest).map fun (before, after) => (c :: before, after)

def parseChars (argument : List Char) : Except BadPart KeyAddress :=
  let argument := Text.trim argument
  match splitColon argument with
  | none => do return .position (← parsePart .position argument)
  | some (row, column) => do
    let row ← parsePart .row row
    let column ← parsePart .column column
    return .coordinate ⟨row, column⟩

def parse (argument : String) : Except BadPart KeyAddress :=
  parseChars argument.toList

end KeyRelay.KeyTarget

namespace KeyRelay

def KeyAddress.label : KeyAddress → String
  | .position index => s!"position={index}"
  | .coordinate place => s!"row={place.row} col={place.col}"

end KeyRelay
