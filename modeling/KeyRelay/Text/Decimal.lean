/-! # Decimal numbers

Reading and writing numbers in ASCII digits. -/
set_option autoImplicit false

namespace KeyRelay.Text

def isDigit (c : Char) : Bool :=
  '0' ≤ c && c ≤ '9'

def digitValue (c : Char) : Nat :=
  c.toNat - '0'.toNat

def digitsValue (digits : List Char) : Nat :=
  digits.foldl (fun value c => value * 10 + digitValue c) 0

def decimal (value : Nat) : List Char :=
  Nat.toDigits 10 value

def signedDecimal : Int → List Char
  | .ofNat value => decimal value
  | .negSucc value => '-' :: decimal (value + 1)

/-- A number below `bound`: an optional plus sign, then one or more digits and nothing else. -/
def unsigned? (bound : Nat) (text : List Char) : Option Nat :=
  let digits := match text with
    | '+' :: rest => rest
    | _ => text
  if digits ≠ [] ∧ digits.all isDigit ∧ digitsValue digits < bound then
    some (digitsValue digits)
  else none

end KeyRelay.Text
