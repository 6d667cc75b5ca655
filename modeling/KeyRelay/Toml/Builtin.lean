import KeyRelay.Toml.Builtin.Document
import KeyRelay.Toml.Builtin.Render

/-! # The library that the programs run with

A record is a table, or an array that gives its fields in order. A point in time
is handed on as a table of one private key, so a record takes nothing from it. -/
set_option autoImplicit false

namespace KeyRelay.Toml

def string? : Value → Option String
  | .string text => some text
  | _ => none

/-- A number that is not negative and below a bound. -/
def number? (bound : Nat) : Value → Option Nat
  | .integer number =>
    if 0 ≤ number.toInt ∧ number.toInt < bound then some number.toInt.toNat else none
  | _ => none

def record? {α : Type} (declaration : Declaration α) : Value → Option α
  | .table table => declaration.fill? fun _ key => Table.value? table key
  | .array elements => declaration.fill? fun place _ => elements[place]?
  | .moment => declaration.fill? fun _ key => if key = momentKey then some .moment else none
  | _ => none

def builtin : Library where
  parse? text := Toml.parse? text.toList
  string? := string?
  path? value := (string? value).map Path.ofString
  uint32? value := (number? UInt32.size value).map .ofNat
  uint64? value := (number? UInt64.size value).map .ofNat
  record? := record?
  write := write

end KeyRelay.Toml
