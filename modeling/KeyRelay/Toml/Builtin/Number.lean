import KeyRelay.Text.Decimal
import KeyRelay.Toml.Builtin.Quoted

/-! # Reading numbers

Integers are decimal, or hexadecimal, octal or binary behind `0x`, `0o` or `0b`,
and lie in the range of a signed 64-bit value. A decimal number with more than
one digit does not begin with zero. Underscores may stand between digits. A
number with a fraction or an exponent may be as large as a double-precision
value can be; one that would round to positive infinity is refused. -/
set_option autoImplicit false

namespace KeyRelay.Toml

open Text (isDigit digitValue digitsValue)

/-- The digits behind the first one, without the underscores between them. -/
def moreDigits (accepts : Char → Bool) : List Char → List Char × List Char
  | [] => ([], [])
  | [c] => if accepts c then ([c], []) else ([], [c])
  | c :: next :: rest =>
    if accepts c then
      let (digits, rest) := moreDigits accepts (next :: rest)
      (c :: digits, rest)
    else if c = '_' ∧ accepts next then
      let (digits, rest) := moreDigits accepts rest
      (next :: digits, rest)
    else ([], c :: next :: rest)

/-- One or more digits, also with leading zeros. -/
def digits? (accepts : Char → Bool) : List Char → Option (List Char × List Char)
  | c :: rest =>
    if accepts c then
      let (digits, rest) := moreDigits accepts rest
      some (c :: digits, rest)
    else none
  | [] => none

/-- A lone zero, or digits that do not begin with one. -/
def decimalDigits? : List Char → Option (List Char × List Char)
  | '0' :: rest => some (['0'], rest)
  | text => digits? isDigit text

def sign : List Char → Bool × List Char
  | '-' :: rest => (true, rest)
  | '+' :: rest => (false, rest)
  | text => (false, text)

def radixValue (radix : Nat) (digits : List Char) : Nat :=
  digits.foldl (fun value c => value * radix + (hexValue? c).getD 0) 0

def isRadixDigit (radix : Nat) (c : Char) : Bool :=
  match hexValue? c with
  | some value => decide (value < radix)
  | none => false

def int64? (value : Int) : Option Int64 :=
  if -0x8000000000000000 ≤ value ∧ value < 0x8000000000000000 then some (.ofInt value) else none

def radixInteger? (radix : Nat) (text : List Char) : Option (Int64 × List Char) := do
  let (digits, rest) ← digits? (isRadixDigit radix) text
  return (← int64? (radixValue radix digits), rest)

def decimalInteger? (text : List Char) : Option (Int64 × List Char) := do
  let (negative, text) := sign text
  let (digits, rest) ← decimalDigits? text
  let magnitude : Int := digitsValue digits
  return (← int64? (if negative then -magnitude else magnitude), rest)

def integer? : List Char → Option (Int64 × List Char)
  | '0' :: 'x' :: rest => radixInteger? 16 rest
  | '0' :: 'o' :: rest => radixInteger? 8 rest
  | '0' :: 'b' :: rest => radixInteger? 2 rest
  | text => decimalInteger? text

/-- Half a unit beyond the largest finite double-precision value; from here on
a number rounds to infinity. -/
def overflowBound : Nat := (Nat.pow 2 54 - 1) * Nat.pow 2 970

/-- Whether `digits · 10^scale` rounds to infinity. Numbers that are far from
the bound are told by their length. -/
def overflows (digits : List Char) (scale : Int) : Bool :=
  let significant := digits.dropWhile (· == '0')
  let magnitude : Int := significant.length + scale
  if significant.isEmpty || magnitude < 300 then false
  else if 320 < magnitude then true
  else if 0 ≤ scale then overflowBound ≤ digitsValue significant * Nat.pow 10 scale.toNat
  else overflowBound * Nat.pow 10 (-scale).toNat ≤ digitsValue significant

def exponent? : List Char → Option (Int × List Char)
  | c :: rest =>
    if c = 'e' ∨ c = 'E' then do
      let (negative, rest) := sign rest
      let (digits, rest) ← digits? isDigit rest
      let magnitude : Int := digitsValue digits
      return (if negative then -magnitude else magnitude, rest)
    else none
  | [] => none

def fraction? : List Char → Option (List Char × List Char)
  | '.' :: rest => digits? isDigit rest
  | _ => none

/-- What makes a number one with a fraction: its digits and an exponent, of
which only one has to be there. -/
def floatTail? (text : List Char) : Option (List Char × Int × List Char) :=
  match exponent? text with
  | some (exponent, rest) => some ([], exponent, rest)
  | none => do
    let (digits, rest) ← fraction? text
    match exponent? rest with
    | some (exponent, rest) => return (digits, exponent, rest)
    | none => return (digits, 0, rest)

/-- A number with a fraction or an exponent, infinity, or not a number; gives the rest. -/
def float? (text : List Char) : Option (List Char) :=
  let (negative, unsignedText) := sign text
  match unsignedText with
  | 'i' :: 'n' :: 'f' :: rest => some rest
  | 'n' :: 'a' :: 'n' :: rest => some rest
  | _ => do
    let (whole, rest) ← decimalDigits? unsignedText
    let (places, exponent, rest) ← floatTail? rest
    if !negative && overflows (whole ++ places) (exponent - places.length) then none
    else return rest

end KeyRelay.Toml
