import KeyRelay.Toml.Builtin.Lexeme

/-! # Reading strings

Strings in double quotes have escapes, strings in single quotes have none. Both
have a form with three quotes that runs over lines; there a line end right
behind the opening quotes does not count, a carriage return in front of a line
feed is dropped, and up to two quotes may stand directly in front of the closing
three. Each reader starts behind the opening quotes. -/
set_option autoImplicit false

namespace KeyRelay.Toml

def simpleEscape? : Char → Option Char
  | 'b' => some '\x08'
  | 't' => some '\t'
  | 'n' => some '\n'
  | 'f' => some '\x0c'
  | 'r' => some '\r'
  | '"' => some '"'
  | '\\' => some '\\'
  | _ => none

def hexValue? (c : Char) : Option Nat :=
  if '0' ≤ c && c ≤ '9' then some (c.toNat - '0'.toNat)
  else if 'a' ≤ c && c ≤ 'f' then some (c.toNat - 'a'.toNat + 10)
  else if 'A' ≤ c && c ≤ 'F' then some (c.toNat - 'A'.toNat + 10)
  else none

def hexNumber? (digits : List Char) : Option Nat :=
  digits.foldl (fun number c => do return (← number) * 16 + (← hexValue? c)) (some 0)

/-- The character of a code point, unless it is a surrogate or beyond the last one. -/
def scalar? (number : Nat) : Option Char :=
  if number.isValidChar then some (Char.ofNat number) else none

/-- A character by its code point in exactly `count` digits. -/
def codePointEscape? (count : Nat) (text : List Char) : Option (Char × List Char) :=
  if (text.take count).length = count then do
    let c ← scalar? (← hexNumber? (text.take count))
    return (c, text.drop count)
  else none

def escape? : List Char → Option (Char × List Char)
  | 'u' :: rest => codePointEscape? 4 rest
  | 'U' :: rest => codePointEscape? 8 rest
  | c :: rest => (simpleEscape? c).map fun meant => (meant, rest)
  | [] => none

/-- A character that stands for itself between double quotes. -/
def isBasic (c : Char) : Bool :=
  isPlain c && c != '"' && c != '\\'

/-- The rest behind an opening line end, if there is one. -/
def skipFirstNewline (text : List Char) : List Char :=
  (newline? text).getD text

def skipLines : List Char → List Char
  | '\r' :: '\n' :: rest => skipLines rest
  | c :: rest => if isBlank c || c == '\n' then skipLines rest else c :: rest
  | [] => []

/-- Behind a backslash at the end of a line: the rest from the next character
that is no blank and no line end. -/
def continuation? (text : List Char) : Option (List Char) :=
  (newline? (skipBlanks text)).map skipLines

/-- Closes a string in three quotes: what the quotes in front of the closing
ones stand for, and the rest. -/
def closing (quote : Char) (text : List Char) : List Char × List Char :=
  match text with
  | first :: second :: rest =>
    if first = quote ∧ second = quote then ([quote, quote], rest)
    else if first = quote then ([quote], second :: rest)
    else ([], text)
  | [only] => if only = quote then ([quote], []) else ([], text)
  | [] => ([], [])

/-- The characters of a string in double quotes. The first argument bounds the
number of steps. -/
def basicString? : Nat → List Char → Option (List Char × List Char)
  | 0, _ => none
  | _ + 1, [] => none
  | _ + 1, '"' :: rest => some ([], rest)
  | more + 1, '\\' :: rest => do
    let (c, rest) ← escape? rest
    let (text, rest) ← basicString? more rest
    return (c :: text, rest)
  | more + 1, c :: rest =>
    if isBasic c then do
      let (text, rest) ← basicString? more rest
      return (c :: text, rest)
    else none

def longBasicString? : Nat → List Char → Option (List Char × List Char)
  | 0, _ => none
  | _ + 1, [] => none
  | _ + 1, '"' :: '"' :: '"' :: rest => some (closing '"' rest)
  | more + 1, '\r' :: '\n' :: rest => do
    let (text, rest) ← longBasicString? more rest
    return ('\n' :: text, rest)
  | more + 1, '\\' :: rest =>
    match continuation? rest with
    | some rest => longBasicString? more rest
    | none => do
      let (c, rest) ← escape? rest
      let (text, rest) ← longBasicString? more rest
      return (c :: text, rest)
  | more + 1, c :: rest =>
    if isBasic c || c == '"' || c == '\n' then do
      let (text, rest) ← longBasicString? more rest
      return (c :: text, rest)
    else none

def literalString? : List Char → Option (List Char × List Char)
  | [] => none
  | '\'' :: rest => some ([], rest)
  | c :: rest =>
    if isPlain c then do
      let (text, rest) ← literalString? rest
      return (c :: text, rest)
    else none

def longLiteralString? : List Char → Option (List Char × List Char)
  | [] => none
  | '\'' :: '\'' :: '\'' :: rest => some (closing '\'' rest)
  | '\r' :: '\n' :: rest => do
    let (text, rest) ← longLiteralString? rest
    return ('\n' :: text, rest)
  | c :: rest =>
    if isPlain c || c == '\n' then do
      let (text, rest) ← longLiteralString? rest
      return (c :: text, rest)
    else none

/-- A string on one line, as keys may have it. -/
def lineString? : List Char → Option (List Char × List Char)
  | '"' :: rest => basicString? (rest.length + 1) rest
  | '\'' :: rest => literalString? rest
  | _ => none

def anyString? : List Char → Option (List Char × List Char)
  | '"' :: '"' :: '"' :: rest =>
    let body := skipFirstNewline rest
    longBasicString? (body.length + 1) body
  | '\'' :: '\'' :: '\'' :: rest => longLiteralString? (skipFirstNewline rest)
  | text => lineString? text

end KeyRelay.Toml
