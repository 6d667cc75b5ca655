import KeyRelay.Toml.Builtin.Draft
import KeyRelay.Toml.Builtin.Moment
import KeyRelay.Toml.Builtin.Number

/-! # Reading documents

A document is a sequence of statements, one a line: headers that open a table,
and assignments of a value to a dotted key in the table opened last. Values are
read to a bounded depth. The statements are first read and then carried out;
there is no document for text that breaks the grammar or defines something
twice. -/
set_option autoImplicit false

namespace KeyRelay.Toml

/-- Arrays and inline tables nest at most this deep. -/
def maxDepth : Nat := 79

/-- A dotted key has at most this many parts. -/
def maxKeyParts : Nat := 79

def simpleKey? (text : List Char) : Option (String × List Char) :=
  match text with
  | '"' :: _ | '\'' :: _ => (lineString? text).map fun (key, rest) => (String.ofList key, rest)
  | _ =>
    match text.takeWhile isBareKeyChar with
    | [] => none
    | key => some (String.ofList key, text.dropWhile isBareKeyChar)

/-- The parts of a dotted key, with the blanks around them. The first argument
bounds their number. -/
def keyParts? : Nat → List Char → Option (List String × List Char)
  | 0, _ => none
  | more + 1, text => do
    let (key, rest) ← simpleKey? (skipBlanks text)
    match skipBlanks rest with
    | '.' :: rest => do
      let (keys, rest) ← keyParts? more rest
      return (key :: keys, rest)
    | rest => return ([key], rest)

def dottedKey? (text : List Char) : Option (List String × List Char) :=
  keyParts? maxKeyParts text

/-- The elements of an array, behind its opening bracket or a comma. -/
def elements? (element : List Char → Option (Value × List Char)) :
    Nat → List Char → Option (List Value × List Char)
  | 0, _ => none
  | more + 1, text => do
    match ← skipFiller false text with
    | ']' :: rest => return ([], rest)
    | text => do
      let (value, rest) ← element text
      match ← skipFiller false rest with
      | ',' :: rest => do
        let (values, rest) ← elements? element more rest
        return (value :: values, rest)
      | ']' :: rest => return ([value], rest)
      | _ => none

/-- An assignment, up to the end of its value. -/
def assignment? (element : List Char → Option (Value × List Char)) (text : List Char) :
    Option (List String × Value × List Char) := do
  let (path, rest) ← dottedKey? text
  match rest with
  | '=' :: rest => do
    let (value, rest) ← element (skipBlanks rest)
    return (path, value, rest)
  | _ => none

/-- The assignments of an inline table, behind its opening brace or a comma. -/
def inlineEntries? (element : List Char → Option (Value × List Char)) :
    Nat → Draft → List Char → Option (Draft × List Char)
  | 0, _, _ => none
  | more + 1, draft, text => do
    let (path, value, rest) ← assignment? element text
    let draft ← draft.assign true path value
    match skipBlanks rest with
    | ',' :: rest => inlineEntries? element more draft rest
    | '\x7d' :: rest => return (draft, rest)
    | _ => none

def inlineTable? (element : List Char → Option (Value × List Char)) (text : List Char) :
    Option (Value × List Char) :=
  match skipBlanks text with
  | '\x7d' :: rest => some (.table [], rest)
  | text => (inlineEntries? element (text.length + 1) [] text).map fun (draft, rest) =>
      (.table draft.finish, rest)

def numeric? (text : List Char) : Option (Value × List Char) :=
  match moment? text with
  | some rest => some (.moment, rest)
  | none =>
    match float? text with
    | some rest => some (.float, rest)
    | none => (integer? text).map fun (number, rest) => (.integer number, rest)

/-- A value of which arrays and inline tables nest at most so deep. -/
def value? : Nat → List Char → Option (Value × List Char)
  | _, 't' :: 'r' :: 'u' :: 'e' :: rest => some (.boolean true, rest)
  | _, 'f' :: 'a' :: 'l' :: 's' :: 'e' :: rest => some (.boolean false, rest)
  | depth, '[' :: rest =>
    match depth with
    | 0 => none
    | below + 1 => (elements? (value? below) (rest.length + 1) rest).map fun (values, rest) =>
        (.array values, rest)
  | depth, '\x7b' :: rest =>
    match depth with
    | 0 => none
    | below + 1 => inlineTable? (value? below) rest
  | _, text =>
    match text with
    | '"' :: _ | '\'' :: _ => (anyString? text).map fun (chars, rest) =>
        (.string (String.ofList chars), rest)
    | _ => numeric? text

inductive Statement
  | table (path : List String)
  | element (path : List String)
  | assign (path : List String) (value : Value)

/-- A statement up to its last character, without what may follow on the line. -/
def statement? : List Char → Option (Statement × List Char)
  | '[' :: '[' :: rest => do
    let (path, rest) ← dottedKey? rest
    match rest with
    | ']' :: ']' :: rest => return (.element path, rest)
    | _ => none
  | '[' :: rest => do
    let (path, rest) ← dottedKey? rest
    match rest with
    | ']' :: rest => return (.table path, rest)
    | _ => none
  | text => do
    let (path, value, rest) ← assignment? (value? maxDepth) text
    return (.assign path value, rest)

/-- The statements of a text. The first argument bounds the number of lines. -/
def statements? : Nat → List Char → Option (List Statement)
  | 0, _ => none
  | more + 1, text =>
    match skipBlanks text with
    | [] => some []
    | '#' :: rest => do statements? more (← finishLine? ('#' :: rest))
    | '\n' :: rest => statements? more rest
    | '\r' :: rest => do statements? more (← newline? ('\r' :: rest))
    | text => do
      let (statement, rest) ← statement? text
      let statements ← statements? more (← finishLine? rest)
      return statement :: statements

/-- Splits a header path into the path of the table it is in and its own key. -/
def splitPath : List String → Option (List String × String)
  | [] => none
  | [key] => some ([], key)
  | key :: rest => (splitPath rest).map fun (path, last) => (key :: path, last)

/-- Carries out statements in the table that the current path names. -/
def carryOut : List String → List Statement → Draft → Option Draft
  | _, [], root => some root
  | _, .table path :: rest, root => do
    let (parent, key) ← splitPath path
    carryOut path rest (← root.modifyAt parent (Draft.openTable key))
  | _, .element path :: rest, root => do
    let (parent, key) ← splitPath path
    carryOut path rest (← root.modifyAt parent (Draft.openElement key))
  | current, .assign path value :: rest, root => do
    carryOut current rest (← root.modifyAt current (Draft.assign true path value))

/-- A byte order mark in front of a text does not count. -/
def skipMark : List Char → List Char
  | '\uFEFF' :: rest => rest
  | text => text

def parse? (text : List Char) : Option Table := do
  let text := skipMark text
  let draft ← carryOut [] (← statements? (text.length + 1) text) []
  return draft.finish

end KeyRelay.Toml
