/-! # Plain text

A terminal takes control characters as commands, and so it does what an escape
character begins, up to an end that depends on how it goes on. Plain text has
none of these; only blanks that are control characters stay.

A blank inside a sequence stays as well. It interrupts the sequence: characters
are kept again up to the next control character, and only there the sequence
goes on, unless a character beyond ASCII was kept and so has ended it.

A string for a device has parameters, punctuation and a letter in front. Its end
is looked for behind the letter, or behind the first of these out of place. -/
set_option autoImplicit false

namespace KeyRelay.Text

/-- What a control sequence has come to. -/
inductive Sequence
  | none
  | escape
  /-- What an escape character and punctuation begin, up to a digit or letter. -/
  | command
  /-- What an escape character and a bracket begin, up to a letter. -/
  | control
  /-- A string for a device begins. -/
  | device
  /-- It has got parameters. -/
  | deviceParameters
  /-- It has got punctuation, behind which there are no parameters. -/
  | devicePunctuation
  /-- A string up to its terminator. -/
  | string
  /-- A string for the system, which a bell ends. -/
  | system
  deriving DecidableEq, Repr

def escapeChar : Char := Char.ofNat 0x1B

def deleteChar : Char := Char.ofNat 0x7F

/-- These end every sequence. -/
def isCancel (c : Char) : Bool :=
  c == Char.ofNat 0x18 || c == Char.ofNat 0x1A

/-- Tabs and the ends of lines and pages. -/
def isControlBlank (c : Char) : Bool :=
  c == '\t' || c == '\n' || c == Char.ofNat 0x0C || c == '\r'

def isAscii (c : Char) : Bool :=
  c.val < 0x80

/-- Whether plain text may hold a character. -/
def isPlain (c : Char) : Bool :=
  isControlBlank c || (' ' ≤ c && c != deleteChar)

/-- The terminator of a string is looked for among the bytes of the text. -/
def holdsTerminator (c : Char) : Bool :=
  (String.utf8EncodeChar c).contains 0x9C

namespace Sequence

/-- Whether a blank inside a sequence stays. -/
def keepsBlanks : Sequence → Bool
  | .escape | .command | .control => true
  | _ => false

def next (sequence : Sequence) (c : Char) : Sequence :=
  if c = escapeChar then .escape
  else if isCancel c then .none
  else
    match sequence with
    | .none => .none
    | .escape =>
      if c = '[' then .control
      else if c = ']' then .system
      else if c = 'P' then .device
      else if c = 'X' ∨ c = '^' ∨ c = '_' then .string
      else if ' ' ≤ c ∧ c ≤ '/' then .command
      else if '0' ≤ c ∧ c ≤ '~' then .none
      else .escape
    | .command => if '0' ≤ c ∧ c ≤ '~' then .none else .command
    | .control => if '@' ≤ c ∧ c ≤ '~' then .none else .control
    | .device =>
      if '@' ≤ c ∧ c ≤ '~' then .string
      else if ' ' ≤ c ∧ c ≤ '/' then .devicePunctuation
      else if '0' ≤ c ∧ c ≤ '?' then .deviceParameters
      else .device
    | .deviceParameters =>
      if '@' ≤ c ∧ c ≤ '~' then .string
      else if ' ' ≤ c ∧ c ≤ '/' then .devicePunctuation
      else if '<' ≤ c ∧ c ≤ '?' then .string
      else .deviceParameters
    | .devicePunctuation =>
      if '@' ≤ c ∧ c ≤ '~' then .string
      else if '0' ≤ c ∧ c ≤ '?' then .string
      else .devicePunctuation
    | .string => if holdsTerminator c then .none else .string
    | .system => if c = Char.ofNat 0x07 then .none else .system

end Sequence

/-- The plain text of what follows a sequence, which may be interrupted. -/
def plainFrom : Sequence → Bool → List Char → List Char
  | _, _, [] => []
  | sequence, interrupted, c :: rest =>
    if sequence = .none ∨ interrupted then
      if isPlain c then c :: plainFrom (if isAscii c then sequence else .none) true rest
      else plainFrom (sequence.next c) false rest
    else if sequence.keepsBlanks ∧ isControlBlank c then c :: plainFrom sequence true rest
    else plainFrom (sequence.next c) false rest

def plain (text : String) : String :=
  String.ofList (plainFrom .none false text.toList)

end KeyRelay.Text
