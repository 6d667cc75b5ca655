/-! # Blanks, line ends and comments

A line ends at a line feed, before which a carriage return may stand, or at the
end of the text. A comment runs from a hash sign to the end of its line and
holds no control character but the tab. -/
set_option autoImplicit false

namespace KeyRelay.Toml

def isBlank (c : Char) : Bool :=
  c == ' ' || c == '\t'

def skipBlanks (text : List Char) : List Char :=
  text.dropWhile isBlank

/-- A character that may stand in a comment or a literal string. -/
def isPlain (c : Char) : Bool :=
  c == '\t' || (' ' ≤ c && c ≤ '~') || '\u0080' ≤ c

def newline? : List Char → Option (List Char)
  | '\n' :: rest => some rest
  | '\r' :: '\n' :: rest => some rest
  | _ => none

/-- The rest behind a line end or at the end of the text. -/
def lineEnd? : List Char → Option (List Char)
  | [] => some []
  | text => newline? text

def skipComment : List Char → List Char
  | '#' :: rest => rest.dropWhile isPlain
  | text => text

/-- What may follow a complete statement on its line. -/
def finishLine? (text : List Char) : Option (List Char) :=
  lineEnd? (skipComment (skipBlanks text))

/-- Skips blanks, line ends and comments inside an array. The flag says whether
a comment is being skipped. -/
def skipFiller : Bool → List Char → Option (List Char)
  | false, '#' :: rest => skipFiller true rest
  | true, [] => none
  | false, [] => some []
  | _, '\r' :: '\n' :: rest => skipFiller false rest
  | _, '\n' :: rest => skipFiller false rest
  | true, c :: rest => if isPlain c then skipFiller true rest else none
  | false, c :: rest =>
    if isBlank c then skipFiller false rest
    else if c = '\r' then none
    else some (c :: rest)

def isBareKeyChar (c : Char) : Bool :=
  c.isAlphanum || c == '_' || c == '-'

end KeyRelay.Toml
