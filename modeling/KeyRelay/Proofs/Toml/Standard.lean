import KeyRelay.Text.Decimal
import KeyRelay.Toml.Value

/-! # The part of TOML 1.0 that settings need

The rules relate a piece of writing with what it means: strings in their four notations,
decimal numbers, and lines that assign to bare keys, some on top and the others in sections.
They say what may be written, not what a writer chooses. Left out are the other values, dotted
and quoted keys, arrays of tables, and of the long strings the carriage return and the line
that goes on behind a backslash. -/
set_option autoImplicit false

namespace KeyRelay.Toml.Standard

/-! ## Strings -/

/-- Any character but the control characters, of which only the tab stands for itself. -/
def Plain (c : Char) : Prop :=
  c = '\t' ∨ 0x20 ≤ c.toNat ∧ c.toNat ≠ 0x7F

inductive HexDigit : Char → Nat → Prop
  | decimal {value : Nat} (small : value < 10) : HexDigit (.ofNat ('0'.toNat + value)) value
  | upper {value : Nat} (small : value < 6) : HexDigit (.ofNat ('A'.toNat + value)) (10 + value)
  | lower {value : Nat} (small : value < 6) : HexDigit (.ofNat ('a'.toNat + value)) (10 + value)

/-- Digits from the highest to the lowest. -/
inductive Hexadecimal : List Char → Nat → Prop
  | nil : Hexadecimal [] 0
  | snoc {digits : List Char} {number : Nat} {c : Char} {value : Nat}
    (high : Hexadecimal digits number) (low : HexDigit c value) :
    Hexadecimal (digits ++ [c]) (number * 16 + value)

/-- What stands behind a backslash, and the character that it means. -/
inductive Escaped : List Char → Char → Prop
  | backspace : Escaped ['b'] '\x08'
  | tab : Escaped ['t'] '\t'
  | lineFeed : Escaped ['n'] '\n'
  | formFeed : Escaped ['f'] '\x0c'
  | carriageReturn : Escaped ['r'] '\r'
  | quote : Escaped ['"'] '"'
  | backslash : Escaped ['\\'] '\\'
  | short {digits : List Char} {c : Char} (four : digits.length = 4)
    (codePoint : Hexadecimal digits c.toNat) : Escaped ('u' :: digits) c
  | long {digits : List Char} {c : Char} (eight : digits.length = 8)
    (codePoint : Hexadecimal digits c.toNat) : Escaped ('U' :: digits) c

/-- The writing between two double quotes. -/
inductive Basic : List Char → List Char → Prop
  | nil : Basic [] []
  | plain {c : Char} {code text : List Char} (plain : Plain c) (noQuote : c ≠ '"')
    (noBackslash : c ≠ '\\') (rest : Basic code text) : Basic (c :: code) (c :: text)
  | escape {escaped code text : List Char} {c : Char} (escape : Escaped escaped c)
    (rest : Basic code text) : Basic ('\\' :: (escaped ++ code)) (c :: text)

/-- The writing between three double quotes and three. At most two of them stand in a row, and
the number is how many there are right in front. -/
inductive LongBasic : Nat → List Char → List Char → Prop
  | nil (run : Nat) : LongBasic run [] []
  | plain {run : Nat} {c : Char} {code text : List Char} (plain : Plain c ∨ c = '\n')
    (noQuote : c ≠ '"') (noBackslash : c ≠ '\\') (rest : LongBasic 0 code text) :
    LongBasic run (c :: code) (c :: text)
  | escape {run : Nat} {escaped code text : List Char} {c : Char} (escape : Escaped escaped c)
    (rest : LongBasic 0 code text) : LongBasic run ('\\' :: (escaped ++ code)) (c :: text)
  | quote {run : Nat} {code text : List Char} (few : run < 2)
    (rest : LongBasic (run + 1) code text) : LongBasic run ('"' :: code) ('"' :: text)

/-- A text that stands for itself between three single quotes and three, with at most two of
them in a row. -/
inductive LongLiteral : Nat → List Char → Prop
  | nil (run : Nat) : LongLiteral run []
  | plain {run : Nat} {c : Char} {text : List Char} (plain : Plain c ∨ c = '\n')
    (noQuote : c ≠ '\'') (rest : LongLiteral 0 text) : LongLiteral run (c :: text)
  | quote {run : Nat} {text : List Char} (few : run < 2) (rest : LongLiteral (run + 1) text) :
    LongLiteral run ('\'' :: text)

/-- A line end right behind three opening quotes does not count. -/
inductive Opened : List Char → List Char → Prop
  | line (body : List Char) : Opened ('\n' :: body) body
  | direct {body : List Char} (noLine : body.head? ≠ some '\n') : Opened body body

/-- A string in one of its notations. -/
inductive Quoted : List Char → List Char → Prop
  | basic {code text : List Char} (body : Basic code text) : Quoted ('"' :: (code ++ ['"'])) text
  | literal {text : List Char} (plain : ∀ c ∈ text, Plain c ∧ c ≠ '\'') :
    Quoted ('\'' :: (text ++ ['\''])) text
  | longBasic {written code text : List Char} (opened : Opened written code)
    (body : LongBasic 0 code text) :
    Quoted ("\"\"\"".toList ++ (written ++ "\"\"\"".toList)) text
  | longLiteral {written text : List Char} (opened : Opened written text)
    (body : LongLiteral 0 text) : Quoted ("'''".toList ++ (written ++ "'''".toList)) text

/-! ## Numbers -/

/-- One zero, or digits that begin with another digit. -/
inductive Decimals : List Char → Prop
  | zero : Decimals ['0']
  | positive {c : Char} {digits : List Char} (front : c ≠ '0')
    (all : ∀ d ∈ c :: digits, Text.isDigit d = true) : Decimals (c :: digits)

/-- A value in writing. -/
inductive Written : List Char → Value → Prop
  | string {code text : List Char} (quoted : Quoted code text) :
    Written code (.string (String.ofList text))
  | integer {digits : List Char} (decimals : Decimals digits)
    (small : Text.digitsValue digits < 0x8000000000000000) :
    Written digits (.integer (.ofNat (Text.digitsValue digits)))

/-! ## Documents -/

/-- Letters, digits, underscores and dashes, at least one. -/
def BareKey (key : String) : Prop :=
  key.toList ≠ [] ∧ ∀ c ∈ key.toList, c.isAlphanum = true ∨ c = '_' ∨ c = '-'

instance (key : String) : Decidable (BareKey key) :=
  decidable_of_iff
    (key.toList ≠ [] ∧ key.toList.all fun c => c.isAlphanum || c == '_' || c == '-')
    (by simp [BareKey, or_assoc])

/-- Spaces and tabs. -/
def Blank (text : List Char) : Prop :=
  ∀ c ∈ text, c = ' ' ∨ c = '\t'

/-- Lines that assign values to bare keys, and between them blank lines and comments. -/
inductive Assignments : List Char → Table → Prop
  | nil : Assignments [] []
  | blankLine {rest : List Char} {entries : Table} (others : Assignments rest entries) :
    Assignments ('\n' :: rest) entries
  | comment {body rest : List Char} {entries : Table} (plain : ∀ c ∈ body, Plain c)
    (others : Assignments rest entries) : Assignments ('#' :: (body ++ '\n' :: rest)) entries
  | setting {key : String} {before after code rest : List Char} {value : Value} {entries : Table}
    (bare : BareKey key) (front : Blank before) (behind : Blank after)
    (written : Written code value) (others : Assignments rest entries) :
    Assignments (key.toList ++ (before ++ '=' :: (after ++ (code ++ '\n' :: rest))))
      ((key, value) :: entries)

/-- Sections, each a header and assignments to different keys. -/
inductive Sections : List Char → Table → Prop
  | nil : Sections [] []
  | blankLine {rest : List Char} {tables : Table} (others : Sections rest tables) :
    Sections ('\n' :: rest) tables
  | part {key : String} {body rest : List Char} {entries tables : Table} (bare : BareKey key)
    (settings : Assignments body entries) (distinct : (entries.map Prod.fst).Nodup)
    (others : Sections rest tables) :
    Sections ('[' :: (key.toList ++ ']' :: '\n' :: (body ++ rest)))
      ((key, .table entries) :: tables)

/-- A text is a document that means a table. -/
inductive Denotes : List Char → Table → Prop
  | intro {front behind : List Char} {entries tables : Table} (top : Assignments front entries)
    (sections : Sections behind tables) (distinct : ((entries ++ tables).map Prod.fst).Nodup) :
    Denotes (front ++ behind) (entries ++ tables)

end KeyRelay.Toml.Standard
