import KeyRelay.Files.Path
import KeyRelay.Toml.Value

/-! # A library for documents

Documents are read and written by a library, which the rest is given. Beside the
documents themselves it reads single values as strings, paths, numbers and
records. A record is read by what was declared of it: its fields in order, each
with its key and how a value is put there, and the record that has all defaults. -/
set_option autoImplicit false

namespace KeyRelay.Toml

/-- A field of a record. A value that is not right for the field cannot be put there. -/
structure Member (α : Type) where
  key : String
  put? : Value → α → Option α

/-- A field that takes what a reader makes of a value. -/
def Member.of {α β : Type} (key : String) (read? : Value → Option β) (put : α → β → α) :
    Member α where
  key := key
  put? value record := (read? value).map (put record)

structure Declaration (α : Type) where
  defaults : α
  members : List (Member α)

/-- Puts the values that are found for the fields, by place or by key. A field for
which there is none keeps its default. -/
def Declaration.fill? {α : Type} (declaration : Declaration α)
    (find? : Nat → String → Option Value) : Option α :=
  declaration.members.zipIdx.foldlM (fun record (member, place) =>
    (find? place member.key).elim (some record) fun value => member.put? value record)
    declaration.defaults

/-- The one key of the table as which a point in time is handed on to a record. -/
def momentKey : String := "$__toml_private_datetime"

/-- What a setting is before it is written. -/
inductive Scalar
  | text (content : String)
  | path (file : Path)
  | number (count : Nat)

/-- The value that stands for a setting in a document, if there is one: a path has to be
text, and a number has to be in range. -/
def Scalar.value? : Scalar → Option Value
  | .text content => some (.string content)
  | .path file => file.text?.map .string
  | .number count => if count < 0x8000000000000000 then some (.integer (.ofNat count)) else none

abbrev Assignment := String × Scalar

structure Section where
  key : String
  settings : List Assignment

/-- Settings to be written, some on top and the others in sections. -/
structure Settings where
  top : List Assignment
  sections : List Section

def Assignment.entry? (assignment : Assignment) : Option (String × Value) :=
  assignment.2.value?.map fun value => (assignment.1, value)

def Section.entry? (part : Section) : Option (String × Value) :=
  (part.settings.mapM Assignment.entry?).map fun entries => (part.key, .table entries)

/-- The table that stands for settings, if every one of them has a value. -/
def Settings.table? (settings : Settings) : Option Table := do
  return (← settings.top.mapM Assignment.entry?) ++ (← settings.sections.mapM Section.entry?)

structure Library where
  parse? : String → Option Table
  string? : Value → Option String
  path? : Value → Option Path
  uint32? : Value → Option UInt32
  uint64? : Value → Option UInt64
  record? : {α : Type} → Declaration α → Value → Option α
  /-- The text of a document, or why there is none. -/
  write : Settings → Except String String

end KeyRelay.Toml
