/-! # Command-line arguments

Arguments are switches, options with a value, and operands. The value of an
option stands behind an equals sign, right behind a one-letter name, or in the
next argument, which must not look like an option then. Letters may share a
dash. Behind a lone double dash everything is an operand.

Reading ends at the first argument that fits no rule. What stands in front of
it counts still, since a request for help comes first if it is written first. -/
set_option autoImplicit false

namespace KeyRelay.CommandLine

structure Switch (ν : Type) where
  name : ν
  long : String
  short : Option Char := none
  valued : Bool := true
  deriving DecidableEq, Repr

inductive Item (ν : Type)
  | flag (name : ν)
  | setting (name : ν) (value : String)
  | operand (value : String)
  deriving DecidableEq, Repr

inductive Misuse
  | unknownOption (written : String)
  | missingValue (option : String)
  | unwantedValue (option : String)
  | repeated (option : String)
  | badValue (option value reason : String)
  | needs (option companion : String)
  | unexpectedOperand (value : String)
  | missingOperand (name : String)
  | missingCommand
  | unknownCommand (written : String)
  deriving DecidableEq, Repr

def Misuse.text : Misuse → String
  | .unknownOption written => s!"unexpected argument '{written}' found"
  | .missingValue option => s!"a value is required for '--{option}' but none was supplied"
  | .unwantedValue option => s!"unexpected value for '--{option}' found"
  | .repeated option => s!"the argument '--{option}' cannot be used multiple times"
  | .badValue option value reason => s!"invalid value '{value}' for '{option}': {reason}"
  | .needs option companion => s!"'--{option}' requires '--{companion}'"
  | .unexpectedOperand value => s!"unexpected argument '{value}' found"
  | .missingOperand name => s!"the required argument '{name}' was not provided"
  | .missingCommand => "a command is required but none was provided"
  | .unknownCommand written => s!"unrecognized command '{written}'"

variable {ν : Type}

def splitEquals : List Char → List Char × Option (List Char)
  | [] => ([], none)
  | '=' :: rest => ([], some rest)
  | c :: rest =>
    let (before, after) := splitEquals rest
    (c :: before, after)

/-- A lone dash is an operand. -/
def looksLikeOption : List Char → Bool
  | '-' :: _ :: _ => true
  | _ => false

inductive Reading (ν : Type)
  | complete (items : List (Item ν))
  /-- The value of the last option is the next argument. -/
  | awaiting (items : List (Item ν)) (switch : Switch ν)
  | operandsFollow
  | faulty (items : List (Item ν)) (cause : Misuse)
  deriving DecidableEq, Repr

def Reading.behind (item : Item ν) : Reading ν → Reading ν
  | .complete items => .complete (item :: items)
  | .awaiting items switch => .awaiting (item :: items) switch
  | .operandsFollow => .operandsFollow
  | .faulty items cause => .faulty (item :: items) cause

/-- An option spelled out, without its dashes. -/
def readLong (switches : List (Switch ν)) (written : List Char) : Reading ν :=
  let (name, attached) := splitEquals written
  match switches.find? fun switch => switch.long.toList == name with
  | none => .faulty [] (.unknownOption ("--" ++ String.ofList name))
  | some switch =>
    match switch.valued, attached with
    | true, some value => .complete [.setting switch.name (String.ofList value)]
    | true, none => .awaiting [] switch
    | false, none => .complete [.flag switch.name]
    | false, some _ => .faulty [] (.unwantedValue switch.long)

/-- Letters behind one dash. The first one that takes a value takes all the rest. -/
def readLetters (switches : List (Switch ν)) : List Char → Reading ν
  | [] => .complete []
  | letter :: rest =>
    match switches.find? fun switch => switch.short == some letter with
    | none => .faulty [] (.unknownOption ("-" ++ letter.toString))
    | some switch =>
      if switch.valued then
        match rest with
        | [] => .awaiting [] switch
        | '=' :: value => .complete [.setting switch.name (String.ofList value)]
        | value => .complete [.setting switch.name (String.ofList value)]
      else (readLetters switches rest).behind (.flag switch.name)

def readArgument (switches : List (Switch ν)) : List Char → Reading ν
  | ['-', '-'] => .operandsFollow
  | '-' :: '-' :: written => readLong switches written
  | '-' :: letter :: rest => readLetters switches (letter :: rest)
  | written => .complete [.operand (String.ofList written)]

/-- The items that were read, and what ended the reading early. -/
structure Scanned (ν : Type) where
  items : List (Item ν)
  fault : Option Misuse
  deriving DecidableEq, Repr

def Scanned.behind (items : List (Item ν)) (rest : Scanned ν) : Scanned ν :=
  { rest with items := items ++ rest.items }

/-- Reads arguments, the first of which may be the value of an option. -/
def scanFrom (switches : List (Switch ν)) : Option (Switch ν) → List String → Scanned ν
  | none, [] => ⟨[], none⟩
  | some switch, [] => ⟨[], some (.missingValue switch.long)⟩
  | some switch, argument :: rest =>
    if looksLikeOption argument.toList then ⟨[], some (.missingValue switch.long)⟩
    else (scanFrom switches none rest).behind [.setting switch.name argument]
  | none, argument :: rest =>
    match readArgument switches argument.toList with
    | .complete items => (scanFrom switches none rest).behind items
    | .awaiting items switch => (scanFrom switches (some switch) rest).behind items
    | .operandsFollow => ⟨rest.map .operand, none⟩
    | .faulty items cause => ⟨items, some cause⟩

def scan (switches : List (Switch ν)) (arguments : List String) : Scanned ν :=
  scanFrom switches none arguments

end KeyRelay.CommandLine
