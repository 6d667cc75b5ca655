/-! # Key commands

What a client asks of the relay: press or release one switch of the key
matrix. A command that came over the wire may lack its key event, and a key
event its address; an action outside the known two keeps its number. -/
set_option autoImplicit false

namespace KeyRelay

inductive KeyAction
  | press
  | release
  | unrecognized (code : Int32)
  deriving DecidableEq, Repr, Inhabited

namespace KeyAction

def ofCode (code : Int32) : KeyAction :=
  if code = 0 then .press
  else if code = 1 then .release
  else .unrecognized code

def code : KeyAction → Int32
  | .press => 0
  | .release => 1
  | .unrecognized code => code

/-- Whether the key goes down, for an action that says so. -/
def pressed? : KeyAction → Option Bool
  | .press => some true
  | .release => some false
  | .unrecognized _ => none

end KeyAction

structure Coordinate where
  row : UInt32 := 0
  col : UInt32 := 0
  deriving DecidableEq, Repr, Inhabited

inductive KeyAddress
  | coordinate (place : Coordinate)
  | position (index : UInt32)
  deriving DecidableEq, Repr

structure KeyEvent where
  action : KeyAction := .press
  address : Option KeyAddress := none
  deriving DecidableEq, Repr, Inhabited

def KeyEvent.press (address : KeyAddress) : KeyEvent :=
  ⟨.press, some address⟩

def KeyEvent.release (address : KeyAddress) : KeyEvent :=
  ⟨.release, some address⟩

structure Command where
  keyEvent : Option KeyEvent := none
  deriving DecidableEq, Repr, Inhabited

end KeyRelay
