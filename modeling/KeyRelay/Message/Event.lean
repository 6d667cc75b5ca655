import KeyRelay.Message.Endpoint

/-! # Observer events

What the relay tells its observers: a switch of the key matrix moved, or a
report left for the host. The key array of a report is bounded by its type;
a longer array is cut when the report is built. -/
set_option autoImplicit false

namespace KeyRelay

/-- At most `capacity` key codes, in order. -/
structure KeyArray (capacity : Nat) where
  toList : List UInt8
  length_le : toList.length ≤ capacity
  deriving DecidableEq, Repr

namespace KeyArray

variable {capacity : Nat}

def empty : KeyArray capacity :=
  ⟨[], Nat.zero_le _⟩

instance : Inhabited (KeyArray capacity) := ⟨empty⟩

def truncate (codes : List UInt8) : KeyArray capacity :=
  ⟨codes.take capacity, List.length_take_le _ _⟩

end KeyArray

def keyboardKeyCapacity : Nat := 32

def consumerKeyCapacity : Nat := 12

/-- A key switch moved; the timestamp is the uptime in milliseconds. -/
structure KscanEvent where
  source : UInt32 := 0
  position : UInt32 := 0
  pressed : Bool := false
  timestamp : UInt64 := 0
  deriving DecidableEq, Repr, Inhabited

structure KeyboardReport where
  endpoint : Endpoint := {}
  modifiers : UInt8 := 0
  keys : KeyArray keyboardKeyCapacity := .empty
  deriving DecidableEq, Repr, Inhabited

structure ConsumerReport where
  endpoint : Endpoint := {}
  keys : KeyArray consumerKeyCapacity := .empty
  deriving DecidableEq, Repr, Inhabited

structure MouseReport where
  endpoint : Endpoint := {}
  buttons : UInt32 := 0
  dx : Int32 := 0
  dy : Int32 := 0
  scrollX : Int32 := 0
  scrollY : Int32 := 0
  deriving DecidableEq, Repr, Inhabited

inductive Event
  | kscan (event : KscanEvent)
  | keyboard (report : KeyboardReport)
  | consumer (report : ConsumerReport)
  | mouse (report : MouseReport)
  deriving DecidableEq, Repr

def Event.kind : Event → String
  | .kscan _ => "kscan"
  | .keyboard _ => "keyboard"
  | .consumer _ => "consumer"
  | .mouse _ => "mouse"

end KeyRelay
