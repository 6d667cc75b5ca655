import KeyRelay.Message.Event
import KeyRelay.Text.Descriptor

/-! # Notifications

A keyboard notifies that a switch moved or that a report left on a transport.
The event is built from the report contents at that moment, and the transport
is named by its descriptor. -/
set_option autoImplicit false

namespace KeyRelay

structure KeyboardState where
  modifiers : UInt8 := 0
  keys : List UInt8 := []
  deriving DecidableEq, Repr

structure MouseState where
  buttons : UInt32 := 0
  dx : Int32 := 0
  dy : Int32 := 0
  scrollX : Int32 := 0
  scrollY : Int32 := 0
  deriving DecidableEq, Repr

/-- The current contents of every report, with key arrays of any length. -/
structure Reports where
  keyboard : KeyboardState := {}
  consumer : List UInt8 := []
  mouse : MouseState := {}
  deriving DecidableEq, Repr

inductive Notification
  | kscan (source position : UInt32) (pressed : Bool) (timestamp : UInt64)
  | keyboard (transport : String)
  | consumer (transport : String)
  | mouse (transport : String)
  deriving DecidableEq, Repr

def Notification.event (reports : Reports) : Notification → Event
  | .kscan source position pressed timestamp => .kscan ⟨source, position, pressed, timestamp⟩
  | .keyboard transport =>
    .keyboard ⟨.ofDescriptor transport, reports.keyboard.modifiers,
      .truncate reports.keyboard.keys⟩
  | .consumer transport => .consumer ⟨.ofDescriptor transport, .truncate reports.consumer⟩
  | .mouse transport =>
    .mouse ⟨.ofDescriptor transport, reports.mouse.buttons, reports.mouse.dx, reports.mouse.dy,
      reports.mouse.scrollX, reports.mouse.scrollY⟩

end KeyRelay
