import KeyRelay.Message.Command
import KeyRelay.Message.Size
import KeyRelay.Wire.Writer

/-! # Encoding messages

Each message is a list of puts. Scalars equal to their default are omitted; an
embedded message and an address are always written, since their presence says
something. An embedded message is first written into a buffer of its own
largest size. -/
set_option autoImplicit false

namespace KeyRelay

open Wire

def Endpoint.puts (endpoint : Endpoint) : List Put :=
  [.int32 1 endpoint.transport.code, .uint 2 endpoint.profile.toUInt64]

def Endpoint.encode (endpoint : Endpoint) : Except EncodeError (List UInt8) :=
  Writer.render "Endpoint" Size.endpoint endpoint.puts

def KscanEvent.puts (event : KscanEvent) : List Put :=
  [.uint 1 event.source.toUInt64, .uint 2 event.position.toUInt64,
    .bool 3 event.pressed, .uint 4 event.timestamp]

def KscanEvent.encode (event : KscanEvent) : Except EncodeError (List UInt8) :=
  Writer.render "KscanEvent" Size.kscanEvent event.puts

/-- The puts of a report whose endpoint has been encoded. -/
def KeyboardReport.puts (report : KeyboardReport) (endpoint : List UInt8) : List Put :=
  [.lengthDelimited 1 endpoint, .uint 2 report.modifiers.toUInt64,
    .bytes 3 report.keys.toList]

def KeyboardReport.encode (report : KeyboardReport) : Except EncodeError (List UInt8) := do
  let endpoint ← report.endpoint.encode
  Writer.render "HidKeyboardReport" Size.keyboardReport (report.puts endpoint)

def ConsumerReport.puts (report : ConsumerReport) (endpoint : List UInt8) : List Put :=
  [.lengthDelimited 1 endpoint, .bytes 2 report.keys.toList]

def ConsumerReport.encode (report : ConsumerReport) : Except EncodeError (List UInt8) := do
  let endpoint ← report.endpoint.encode
  Writer.render "HidConsumerReport" Size.consumerReport (report.puts endpoint)

def MouseReport.puts (report : MouseReport) (endpoint : List UInt8) : List Put :=
  [.lengthDelimited 1 endpoint, .uint 2 report.buttons.toUInt64, .int32 3 report.dx,
    .int32 4 report.dy, .int32 5 report.scrollX, .int32 6 report.scrollY]

def MouseReport.encode (report : MouseReport) : Except EncodeError (List UInt8) := do
  let endpoint ← report.endpoint.encode
  Writer.render "HidMouseReport" Size.mouseReport (report.puts endpoint)

/-- The field that a variant travels in. -/
def Event.field : Event → UInt32
  | .kscan _ => 1
  | .keyboard _ => 2
  | .consumer _ => 3
  | .mouse _ => 4

def Event.encodeBody : Event → Except EncodeError (List UInt8)
  | .kscan event => event.encode
  | .keyboard report => report.encode
  | .consumer report => report.encode
  | .mouse report => report.encode

/-- Writes puts to the front of a buffer, giving the number of bytes written
and the whole buffer afterwards. -/
def writeInto (message : String) (buffer : List UInt8) (items : List Put) :
    Except EncodeError Nat × List UInt8 :=
  let (outcome, writer) := (Writer.start message buffer).putAll items
  (outcome.map fun _ => writer.length, writer.buffer)

def Event.encodeInto (event : Event) (buffer : List UInt8) :
    Except EncodeError Nat × List UInt8 :=
  match event.encodeBody with
  | .error failure => (.error failure, buffer)
  | .ok body => writeInto "Event" buffer [.lengthDelimited event.field body]

def Event.encode (event : Event) : Except EncodeError (List UInt8) :=
  let (outcome, buffer) := event.encodeInto (List.replicate Size.event 0)
  outcome.map buffer.take

def Coordinate.puts (place : Coordinate) : List Put :=
  [.uint 1 place.row.toUInt64, .uint 2 place.col.toUInt64]

def Coordinate.encode (place : Coordinate) : Except EncodeError (List UInt8) :=
  Writer.render "KeyPosition" Size.coordinate place.puts

def KeyAddress.put : KeyAddress → Except EncodeError Put
  | .coordinate place => place.encode.map (.lengthDelimited 2)
  | .position index => .ok (.varintField 3 index.toUInt64)

def KeyEvent.encode (event : KeyEvent) : Except EncodeError (List UInt8) := do
  let address ← match event.address with
    | none => pure []
    | some address => address.put.map fun item => [item]
  Writer.render "KeyEvent" Size.keyEvent (.int32 1 event.action.code :: address)

def Command.encodeInto (command : Command) (buffer : List UInt8) :
    Except EncodeError Nat × List UInt8 :=
  match command.keyEvent with
  | none => writeInto "ClientMessage" buffer []
  | some event =>
    match event.encode with
    | .error failure => (.error failure, buffer)
    | .ok body => writeInto "ClientMessage" buffer [.lengthDelimited 1 body]

def Command.encode (command : Command) : Except EncodeError (List UInt8) :=
  let (outcome, buffer) := command.encodeInto (List.replicate Size.command 0)
  outcome.map buffer.take

end KeyRelay
