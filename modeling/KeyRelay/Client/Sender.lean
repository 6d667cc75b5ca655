import KeyRelay.Client.Error
import KeyRelay.Frame.Transfer
import KeyRelay.Message.Encode

/-! # Sending key events

A sender writes one framed command for every key event. A tap is a press and,
if that went out, a release. -/
set_option autoImplicit false

namespace KeyRelay.Sender

def send (sink : Sink) (event : KeyEvent) : Except ClientError Unit × Sink :=
  let command : Command := ⟨some event⟩
  match command.encodeInto (List.replicate Size.command 0) with
  | (.error failure, _) => (.error (.encode failure), sink)
  | (.ok length, buffer) =>
    match Frame.write sink (buffer.take length) Size.command with
    | (.ok (), next) => (.ok (), next)
    | (.error failure, next) => (.error (.frame failure), next)

def sendAll (sink : Sink) : List KeyEvent → Except ClientError Unit × Sink
  | [] => (.ok (), sink)
  | event :: rest =>
    match send sink event with
    | (.ok (), next) => sendAll next rest
    | (.error failure, next) => (.error failure, next)

def tap (sink : Sink) (address : KeyAddress) : Except ClientError Unit × Sink :=
  sendAll sink [.press address, .release address]

end KeyRelay.Sender
