import KeyRelay.Client.Sender
import KeyRelay.Proofs.Frame.Write
import KeyRelay.Proofs.Message.CommandRoundTrip

/-! # What a sender puts on its connection

One frame for every key event, in order. A tap is two of them. -/
set_option autoImplicit false

namespace KeyRelay

/-- What a user of the sender asks for. -/
inductive Keystroke
  | press (address : KeyAddress)
  | release (address : KeyAddress)
  | tap (address : KeyAddress)
  deriving DecidableEq, Repr

namespace Keystroke

def events : Keystroke → List KeyEvent
  | .press address => [.press address]
  | .release address => [.release address]
  | .tap address => [.press address, .release address]

def perform (sink : Sink) : Keystroke → Except ClientError Unit × Sink
  | .press address => Sender.send sink (.press address)
  | .release address => Sender.send sink (.release address)
  | .tap address => Sender.tap sink address

def performAll (sink : Sink) : List Keystroke → Except ClientError Unit × Sink
  | [] => (.ok (), sink)
  | keystroke :: rest =>
    match keystroke.perform sink with
    | (.ok (), next) => performAll next rest
    | (.error failure, next) => (.error failure, next)

end Keystroke

/-- The bytes of a key event on the command connection. -/
def KeyEvent.wire (event : KeyEvent) : List UInt8 :=
  Frame.whole (Command.bytes ⟨some event⟩)

namespace Sender

theorem bounded_command : Size.command < UInt32.size := by
  decide

theorem send_ok_iff {sink next : Sink} {event : KeyEvent} :
    send sink event = (.ok (), next) ↔
      Frame.write sink (Command.bytes ⟨some event⟩) Size.command = (.ok (), next) := by
  have fits : (Command.bytes ⟨some event⟩).length ≤
      (List.replicate Size.command (0 : UInt8)).length := by
    rw [List.length_replicate]
    exact Command.length_bytes_le ⟨some event⟩
  simp only [send, Command.encodeInto_of_fits ⟨some event⟩ fits, List.take_left]
  constructor
  · intro sent
    split at sent
    next between call =>
      simp only [Prod.mk.injEq, true_and] at sent
      rw [← sent, call]
    next => simp at sent
  · intro written
    rw [written]

theorem send_accepted {sink next : Sink} {event : KeyEvent}
    (sent : send sink event = (.ok (), next)) :
    next.accepted = sink.accepted ++ event.wire :=
  Frame.write_accepted (Command.length_bytes_le ⟨some event⟩) bounded_command
    (send_ok_iff.mp sent)

theorem send_progresses {sink : Sink} (progresses : sink.Progresses) (event : KeyEvent) :
    ∃ next, send sink event = (.ok (), next) ∧ next.Progresses := by
  obtain ⟨next, call, goesOn⟩ := Frame.write_progresses progresses
    (Command.length_bytes_le ⟨some event⟩) bounded_command
  exact ⟨next, send_ok_iff.mpr call, goesOn⟩

theorem sendAll_append (sink : Sink) (first rest : List KeyEvent) :
    sendAll sink (first ++ rest) =
      match sendAll sink first with
      | (.ok (), next) => sendAll next rest
      | (.error failure, next) => (.error failure, next) := by
  induction first generalizing sink with
  | nil => rfl
  | cons event others ih =>
    rw [List.cons_append, sendAll, sendAll]
    split
    next next call => exact ih next
    next failure next call => rfl

theorem sendAll_singleton (sink : Sink) (event : KeyEvent) :
    sendAll sink [event] = send sink event := by
  simp only [sendAll]
  split
  next next call => exact call.symm
  next failure next call => exact call.symm

theorem sendAll_accepted {sink done : Sink} {events : List KeyEvent}
    (sent : sendAll sink events = (.ok (), done)) :
    done.accepted = sink.accepted ++ events.flatMap KeyEvent.wire := by
  induction events generalizing sink with
  | nil =>
    simp only [sendAll, Prod.mk.injEq, true_and] at sent
    rw [← sent, List.flatMap_nil, List.append_nil]
  | cons event rest ih =>
    rw [sendAll] at sent
    split at sent
    next next call =>
      rw [ih sent, send_accepted call, List.flatMap_cons, List.append_assoc]
    next => simp at sent

theorem sendAll_progresses {sink : Sink} (progresses : sink.Progresses) (events : List KeyEvent) :
    ∃ done, sendAll sink events = (.ok (), done) := by
  induction events generalizing sink with
  | nil => exact ⟨sink, rfl⟩
  | cons event rest ih =>
    obtain ⟨next, call, goesOn⟩ := send_progresses progresses event
    obtain ⟨done, sent⟩ := ih goesOn
    refine ⟨done, ?_⟩
    rw [sendAll, call]
    exact sent

end Sender

namespace Keystroke

theorem perform_eq (keystroke : Keystroke) (sink : Sink) :
    keystroke.perform sink = Sender.sendAll sink keystroke.events := by
  cases keystroke with
  | press address => exact (Sender.sendAll_singleton sink (.press address)).symm
  | release address => exact (Sender.sendAll_singleton sink (.release address)).symm
  | tap address => rfl

theorem performAll_eq (sink : Sink) (keystrokes : List Keystroke) :
    performAll sink keystrokes = Sender.sendAll sink (keystrokes.flatMap events) := by
  induction keystrokes generalizing sink with
  | nil => rfl
  | cons keystroke rest ih =>
    rw [performAll, perform_eq, List.flatMap_cons, Sender.sendAll_append]
    split
    next next call => exact ih next
    next failure next call => rfl

end Keystroke

end KeyRelay
