import KeyRelay.Client.Error
import KeyRelay.Frame.Transfer
import KeyRelay.Message.Decode
import KeyRelay.Message.Size

/-! # Watching events

An observer reads frames, each with one event. A frame that does not decode is
an error of its own, and the next one may be good; an error of the stream is
the last. `results` asks for events one at a time until that error. `forward`
passes on the events alone, to a receiver that may stop after a number of them. -/
set_option autoImplicit false

namespace KeyRelay.Watcher

def nextEvent (source : Source) : Except ClientError Event × Source :=
  match Frame.receive source Size.event with
  | (.error failure, rest) => (.error (.frame failure), rest)
  | (.ok payload, rest) =>
    match Event.decode payload with
    | .ok event => (.ok event, rest)
    | .error failure => (.error (.decode failure), rest)

theorem nextEvent_shortens {source rest : Source} {outcome : Except ClientError Event}
    (found : nextEvent source = (outcome, rest))
    (framed : ∀ failure, outcome ≠ .error (.frame failure)) :
    rest.bytes.length < source.bytes.length := by
  unfold nextEvent at found
  split at found
  next failure middle call =>
    simp only [Prod.mk.injEq] at found
    exact absurd found.1.symm (framed failure)
  next payload middle call =>
    have shorter := Frame.receive_shortens call
    split at found <;> (simp only [Prod.mk.injEq] at found; rw [← found.2]; exact shorter)

/-- The outcomes of asking for events up to the first error of the stream. -/
def results (source : Source) : List (Except ClientError Event) :=
  match call : nextEvent source with
  | (.ok event, rest) =>
    have := nextEvent_shortens call (by simp)
    .ok event :: results rest
  | (.error (.decode failure), rest) =>
    have := nextEvent_shortens call (by simp)
    .error (.decode failure) :: results rest
  | (.error failure, _) => [.error failure]
termination_by source.bytes.length

/-- The events passed on, and the error that ended it unless the receiver left
first. -/
structure Forwarded where
  events : List Event
  ending : Option ClientError
  deriving DecidableEq, Repr

/-- Passes on events to a receiver that takes the given number of them, or all
if none is given. -/
def forward (source : Source) (wanted : Option Nat) : Forwarded :=
  match wanted with
  | some 0 => ⟨[], none⟩
  | _ =>
    match call : nextEvent source with
    | (.ok event, rest) =>
      have := nextEvent_shortens call (by simp)
      let remaining := forward rest (wanted.map (· - 1))
      { remaining with events := event :: remaining.events }
    | (.error (.decode _), rest) =>
      have := nextEvent_shortens call (by simp)
      forward rest wanted
    | (.error failure, _) => ⟨[], some failure⟩
termination_by source.bytes.length

end KeyRelay.Watcher
