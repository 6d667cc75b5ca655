import KeyRelay.Device.CommandStream
import KeyRelay.Proofs.Frame.Receive

/-! # Commands from hostile connections

Whatever a connection sends, and however its bytes arrive, the commands taken
from it are those that decode among the whole frames at its front. They are
dispatched in order, and those of the next connection follow. What cannot be
read ends its own connection and touches no other. -/
set_option autoImplicit false

namespace KeyRelay

namespace Command

def received (source : Source) : List Command :=
  (Frame.split Size.command source.stream).1.filterMap fun payload => (decode payload).toOption

theorem received_of_split {source next : Source} {payload : List UInt8}
    (splits : Frame.split Size.command source.stream =
      (payload :: (Frame.split Size.command next.stream).1,
        (Frame.split Size.command next.stream).2)) :
    received source = (decode payload).toOption.toList ++ received next := by
  rw [received, splits, received]
  cases decoded : decode payload with
  | error failure => simp [decoded, Except.toOption]
  | ok command => simp [decoded, Except.toOption]

/-- Dispatches commands in order: each meets the device that the last one left. -/
def dispatchAll {κ : Type} (react : Call κ → List (DeviceChange κ)) (geometry : Geometry) :
    Device κ → List Command → Device κ × List (Call κ)
  | device, [] => (device, [])
  | device, command :: rest =>
    let first := command.dispatch react geometry device
    let (last, calls) := dispatchAll react geometry first.device rest
    (last, first.calls ++ calls)

end Command

section Dispatching

variable {κ : Type} {geometry : Geometry}

/-- A transition makes one call, of the callback that was there, or does nothing. -/
theorem Device.report_cases (react : Call κ → List (DeviceChange κ)) (device : Device κ)
    (place : Coordinate) (pressed : Bool) :
    (∃ callback, device.enabled = true ∧ device.callback = some callback ∧
      device.report react place pressed =
        ⟨.delivered, device.changeAll (react ⟨callback, place, pressed⟩),
          [⟨callback, place, pressed⟩]⟩) ∨
    (device.enabled = false ∨ device.callback = none) ∧
      ∃ delivery, delivery ≠ .delivered ∧
        device.report react place pressed = ⟨delivery, device, []⟩ := by
  by_cases enabled : device.enabled
  · cases registered : device.callback with
    | none =>
      refine .inr ⟨.inr rfl, .noCallback, nofun, ?_⟩
      simp only [report, if_pos enabled, registered]
    | some callback =>
      refine .inl ⟨callback, enabled, rfl, ?_⟩
      simp only [report, if_pos enabled, registered]
  · refine .inr ⟨.inl (eq_false_of_ne_true enabled), .disabled, nofun, ?_⟩
    rw [report, if_neg enabled]

theorem Command.dispatch_of_refused {command : Command} {cause : Refusal}
    (refused : command.transition geometry = .error cause)
    (react : Call κ → List (DeviceChange κ)) (device : Device κ) :
    command.dispatch react geometry device = ⟨.refused cause, device, []⟩ := by
  rw [dispatch, refused]

theorem Command.dispatch_of_moved {command : Command} {place : Coordinate} {pressed : Bool}
    (moved : command.transition geometry = .ok (place, pressed))
    (react : Call κ → List (DeviceChange κ)) (device : Device κ) :
    command.dispatch react geometry device =
      ⟨.reported (device.report react place pressed).delivery place pressed,
        (device.report react place pressed).device,
        (device.report react place pressed).calls⟩ := by
  rw [dispatch, moved]

end Dispatching

section Serving

variable {κ : Type} (react : Call κ → List (DeviceChange κ)) (geometry : Geometry)

theorem Command.dispatchAll_append (device : Device κ) (first rest : List Command) :
    dispatchAll react geometry device (first ++ rest) =
      ((dispatchAll react geometry (dispatchAll react geometry device first).1 rest).1,
        (dispatchAll react geometry device first).2 ++
          (dispatchAll react geometry (dispatchAll react geometry device first).1 rest).2) := by
  induction first generalizing device with
  | nil => rfl
  | cons command others ih =>
    rw [List.cons_append, dispatchAll, dispatchAll, ih]
    simp only [List.append_assoc]

/-- A command makes one call if it was delivered, and none and no change otherwise. -/
theorem Command.dispatch_cases (device : Device κ) (command : Command) :
    ((∀ place pressed,
        (command.dispatch react geometry device).outcome ≠ .reported .delivered place pressed) ∧
      (command.dispatch react geometry device).calls = [] ∧
      (command.dispatch react geometry device).device = device) ∨
    ∃ callback place pressed,
      command.transition geometry = .ok (place, pressed) ∧
      device.enabled ∧ device.callback = some callback ∧
      (command.dispatch react geometry device).outcome = .reported .delivered place pressed ∧
      (command.dispatch react geometry device).calls = [⟨callback, place, pressed⟩] := by
  cases moved : command.transition geometry with
  | error cause =>
    rw [dispatch_of_refused moved]
    exact .inl ⟨nofun, rfl, rfl⟩
  | ok move =>
    obtain ⟨place, pressed⟩ := move
    rw [dispatch_of_moved moved]
    rcases device.report_cases react place pressed with
      ⟨callback, enabled, registered, reported⟩ | ⟨_, delivery, undelivered, reported⟩
    · rw [reported]
      exact .inr ⟨callback, place, pressed, rfl, enabled, registered, rfl, rfl⟩
    · rw [reported]
      refine .inl ⟨?_, rfl, rfl⟩
      intro _ _ same
      exact undelivered (Outcome.reported.inj same).1

theorem serveCommands_of_payload {device : Device κ} {source next : Source} {payload : List UInt8}
    (received : Frame.receive source Size.command = (.ok payload, next)) :
    serveCommands react geometry device source =
      let commands := (Command.decode payload).toOption.toList
      let (between, calls) := Command.dispatchAll react geometry device commands
      { serveCommands react geometry between next with
        calls := calls ++ (serveCommands react geometry between next).calls } := by
  rw [serveCommands]
  split
  next call => simp [received] at call
  next call =>
    simp only [received, Prod.mk.injEq, Except.ok.injEq] at call
    obtain ⟨rfl, rfl⟩ := call
    cases decoded : Command.decode payload with
    | error failure => rfl
    | ok command =>
      simp only [Except.toOption, Option.toList_some, Command.dispatchAll, List.append_nil]

theorem serveCommands_of_failure {device : Device κ} {source next : Source} {ending : FrameError}
    (received : Frame.receive source Size.command = (.error ending, next)) :
    serveCommands react geometry device source = ⟨device, [], ending, next⟩ := by
  rw [serveCommands]
  split
  next call =>
    simp only [received, Prod.mk.injEq, Except.error.injEq] at call
    obtain ⟨rfl, rfl⟩ := call
    rfl
  next call => simp [received] at call

/-- A connection dispatches its own commands, and ends with what is behind its whole frames. -/
theorem serveCommands_spec (device : Device κ) (source : Source) :
    let rest := (Frame.split Size.command source.stream).2
    ∃ unread : Source, serveCommands react geometry device source =
      ⟨(Command.dispatchAll react geometry device (Command.received source)).1,
        (Command.dispatchAll react geometry device (Command.received source)).2,
        Frame.endError Size.command rest source.ending, unread⟩ ∧
      (Frame.Oversized Size.command rest → unread.stream = rest.drop Frame.headerLength) := by
  induction size : source.stream.length using Nat.strongRecOn generalizing device source with
  | ind total ih =>
    have bounded : Size.command < UInt32.size := by decide
    rcases Frame.receive_cases bounded source with
      ⟨payload, next, taken, splits, nextEnding, shorter⟩ | ⟨next, failed, splits, oversized⟩
    · -- The others meet the device that this command left, if there was one.
      obtain ⟨unread, served, unreadStream⟩ := ih _ (size ▸ shorter)
        (Command.dispatchAll react geometry device (Command.decode payload).toOption.toList).1
        next rfl
      rw [Command.received_of_split splits, Command.dispatchAll_append,
        serveCommands_of_payload react geometry taken, splits, ← nextEnding]
      refine ⟨unread, ?_, unreadStream⟩
      simp only [served]
    · rw [serveCommands_of_failure react geometry failed, Command.received, splits]
      exact ⟨next, rfl, oversized⟩

theorem serveConnections_eq (device : Device κ) (sources : List Source) :
    serveConnections react geometry device sources =
      Command.dispatchAll react geometry device (sources.flatMap Command.received) := by
  induction sources generalizing device with
  | nil => rfl
  | cons source rest ih =>
    obtain ⟨unread, served, _⟩ := serveCommands_spec react geometry device source
    rw [serveConnections, served, List.flatMap_cons, Command.dispatchAll_append, ih]

/-- Any number of connections, each with any bytes in any pieces, make the calls
of the commands among the whole frames at the front of each, in order. An
oversized announcement ends its connection with only the header taken, a cut
frame ends it as the stream ended, and a command makes a call only if it was
delivered. -/
theorem command_ingestion (device : Device κ) (sources : List Source) :
    serveConnections react geometry device sources =
      Command.dispatchAll react geometry device (sources.flatMap Command.received) ∧
    (∀ source : Source, ∃ payloads rest,
      Frame.Split Size.command source.stream payloads rest ∧
      Command.received source =
        payloads.filterMap (fun payload => (Command.decode payload).toOption) ∧
      ∀ before : Device κ,
        ((serveCommands react geometry before source).device,
          (serveCommands react geometry before source).calls) =
            Command.dispatchAll react geometry before (Command.received source) ∧
        (Frame.Oversized Size.command rest →
          (serveCommands react geometry before source).ending =
            .oversized (Frame.declared rest) Size.command ∧
          (serveCommands react geometry before source).unread.stream =
            rest.drop Frame.headerLength) ∧
        (¬ Frame.Oversized Size.command rest →
          (serveCommands react geometry before source).ending = .ofFailure source.ending)) ∧
    (∀ arrivals ending : Source, arrivals.Flows →
      (ending = [] ∨ ∃ cause, ending = [.failure cause] ∧ cause.kind ≠ .interrupted) →
      Source.stream (arrivals ++ ending) = arrivals.bytes) ∧
    ∀ (before : Device κ) (command : Command),
      ((∀ place pressed,
          (command.dispatch react geometry before).outcome ≠ .reported .delivered place pressed) ∧
        (command.dispatch react geometry before).calls = [] ∧
        (command.dispatch react geometry before).device = before) ∨
      ∃ callback place pressed,
        command.transition geometry = .ok (place, pressed) ∧
        before.enabled ∧ before.callback = some callback ∧
        (command.dispatch react geometry before).outcome = .reported .delivered place pressed ∧
        (command.dispatch react geometry before).calls = [⟨callback, place, pressed⟩] := by
  refine ⟨serveConnections_eq react geometry device sources, ?_, ?_,
    Command.dispatch_cases react geometry⟩
  · intro source
    refine ⟨(Frame.split Size.command source.stream).1, (Frame.split Size.command source.stream).2,
      Frame.split_spec Size.command (by decide) source.stream, rfl, ?_⟩
    intro before
    obtain ⟨unread, served, unreadStream⟩ := serveCommands_spec react geometry before source
    rw [served]
    refine ⟨rfl, ?_, ?_⟩
    · intro oversized
      exact ⟨if_pos oversized, unreadStream oversized⟩
    · intro allowed
      exact if_neg allowed
  · intro arrivals ending flows ends
    have spent : Source.stream ending = [] := by
      rcases ends with rfl | ⟨cause, rfl, final⟩
      · rfl
      · exact if_neg final
    rw [Source.stream_append flows, spent, List.append_nil]

end Serving

/-- A press, a frame that does not decode, and an oversized announcement in
front of what would be a press. -/
def oversizedArrivals : Source :=
  [.chunk [0, 0, 0], .failure ⟨.interrupted, none⟩,
    .chunk [4, 10, 2, 24, 7, 0, 0, 0, 1, 255, 0, 0], .chunk [0, 28, 0, 0, 0, 4, 10, 2, 24, 8]]

/-- A release, and the header of a frame that does not come. -/
def cutArrivals : Source :=
  [.chunk [0, 0, 0, 6, 10, 4, 8, 1, 24], .chunk [7, 0, 0, 0, 4]]

theorem command_ingestion_oversized_then_cut :
    (serveConnections (fun _ => []) ⟨2, 5⟩ { callback := some (), enabled := true }
      [oversizedArrivals ++ [.failure ⟨.connectionReset, none⟩], cutArrivals]).2 =
        [⟨(), ⟨1, 2⟩, true⟩, ⟨(), ⟨1, 2⟩, false⟩] ∧
    Source.stream (oversizedArrivals ++ [.failure ⟨.connectionReset, none⟩]) =
      oversizedArrivals.bytes ∧
    ∃ rest, Frame.Oversized Size.command rest ∧
      (serveCommands (fun _ => []) ⟨2, 5⟩ { callback := some (), enabled := true }
        oversizedArrivals).ending = .oversized (Frame.declared rest) Size.command := by
  have flows : oversizedArrivals.Flows := by
    simp [Source.Flows, oversizedArrivals]
  obtain ⟨calls, ending, bytes, _⟩ := command_ingestion (fun _ : Call Unit => []) ⟨2, 5⟩
    { callback := some (), enabled := true }
    [oversizedArrivals ++ [.failure ⟨.connectionReset, none⟩], cutArrivals]
  obtain ⟨payloads, rest, cut, _, served⟩ := ending oversizedArrivals
  have behind : rest = [0, 0, 0, 28, 0, 0, 0, 4, 10, 2, 24, 8] := by
    have only := cut.split_eq (by decide)
    have found : (Frame.split Size.command oversizedArrivals.stream).2 =
        [0, 0, 0, 28, 0, 0, 0, 4, 10, 2, 24, 8] := by
      decide +kernel
    rw [only] at found
    exact found
  have oversized : Frame.Oversized Size.command rest := by
    rw [behind]
    decide
  refine ⟨?_, bytes _ _ flows (.inr ⟨_, rfl, by decide⟩), rest, oversized,
    ((served _).2.1 oversized).1⟩
  rw [calls]
  decide +kernel

end KeyRelay
