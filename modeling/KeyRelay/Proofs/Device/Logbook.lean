import Mathlib.Data.List.Induction
import KeyRelay.Device.Callback
import KeyRelay.Proofs.Device.Precedence

/-! # Callbacks that change their device

Whoever has the device may configure it and switch it on and off, and so may a
callback while it runs. Everything that was done to the device, in order, tells
which callback is registered and whether the device is on. A step goes by what
was done before it, whatever a callback does while the step lasts. -/
set_option autoImplicit false

namespace KeyRelay

section Changes

variable {κ : Type}

/-- The callback that a change registers, if it registers one. -/
def DeviceChange.registers? : DeviceChange κ → Option κ
  | .configure callback => callback
  | _ => none

/-- How a change leaves the switch, if it moves it. -/
def DeviceChange.switches? : DeviceChange κ → Option Bool
  | .enable => some true
  | .disable => some false
  | .configure _ => none

/-- The callback that was registered last. -/
def lastRegistered (changes : List (DeviceChange κ)) : Option κ :=
  changes.reverse.findSome? DeviceChange.registers?

/-- Where the switch was moved last; a new device is off. -/
def switchedOn (changes : List (DeviceChange κ)) : Bool :=
  (changes.reverse.findSome? DeviceChange.switches?).getD false

namespace Device

theorem changeAll_append (device : Device κ) (first rest : List (DeviceChange κ)) :
    device.changeAll (first ++ rest) = (device.changeAll first).changeAll rest :=
  List.foldl_append

theorem callback_changeAll (changes : List (DeviceChange κ)) :
    (changeAll {} changes).callback = lastRegistered changes := by
  induction changes using List.reverseRecOn with
  | nil => rfl
  | append_singleton earlier last ih =>
    rw [lastRegistered] at ih
    rw [changeAll_append, lastRegistered, List.reverse_concat, List.findSome?_cons, ← ih]
    cases last with
    | enable => rfl
    | disable => rfl
    | configure callback => cases callback <;> rfl

theorem enabled_changeAll (changes : List (DeviceChange κ)) :
    (changeAll {} changes).enabled = switchedOn changes := by
  induction changes using List.reverseRecOn with
  | nil => rfl
  | append_singleton earlier last ih =>
    rw [changeAll_append, switchedOn, List.reverse_concat, List.findSome?_cons]
    cases last with
    | enable => rfl
    | disable => rfl
    | configure callback =>
      rw [switchedOn] at ih
      cases callback with
      | none => exact ih
      | some callback => exact ih

end Device

end Changes

inductive DeviceStep (κ : Type)
  /-- The device is configured, or switched on or off. -/
  | make (change : DeviceChange κ)
  | report (place : Coordinate) (pressed : Bool)
  | dispatch (command : Command)
  /-- A payload is decoded, and its command dispatched. -/
  | receive (payload : List UInt8)
  deriving DecidableEq, Repr

inductive Answer
  | done
  | notConfigured (failure : DeviceError)
  | delivery (delivery : Delivery)
  | outcome (outcome : Outcome)
  | undecodable (failure : Wire.DecodeError)
  deriving DecidableEq, Repr

/-- What became of a step: its answer, the device afterwards, and the calls made. -/
structure Performed (κ : Type) where
  answer : Answer
  device : Device κ
  calls : List (Call κ)
  deriving DecidableEq, Repr

namespace DeviceStep

variable {κ : Type}

def perform (geometry : Geometry) (react : Call κ → List (DeviceChange κ)) (device : Device κ) :
    DeviceStep κ → Performed κ
  | .make .enable => ⟨.done, device.enable, []⟩
  | .make .disable => ⟨.done, device.disable, []⟩
  | .make (.configure callback) =>
    match device.configure callback with
    | .ok configured => ⟨.done, configured, []⟩
    | .error failure => ⟨.notConfigured failure, device, []⟩
  | .report place pressed =>
    let reported := device.report react place pressed
    ⟨.delivery reported.delivery, reported.device, reported.calls⟩
  | .dispatch command =>
    let dispatched := command.dispatch react geometry device
    ⟨.outcome dispatched.outcome, dispatched.device, dispatched.calls⟩
  | .receive payload =>
    match Command.decode payload with
    | .error failure => ⟨.undecodable failure, device, []⟩
    | .ok command =>
      let dispatched := command.dispatch react geometry device
      ⟨.outcome dispatched.outcome, dispatched.device, dispatched.calls⟩

/-- What the step itself does to the device. -/
def ownChanges : DeviceStep κ → List (DeviceChange κ)
  | .make change => [change]
  | _ => []

/-- The key transition that an answer says was delivered. A report is told only
that it was. -/
def delivered? (step : DeviceStep κ) : Answer → Option (Coordinate × Bool)
  | .delivery .delivered =>
    match step with
    | .report place pressed => some (place, pressed)
    | _ => none
  | .outcome (.reported .delivered place pressed) => some (place, pressed)
  | _ => none

/-- The key transition that the step has for the device, if it has one. -/
def transition? (geometry : Geometry) : DeviceStep κ → Option (Coordinate × Bool)
  | .make _ => none
  | .report place pressed => some (place, pressed)
  | .dispatch command => (command.transition geometry).toOption
  | .receive payload =>
    (Command.decode payload).toOption.bind fun command => (command.transition geometry).toOption

end DeviceStep

section Performing

variable {κ : Type} (geometry : Geometry) (react : Call κ → List (DeviceChange κ))
  (device : Device κ)

/-- What a callback does to the device decides nothing about its own call. -/
theorem Device.report_reaction (other : Call κ → List (DeviceChange κ)) (place : Coordinate)
    (pressed : Bool) :
    (device.report react place pressed).delivery = (device.report other place pressed).delivery ∧
    (device.report react place pressed).calls = (device.report other place pressed).calls := by
  rw [report, report]
  split
  · split
    · exact ⟨rfl, rfl⟩
    · exact ⟨rfl, rfl⟩
  · exact ⟨rfl, rfl⟩

namespace DeviceStep

theorem not_delivered {delivery : Delivery} (undelivered : delivery ≠ .delivered)
    (step : DeviceStep κ) (place : Coordinate) (pressed : Bool) :
    step.delivered? (.delivery delivery) = none ∧
      step.delivered? (.outcome (.reported delivery place pressed)) = none := by
  cases delivery with
  | delivered => exact absurd rfl undelivered
  | disabled => exact ⟨rfl, rfl⟩
  | noCallback => exact ⟨rfl, rfl⟩

/-- A payload that decodes is as good as its command. -/
theorem receive_ok {payload : List UInt8} {command : Command}
    (decoded : Command.decode payload = .ok command) :
    (receive payload : DeviceStep κ).perform geometry react device =
        (dispatch command : DeviceStep κ).perform geometry react device ∧
      (receive payload : DeviceStep κ).transition? geometry =
        (dispatch command : DeviceStep κ).transition? geometry ∧
      (receive payload : DeviceStep κ).delivered? =
        (dispatch command : DeviceStep κ).delivered? := by
  refine ⟨?_, ?_, rfl⟩
  · simp only [perform, decoded]
  · simp only [transition?, decoded]
    rfl

theorem perform_make (change : DeviceChange κ) :
    (DeviceStep.make change).delivered?
      ((DeviceStep.make change).perform geometry react device).answer = none ∧
    ((DeviceStep.make change).perform geometry react device).device =
      device.changeAll [change] ∧
    ((DeviceStep.make change).perform geometry react device).calls = [] := by
  cases change with
  | enable => exact ⟨rfl, rfl, rfl⟩
  | disable => exact ⟨rfl, rfl, rfl⟩
  | configure callback =>
    cases callback with
    | none => exact ⟨rfl, rfl, rfl⟩
    | some callback => exact ⟨rfl, rfl, rfl⟩

/-- A step that has a transition for a device that is on and has a callback
makes one call, and what the callback does comes on top. Any other step makes
no call, and only its own changes. -/
def Follows (step : DeviceStep κ) : Prop :=
  (∃ call : Call κ, step.transition? geometry = some (call.place, call.pressed) ∧
      device.enabled = true ∧ device.callback = some call.callback ∧ step.ownChanges = [] ∧
      step.delivered? (step.perform geometry react device).answer =
        some (call.place, call.pressed) ∧
      (step.perform geometry react device).device = device.changeAll (react call) ∧
      (step.perform geometry react device).calls = [call]) ∨
    (step.transition? geometry = none ∨ device.enabled = false ∨ device.callback = none) ∧
      step.delivered? (step.perform geometry react device).answer = none ∧
      (step.perform geometry react device).device = device.changeAll step.ownChanges ∧
      (step.perform geometry react device).calls = []

theorem follows_report (place : Coordinate) (pressed : Bool) :
    Follows geometry react device (.report place pressed) := by
  rcases device.report_cases react place pressed with
    ⟨callback, enabled, registered, reported⟩ | ⟨off, delivery, undelivered, reported⟩
  · refine .inl ⟨⟨callback, place, pressed⟩, rfl, enabled, registered, rfl, ?_⟩
    rw [perform, reported]
    exact ⟨rfl, rfl, rfl⟩
  · refine .inr ⟨.inr off, ?_⟩
    rw [perform, reported]
    exact ⟨(not_delivered undelivered _ place pressed).1, rfl, rfl⟩

/-- A command that is not refused is the report of its transition. -/
theorem follows_dispatch (command : Command) :
    Follows geometry react device (.dispatch command) := by
  cases moved : command.transition geometry with
  | error cause =>
    refine .inr ⟨.inl ?_, ?_⟩
    · rw [transition?, moved]
      rfl
    · rw [perform, Command.dispatch_of_refused moved]
      exact ⟨rfl, rfl, rfl⟩
  | ok move =>
    obtain ⟨place, pressed⟩ := move
    have same : (dispatch command : DeviceStep κ).transition? geometry = some (place, pressed) := by
      rw [transition?, moved]
      rfl
    rcases device.report_cases react place pressed with
      ⟨callback, enabled, registered, reported⟩ | ⟨off, delivery, undelivered, reported⟩
    · refine .inl ⟨⟨callback, place, pressed⟩, same, enabled, registered, rfl, ?_⟩
      rw [perform, Command.dispatch_of_moved moved, reported]
      exact ⟨rfl, rfl, rfl⟩
    · refine .inr ⟨.inr off, ?_⟩
      rw [perform, Command.dispatch_of_moved moved, reported]
      exact ⟨(not_delivered undelivered _ place pressed).2, rfl, rfl⟩

theorem follows (step : DeviceStep κ) : Follows geometry react device step := by
  cases step with
  | make change =>
    obtain ⟨answer, changed, silent⟩ := perform_make geometry react device change
    exact .inr ⟨.inl rfl, answer, changed, silent⟩
  | report place pressed => exact follows_report geometry react device place pressed
  | dispatch command => exact follows_dispatch geometry react device command
  | receive payload =>
    cases decoded : Command.decode payload with
    | error failure =>
      refine .inr ⟨.inl ?_, ?_⟩
      · rw [transition?, decoded]
        rfl
      · simp only [perform, decoded]
        exact ⟨rfl, rfl, trivial⟩
    | ok command =>
      obtain ⟨performed, moved, told⟩ := receive_ok geometry react device decoded
      have same := follows_dispatch geometry react device command
      rw [Follows, ← performed, ← moved, ← told] at same
      exact same

/-- Answer and calls of a step are the same whatever its callback does. -/
theorem perform_reaction (other : Call κ → List (DeviceChange κ)) (step : DeviceStep κ) :
    (step.perform geometry other device).answer = (step.perform geometry react device).answer ∧
    (step.perform geometry other device).calls = (step.perform geometry react device).calls := by
  have dispatched : ∀ command : Command,
      ((dispatch command).perform geometry other device).answer =
          ((dispatch command).perform geometry react device).answer ∧
        ((dispatch command).perform geometry other device).calls =
          ((dispatch command).perform geometry react device).calls := by
    intro command
    cases moved : command.transition geometry with
    | error cause =>
      rw [perform, perform, Command.dispatch_of_refused moved, Command.dispatch_of_refused moved]
      exact ⟨rfl, rfl⟩
    | ok move =>
      obtain ⟨delivery, calls⟩ := device.report_reaction other react move.1 move.2
      simp only [perform, Command.dispatch_of_moved moved, delivery, calls, and_self]
  cases step with
  | make change => cases change <;> exact ⟨rfl, rfl⟩
  | report place pressed =>
    obtain ⟨delivery, calls⟩ := device.report_reaction other react place pressed
    simp only [perform, delivery, calls, and_self]
  | dispatch command => exact dispatched command
  | receive payload =>
    cases decoded : Command.decode payload with
    | error failure => simp only [perform, decoded, and_self]
    | ok command =>
      rw [(receive_ok geometry other device decoded).1,
        (receive_ok geometry react device decoded).1]
      exact dispatched command

end DeviceStep

end Performing

/-- A step, with what the callback does if one is called in it. It may do
something else every time. -/
structure DeviceUse (κ : Type) where
  step : DeviceStep κ
  react : Call κ → List (DeviceChange κ) := fun _ => []

/-- A device with what happened to it. -/
structure Logbook (κ : Type) where
  device : Device κ := {}
  /-- Everything that was done to the device, by its users and by callbacks. -/
  changes : List (DeviceChange κ) := []
  /-- The transitions that were delivered, as the answers tell. -/
  delivered : List (Coordinate × Bool) := []
  calls : List (Call κ) := []
  deriving DecidableEq, Repr

namespace Logbook

variable {κ : Type} (geometry : Geometry)

def enter (book : Logbook κ) (use : DeviceUse κ) : Logbook κ :=
  let performed := use.step.perform geometry use.react book.device
  { device := performed.device
    changes := book.changes ++ use.step.ownChanges ++ performed.calls.flatMap use.react
    delivered := book.delivered ++ (use.step.delivered? performed.answer).toList
    calls := book.calls ++ performed.calls }

def run (book : Logbook κ) (uses : List (DeviceUse κ)) : Logbook κ :=
  uses.foldl (enter geometry) book

/-- The device is what the changes make of a new one, and the calls are those of
the transitions that were delivered. -/
structure Kept (book : Logbook κ) : Prop where
  device : book.device = Device.changeAll {} book.changes
  calls : book.calls.map (fun call => (call.place, call.pressed)) = book.delivered

namespace Kept

variable {geometry} {book : Logbook κ}

theorem callback (kept : book.Kept) : book.device.callback = lastRegistered book.changes := by
  rw [kept.device, Device.callback_changeAll]

theorem enabled (kept : book.Kept) : book.device.enabled = switchedOn book.changes := by
  rw [kept.device, Device.enabled_changeAll]

theorem enter (kept : book.Kept) (use : DeviceUse κ) : (book.enter geometry use).Kept := by
  rcases use.step.follows geometry use.react book.device with
    ⟨call, _, _, _, own, told, changed, called⟩ | ⟨_, told, changed, called⟩
  · refine ⟨?_, ?_⟩
    · simp only [Logbook.enter, own, changed, called, List.append_nil, List.flatMap_singleton]
      rw [Device.changeAll_append, ← kept.device]
    · simp only [Logbook.enter, called, told, List.map_append, kept.calls, List.map_cons,
        List.map_nil, Option.toList_some]
  · refine ⟨?_, ?_⟩
    · simp only [Logbook.enter, changed, called, List.flatMap_nil, List.append_nil]
      rw [Device.changeAll_append, ← kept.device]
    · simp only [Logbook.enter, called, told, kept.calls, List.append_nil, Option.toList_none]

theorem run (kept : book.Kept) (uses : List (DeviceUse κ)) : (book.run geometry uses).Kept := by
  induction uses generalizing book with
  | nil => exact kept
  | cons use rest ih => exact ih (kept.enter use)

end Kept

/-- Whatever was done to a device before, by its users and by callbacks while
they ran, a step is delivered if the device was switched on last and a callback
was registered. Then the callback that was registered last is called once,
with the transition that the answer tells, and what it does counts from the next
step on. No other step makes a call. Configuring without a callback changes
nothing. A command has the first outcome that applies, and if that is a refusal
it is the same for every device, which stays as it is. -/
theorem callbacks_change_later_steps (before : List (DeviceUse κ)) (next : DeviceUse κ) :
    let now := run geometry {} before
    let performed := next.step.perform geometry next.react now.device
    let after := now.enter geometry next
    now.device = ⟨lastRegistered now.changes, switchedOn now.changes⟩ ∧
    now.calls.map (fun call => (call.place, call.pressed)) = now.delivered ∧
    (∀ place pressed, next.step.delivered? performed.answer = some (place, pressed) →
      ∃ callback, lastRegistered now.changes = some callback ∧ switchedOn now.changes = true ∧
        next.step.transition? geometry = some (place, pressed) ∧
        after.calls = now.calls ++ [⟨callback, place, pressed⟩] ∧
        after.changes = now.changes ++ next.react ⟨callback, place, pressed⟩) ∧
    (next.step.delivered? performed.answer = none →
      (next.step.transition? geometry = none ∨ switchedOn now.changes = false ∨
        lastRegistered now.changes = none) ∧
      after.calls = now.calls ∧ after.changes = now.changes ++ next.step.ownChanges) ∧
    (∀ other,
      (next.step.perform geometry other now.device).answer = performed.answer ∧
      (now.enter geometry ⟨next.step, other⟩).calls = after.calls) ∧
    (next.step = .make (.configure none) →
      performed.answer = .notConfigured .missingCallback ∧ after.device = now.device) ∧
    ∀ (command : Command) (react : Call κ → List (DeviceChange κ)) (device : Device κ),
      let outcome := (command.dispatch react geometry device).outcome
      Verdict.order.find? (Verdict.applies command geometry device) = some outcome.verdict ∧
      outcome.Tells command geometry ∧
      ∀ cause, outcome = .refused cause →
        ∀ (other : Call κ → List (DeviceChange κ)) (another : Device κ),
        command.dispatch other geometry another = ⟨.refused cause, another, []⟩ := by
  intro now performed after
  have kept : now.Kept := Kept.run ⟨rfl, rfl⟩ before
  have device : now.device = ⟨lastRegistered now.changes, switchedOn now.changes⟩ := by
    rw [← kept.callback, ← kept.enabled]
  refine ⟨device, kept.calls, ?_, ?_, ?_, ?_, ?_⟩
  · intro place pressed told
    rcases next.step.follows geometry next.react now.device with
      ⟨call, moves, enabled, registered, own, answer, _, called⟩ | ⟨_, silent, _⟩
    · have same : (place, pressed) = (call.place, call.pressed) :=
        Option.some.inj (told.symm.trans answer)
      rw [Prod.mk.injEq] at same
      obtain ⟨rfl, rfl⟩ := same
      refine ⟨call.callback, ?_, ?_, moves, ?_, ?_⟩
      · rw [← kept.callback, registered]
      · rw [← kept.enabled, enabled]
      · simp only [after, enter, called]
      · simp only [after, enter, called, own, List.append_nil, List.flatMap_singleton]
    · rw [silent] at told
      simp at told
  · intro told
    rcases next.step.follows geometry next.react now.device with
      ⟨call, _, _, _, _, answer, _⟩ | ⟨without, _, _, called⟩
    · rw [answer] at told
      simp at told
    · rw [kept.callback, kept.enabled] at without
      refine ⟨without, ?_, ?_⟩
      · simp only [after, enter, called, List.append_nil]
      · simp only [after, enter, called, List.flatMap_nil, List.append_nil]
  · intro other
    obtain ⟨answer, calls⟩ := next.step.perform_reaction geometry next.react now.device other
    refine ⟨answer, ?_⟩
    simp only [after, enter, calls]
  · intro same
    simp only [performed, after, enter, same]
    exact ⟨rfl, rfl⟩
  · intro command react device outcome
    exact ⟨command.find_verdict react geometry device, command.tells_dispatch react geometry device,
      fun cause refused => Command.dispatch_refused_anywhere refused⟩

/-- A callback that puts another in its place runs once. -/
def replaced : List (DeviceUse NamedCallback) :=
  [⟨.make (.configure (some (.replacing "a" (.disabling "b")))), NamedCallback.react⟩,
    ⟨.make .enable, NamedCallback.react⟩, ⟨.report ⟨0, 1⟩ true, NamedCallback.react⟩]

def pressSeven : DeviceUse NamedCallback :=
  ⟨.dispatch ⟨some (.press (.position 7))⟩, NamedCallback.react⟩

/-- The other gets the next transition and switches the device off, so that the
one behind it is dropped. -/
theorem callbacks_change_later_steps_replaced :
    ((run ⟨2, 5⟩ {} replaced).enter ⟨2, 5⟩ pressSeven).calls =
      [⟨.replacing "a" (.disabling "b"), ⟨0, 1⟩, true⟩, ⟨.disabling "b", ⟨1, 2⟩, true⟩] ∧
    ((run ⟨2, 5⟩ {} (replaced ++ [pressSeven])).enter ⟨2, 5⟩ pressSeven).calls =
      (run ⟨2, 5⟩ {} (replaced ++ [pressSeven])).calls ∧
    ((run ⟨2, 5⟩ {} replaced).enter ⟨2, 5⟩ { step := .make (.configure none) }).device =
      (run ⟨2, 5⟩ {} replaced).device ∧
    Command.dispatch (fun _ => []) ⟨2, 0⟩ ({ enabled := true } : Device NamedCallback)
        ⟨some (.press (.position 7))⟩ =
      ⟨.refused (.unresolvable ⟨7⟩), { enabled := true }, []⟩ := by
  obtain ⟨_, _, delivered, _⟩ := callbacks_change_later_steps ⟨2, 5⟩ replaced pressSeven
  obtain ⟨_, _, _, dropped, _⟩ :=
    callbacks_change_later_steps ⟨2, 5⟩ (replaced ++ [pressSeven]) pressSeven
  obtain ⟨_, _, _, _, _, unchanged, _⟩ :=
    callbacks_change_later_steps ⟨2, 5⟩ replaced { step := .make (.configure none) }
  obtain ⟨_, _, _, _, _, _, outcomes⟩ := callbacks_change_later_steps ⟨2, 0⟩ replaced pressSeven
  refine ⟨?_, (dropped (by decide +kernel)).2.1, (unchanged rfl).2, ?_⟩
  · obtain ⟨callback, registered, _, _, calls, _⟩ := delivered ⟨1, 2⟩ true (by decide +kernel)
    have second : lastRegistered (run ⟨2, 5⟩ {} replaced).changes = some (.disabling "b") := by
      decide +kernel
    rw [second, Option.some.injEq] at registered
    rw [calls, ← registered]
    decide +kernel
  · obtain ⟨_, _, refused⟩ := outcomes ⟨some (.press (.position 7))⟩ (fun _ => []) {}
    exact refused _ (by decide +kernel) _ _

end Logbook

end KeyRelay
