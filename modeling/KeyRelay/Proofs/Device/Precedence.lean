import KeyRelay.Proofs.Device.Ingestion

/-! # Which outcome a command has

A command can be at fault in several ways at once, and so can the device. There
is a fixed order of what is told first. What comes before the device in this
order does not depend on it and leaves it as it is. -/
set_option autoImplicit false

namespace KeyRelay

/-- The kinds of outcome. -/
inductive Verdict
  | missingPayload
  | unrecognizedAction
  | missingAddress
  | unresolvable
  | disabled
  | noCallback
  | delivered
  deriving DecidableEq, Repr

def Refusal.verdict : Refusal → Verdict
  | .missingPayload => .missingPayload
  | .unrecognizedAction _ => .unrecognizedAction
  | .missingAddress => .missingAddress
  | .unresolvable _ => .unresolvable

def Delivery.verdict : Delivery → Verdict
  | .disabled => .disabled
  | .noCallback => .noCallback
  | .delivered => .delivered

def Outcome.verdict : Outcome → Verdict
  | .refused cause => cause.verdict
  | .reported delivery _ _ => delivery.verdict

/-- A position counts along the rows, which takes columns. -/
def KeyAddress.lacksColumns (geometry : Geometry) : KeyAddress → Bool
  | .coordinate _ => false
  | .position _ => geometry.columns = 0

namespace Verdict

variable {κ : Type}

/-- What could be told of a command, each kind by itself. -/
def applies (command : Command) (geometry : Geometry) (device : Device κ) : Verdict → Bool
  | .missingPayload => command.keyEvent.isNone
  | .unrecognizedAction => command.keyEvent.any fun event => event.action.pressed?.isNone
  | .missingAddress => command.keyEvent.any fun event => event.address.isNone
  | .unresolvable => command.keyEvent.any fun event => event.address.any (·.lacksColumns geometry)
  | .disabled => !device.enabled
  | .noCallback => device.callback.isNone
  | .delivered => true

def refusals : List Verdict :=
  [.missingPayload, .unrecognizedAction, .missingAddress, .unresolvable]

def deliveries : List Verdict :=
  [.disabled, .noCallback, .delivered]

/-- The order in which they are told. -/
def order : List Verdict :=
  refusals ++ deliveries

end Verdict

/-- The data of an outcome are those of the command. -/
def Outcome.Tells (command : Command) (geometry : Geometry) : Outcome → Prop
  | .refused .missingPayload => True
  | .refused (.unrecognizedAction code) =>
    ∃ event, command.keyEvent = some event ∧ event.action = .unrecognized code
  | .refused .missingAddress => True
  | .refused (.unresolvable failure) =>
    ∃ event, command.keyEvent = some event ∧ event.address = some (.position failure.position)
  | .reported _ place pressed =>
    ∃ event address, command.keyEvent = some event ∧ event.action.pressed? = some pressed ∧
      event.address = some address ∧ address.resolve geometry = .ok place

theorem KeyAddress.resolve_cases (address : KeyAddress) (geometry : Geometry) :
    (∃ place, address.resolve geometry = .ok place ∧ address.lacksColumns geometry = false) ∨
    ∃ index, address = .position index ∧ address.resolve geometry = .error ⟨index⟩ ∧
      address.lacksColumns geometry = true := by
  cases address with
  | coordinate place => exact .inl ⟨place, rfl, rfl⟩
  | position index =>
    by_cases columns : geometry.columns = 0
    · exact .inr ⟨index, rfl, if_pos columns, decide_eq_true columns⟩
    · exact .inl ⟨_, if_neg columns, decide_eq_false columns⟩

namespace Command

variable {κ : Type} {geometry : Geometry}

/-- What a command can be, with what comes of it in every case. -/
theorem transition_parts (command : Command) (geometry : Geometry) :
    (command.keyEvent = none ∧ command.transition geometry = .error .missingPayload) ∨
    ∃ event, command.keyEvent = some event ∧
      ((∃ code, event.action = .unrecognized code ∧
          command.transition geometry = .error (.unrecognizedAction code)) ∨
        ∃ pressed, event.action.pressed? = some pressed ∧
          ((event.address = none ∧ command.transition geometry = .error .missingAddress) ∨
            ∃ address, event.address = some address ∧
              ((∃ place, address.resolve geometry = .ok place ∧
                  address.lacksColumns geometry = false ∧
                  command.transition geometry = .ok (place, pressed)) ∨
                ∃ index, address = .position index ∧ address.lacksColumns geometry = true ∧
                  command.transition geometry = .error (.unresolvable ⟨index⟩)))) := by
  obtain ⟨_ | event⟩ := command
  · exact .inl ⟨rfl, rfl⟩
  · refine .inr ⟨event, rfl, ?_⟩
    -- A press and a release differ in the direction alone.
    have directed : ∀ pressed, event.action.pressed? = some pressed →
        transition ⟨some event⟩ geometry = transition.resolved geometry event.address pressed := by
      intro pressed named
      cases action : event.action with
      | press =>
        rw [action, KeyAction.pressed?, Option.some.injEq] at named
        simp only [transition, action, named]
      | release =>
        rw [action, KeyAction.pressed?, Option.some.injEq] at named
        simp only [transition, action, named]
      | unrecognized code => simp [action, KeyAction.pressed?] at named
    cases named : event.action.pressed? with
    | none =>
      cases action : event.action with
      | press => simp [action, KeyAction.pressed?] at named
      | release => simp [action, KeyAction.pressed?] at named
      | unrecognized code => exact .inl ⟨code, rfl, by simp only [transition, action]⟩
    | some pressed =>
      refine .inr ⟨pressed, rfl, ?_⟩
      rw [directed pressed named]
      cases given : event.address with
      | none => exact .inl ⟨rfl, rfl⟩
      | some address =>
        refine .inr ⟨address, rfl, ?_⟩
        rcases address.resolve_cases geometry with
          ⟨place, found, columns⟩ | ⟨index, rfl, lost, columns⟩
        · exact .inl ⟨place, found, columns, by simp only [transition.resolved, found]⟩
        · exact .inr ⟨index, rfl, columns, by simp only [transition.resolved, lost]⟩

/-- Of the faults that a command has the first is told. -/
theorem find_refusal (command : Command) (geometry : Geometry) (device : Device κ) :
    Verdict.refusals.find? (Verdict.applies command geometry device) =
      match command.transition geometry with
      | .error cause => some cause.verdict
      | .ok _ => none := by
  rcases command.transition_parts geometry with ⟨absent, moved⟩ |
    ⟨event, present, ⟨code, action, moved⟩ | ⟨pressed, named, ⟨missing, moved⟩ |
      ⟨address, given, ⟨place, found, columns, moved⟩ | ⟨index, rfl, columns, moved⟩⟩⟩⟩
  · simp [Verdict.refusals, Verdict.applies, absent, moved, Refusal.verdict]
  · simp [Verdict.refusals, Verdict.applies, present, action, KeyAction.pressed?, moved,
      Refusal.verdict]
  · simp [Verdict.refusals, Verdict.applies, present, named, missing, moved, Refusal.verdict]
  · simp [Verdict.refusals, Verdict.applies, present, named, given, columns, moved]
  · simp [Verdict.refusals, Verdict.applies, present, named, given, columns, moved,
      Refusal.verdict]

/-- Of what keeps the device from delivering the first is told. -/
theorem find_delivery (react : Call κ → List (DeviceChange κ)) (command : Command)
    (device : Device κ) (place : Coordinate) (pressed : Bool) :
    Verdict.deliveries.find? (Verdict.applies command geometry device) =
      some (device.report react place pressed).delivery.verdict := by
  by_cases enabled : device.enabled
  · cases registered : device.callback with
    | none =>
      simp [Verdict.deliveries, Verdict.applies, Device.report, enabled, registered,
        Delivery.verdict]
    | some callback =>
      simp [Verdict.deliveries, Verdict.applies, Device.report, enabled, registered,
        Delivery.verdict]
  · simp [Verdict.deliveries, Verdict.applies, Device.report, enabled, Delivery.verdict]

/-- The outcome of a command is the first that applies. -/
theorem find_verdict (react : Call κ → List (DeviceChange κ)) (geometry : Geometry)
    (device : Device κ) (command : Command) :
    Verdict.order.find? (Verdict.applies command geometry device) =
      some (command.dispatch react geometry device).outcome.verdict := by
  rw [Verdict.order, List.find?_append, find_refusal]
  cases moved : command.transition geometry with
  | error cause =>
    rw [dispatch_of_refused moved]
    rfl
  | ok move =>
    obtain ⟨place, pressed⟩ := move
    rw [dispatch_of_moved moved, find_delivery react command device place pressed]
    rfl

theorem tells_dispatch (react : Call κ → List (DeviceChange κ)) (geometry : Geometry)
    (device : Device κ) (command : Command) :
    (command.dispatch react geometry device).outcome.Tells command geometry := by
  rcases command.transition_parts geometry with ⟨absent, moved⟩ |
    ⟨event, present, ⟨code, action, moved⟩ | ⟨pressed, named, ⟨missing, moved⟩ |
      ⟨address, given, ⟨place, found, columns, moved⟩ | ⟨index, rfl, columns, moved⟩⟩⟩⟩
  · rw [dispatch_of_refused moved]
    exact trivial
  · rw [dispatch_of_refused moved]
    exact ⟨event, present, action⟩
  · rw [dispatch_of_refused moved]
    exact trivial
  · rw [dispatch_of_moved moved]
    exact ⟨event, address, present, named, given, found⟩
  · rw [dispatch_of_refused moved]
    exact ⟨event, present, given⟩

/-- A refused command is refused by every device in the same way, and leaves each as it is. -/
theorem dispatch_refused_anywhere {react : Call κ → List (DeviceChange κ)} {device : Device κ}
    {command : Command} {cause : Refusal}
    (refused : (command.dispatch react geometry device).outcome = .refused cause)
    (other : Call κ → List (DeviceChange κ)) (another : Device κ) :
    command.dispatch other geometry another = ⟨.refused cause, another, []⟩ := by
  cases moved : command.transition geometry with
  | error found =>
    rw [dispatch_of_refused moved, Outcome.refused.injEq] at refused
    rw [dispatch_of_refused moved, refused]
  | ok move =>
    rw [dispatch_of_moved moved] at refused
    simp at refused

end Command

end KeyRelay
