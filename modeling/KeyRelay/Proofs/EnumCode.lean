import KeyRelay.Proofs.Device.Precedence
import KeyRelay.Proofs.Message.CommandForm
import KeyRelay.Proofs.Message.EventForm

/-! # Numbers in place of names

An action and a transport travel as numbers of 64 bits, of which the low half
counts. A low half without a name is never taken for one that has a name: a
command is refused with it, and an event is not decoded. Only the last action of
a command matters, but every transport in an event has to have a name, also in
an endpoint that a later one replaces. -/
set_option autoImplicit false

namespace KeyRelay

open Wire

namespace KeyAction

theorem pressed?_ofCode_eq_some {code : Int32} {pressed : Bool} :
    (ofCode code).pressed? = some pressed ↔ code = if pressed then 0 else 1 := by
  unfold ofCode
  split
  next zero => cases pressed <;> simp [pressed?, zero]
  next notZero =>
    split
    next one => cases pressed <;> simp [pressed?, one]
    next notOne => cases pressed <;> simp [pressed?, notZero, notOne]

theorem pressed?_ofCode_eq_none {code : Int32} :
    (ofCode code).pressed? = none ↔ code ≠ 0 ∧ code ≠ 1 := by
  unfold ofCode
  split
  next zero => simp [pressed?, zero]
  next notZero =>
    split
    next one => simp [pressed?, one]
    next notOne => simp [pressed?, notZero, notOne]

end KeyAction

/-! ## Actions -/

/-- The number of the last action in some fields, or zero where there is none. -/
def KeyEvent.actionNumber (fields : List Field) : UInt64 :=
  match lastOf [1] fields with
  | some ⟨_, .varint value⟩ => value
  | _ => 0

theorem KeyEvent.GivenBy.action_eq {event : KeyEvent} {fields : List Field}
    (given : event.GivenBy fields) :
    event.action = .ofCode (int32 (actionNumber fields)) := by
  have last := given.action.last
  rw [actionNumber]
  cases final : lastOf [1] fields with
  | none =>
    rw [final] at last
    rw [last]
    rfl
  | some field =>
    obtain ⟨number, content⟩ := field
    rw [final] at last
    obtain ⟨value, rfl, code, low, named⟩ := last
    rw [← named, ← int32_eq_iff.mpr low]

namespace Command

/-- A number that the last key event in some bytes has for its action. -/
def ActionNumber (bytes : List UInt8) (value : UInt64) : Prop :=
  ∃ fields content body, Forms fields bytes ∧
    lastOf [1] fields = some ⟨1, .lengthDelimited content⟩ ∧
    Forms body content ∧ KeyEvent.actionNumber body = value

theorem ActionNumber.unique {bytes : List UInt8} {value other : UInt64}
    (first : ActionNumber bytes value) (second : ActionNumber bytes other) : value = other := by
  obtain ⟨fields, content, body, forms, last, bodyForms, rfl⟩ := first
  obtain ⟨fields', content', body', forms', last', bodyForms', rfl⟩ := second
  cases forms.unique forms'
  rw [last] at last'
  cases last'
  rw [bodyForms.unique bodyForms']

/-- An accepted key event has its action by the number that it travelled with. -/
theorem exists_actionNumber {bytes : List UInt8} {event : KeyEvent}
    (decoded : decode bytes = .ok ⟨some event⟩) :
    ∃ value, ActionNumber bytes value ∧ event.action = .ofCode (int32 value) := by
  obtain ⟨fields, forms, given⟩ := decode_eq_ok.mp decoded
  obtain ⟨_, ⟨number, content⟩, last, body, rfl, eventFields, bodyForms, eventGiven⟩ :=
    gives_present_some.mp given
  have number_eq : number = 1 := by
    simpa using (mem_of_lastOf last).2
  rw [number_eq] at last
  exact ⟨_, ⟨fields, body, eventFields, forms, last, bodyForms, rfl⟩, eventGiven.action_eq⟩

/-- A named action gives the direction, and only the address can be refused. An
action without a name is refused before the address is looked at. -/
theorem transition_cases (event : KeyEvent) (geometry : Geometry) :
    match event.action.pressed? with
    | some pressed =>
      (∃ place, transition ⟨some event⟩ geometry = .ok (place, pressed)) ∨
        transition ⟨some event⟩ geometry = .error .missingAddress ∨
        ∃ failure, transition ⟨some event⟩ geometry = .error (.unresolvable failure)
    | none =>
      transition ⟨some event⟩ geometry = .error (.unrecognizedAction event.action.code) := by
  rcases transition_parts ⟨some event⟩ geometry with ⟨absent, _⟩ | ⟨own, present, parts⟩
  · simp at absent
  · obtain rfl := Option.some.inj present
    rcases parts with ⟨code, action, moved⟩ | ⟨pressed, named, ⟨_, moved⟩ |
      ⟨_, _, ⟨place, _, _, moved⟩ | ⟨index, _, _, moved⟩⟩⟩
    · rw [action]
      exact moved
    · rw [named]
      exact .inr (.inl moved)
    · rw [named]
      exact .inl ⟨place, moved⟩
    · rw [named]
      exact .inr (.inr ⟨⟨index⟩, moved⟩)

theorem pressed?_of_transition {event : KeyEvent} {geometry : Geometry} {place : Coordinate}
    {pressed : Bool} (moved : transition ⟨some event⟩ geometry = .ok (place, pressed)) :
    event.action.pressed? = some pressed := by
  have possible := transition_cases event geometry
  rw [moved] at possible
  cases named : event.action.pressed? with
  | none => simp [named] at possible
  | some direction =>
    simp only [named, Except.ok.injEq, Prod.mk.injEq, reduceCtorEq, exists_false,
      or_false] at possible
    obtain ⟨_, _, rfl⟩ := possible
    rfl

variable {κ : Type} {react : Call κ → List (DeviceChange κ)} {geometry : Geometry}
  {device : Device κ}

theorem transition_of_reported {command : Command} {delivery : Delivery} {place : Coordinate}
    {pressed : Bool}
    (reported : (command.dispatch react geometry device).outcome =
      .reported delivery place pressed) :
    command.transition geometry = .ok (place, pressed) := by
  cases moved : command.transition geometry with
  | error cause => simp [dispatch, moved] at reported
  | ok move =>
    simp only [dispatch, moved, Outcome.reported.injEq] at reported
    obtain ⟨_, rfl, rfl⟩ := reported
    rfl

theorem transition_of_call {command : Command} {call : Call κ}
    (called : call ∈ (command.dispatch react geometry device).calls) :
    command.transition geometry = .ok (call.place, call.pressed) := by
  rcases dispatch_cases react geometry device command with
    ⟨_, silent, _⟩ | ⟨_, _, _, moved, _, _, _, calls⟩
  · simp [silent] at called
  · rw [calls, List.mem_singleton] at called
    rw [called, moved]

theorem dispatch_of_unnamed {event : KeyEvent} (unnamed : event.action.pressed? = none) :
    dispatch react geometry device ⟨some event⟩ =
      ⟨.refused (.unrecognizedAction event.action.code), device, []⟩ := by
  have possible := transition_cases event geometry
  rw [unnamed] at possible
  rw [dispatch, possible]

theorem unnamed_of_refused {event : KeyEvent} {code : Int32}
    (refused : (dispatch react geometry device ⟨some event⟩).outcome =
      .refused (.unrecognizedAction code)) :
    event.action.pressed? = none ∧ event.action.code = code := by
  have possible := transition_cases event geometry
  cases named : event.action.pressed? with
  | none =>
    rw [dispatch_of_unnamed named] at refused
    cases refused
    exact ⟨rfl, rfl⟩
  | some pressed =>
    rw [named] at possible
    rcases possible with ⟨place, moved⟩ | moved | ⟨failure, moved⟩
    · simp [dispatch, moved] at refused
    · simp [dispatch, moved] at refused
    · simp [dispatch, moved] at refused

/-- What comes of a command whose action has some number. -/
structure FollowsAction (value : UInt64) (device : Device κ) (dispatched : Dispatched κ) :
    Prop where
  press : ∀ delivery place, dispatched.outcome = .reported delivery place true →
    value.toNat % 2 ^ 32 = 0
  release : ∀ delivery place, dispatched.outcome = .reported delivery place false →
    value.toNat % 2 ^ 32 = 1
  calls : ∀ call ∈ dispatched.calls, value.toNat % 2 ^ 32 = if call.pressed then 0 else 1
  other : value.toNat % 2 ^ 32 ∉ [0, 1] →
    ∃ code, LowHalf value code ∧ dispatched = ⟨.refused (.unrecognizedAction code), device, []⟩
  refused : ∀ code, dispatched.outcome = .refused (.unrecognizedAction code) →
    LowHalf value code ∧ value.toNat % 2 ^ 32 ∉ [0, 1]

theorem followsAction {event : KeyEvent} {value : UInt64}
    (named : event.action = .ofCode (int32 value)) :
    FollowsAction value device (dispatch react geometry device ⟨some event⟩) := by
  have low := LowHalf.int32 value
  have moves : ∀ place pressed, transition ⟨some event⟩ geometry = .ok (place, pressed) →
      value.toNat % 2 ^ 32 = if pressed then 0 else 1 := by
    intro place pressed moved
    have direction := pressed?_of_transition moved
    rw [named, KeyAction.pressed?_ofCode_eq_some] at direction
    cases pressed with
    | true => exact low.eq_iff.mp direction
    | false => exact low.eq_iff.mp direction
  have unnamed : event.action.pressed? = none ↔ value.toNat % 2 ^ 32 ∉ [0, 1] := by
    rw [named, KeyAction.pressed?_ofCode_eq_none, ne_eq, ne_eq, low.eq_iff, low.eq_iff,
      List.mem_cons, List.mem_singleton, not_or]
    rfl
  have code : event.action.code = int32 value := by
    rw [named, KeyAction.code_ofCode]
  refine ⟨?_, ?_, ?_, ?_, ?_⟩
  · intro delivery place reported
    exact moves place true (transition_of_reported reported)
  · intro delivery place reported
    exact moves place false (transition_of_reported reported)
  · intro call called
    exact moves call.place call.pressed (transition_of_call called)
  · intro other
    refine ⟨int32 value, low, ?_⟩
    rw [dispatch_of_unnamed (unnamed.mpr other), code]
  · intro found refused
    obtain ⟨nameless, same⟩ := unnamed_of_refused refused
    rw [← same, code]
    exact ⟨low, unnamed.mp nameless⟩

end Command

/-! ## Transports -/

theorem Endpoint.Form.low_transport {endpoint : Endpoint} {bytes : List UInt8} {value : UInt64}
    (form : endpoint.Form bytes) (occurs : Occurs ⟨1, .varint value⟩ bytes) :
    value.toNat % 2 ^ 32 ∈ [0, 1, 2] := by
  obtain ⟨fields, forms, given⟩ := form
  obtain ⟨transport, _, carried, low⟩ :=
    given.transport.readable _ (occurs.mem forms) List.mem_cons_self
  cases carried
  rw [← low]
  cases transport <;> decide

namespace Event

/-- Every endpoint in a report is read, not only the last one. -/
theorem IsVariant.endpoint {number : UInt32} {report content : List UInt8} {event : Event}
    (variant : IsVariant ⟨number, .lengthDelimited report⟩ event) (isReport : number ≠ 1)
    (occurs : Occurs ⟨1, .lengthDelimited content⟩ report) :
    ∃ endpoint : Endpoint, endpoint.Form content := by
  have embedded : ∀ {fields : List Field} {endpoint : Endpoint}, Forms fields report →
      Gives fields [1] (Embeds Endpoint.Form) {} endpoint →
      ∃ endpoint : Endpoint, endpoint.Form content := by
    intro fields endpoint forms gives
    obtain ⟨found, _, carried, form⟩ := gives.readable _ (occurs.mem forms) List.mem_cons_self
    cases carried
    exact ⟨found, form⟩
  cases event with
  | kscan event => exact absurd variant.1 isReport
  | keyboard keyboard =>
    obtain ⟨_, _, carried, fields, forms, given⟩ := variant
    cases carried
    exact embedded forms given.endpoint
  | consumer consumer =>
    obtain ⟨_, _, carried, fields, forms, given⟩ := variant
    cases carried
    exact embedded forms given.endpoint
  | mouse mouse =>
    obtain ⟨_, _, carried, fields, forms, given⟩ := variant
    cases carried
    exact embedded forms given.endpoint

/-- A number that some endpoint of some report in some bytes has for its transport. -/
def TransportNumber (bytes : List UInt8) (value : UInt64) : Prop :=
  ∃ number report endpoint, number ∈ [2, 3, 4] ∧
    Occurs ⟨number, .lengthDelimited report⟩ bytes ∧
    Occurs ⟨1, .lengthDelimited endpoint⟩ report ∧
    Occurs ⟨1, .varint value⟩ endpoint

theorem TransportNumber.low {bytes : List UInt8} {event : Event} {value : UInt64}
    (transport : TransportNumber bytes value) (decoded : decode bytes = .ok event) :
    value.toNat % 2 ^ 32 ∈ [0, 1, 2] := by
  obtain ⟨number, report, content, isReport, inBytes, inReport, inEndpoint⟩ := transport
  obtain ⟨fields, forms, given⟩ := decode_eq_ok.mp decoded
  obtain ⟨found, variant⟩ := given.readable _ (inBytes.mem forms) (List.mem_cons_of_mem 1 isReport)
  have notKscan : number ≠ 1 := by
    rintro rfl
    simp at isReport
  obtain ⟨endpoint, form⟩ := variant.endpoint notKscan inReport
  exact form.low_transport inEndpoint

end Event

/-- The low half of the last action decides what comes of an accepted key event:
zero is a press, one is a release, and any other is refused with no call. The low
half of every transport in an accepted event is a code that has a name. -/
theorem enum_codes_by_low_half {κ : Type} (react : Call κ → List (DeviceChange κ))
    (geometry : Geometry) (device : Device κ) :
    (∀ bytes command event, Command.decode bytes = .ok command →
      command.keyEvent = some event →
      (∃ value, Command.ActionNumber bytes value) ∧
      ∀ value, Command.ActionNumber bytes value →
        Command.FollowsAction value device (command.dispatch react geometry device)) ∧
    ∀ bytes event, Event.decode bytes = .ok event →
      ∀ value, Event.TransportNumber bytes value → value.toNat % 2 ^ 32 ∈ [0, 1, 2] := by
  constructor
  · rintro bytes ⟨_⟩ event decoded rfl
    obtain ⟨value, number, named⟩ := Command.exists_actionNumber decoded
    refine ⟨⟨value, number⟩, ?_⟩
    intro other otherNumber
    rw [← number.unique otherNumber]
    exact Command.followsAction named
  · intro bytes event decoded value transport
    exact transport.low decoded

/-- The action is `2 ^ 32 + 5`, and the transport that counts is the second. -/
theorem enum_codes_by_low_half_unknown :
    Command.decode [10, 8, 8, 133, 128, 128, 128, 16, 24, 7] =
      .ok ⟨some ⟨.unrecognized 5, some (.position 7)⟩⟩ ∧
    Command.FollowsAction 4294967301 ⟨some (), true⟩
      (Command.dispatch (fun _ => []) ⟨4, 12⟩ ⟨some (), true⟩
        ⟨some ⟨.unrecognized 5, some (.position 7)⟩⟩) ∧
    Event.decode [18, 8, 10, 2, 8, 1, 10, 2, 8, 2] = .ok (.keyboard ⟨⟨.ble, 0⟩, 0, .empty⟩) ∧
    (1 : UInt64).toNat % 2 ^ 32 ∈ [0, 1, 2] := by
  have decoded : Command.decode [10, 8, 8, 133, 128, 128, 128, 16, 24, 7] =
      .ok ⟨some ⟨.unrecognized 5, some (.position 7)⟩⟩ := by
    decide +kernel
  have action : Command.ActionNumber [10, 8, 8, 133, 128, 128, 128, 16, 24, 7] 4294967301 :=
    ⟨[⟨1, .lengthDelimited [8, 133, 128, 128, 128, 16, 24, 7]⟩],
      [8, 133, 128, 128, 128, 16, 24, 7], [⟨1, .varint 4294967301⟩, ⟨3, .varint 7⟩],
      forms_iff_scan.mpr (by decide +kernel), by decide, forms_iff_scan.mpr (by decide +kernel),
      by decide⟩
  have accepted : Event.decode [18, 8, 10, 2, 8, 1, 10, 2, 8, 2] =
      .ok (.keyboard ⟨⟨.ble, 0⟩, 0, .empty⟩) := by
    decide +kernel
  have transport : Event.TransportNumber [18, 8, 10, 2, 8, 1, 10, 2, 8, 2] 1 :=
    ⟨2, [10, 2, 8, 1, 10, 2, 8, 2], [8, 1], by decide,
      occurs_iff_scan.mpr (by decide +kernel), occurs_iff_scan.mpr (by decide +kernel),
      occurs_iff_scan.mpr (by decide +kernel)⟩
  have both := enum_codes_by_low_half (fun _ => []) ⟨4, 12⟩ (⟨some (), true⟩ : Device Unit)
  exact ⟨decoded, (both.1 _ _ _ decoded rfl).2 _ action, accepted, both.2 _ _ accepted _ transport⟩

/-- Numbers beyond 32 bits have names too: `2 ^ 32` presses a key, and `2 ^ 32 + 1`
is a transport. -/
theorem enum_codes_beyond_32_bits :
    Command.decode [10, 8, 8, 128, 128, 128, 128, 16, 24, 5] =
      .ok ⟨some (.press (.position 5))⟩ ∧
    Command.ActionNumber [10, 8, 8, 128, 128, 128, 128, 16, 24, 5] 4294967296 ∧
    Command.dispatch (fun _ => []) ⟨4, 12⟩ ⟨some (), true⟩ ⟨some (.press (.position 5))⟩ =
      ⟨.reported .delivered ⟨0, 5⟩ true, ⟨some (), true⟩, [⟨(), ⟨0, 5⟩, true⟩]⟩ ∧
    Event.decode [18, 8, 10, 6, 8, 129, 128, 128, 128, 16] =
      .ok (.keyboard ⟨⟨.usb, 0⟩, 0, .empty⟩) ∧
    Event.TransportNumber [18, 8, 10, 6, 8, 129, 128, 128, 128, 16] 4294967297 ∧
    (4294967296 : UInt64) ≠ 0 ∧ (4294967297 : UInt64) ∉ [0, 1, 2] := by
  refine ⟨by decide +kernel, ?_, by decide, by decide +kernel, ?_, by decide, by decide⟩
  · exact ⟨[⟨1, .lengthDelimited [8, 128, 128, 128, 128, 16, 24, 5]⟩],
      [8, 128, 128, 128, 128, 16, 24, 5], [⟨1, .varint 4294967296⟩, ⟨3, .varint 5⟩],
      forms_iff_scan.mpr (by decide +kernel), by decide, forms_iff_scan.mpr (by decide +kernel),
      by decide⟩
  · exact ⟨2, [10, 6, 8, 129, 128, 128, 128, 16], [8, 129, 128, 128, 128, 16], by decide,
      occurs_iff_scan.mpr (by decide +kernel), occurs_iff_scan.mpr (by decide +kernel),
      occurs_iff_scan.mpr (by decide +kernel)⟩

end KeyRelay
