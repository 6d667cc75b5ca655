import KeyRelay.Proofs.Message.Reading

/-! # Which bytes are a command

The forms of a command and of its parts, like those of events. The address of a
key event is given by whichever of its two fields comes last, and a later key
event replaces an earlier one whole. What makes bytes acceptable is also stated
without the command that they stand for. -/
set_option autoImplicit false

namespace KeyRelay

open Wire

namespace Coordinate

/-- What some fields say of a cell. -/
@[mk_iff]
structure GivenBy (place : Coordinate) (fields : List Field) : Prop where
  row : Gives fields [1] IsUInt32 0 place.row
  col : Gives fields [2] IsUInt32 0 place.col

def Form (place : Coordinate) (bytes : List UInt8) : Prop :=
  ∃ fields, Forms fields bytes ∧ place.GivenBy fields

def parts : List schema.Part :=
  [.single 1 IsUInt32 row (fun row place => { place with row }) (Schema.assigns_uint32 rfl),
    .single 2 IsUInt32 col (fun col place => { place with col }) (Schema.assigns_uint32 rfl)]

theorem madeOf : schema.MadeOf parts where
  apart := by simp [parts]
  unknown := by
    intro number foreign
    have others : number ≠ 1 ∧ number ≠ 2 := by
      simpa [parts] using foreign
    simp [schema, others]
  ext := by
    intro place other same
    cases place
    cases other
    simpa [parts] using same

theorem decode_eq_ok {bytes : List UInt8} {place : Coordinate} :
    decode bytes = .ok place ↔ place.Form bytes := by
  rw [decode, madeOf.decode_iff]
  simp [parts, Form, givenBy_iff]

/-- What makes bytes acceptable as a cell. -/
def Acceptable (bytes : List UInt8) : Prop :=
  ∃ fields, Forms fields bytes ∧ ∀ field ∈ fields, field.number ∈ [1, 2] →
    ∃ value, field.value = .varint value ∧ value.toNat < 2 ^ 32

theorem exists_form_iff {bytes : List UInt8} :
    (∃ place : Coordinate, place.Form bytes) ↔ Acceptable bytes := by
  constructor
  · rintro ⟨place, fields, forms, given⟩
    refine ⟨fields, forms, ?_⟩
    intro field member known
    simp only [List.mem_cons, List.not_mem_nil, or_false] at known
    rcases known with number | number
    · exact exists_isUInt32.mp (given.row.readable field member (by simp [number]))
    · exact exists_isUInt32.mp (given.col.readable field member (by simp [number]))
  · rintro ⟨fields, forms, readable⟩
    obtain ⟨row, givesRow⟩ : ∃ row, Gives fields [1] IsUInt32 0 row := by
      apply exists_gives
      intro field member known
      exact exists_isUInt32.mpr (readable field member (by simp_all))
    obtain ⟨col, givesCol⟩ : ∃ col, Gives fields [2] IsUInt32 0 col := by
      apply exists_gives
      intro field member known
      exact exists_isUInt32.mpr (readable field member (by simp_all))
    exact ⟨⟨row, col⟩, fields, forms, givesRow, givesCol⟩

end Coordinate

theorem KeyAction.code_ofCode (code : Int32) : (ofCode code).code = code := by
  unfold ofCode
  split
  next zero => exact zero.symm
  next =>
    split
    next one => exact one.symm
    next => rfl

namespace KeyEvent

/-- A field that carries an address, in one of its two ways. -/
def IsAddress (field : Field) : KeyAddress → Prop
  | .coordinate place => field.number = 2 ∧ Embeds Coordinate.Form field place
  | .position index => field.number = 3 ∧ IsUInt32 field index

/-- An action by its code; only two codes have a name. -/
def IsAction : Field → KeyAction → Prop :=
  IsNumber fun value found => ∃ code, LowHalf value code ∧ KeyAction.ofCode code = found

@[mk_iff]
structure GivenBy (event : KeyEvent) (fields : List Field) : Prop where
  action : Gives fields [1] IsAction .press event.action
  address : Gives fields [2, 3] (Present IsAddress) none event.address

def Form (event : KeyEvent) (bytes : List UInt8) : Prop :=
  ∃ fields, Forms fields bytes ∧ event.GivenBy fields

theorem assigns_action :
    schema.Assigns 1 IsAction fun action event => { event with action } := by
  apply Schema.assigns_number rfl
  intro value before after
  simp [← int32_eq_iff]

theorem assigns_address :
    ∀ number ∈ [2, 3], schema.Assigns number (Present IsAddress)
      fun address event => { event with address } := by
  simp only [List.forall_mem_cons]
  refine ⟨?_, ?_, by simp⟩
  · apply Schema.Assigns.oneof .coordinate (Schema.assigns_embedded Coordinate.decode_eq_ok rfl)
    intro value variant
    cases variant <;> simp [IsAddress]
  · apply Schema.Assigns.oneof .position (Schema.assigns_uint32 rfl)
    intro value variant
    cases variant <;> simp [IsAddress]

def parts : List schema.Part :=
  [.single 1 IsAction action (fun action event => { event with action }) assigns_action,
    .several [2, 3] (Present IsAddress) address (fun address event => { event with address })
      assigns_address]

theorem madeOf : schema.MadeOf parts where
  apart := by simp [parts]
  unknown := by
    intro number foreign
    have others : number ≠ 1 ∧ number ≠ 2 ∧ number ≠ 3 := by
      simpa [parts] using foreign
    simp [schema, others]
  ext := by
    intro event other same
    cases event
    cases other
    simpa [parts] using same

theorem decode_eq_ok {bytes : List UInt8} {event : KeyEvent} :
    decode bytes = .ok event ↔ event.Form bytes := by
  rw [decode, madeOf.decode_iff]
  simp [parts, Form, givenBy_iff]

/-- What makes a field of a key event acceptable. -/
structure FieldAcceptable (field : Field) : Prop where
  action : field.number = 1 → ∃ value, field.value = .varint value
  coordinate : field.number = 2 →
    ∃ content, field.value = .lengthDelimited content ∧ Coordinate.Acceptable content
  position : field.number = 3 → ∃ value, field.value = .varint value ∧ value.toNat < 2 ^ 32

def Acceptable (bytes : List UInt8) : Prop :=
  ∃ fields, Forms fields bytes ∧ ∀ field ∈ fields, FieldAcceptable field

theorem exists_isAction {field : Field} :
    (∃ action, IsAction field action) ↔ ∃ value, field.value = .varint value := by
  constructor
  · rintro ⟨_, value, carried, _⟩
    exact ⟨value, carried⟩
  · rintro ⟨value, carried⟩
    exact ⟨_, value, carried, int32 value, int32_eq_iff.mp rfl, rfl⟩

theorem exists_isAddress_coordinate {field : Field} (number : field.number = 2) :
    (∃ address, IsAddress field address) ↔
      ∃ content, field.value = .lengthDelimited content ∧ Coordinate.Acceptable content := by
  simp only [← Coordinate.exists_form_iff]
  constructor
  · rintro ⟨address, carried⟩
    cases address with
    | coordinate place =>
      obtain ⟨_, content, embedded, form⟩ := carried
      exact ⟨content, embedded, place, form⟩
    | position index => simp [IsAddress, number] at carried
  · rintro ⟨content, embedded, place, form⟩
    exact ⟨.coordinate place, number, content, embedded, form⟩

theorem exists_isAddress_position {field : Field} (number : field.number = 3) :
    (∃ address, IsAddress field address) ↔
      ∃ value, field.value = .varint value ∧ value.toNat < 2 ^ 32 := by
  rw [← exists_isUInt32]
  constructor
  · rintro ⟨address, carried⟩
    cases address with
    | coordinate place => simp [IsAddress, number] at carried
    | position index => exact ⟨index, carried.2⟩
  · rintro ⟨index, carried⟩
    exact ⟨.position index, number, carried⟩

theorem exists_form_iff {bytes : List UInt8} :
    (∃ event : KeyEvent, event.Form bytes) ↔ Acceptable bytes := by
  constructor
  · rintro ⟨event, fields, forms, given⟩
    refine ⟨fields, forms, ?_⟩
    intro field member
    constructor
    · intro number
      exact exists_isAction.mp (given.action.readable field member (by simp [number]))
    · intro number
      exact (exists_isAddress_coordinate number).mp
        (exists_present.mp (given.address.readable field member (by simp [number])))
    · intro number
      exact (exists_isAddress_position number).mp
        (exists_present.mp (given.address.readable field member (by simp [number])))
  · rintro ⟨fields, forms, acceptable⟩
    obtain ⟨action, givesAction⟩ : ∃ action, Gives fields [1] IsAction .press action := by
      apply exists_gives
      intro field member known
      exact exists_isAction.mpr ((acceptable field member).action (by simpa using known))
    obtain ⟨address, givesAddress⟩ :
        ∃ address, Gives fields [2, 3] (Present IsAddress) none address := by
      apply exists_gives
      intro field member known
      apply exists_present.mpr
      simp only [List.mem_cons, List.not_mem_nil, or_false] at known
      rcases known with number | number
      · exact (exists_isAddress_coordinate number).mpr ((acceptable field member).coordinate number)
      · exact (exists_isAddress_position number).mpr ((acceptable field member).position number)
    exact ⟨⟨action, address⟩, fields, forms, givesAction, givesAddress⟩

end KeyEvent

namespace Command

def GivenBy (command : Command) (fields : List Field) : Prop :=
  Gives fields [1] (Present (Embeds KeyEvent.Form)) none command.keyEvent

def Form (command : Command) (bytes : List UInt8) : Prop :=
  ∃ fields, Forms fields bytes ∧ command.GivenBy fields

theorem assigns_keyEvent :
    schema.Assigns 1 (Present (Embeds KeyEvent.Form)) fun keyEvent _ => ⟨keyEvent⟩ := by
  apply Schema.Assigns.oneof id (Schema.assigns_embedded KeyEvent.decode_eq_ok rfl)
  simp

def parts : List schema.Part :=
  [.single 1 (Present (Embeds KeyEvent.Form)) keyEvent (fun keyEvent _ => ⟨keyEvent⟩)
    assigns_keyEvent]

theorem madeOf : schema.MadeOf parts where
  apart := by simp [parts]
  unknown := by
    intro number foreign
    have others : number ≠ 1 := by
      simpa [parts] using foreign
    simp [schema]
  ext := by
    intro command other same
    cases command
    cases other
    simpa [parts] using same

theorem decode_eq_ok {bytes : List UInt8} {command : Command} :
    decode bytes = .ok command ↔ command.Form bytes := by
  rw [decode, madeOf.decode_iff]
  simp [parts, Form, GivenBy]

/-- What makes bytes acceptable as a command. -/
def Acceptable (bytes : List UInt8) : Prop :=
  ∃ fields, Forms fields bytes ∧ ∀ field ∈ fields, field.number = 1 →
    ∃ content, field.value = .lengthDelimited content ∧ KeyEvent.Acceptable content

theorem exists_embeds_keyEvent {field : Field} :
    (∃ event, Embeds KeyEvent.Form field event) ↔
      ∃ content, field.value = .lengthDelimited content ∧ KeyEvent.Acceptable content := by
  simp only [← KeyEvent.exists_form_iff, Embeds, IsContent]
  constructor
  · rintro ⟨event, content, carried, form⟩
    exact ⟨content, carried, event, form⟩
  · rintro ⟨content, carried, event, form⟩
    exact ⟨event, content, carried, form⟩

theorem exists_form_iff {bytes : List UInt8} :
    (∃ command : Command, command.Form bytes) ↔ Acceptable bytes := by
  simp only [Acceptable, ← exists_embeds_keyEvent]
  constructor
  · rintro ⟨command, fields, forms, given⟩
    refine ⟨fields, forms, ?_⟩
    intro field member number
    exact exists_present.mp (given.readable field member (by simp [number]))
  · rintro ⟨fields, forms, readable⟩
    obtain ⟨keyEvent, gives⟩ :
        ∃ keyEvent, Gives fields [1] (Present (Embeds KeyEvent.Form)) none keyEvent := by
      apply exists_gives
      intro field member known
      exact exists_present.mpr (readable field member (by simpa using known))
    exact ⟨⟨keyEvent⟩, fields, forms, gives⟩

theorem givenBy_iff {command : Command} {fields : List Field} :
    command.GivenBy fields ↔
      (∀ field ∈ fields, field.number = 1 → ∃ event, Embeds KeyEvent.Form field event) ∧
      ((command.keyEvent = none ∧ ∀ field ∈ fields, field.number ≠ 1) ∨
        ∃ event field, command.keyEvent = some event ∧ lastOf [1] fields = some field ∧
          Embeds KeyEvent.Form field event) := by
  rw [GivenBy]
  cases command.keyEvent with
  | none =>
    simp only [gives_present_none, List.mem_singleton, true_and, reduceCtorEq, false_and,
      exists_false, or_false]
    constructor
    · intro none
      exact ⟨fun field member number => absurd number (none field member), none⟩
    · intro given
      exact given.2
  | some event =>
    simp [gives_present_some]

/-- Bytes are accepted exactly if they are fields, one behind the other, of which
each key event is acceptable. The command then carries the last key event, or
none if there is none. -/
theorem decode_exactly_last_keyEvent (bytes : List UInt8) :
    ((∃ command, decode bytes = .ok command) ↔ Acceptable bytes) ∧
    ∀ command : Command, decode bytes = .ok command ↔
      ∃ fields, Forms fields bytes ∧
        (∀ field ∈ fields, field.number = 1 → ∃ event, Embeds KeyEvent.Form field event) ∧
        ((command.keyEvent = none ∧ ∀ field ∈ fields, field.number ≠ 1) ∨
          ∃ event field, command.keyEvent = some event ∧ lastOf [1] fields = some field ∧
            Embeds KeyEvent.Form field event) := by
  constructor
  · simp only [decode_eq_ok, exists_form_iff]
  · intro command
    simp only [decode_eq_ok, Form, givenBy_iff]

end Command

end KeyRelay
