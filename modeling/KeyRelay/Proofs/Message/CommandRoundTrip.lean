import KeyRelay.Proofs.Message.CommandForm
import KeyRelay.Proofs.Message.EventRoundTrip

/-! # Commands survive the wire

Every command has an encoding within the frame limit of its socket. It decodes
to the command, except that an action given by a number that is a known one
comes back as the known action. What decoding gives has no such action, so it
survives as it is. -/
set_option autoImplicit false

namespace KeyRelay

open Wire

namespace Coordinate

def bytes (place : Coordinate) : List UInt8 :=
  Put.encodingAll place.puts

theorem length_bytes_le (place : Coordinate) : place.bytes.length ≤ Size.coordinate := by
  have row : (Put.uint 1 place.row.toUInt64).encoding.length ≤ Size.uint32Field :=
    Size.length_uint32_le _ (by decide)
  have col : (Put.uint 2 place.col.toUInt64).encoding.length ≤ Size.uint32Field :=
    Size.length_uint32_le _ (by decide)
  simp only [bytes, Put.encodingAll, puts, List.flatMap_cons, List.flatMap_nil,
    List.length_append, List.length_nil, Size.coordinate]
  omega

theorem stores (place : Coordinate) : schema.StoresAll place.puts {} place := by
  refine .cons { row := place.row } (Schema.stores_uint32 rfl ?_ ?_)
    (.cons place (Schema.stores_uint32 rfl ?_ ?_) (.nil _))
  · simp only [uint32_toUInt64]
    rfl
  · intro zero
    rw [zero]
  · simp only [uint32_toUInt64]
    rfl
  · intro zero
    rw [← zero]

theorem written (place : Coordinate) :
    schema.Written {} Size.coordinate place.puts place where
  valid := by
    simp only [puts, List.forall_mem_cons, Put.Valid]
    exact ⟨by decide, by decide, by simp⟩
  fits := place.length_bytes_le
  stores := place.stores

theorem encode_eq (place : Coordinate) : place.encode = .ok place.bytes :=
  place.written.render "KeyPosition"

theorem decode_bytes (place : Coordinate) : decode place.bytes = .ok place :=
  place.written.decode

end Coordinate

namespace KeyAddress

def item : KeyAddress → Put
  | .coordinate place => .lengthDelimited 2 place.bytes
  | .position index => .varintField 3 index.toUInt64

theorem put_eq (address : KeyAddress) : address.put = .ok address.item := by
  cases address with
  | coordinate place =>
    rw [put, place.encode_eq]
    rfl
  | position index => rfl

theorem length_item_le (address : KeyAddress) :
    address.item.encoding.length ≤ max (Size.embedded Size.coordinate) Size.uint32Field := by
  cases address with
  | coordinate place =>
    have bound : (Put.lengthDelimited 2 place.bytes).encoding.length ≤
        Size.embedded Size.coordinate :=
      Size.length_lengthDelimited_le (by decide) place.length_bytes_le (by decide)
    rw [item]
    omega
  | position index =>
    have bound : (Put.varintField 3 index.toUInt64).encoding.length ≤ Size.uint32Field :=
      Size.length_varintField_le index (by decide)
    rw [item]
    omega

theorem valid_item (address : KeyAddress) : address.item.Valid := by
  cases address with
  | coordinate place =>
    have bound := place.length_bytes_le
    have room : Size.coordinate < UInt64.size := by decide
    exact ⟨by decide, by omega⟩
  | position index =>
    have number : ValidNumber 3 := by decide
    exact number

theorem stores_item (address : KeyAddress) (event : KeyEvent) :
    KeyEvent.schema.Stores address.item event { event with address := some address } := by
  cases address with
  | coordinate place =>
    refine Schema.stores_lengthDelimited rfl ?_
    simp only [Coordinate.decode_bytes]
    rfl
  | position index =>
    refine Schema.stores_varintField rfl ?_
    simp only [uint32_toUInt64]
    rfl

end KeyAddress

namespace KeyEvent

def puts (event : KeyEvent) : List Put :=
  .int32 1 event.action.code :: (event.address.map KeyAddress.item).toList

def bytes (event : KeyEvent) : List UInt8 :=
  Put.encodingAll event.puts

def known (event : KeyEvent) : KeyEvent :=
  { event with action := .ofCode event.action.code }

theorem length_bytes_le (event : KeyEvent) : event.bytes.length ≤ Size.keyEvent := by
  have action : (Put.int32 1 event.action.code).encoding.length ≤ Size.int32Field :=
    Size.length_int32_le _ (by decide)
  cases chosen : event.address with
  | none =>
    simp only [bytes, Put.encodingAll, puts, chosen, Option.map_none, Option.toList_none,
      List.flatMap_cons, List.flatMap_nil, List.append_nil, Size.keyEvent]
    omega
  | some address =>
    have place := address.length_item_le
    simp only [bytes, Put.encodingAll, puts, chosen, Option.map_some, Option.toList_some,
      List.flatMap_cons, List.flatMap_nil, List.append_nil, List.length_append, Size.keyEvent]
    omega

theorem stores (event : KeyEvent) : schema.StoresAll event.puts {} event.known := by
  have action : schema.Stores (.int32 1 event.action.code) {}
      { action := .ofCode event.action.code } := by
    refine Schema.stores_int32 rfl ?_ ?_
    · simp only [int32_extended]
    · intro zero
      rw [zero]
      rfl
  cases chosen : event.address with
  | none =>
    rw [puts, known, chosen]
    exact .cons _ action (.nil _)
  | some address =>
    rw [puts, known, chosen]
    exact .cons _ action (.cons _ (address.stores_item _) (.nil _))

theorem written (event : KeyEvent) :
    schema.Written {} Size.keyEvent event.puts event.known where
  valid := by
    have action : (Put.int32 1 event.action.code).Valid := by
      have number : ValidNumber 1 := by decide
      exact number
    cases chosen : event.address with
    | none => simpa [puts, chosen] using action
    | some address => simpa [puts, chosen] using ⟨action, address.valid_item⟩
  fits := event.length_bytes_le
  stores := event.stores

theorem encode_eq (event : KeyEvent) : event.encode = .ok event.bytes := by
  have rendered := event.written.render "KeyEvent"
  cases chosen : event.address with
  | none =>
    rw [puts, chosen] at rendered
    simp only [encode, chosen, bytes, puts]
    exact rendered
  | some address =>
    rw [puts, chosen] at rendered
    simp only [encode, chosen, bytes, puts, address.put_eq]
    exact rendered

theorem decode_bytes (event : KeyEvent) : decode event.bytes = .ok event.known :=
  event.written.decode

end KeyEvent

namespace Command

def puts (command : Command) : List Put :=
  (command.keyEvent.map fun event => .lengthDelimited 1 event.bytes).toList

def bytes (command : Command) : List UInt8 :=
  Put.encodingAll command.puts

/-- The command as it comes back. -/
def known (command : Command) : Command :=
  ⟨command.keyEvent.map KeyEvent.known⟩

theorem length_bytes_le (command : Command) : command.bytes.length ≤ Size.command := by
  cases given : command.keyEvent with
  | none => simp [bytes, puts, given, Put.encodingAll]
  | some event =>
    have bound : (Put.lengthDelimited 1 event.bytes).encoding.length ≤ Size.command :=
      Size.length_lengthDelimited_le (by decide) event.length_bytes_le (by decide)
    simpa [bytes, puts, given, Put.encodingAll] using bound

theorem stores (command : Command) : schema.StoresAll command.puts {} command.known := by
  cases given : command.keyEvent with
  | none =>
    rw [puts, known, given]
    exact .nil _
  | some event =>
    rw [puts, known, given]
    refine .cons _ (Schema.stores_lengthDelimited rfl ?_) (.nil _)
    simp only [event.decode_bytes]
    rfl

theorem written (command : Command) :
    schema.Written {} Size.command command.puts command.known where
  valid := by
    cases given : command.keyEvent with
    | none => simp [puts, given]
    | some event =>
      have bound := event.length_bytes_le
      have room : Size.keyEvent < UInt64.size := by decide
      have valid : (Put.lengthDelimited 1 event.bytes).Valid := ⟨by decide, by omega⟩
      simpa [puts, given] using valid
  fits := command.length_bytes_le
  stores := command.stores

theorem decode_bytes (command : Command) : decode command.bytes = .ok command.known :=
  command.written.decode

/-- A buffer with enough room takes the whole encoding and keeps the rest. -/
theorem encodeInto_of_fits (command : Command) {buffer : List UInt8}
    (fits : command.bytes.length ≤ buffer.length) :
    command.encodeInto buffer =
      (.ok command.bytes.length, command.bytes ++ buffer.drop command.bytes.length) := by
  have written := writeInto_of_fits "ClientMessage" fits
  cases given : command.keyEvent with
  | none =>
    rw [puts, given] at written
    simp only [encodeInto, given, bytes, puts]
    exact written
  | some event =>
    rw [puts, given] at written
    simp only [encodeInto, given, bytes, puts, event.encode_eq]
    exact written

theorem encode_eq (command : Command) : command.encode = .ok command.bytes := by
  have fits : command.bytes.length ≤ (List.replicate Size.command (0 : UInt8)).length := by
    rw [List.length_replicate]
    exact command.length_bytes_le
  rw [encode, encodeInto_of_fits command fits]
  simp [Except.map]

end Command

namespace KeyAction

/-- Only a number in place of a name is lost. -/
theorem ofCode_code_eq_iff {action : KeyAction} :
    ofCode action.code = action ↔ action ≠ .unrecognized 0 ∧ action ≠ .unrecognized 1 := by
  cases action with
  | press => decide
  | release => decide
  | unrecognized code =>
    rw [KeyAction.code, ofCode]
    split
    next zero => simp [zero]
    next notZero =>
      split
      next one => simp [one]
      next notOne => simp [notZero, notOne]

end KeyAction

namespace KeyEvent

theorem known_eq_iff {event : KeyEvent} :
    event.known = event ↔ event.action ≠ .unrecognized 0 ∧ event.action ≠ .unrecognized 1 := by
  rw [← KeyAction.ofCode_code_eq_iff]
  cases event
  simp [known]

/-- A decoded action has its name, if its number has one. -/
theorem known_of_form {event : KeyEvent} {bytes : List UInt8} (form : event.Form bytes) :
    event.known = event := by
  obtain ⟨fields, _, given⟩ := form
  rw [known_eq_iff, ← KeyAction.ofCode_code_eq_iff]
  rcases given.action.eq_default_or_read with default | ⟨field, value, _, code, _, named⟩
  · rw [default]
    rfl
  · rw [← named, KeyAction.code_ofCode]

end KeyEvent

namespace Command

theorem known_eq_iff {command : Command} :
    command.known = command ↔ ∀ event, command.keyEvent = some event →
      event.action ≠ .unrecognized 0 ∧ event.action ≠ .unrecognized 1 := by
  obtain ⟨keyEvent⟩ := command
  cases keyEvent with
  | none => simp [known]
  | some event => simp [known, KeyEvent.known_eq_iff]

theorem known_of_form {command : Command} {bytes : List UInt8} (form : command.Form bytes) :
    command.known = command := by
  obtain ⟨keyEvent⟩ := command
  obtain ⟨fields, _, given⟩ := form
  cases keyEvent with
  | none => rfl
  | some event =>
    obtain ⟨_, field, _, content, _, eventForm⟩ := gives_present_some.mp given
    rw [known, Option.map_some, KeyEvent.known_of_form eventForm]

theorem decode_bytes_eq_iff {command : Command} :
    decode command.bytes = .ok command ↔ command.known = command := by
  rw [decode_bytes, Except.ok.injEq]

/-- The longest address under the longest number of an action. -/
def longest : Command :=
  ⟨some ⟨.unrecognized (-1), some (.coordinate ⟨0xFFFFFFFF, 0xFFFFFFFF⟩)⟩⟩

theorem length_longest : longest.bytes.length = Size.command := by
  decide

/-- Encoding succeeds within the frame limit, which some command needs. Decoding
gives the command back up to the name of its action, so exactly the two numbers
that have a name are lost, and what was decoded once is given back for good. -/
theorem roundTrip_up_to_action_name :
    (∀ command : Command, ∃ encoding, command.encode = .ok encoding ∧
      encoding.length ≤ Size.command ∧
      decode encoding = .ok ⟨command.keyEvent.map fun event =>
        { event with action := .ofCode event.action.code }⟩ ∧
      (decode encoding = .ok command ↔ ∀ event, command.keyEvent = some event →
        event.action ≠ .unrecognized 0 ∧ event.action ≠ .unrecognized 1)) ∧
    Size.command = 27 ∧
    (∃ command encoding, encode command = .ok encoding ∧ encoding.length = 27) ∧
    ∀ bytes command, decode bytes = .ok command →
      ∃ encoding, command.encode = .ok encoding ∧ decode encoding = .ok command := by
  refine ⟨?_, by decide, ?_, ?_⟩
  · intro command
    refine ⟨command.bytes, command.encode_eq, command.length_bytes_le, command.decode_bytes, ?_⟩
    rw [decode_bytes_eq_iff, known_eq_iff]
  · exact ⟨longest, longest.bytes, longest.encode_eq, length_longest⟩
  · intro bytes command decoded
    have known := known_of_form (decode_eq_ok.mp decoded)
    exact ⟨command.bytes, command.encode_eq, decode_bytes_eq_iff.mpr known⟩

/-- A release by position with a padded action and an unknown field. -/
theorem roundTrip_up_to_action_name_padded :
    decode [72, 1, 10, 5, 8, 129, 0, 24, 7] = .ok ⟨some ⟨.release, some (.position 7)⟩⟩ ∧
      ∃ encoding, encode ⟨some ⟨.release, some (.position 7)⟩⟩ = .ok encoding ∧
        decode encoding = .ok ⟨some ⟨.release, some (.position 7)⟩⟩ := by
  have decoded : decode [72, 1, 10, 5, 8, 129, 0, 24, 7] =
      .ok ⟨some ⟨.release, some (.position 7)⟩⟩ := by
    decide +kernel
  exact ⟨decoded, roundTrip_up_to_action_name.2.2.2 _ _ decoded⟩

end Command

end KeyRelay
