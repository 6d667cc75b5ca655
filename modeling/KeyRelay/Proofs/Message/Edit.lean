import KeyRelay.Proofs.Message.EventForm
import KeyRelay.Proofs.Wire.Edit

/-! # Changes that leave a message the same

The changes that a decoder does not notice, in each message and in the messages
inside it. Any number of them, at any depth, leaves an accepted event or command
what it was. -/
set_option autoImplicit false

namespace KeyRelay

open Wire Relation

/-- A change in a message that has no others inside. -/
def Endpoint.Edit : List UInt8 → List UInt8 → Prop :=
  schema.Edit fun _ _ _ => False

def KscanEvent.Edit : List UInt8 → List UInt8 → Prop :=
  schema.Edit fun _ _ _ => False

def KeyboardReport.Edit : List UInt8 → List UInt8 → Prop :=
  schema.Edit fun number content other => number = 1 ∧ Endpoint.Edit content other

def ConsumerReport.Edit : List UInt8 → List UInt8 → Prop :=
  schema.Edit fun number content other => number = 1 ∧ Endpoint.Edit content other

def MouseReport.Edit : List UInt8 → List UInt8 → Prop :=
  schema.Edit fun number content other => number = 1 ∧ Endpoint.Edit content other

def Event.Edit : List UInt8 → List UInt8 → Prop :=
  schema.Edit fun number content other =>
    number = 1 ∧ KscanEvent.Edit content other ∨
    number = 2 ∧ KeyboardReport.Edit content other ∨
    number = 3 ∧ ConsumerReport.Edit content other ∨
    number = 4 ∧ MouseReport.Edit content other

def Coordinate.Edit : List UInt8 → List UInt8 → Prop :=
  schema.Edit fun _ _ _ => False

def KeyEvent.Edit : List UInt8 → List UInt8 → Prop :=
  schema.Edit fun number content other => number = 2 ∧ Coordinate.Edit content other

def Command.Edit : List UInt8 → List UInt8 → Prop :=
  schema.Edit fun number content other => number = 1 ∧ KeyEvent.Edit content other

section Decode

variable {bytes other : List UInt8}

theorem Endpoint.Edit.decode {endpoint : Endpoint} (edit : Edit bytes other)
    (decoded : decode bytes = .ok endpoint) : Endpoint.decode other = .ok endpoint :=
  Schema.Edit.decode edit Schema.overlooks_none decoded

theorem KscanEvent.Edit.decode {event : KscanEvent} (edit : Edit bytes other)
    (decoded : decode bytes = .ok event) : KscanEvent.decode other = .ok event :=
  Schema.Edit.decode edit Schema.overlooks_none decoded

theorem Coordinate.Edit.decode {place : Coordinate} (edit : Edit bytes other)
    (decoded : decode bytes = .ok place) : Coordinate.decode other = .ok place :=
  Schema.Edit.decode edit Schema.overlooks_none decoded

theorem KeyboardReport.Edit.decode {report : KeyboardReport} (edit : Edit bytes other)
    (decoded : decode bytes = .ok report) : KeyboardReport.decode other = .ok report :=
  Schema.Edit.decode edit (Schema.overlooks_embedded rfl Endpoint.Edit.decode) decoded

theorem ConsumerReport.Edit.decode {report : ConsumerReport} (edit : Edit bytes other)
    (decoded : decode bytes = .ok report) : ConsumerReport.decode other = .ok report :=
  Schema.Edit.decode edit (Schema.overlooks_embedded rfl Endpoint.Edit.decode) decoded

theorem MouseReport.Edit.decode {report : MouseReport} (edit : Edit bytes other)
    (decoded : decode bytes = .ok report) : MouseReport.decode other = .ok report :=
  Schema.Edit.decode edit (Schema.overlooks_embedded rfl Endpoint.Edit.decode) decoded

theorem KeyEvent.Edit.decode {event : KeyEvent} (edit : Edit bytes other)
    (decoded : decode bytes = .ok event) : KeyEvent.decode other = .ok event :=
  Schema.Edit.decode edit (Schema.overlooks_embedded rfl Coordinate.Edit.decode) decoded

theorem Command.Edit.decode {command : Command} (edit : Edit bytes other)
    (decoded : decode bytes = .ok command) : Command.decode other = .ok command :=
  Schema.Edit.decode edit (Schema.overlooks_embedded rfl KeyEvent.Edit.decode) decoded

theorem Event.overlooks :
    schema.Overlooks fun number content other =>
      number = 1 ∧ KscanEvent.Edit content other ∨
      number = 2 ∧ KeyboardReport.Edit content other ∨
      number = 3 ∧ ConsumerReport.Edit content other ∨
      number = 4 ∧ MouseReport.Edit content other :=
  .or (Schema.overlooks_embedded rfl KscanEvent.Edit.decode)
    (.or (Schema.overlooks_embedded rfl KeyboardReport.Edit.decode)
      (.or (Schema.overlooks_embedded rfl ConsumerReport.Edit.decode)
        (Schema.overlooks_embedded rfl MouseReport.Edit.decode)))

theorem Event.Edit.decode {event : Event} (edit : Edit bytes other)
    (decoded : decode bytes = .ok event) : Event.decode other = .ok event := by
  rw [decode_eq_ok_schema] at decoded ⊢
  exact Schema.Edit.decode edit overlooks decoded

/-- Any number of changes, at any depth, leaves an accepted message what it was. -/
theorem decode_of_edits (bytes other : List UInt8) :
    (∀ event, Event.decode bytes = .ok event → ReflTransGen Event.Edit bytes other →
      Event.decode other = .ok event) ∧
    ∀ command, Command.decode bytes = .ok command → ReflTransGen Command.Edit bytes other →
      Command.decode other = .ok command := by
  constructor
  · intro event decoded edits
    induction edits with
    | refl => exact decoded
    | tail _ edit ih => exact edit.decode ih
  · intro command decoded edits
    induction edits with
    | refl => exact decoded
    | tail _ edit ih => exact edit.decode ih

end Decode

/-- A field that endpoints do not know is put into the endpoint of a report, and then
the key of the report is padded. -/
theorem edits_in_endpoint :
    ReflTransGen Event.Edit [18, 6, 10, 2, 8, 1, 16, 3]
      [146, 128, 0, 8, 10, 4, 56, 5, 8, 1, 16, 3] := by
  have endpoint : Endpoint.Edit [8, 1] [56, 5, 8, 1] := by
    have foreign : (⟨7, .varint 5⟩ : Wire.Field).Form [56, 5] :=
      .number (by decide) (Varint.form_encode _) (Varint.form_encode 5)
    exact @Schema.Edit.insert _ _ _ [] [⟨1, .varint 1⟩] _ [] [56, 5] [8, 1] .nil
      (forms_iff_scan.mpr (by decide +kernel)) rfl foreign
  have report : KeyboardReport.Edit [10, 2, 8, 1, 16, 3] [10, 4, 56, 5, 8, 1, 16, 3] :=
    @Schema.Edit.change _ _ _ [] [⟨2, .varint 3⟩] [] [10, 2, 8, 1] [10, 4, 56, 5, 8, 1]
      [16, 3] .nil (forms_iff_scan.mpr (by decide +kernel))
      (@Field.Edit.content _ 1 2 4 [10] [2] [8, 1] [4] [56, 5, 8, 1] (by decide)
        (Varint.form_encode _) (Varint.form_encode 2) rfl ⟨rfl, endpoint⟩ (Varint.form_encode 4)
        rfl)
  have event : Event.Edit [18, 6, 10, 2, 8, 1, 16, 3] [18, 8, 10, 4, 56, 5, 8, 1, 16, 3] :=
    @Schema.Edit.change _ _ _ [] [] [] [18, 6, 10, 2, 8, 1, 16, 3]
      [18, 8, 10, 4, 56, 5, 8, 1, 16, 3] [] .nil .nil
      (@Field.Edit.content _ 2 6 8 [18] [6] [10, 2, 8, 1, 16, 3] [8] [10, 4, 56, 5, 8, 1, 16, 3]
        (by decide) (Varint.form_encode _) (Varint.form_encode 6) rfl (.inr (.inl ⟨rfl, report⟩))
        (Varint.form_encode 8) rfl)
  have padded : Event.Edit [18, 8, 10, 4, 56, 5, 8, 1, 16, 3]
      [146, 128, 0, 8, 10, 4, 56, 5, 8, 1, 16, 3] :=
    @Schema.Edit.change _ _ _ [] [] [] [18, 8, 10, 4, 56, 5, 8, 1, 16, 3]
      [146, 128, 0, 8, 10, 4, 56, 5, 8, 1, 16, 3] [] .nil .nil
      (@Field.Edit.key _ 2 (.lengthDelimited [10, 4, 56, 5, 8, 1, 16, 3]) [18] [146, 128, 0]
        [8, 10, 4, 56, 5, 8, 1, 16, 3] (by decide) (Varint.form_encode _)
        (@FieldValue.Form.lengthDelimited 8 [8] _ (Varint.form_encode 8) rfl)
        (@Varint.reforms_pad [] 18 18 1 (.last (by decide)) (by decide)))
  exact .tail (.single event) padded

/-- The number of a position is padded inside its key event. -/
theorem edits_in_keyEvent :
    ReflTransGen Command.Edit [10, 4, 8, 1, 24, 5] [10, 6, 8, 1, 24, 133, 128, 0] := by
  have keyEvent : KeyEvent.Edit [8, 1, 24, 5] [8, 1, 24, 133, 128, 0] :=
    @Schema.Edit.change _ _ _ [⟨1, .varint 1⟩] [] [8, 1] [24, 5] [24, 133, 128, 0] []
      (forms_iff_scan.mpr (by decide +kernel)) .nil
      (@Field.Edit.number _ 3 5 [24] [5] [133, 128, 0] (by decide) (Varint.form_encode _)
        (Varint.form_encode 5) (@Varint.reforms_pad [] 5 5 1 (.last (by decide)) (by decide)))
  have command : Command.Edit [10, 4, 8, 1, 24, 5] [10, 6, 8, 1, 24, 133, 128, 0] :=
    @Schema.Edit.change _ _ _ [] [] [] [10, 4, 8, 1, 24, 5] [10, 6, 8, 1, 24, 133, 128, 0] []
      .nil .nil
      (@Field.Edit.content _ 1 4 6 [10] [4] [8, 1, 24, 5] [6] [8, 1, 24, 133, 128, 0] (by decide)
        (Varint.form_encode _) (Varint.form_encode 4) rfl ⟨rfl, keyEvent⟩ (Varint.form_encode 6)
        rfl)
  exact .single command

/-- Both sequences of changes are of messages that are accepted. -/
theorem decode_of_edits_nested :
    Event.decode [18, 6, 10, 2, 8, 1, 16, 3] = .ok (.keyboard ⟨⟨.usb, 0⟩, 3, .empty⟩) ∧
    Event.decode [146, 128, 0, 8, 10, 4, 56, 5, 8, 1, 16, 3] =
      .ok (.keyboard ⟨⟨.usb, 0⟩, 3, .empty⟩) ∧
    Command.decode [10, 4, 8, 1, 24, 5] = .ok ⟨some ⟨.release, some (.position 5)⟩⟩ ∧
    Command.decode [10, 6, 8, 1, 24, 133, 128, 0] =
      .ok ⟨some ⟨.release, some (.position 5)⟩⟩ := by
  have event : Event.decode [18, 6, 10, 2, 8, 1, 16, 3] =
      .ok (.keyboard ⟨⟨.usb, 0⟩, 3, .empty⟩) := by
    decide +kernel
  have command : Command.decode [10, 4, 8, 1, 24, 5] =
      .ok ⟨some ⟨.release, some (.position 5)⟩⟩ := by
    decide +kernel
  exact ⟨event, (decode_of_edits _ _).1 _ event edits_in_endpoint, command,
    (decode_of_edits _ _).2 _ command edits_in_keyEvent⟩

end KeyRelay
