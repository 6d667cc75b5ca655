import KeyRelay.Proofs.Message.CommandRoundTrip
import KeyRelay.Proofs.Wire.Cut

/-! # Cut events and commands

An event is written as one field, and so is a command, unless it is empty and written as
nothing. An encoding that is cut is therefore truncated where it was cut, and it is never the
encoding of another message. -/
set_option autoImplicit false

namespace KeyRelay

open Wire

namespace Wire

theorem Forms.form_of_single {field : Field} {bytes : List UInt8} (forms : Forms [field] bytes) :
    field.Form bytes := by
  cases forms with
  | cons head tail =>
    cases tail
    rwa [List.append_nil]

theorem Put.forms_encodingAll {puts : List Put} (valid : ∀ put ∈ puts, put.Valid) :
    Forms (fields puts) (encodingAll puts) := by
  rw [forms_iff_scan, scan_encodingAll valid]
  exact ⟨rfl, rfl⟩

end Wire

namespace Event

theorem form_bytes (event : Event) :
    Field.Form ⟨event.field, .lengthDelimited event.body⟩ event.bytes :=
  (Put.forms_encodingAll event.written.valid).form_of_single

theorem lengthDelimited_field (event : Event) {rule : Rule (Option Event)}
    (known : schema.rule? event.field = some rule) : .lengthDelimited = rule.kind := by
  cases event <;> (cases known; rfl)

theorem decode_of_cut (event : Event) {count : Nat} (begun : 0 < count)
    (cut : count < event.bytes.length) :
    decode (event.bytes.take count) = .error (.truncated count) := by
  have fails : schema.Fails none (event.bytes.take count) .reader (.truncated count) :=
    Schema.fails_of_cut none event.form_bytes (fun _ => event.lengthDelimited_field) begun cut
  rw [decode, fails.decode]

end Event

namespace Command

theorem form_bytes {command : Command} {event : KeyEvent} (given : command.keyEvent = some event) :
    Field.Form ⟨1, .lengthDelimited event.bytes⟩ command.bytes := by
  have forms := Put.forms_encodingAll command.written.valid
  have fields : Put.fields command.puts = [⟨1, .lengthDelimited event.bytes⟩] := by
    rw [puts, given]
    rfl
  rw [fields] at forms
  exact forms.form_of_single

theorem bytes_of_none {command : Command} (empty : command.keyEvent = none) :
    command.bytes = [] := by
  rw [bytes, puts, empty]
  rfl

theorem decode_of_cut (command : Command) {count : Nat} (begun : 0 < count)
    (cut : count < command.bytes.length) :
    decode (command.bytes.take count) = .error (.truncated count) := by
  cases given : command.keyEvent with
  | none =>
    rw [bytes_of_none given] at cut
    exact absurd cut (Nat.not_lt_zero count)
  | some event =>
    have fails : schema.Fails {} (command.bytes.take count) .reader (.truncated count) := by
      refine Schema.fails_of_cut _ (form_bytes given) (fun rule known => ?_) begun cut
      cases known
      rfl
    exact fails.decode

end Command

/-- What an event or a command is sent as. -/
def Encodes (bytes : List UInt8) : Prop :=
  (∃ event : Event, event.encode = .ok bytes) ∨ ∃ command : Command, command.encode = .ok bytes

theorem Encodes.exists_form {bytes : List UInt8} (encodes : Encodes bytes) (some : bytes ≠ []) :
    ∃ field : Wire.Field, field.Form bytes := by
  rcases encodes with ⟨event, encoded⟩ | ⟨command, encoded⟩
  · rw [event.encode_eq] at encoded
    cases encoded
    exact ⟨_, event.form_bytes⟩
  · rw [command.encode_eq] at encoded
    cases encoded
    cases given : command.keyEvent with
    | none => exact absurd (Command.bytes_of_none given) some
    | some event => exact ⟨_, Command.form_bytes given⟩

/-- Wherever an encoding is cut behind its first byte, it is truncated there; so none begins
with another one, unless that is empty. -/
theorem encoding_cut_is_truncated :
    (∀ event : Event, ∃ bytes, event.encode = .ok bytes ∧
      ∀ count, 1 ≤ count → count < bytes.length →
        Event.decode (bytes.take count) = .error (.truncated count)) ∧
    (∀ command : Command, ∃ bytes, command.encode = .ok bytes ∧
      ∀ count, 1 ≤ count → count < bytes.length →
        Command.decode (bytes.take count) = .error (.truncated count)) ∧
    ∀ front back, Encodes front → Encodes back → front ≠ [] → front <+: back → front = back := by
  refine ⟨?_, ?_, ?_⟩
  · intro event
    exact ⟨event.bytes, event.encode_eq, fun _ => event.decode_of_cut⟩
  · intro command
    exact ⟨command.bytes, command.encode_eq, fun _ => command.decode_of_cut⟩
  · intro front back first second some within
    obtain ⟨field, form⟩ := first.exists_form some
    obtain ⟨other, otherForm⟩ := second.exists_form fun none =>
      some (List.prefix_nil.mp (none ▸ within))
    have forms := Forms.cons form .nil
    rw [List.append_nil] at forms
    exact otherForm.eq_of_prefix forms some within

/-- A key event and the report of a switch are written alike; cut short, neither is read. -/
theorem encoding_cut_is_truncated_alike :
    let event : Event := .kscan ⟨1, 0, true, 0⟩
    let command : Command := ⟨some ⟨.release, some (.position 1)⟩⟩
    event.encode = .ok [10, 4, 8, 1, 24, 1] ∧ command.encode = .ok [10, 4, 8, 1, 24, 1] ∧
    Event.decode [10, 4, 8, 1, 24] = .error (.truncated 5) ∧
    Command.decode [10] = .error (.truncated 1) ∧ event.bytes = command.bytes := by
  intro event command
  have sent : event.encode = .ok [10, 4, 8, 1, 24, 1] := by decide +kernel
  have asked : command.encode = .ok [10, 4, 8, 1, 24, 1] := by decide +kernel
  obtain ⟨bytes, encoded, eventCut⟩ := encoding_cut_is_truncated.1 event
  obtain ⟨others, otherEncoded, commandCut⟩ := encoding_cut_is_truncated.2.1 command
  obtain rfl : bytes = [10, 4, 8, 1, 24, 1] := Except.ok.inj (encoded.symm.trans sent)
  obtain rfl : others = [10, 4, 8, 1, 24, 1] := Except.ok.inj (otherEncoded.symm.trans asked)
  refine ⟨sent, asked, eventCut 5 (by decide) (by decide), commandCut 1 (by decide) (by decide),
    ?_⟩
  exact encoding_cut_is_truncated.2.2 _ _ (.inl ⟨event, event.encode_eq⟩)
    (.inr ⟨command, command.encode_eq⟩) (by decide +kernel) (by decide +kernel)

end KeyRelay
