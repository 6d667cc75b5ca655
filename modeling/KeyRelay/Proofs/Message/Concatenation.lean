import KeyRelay.Proofs.Message.EventForm
import KeyRelay.Proofs.Wire.Fault

/-! # One message behind another

Bytes that were accepted may stand in front of others. What the latter say then holds: their
event or key event, or their error, with its offset counted from further back if the reader
met it. Where they say nothing, the former still hold. -/
set_option autoImplicit false

namespace KeyRelay

open Wire

namespace Wire

section Payload

variable {α β : Type}

theorem Cursor.varint_ne_missing (cursor : Cursor) :
    cursor.varint.1 ≠ .error .missingPayload := by
  unfold varint
  split <;> simp

theorem Cursor.take_ne_missing (cursor : Cursor) (count : Nat) :
    (cursor.take count).1 ≠ .error .missingPayload := by
  unfold take
  split <;> simp

theorem Cursor.lengthDelimited_ne_missing (cursor : Cursor) :
    cursor.lengthDelimited.1 ≠ .error .missingPayload := by
  have number := cursor.varint_ne_missing
  unfold lengthDelimited
  split
  next length next call => exact next.take_ne_missing length.toNat
  next failure next call =>
    rw [call] at number
    simpa using number

theorem map_ne_missing {outcome : Except DecodeError α} (wrap : α → β)
    (other : outcome ≠ .error .missingPayload) : outcome.map wrap ≠ .error .missingPayload := by
  cases outcome with
  | ok found => simp [Except.map]
  | error failure => simpa [Except.map] using other

theorem Cursor.keyOf_ne_missing (offset : Nat) (packed : UInt64) :
    keyOf offset packed ≠ .error .missingPayload := by
  unfold keyOf
  dsimp only
  split
  · simp
  · split <;> simp

theorem Cursor.key_ne_missing (cursor : Cursor) : cursor.key.1 ≠ .error .missingPayload := by
  have number := cursor.varint_ne_missing
  unfold key
  split
  · simp
  · split
    next packed next call => exact map_ne_missing some (keyOf_ne_missing cursor.offset packed)
    next failure next call =>
      rw [call] at number
      simpa using number

theorem Cursor.value_ne_missing (cursor : Cursor) (key : Key) :
    (cursor.value key).1 ≠ .error .missingPayload := by
  unfold value
  split
  · exact map_ne_missing _ cursor.varint_ne_missing
  · exact map_ne_missing _ (cursor.take_ne_missing 8)
  · exact map_ne_missing _ cursor.lengthDelimited_ne_missing
  · exact map_ne_missing _ (cursor.take_ne_missing 4)
  · simp
  · simp

/-- Whatever this rule refuses, it is not for want of a payload. -/
def Rule.NeedsNoPayload : Rule α → Prop
  | .varint store => ∀ value message, store value message ≠ .error .missingPayload
  | .bytes store => ∀ content message, store content message ≠ .error .missingPayload

def Schema.NeedsNoPayload (schema : Schema α) : Prop :=
  ∀ number rule, schema.rule? number = some rule → rule.NeedsNoPayload

theorem Schema.NeedsNoPayload.decode {schema : Schema α} (needsNone : schema.NeedsNoPayload)
    (default : α) (bytes : List UInt8) : schema.decode default bytes ≠ .error .missingPayload := by
  intro missing
  obtain ⟨level, fails⟩ := Schema.exists_fails missing
  cases fails with
  | key reached failed => exact Cursor.key_ne_missing _ (congrArg Prod.fst failed)
  | value reached read expected failed =>
    exact Cursor.value_ne_missing _ _ (congrArg Prod.fst failed)
  | number reached read carried known refused => exact needsNone _ _ known _ _ refused
  | bytes reached read carried known refused => exact needsNone _ _ known _ _ refused

theorem uint32_ne_missing (message : String) (field : UInt32) (value : UInt64) :
    uint32 message field value ≠ .error .missingPayload := by
  unfold uint32
  split <;> simp

end Payload

end Wire

theorem uint8_ne_missing (message : String) (field : UInt32) (value : UInt64) :
    uint8 message field value ≠ .error .missingPayload := by
  unfold uint8
  split <;> simp

theorem boundedKeys_ne_missing {capacity : Nat} (message : String) (field : UInt32)
    (codes : List UInt8) :
    (boundedKeys message field codes : Except DecodeError (KeyArray capacity)) ≠
      .error .missingPayload := by
  unfold boundedKeys
  split <;> simp

theorem Endpoint.needsNoPayload : schema.NeedsNoPayload := by
  intro number rule known
  simp only [schema] at known
  split at known
  · cases known
    intro value endpoint
    dsimp only
    split <;> simp
  · cases known
    intro value endpoint
    exact map_ne_missing _ (uint32_ne_missing _ _ _)
  · cases known

theorem KscanEvent.needsNoPayload : schema.NeedsNoPayload := by
  intro number rule known
  simp only [schema] at known
  split at known
  · cases known
    exact fun _ _ => map_ne_missing _ (uint32_ne_missing _ _ _)
  · cases known
    exact fun _ _ => map_ne_missing _ (uint32_ne_missing _ _ _)
  · cases known
    simp [Rule.NeedsNoPayload]
  · cases known
    simp [Rule.NeedsNoPayload]
  · cases known

theorem KeyboardReport.needsNoPayload : schema.NeedsNoPayload := by
  intro number rule known
  simp only [schema] at known
  split at known
  · cases known
    exact fun _ _ => map_ne_missing _ (Endpoint.needsNoPayload.decode _ _)
  · cases known
    exact fun _ _ => map_ne_missing _ (uint8_ne_missing _ _ _)
  · cases known
    exact fun _ _ => map_ne_missing _ (boundedKeys_ne_missing _ _ _)
  · cases known

theorem ConsumerReport.needsNoPayload : schema.NeedsNoPayload := by
  intro number rule known
  simp only [schema] at known
  split at known
  · cases known
    exact fun _ _ => map_ne_missing _ (Endpoint.needsNoPayload.decode _ _)
  · cases known
    exact fun _ _ => map_ne_missing _ (boundedKeys_ne_missing _ _ _)
  · cases known

theorem MouseReport.needsNoPayload : schema.NeedsNoPayload := by
  intro number rule known
  simp only [schema] at known
  split at known
  · cases known
    exact fun _ _ => map_ne_missing _ (Endpoint.needsNoPayload.decode _ _)
  · cases known
    exact fun _ _ => map_ne_missing _ (uint32_ne_missing _ _ _)
  all_goals
    cases known
  all_goals simp [Rule.NeedsNoPayload]

theorem Event.needsNoPayload : schema.NeedsNoPayload := by
  intro number rule known
  simp only [schema] at known
  split at known
  · cases known
    exact fun _ _ => map_ne_missing _ (KscanEvent.needsNoPayload.decode _ _)
  · cases known
    exact fun _ _ => map_ne_missing _ (KeyboardReport.needsNoPayload.decode _ _)
  · cases known
    exact fun _ _ => map_ne_missing _ (ConsumerReport.needsNoPayload.decode _ _)
  · cases known
    exact fun _ _ => map_ne_missing _ (MouseReport.needsNoPayload.decode _ _)
  · cases known

theorem or_of_variant {β : Type} {wrap : β → Event} {outcome : Except DecodeError β}
    {found : Option Event} (earlier : Option Event)
    (read : (do return some (wrap (← outcome))) = Except.ok found) :
    found.or earlier = found := by
  cases outcome with
  | ok inner =>
    cases read
    rfl
  | error failure => cases read

/-- Each variant takes the place of an earlier one, whichever that was. -/
theorem Event.replaces : schema.Replaces none fun later earlier => later.or earlier where
  nothing := fun _ => rfl
  rule := by
    intro number rule known
    simp only [schema] at known
    split at known
    · cases known
      exact ⟨_, rfl, fun _ _ earlier => or_of_variant earlier⟩
    · cases known
      exact ⟨_, rfl, fun _ _ earlier => or_of_variant earlier⟩
    · cases known
      exact ⟨_, rfl, fun _ _ earlier => or_of_variant earlier⟩
    · cases known
      exact ⟨_, rfl, fun _ _ earlier => or_of_variant earlier⟩
    · cases known

theorem Command.replaces :
    schema.Replaces {} fun later earlier => ⟨later.keyEvent.or earlier.keyEvent⟩ where
  nothing := fun _ => rfl
  rule := by
    intro number rule known
    simp only [schema] at known
    split at known
    · cases known
      refine ⟨_, rfl, fun content found earlier read => ?_⟩
      cases inner : KeyEvent.decode content with
      | ok event =>
        rw [inner] at read
        cases read
        rfl
      | error failure =>
        rw [inner] at read
        cases read
    · cases known

namespace Event

variable {bytes front back : List UInt8} {failure : DecodeError}

/-- An event is missing exactly where its message is accepted without one. -/
theorem decode_eq_missing :
    decode bytes = .error .missingPayload ↔ schema.decode none bytes = .ok none := by
  unfold decode
  split
  next event accepted => simp [accepted]
  next accepted => simp [accepted]
  next other refused =>
    have named : other ≠ .missingPayload := by
      rintro rfl
      exact needsNoPayload.decode none bytes refused
    simp [refused, named]

theorem decode_eq_error_iff :
    decode bytes = .error failure ∧ failure ≠ .missingPayload ↔
      schema.decode none bytes = .error failure := by
  unfold decode
  split
  next event accepted => simp [accepted]
  next accepted =>
    rw [accepted]
    constructor
    · rintro ⟨same, other⟩
      cases same
      exact absurd rfl other
    · intro same
      cases same
  next other refused =>
    rw [refused]
    constructor
    · rintro ⟨same, _⟩
      cases same
      rfl
    · intro same
      cases same
      exact ⟨rfl, fun missing => needsNoPayload.decode none bytes (missing ▸ refused)⟩

/-- What is no error of the message itself is accepted, with an event or without. -/
theorem exists_accepted
    (fit : (∃ event, decode bytes = .ok event) ∨ decode bytes = .error .missingPayload) :
    ∃ found, schema.decode none bytes = .ok found := by
  rcases fit with ⟨event, decoded⟩ | missing
  · exact ⟨some event, decode_eq_ok_schema.mp decoded⟩
  · exact ⟨none, decode_eq_missing.mp missing⟩

end Event

/-- Behind bytes that were accepted, with an event or without, others have the last word, with
the offset of an error that the reader met counted from the start; and so it is for commands. -/
theorem decode_of_joined :
    (∀ front back,
      (∃ event, Event.decode front = .ok event) ∨ Event.decode front = .error .missingPayload →
      (∀ event, Event.decode back = .ok event → Event.decode (front ++ back) = .ok event) ∧
      (Event.decode back = .error .missingPayload →
        Event.decode (front ++ back) = Event.decode front) ∧
      (∀ failure, Event.decode back = .error failure ∧ failure ≠ .missingPayload ↔
        ∃ level, Event.schema.Fails none back level failure) ∧
      ∀ level failure, Event.schema.Fails none back level failure →
        Event.decode (front ++ back) = .error (failure.behind front.length level)) ∧
    ∀ front back command, Command.decode front = .ok command →
      (∀ later, Command.decode back = .ok later →
        Command.decode (front ++ back) = .ok ⟨later.keyEvent.or command.keyEvent⟩) ∧
      (∀ failure, Command.decode back = .error failure ↔
        ∃ level, Command.schema.Fails {} back level failure) ∧
      ∀ level failure, Command.schema.Fails {} back level failure →
        Command.decode (front ++ back) = .error (failure.behind front.length level) := by
  constructor
  · intro front back fit
    obtain ⟨earlier, first⟩ := Event.exists_accepted fit
    refine ⟨?_, ?_, ?_, ?_⟩
    · intro event decoded
      rw [Event.decode_eq_ok_schema] at decoded ⊢
      exact Event.replaces.decode_append first decoded
    · intro missing
      have joined := Event.replaces.decode_append first (Event.decode_eq_missing.mp missing)
      simp only [Event.decode, joined, first, Option.none_or]
    · intro failure
      exact Event.decode_eq_error_iff.trans Schema.decode_eq_error
    · intro level failure fails
      exact (Event.decode_eq_error_iff.mpr (Event.replaces.fails first fails).decode).1
  · intro front back command first
    refine ⟨?_, ?_, ?_⟩
    · intro later decoded
      exact Command.replaces.decode_append first decoded
    · intro failure
      exact Schema.decode_eq_error
    · intro level failure fails
      exact (Command.replaces.fails first fails).decode

/-- Of two cut messages, the first is cut in its field and the second inside its variant; a
third one has no field that is known. -/
theorem decode_of_joined_cut :
    Event.decode [10, 5, 1] = .error (.truncated 3) ∧
    Event.decode ([10, 2, 16, 7] ++ [10, 5, 1]) = .error (.truncated 7) ∧
    Event.decode [10, 2, 16, 128] = .error (.truncated 2) ∧
    Event.decode ([10, 2, 16, 7] ++ [10, 2, 16, 128]) = .error (.truncated 2) ∧
    Event.decode [40, 1] = .error .missingPayload ∧
    Event.decode ([10, 2, 16, 7] ++ [40, 1]) = .ok (.kscan ⟨0, 7, false, 0⟩) ∧
    Event.decode ([40, 1] ++ [10, 2, 16, 7]) = .ok (.kscan ⟨0, 7, false, 0⟩) ∧
    Command.decode [10, 1, 24] = .error (.truncated 1) ∧
    Command.decode ([10, 2, 24, 5] ++ [10, 1, 24]) = .error (.truncated 1) ∧
    Command.decode ([10, 2, 24, 5] ++ [40, 1]) = .ok ⟨some (.press (.position 5))⟩ := by
  have event : Event.decode [10, 2, 16, 7] = .ok (.kscan ⟨0, 7, false, 0⟩) := by
    decide +kernel
  have nothing : Event.decode [40, 1] = .error .missingPayload := by
    decide +kernel
  have command : Command.decode [10, 2, 24, 5] = .ok ⟨some (.press (.position 5))⟩ := by
    decide +kernel
  have empty : Command.decode [40, 1] = .ok {} := by
    decide +kernel
  have outside : Event.schema.Fails none [10, 5, 1] .reader (.truncated 3) :=
    @Schema.Fails.value _ _ _ _ none ⟨0, [10, 5, 1]⟩ ⟨1, [5, 1]⟩ ⟨2, [1]⟩ ⟨1, .lengthDelimited⟩ _
      (Schema.reaches_start _ _ _) (by decide +kernel) (fun rule known => by cases known; rfl)
      (by decide +kernel)
  have inside : Event.schema.Fails none [10, 2, 16, 128] .content (.truncated 2) :=
    @Schema.Fails.bytes _ _ _ _ none ⟨0, [10, 2, 16, 128]⟩ ⟨1, [2, 16, 128]⟩ ⟨4, []⟩
      ⟨1, .lengthDelimited⟩ [16, 128] _ _ (Schema.reaches_start _ _ _) (by decide +kernel)
      (by decide +kernel) rfl (by decide +kernel)
  have keyEvent : Command.schema.Fails {} [10, 1, 24] .content (.truncated 1) :=
    @Schema.Fails.bytes _ _ _ _ {} ⟨0, [10, 1, 24]⟩ ⟨1, [1, 24]⟩ ⟨3, []⟩
      ⟨1, .lengthDelimited⟩ [24] _ _ (Schema.reaches_start _ _ _) (by decide +kernel)
      (by decide +kernel) rfl (by decide +kernel)
  have events := fun back => decode_of_joined.1 [10, 2, 16, 7] back (.inl ⟨_, event⟩)
  have behindNothing := decode_of_joined.1 [40, 1] [10, 2, 16, 7] (.inr nothing)
  have commands := fun back => decode_of_joined.2 [10, 2, 24, 5] back _ command
  refine ⟨(((events _).2.2.1 _).mpr ⟨_, outside⟩).1, (events _).2.2.2 _ _ outside,
    (((events _).2.2.1 _).mpr ⟨_, inside⟩).1, (events _).2.2.2 _ _ inside, nothing,
    ((events _).2.1 nothing).trans event, behindNothing.1 _ event,
    ((commands _).2.1 _).mpr ⟨_, keyEvent⟩, (commands _).2.2 _ _ keyEvent,
    (commands _).1 _ empty⟩

end KeyRelay
