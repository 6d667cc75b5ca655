import KeyRelay.Message.Decode
import KeyRelay.Proofs.Wire.Part

/-! # How the fields of messages are read

Numbers that are stored in fewer bits have to fit them, except signed ones, of
which the low half counts. An enum value is such a signed number. Each reading
is stated on the field alone, and the rule that stores the field follows it. -/
set_option autoImplicit false

namespace KeyRelay

open Wire

/-- The low half of a number, with its top bit as the sign. -/
def LowHalf (value : UInt64) (found : Int32) : Prop :=
  found.toUInt32.toNat = value.toNat % 2 ^ 32

def IsUInt8 : Field → UInt8 → Prop :=
  IsNumber fun value found => value.toNat = found.toNat

def IsUInt32 : Field → UInt32 → Prop :=
  IsNumber fun value found => value.toNat = found.toNat

def IsUInt64 : Field → UInt64 → Prop :=
  IsNumber fun value found => value = found

def IsInt32 : Field → Int32 → Prop :=
  IsNumber LowHalf

/-- Any number but zero is true. -/
def IsBool : Field → Bool → Prop :=
  IsNumber fun value found => found = true ↔ value ≠ 0

/-- The whole content, which the capacity has to hold. -/
def IsKeys {capacity : Nat} : Field → KeyArray capacity → Prop :=
  IsContent fun content found => found.toList = content

/-- A field whose content is in turn a form of a message. -/
def Embeds {β : Type} (form : β → List UInt8 → Prop) : Field → β → Prop :=
  IsContent fun content found => form found content

/-- Something that a message may lack. -/
def Present {β : Type} (reads : Field → β → Prop) (field : Field) (found : Option β) : Prop :=
  ∃ inner, reads field inner ∧ some inner = found

section Present

variable {β : Type} {fields : List Field} {numbers : List UInt32} {variants : Field → β → Prop}

theorem exists_present {field : Field} :
    (∃ outer, Present variants field outer) ↔ ∃ inner, variants field inner := by
  constructor
  · rintro ⟨_, inner, carried, _⟩
    exact ⟨inner, carried⟩
  · rintro ⟨inner, carried⟩
    exact ⟨some inner, inner, carried, rfl⟩

/-- A place is filled by the last of its fields. -/
theorem gives_present_some {found : β} :
    Gives fields numbers (Present variants) none (some found) ↔
      (∀ field ∈ fields, field.number ∈ numbers → ∃ inner, variants field inner) ∧
        ∃ field, lastOf numbers fields = some field ∧ variants field found := by
  constructor
  · rintro ⟨readable, last⟩
    simp only [exists_present] at readable
    refine ⟨readable, ?_⟩
    cases final : lastOf numbers fields with
    | none => simp [final] at last
    | some field =>
      rw [final] at last
      obtain ⟨inner, carried, same⟩ := last
      cases same
      exact ⟨field, rfl, carried⟩
  · rintro ⟨readable, field, final, carried⟩
    constructor
    · simpa only [exists_present] using readable
    · rw [final]
      exact ⟨found, carried, rfl⟩

/-- It stays empty only if none of them occurs. -/
theorem gives_present_none :
    Gives fields numbers (Present variants) none none ↔
      ∀ field ∈ fields, field.number ∉ numbers := by
  rw [← lastOf_eq_none]
  constructor
  · rintro ⟨_, last⟩
    cases final : lastOf numbers fields with
    | none => rfl
    | some field =>
      rw [final] at last
      obtain ⟨inner, _, same⟩ := last
      cases same
  · intro none
    constructor
    · intro field member known
      exact absurd known (lastOf_eq_none.mp none field member)
    · rw [none]

end Present

theorem int32_eq_iff {value : UInt64} {found : Int32} :
    int32 value = found ↔ LowHalf value found := by
  have low : (int32 value).toUInt32.toNat = value.toNat % 2 ^ 32 := by
    rw [int32, UInt32.toUInt32_toInt32, UInt64.toNat_toUInt32]
  rw [LowHalf, ← low]
  constructor
  · rintro rfl
    rfl
  · intro same
    have halves : (int32 value).toUInt32 = found.toUInt32 := UInt32.toNat_inj.mp same.symm
    rw [← Int32.toInt32_toUInt32 (int32 value), halves, Int32.toInt32_toUInt32]

theorem LowHalf.int32 (value : UInt64) : LowHalf value (int32 value) :=
  int32_eq_iff.mp rfl

theorem LowHalf.eq_iff {value : UInt64} {code other : Int32} (low : LowHalf value code) :
    code = other ↔ value.toNat % 2 ^ 32 = other.toUInt32.toNat := by
  rw [← int32_eq_iff.mpr low, int32_eq_iff, LowHalf, eq_comm]

theorem uint32_eq_ok {name : String} {number found : UInt32} {value : UInt64} :
    uint32 name number value = .ok found ↔ value.toNat = found.toNat := by
  rw [uint32]
  split
  next fits =>
    rw [Except.ok.injEq, ← UInt32.toNat_inj, UInt64.toNat_toUInt32, Nat.mod_eq_of_lt fits]
  next large =>
    have bound := found.toNat_lt
    simp only [reduceCtorEq, false_iff]
    intro same
    exact large (same ▸ bound)

theorem exists_isUInt32 {field : Field} :
    (∃ found, IsUInt32 field found) ↔
      ∃ value, field.value = .varint value ∧ value.toNat < 2 ^ 32 := by
  constructor
  · rintro ⟨found, value, carried, same⟩
    exact ⟨value, carried, same ▸ found.toNat_lt⟩
  · rintro ⟨value, carried, fits⟩
    have low : value.toUInt32.toNat = value.toNat := by
      rw [UInt64.toNat_toUInt32, Nat.mod_eq_of_lt fits]
    exact ⟨value.toUInt32, value, carried, low.symm⟩

theorem uint8_eq_ok {name : String} {number : UInt32} {found : UInt8} {value : UInt64} :
    uint8 name number value = .ok found ↔ value.toNat = found.toNat := by
  rw [uint8]
  split
  next fits =>
    rw [Except.ok.injEq, ← UInt8.toNat_inj, UInt64.toNat_toUInt8, Nat.mod_eq_of_lt fits]
  next large =>
    have bound := found.toNat_lt
    simp only [reduceCtorEq, false_iff]
    intro same
    exact large (same ▸ bound)

theorem boundedKeys_eq_ok {capacity : Nat} {name : String} {number : UInt32}
    {content : List UInt8} {found : KeyArray capacity} :
    boundedKeys name number content = .ok found ↔ found.toList = content := by
  rw [boundedKeys]
  split
  next fits =>
    rw [Except.ok.injEq, eq_comm]
    constructor
    · rintro rfl
      rfl
    · rintro rfl
      rfl
  next long =>
    simp only [reduceCtorEq, false_iff]
    rintro rfl
    exact long found.length_le

namespace Wire.Schema

variable {α β : Type} {schema : Schema α} {number : UInt32}

theorem assigns_uint8 {name : String} {set : UInt8 → α → α}
    (rule : schema.rule? number = some (.varint fun value message => do
      return set (← uint8 name number value) message)) : schema.Assigns number IsUInt8 set :=
  assigns_number rule fun _ _ _ => stores_of_read fun _ => uint8_eq_ok

theorem assigns_uint32 {name : String} {set : UInt32 → α → α}
    (rule : schema.rule? number = some (.varint fun value message => do
      return set (← uint32 name number value) message)) : schema.Assigns number IsUInt32 set :=
  assigns_number rule fun _ _ _ => stores_of_read fun _ => uint32_eq_ok

theorem assigns_uint64 {set : UInt64 → α → α}
    (rule : schema.rule? number = some (.varint fun value message => .ok (set value message))) :
    schema.Assigns number IsUInt64 set :=
  assigns_number rule fun _ _ _ => by simp

theorem assigns_int32 {set : Int32 → α → α}
    (rule : schema.rule? number =
      some (.varint fun value message => .ok (set (int32 value) message))) :
    schema.Assigns number IsInt32 set :=
  assigns_number rule fun _ _ _ => by simp [← int32_eq_iff]

theorem assigns_bool {set : Bool → α → α}
    (rule : schema.rule? number =
      some (.varint fun value message => .ok (set (value != 0) message))) :
    schema.Assigns number IsBool set := by
  refine assigns_number rule fun value before after => ?_
  have only : ∀ found : Bool, (found = true ↔ value ≠ 0) ↔ (value != 0) = found := by
    intro found
    cases found <;> simp
  simp [only]

theorem assigns_keys {capacity : Nat} {name : String} {set : KeyArray capacity → α → α}
    (rule : schema.rule? number = some (.bytes fun content message => do
      return set (← boundedKeys name number content) message)) :
    schema.Assigns number IsKeys set :=
  assigns_content rule fun _ _ _ => stores_of_read fun _ => boundedKeys_eq_ok

theorem assigns_embedded {decode : List UInt8 → Except DecodeError β}
    {form : β → List UInt8 → Prop} {set : β → α → α}
    (decodes : ∀ {content : List UInt8} {found : β},
      decode content = .ok found ↔ form found content)
    (rule : schema.rule? number = some (.bytes fun content message => do
      return set (← decode content) message)) :
    schema.Assigns number (Embeds form) set :=
  assigns_content rule fun _ _ _ => stores_of_read fun _ => decodes

/-- A number of a place that holds one of several variants, or none. -/
theorem Assigns.oneof {γ : Type} {reads : Field → β → Prop} {variants : Field → γ → Prop}
    {set : Option γ → α → α} (wrap : β → γ)
    (assigns : schema.Assigns number reads fun found => set (some (wrap found)))
    (carries : ∀ value variant, variants ⟨number, value⟩ variant ↔
      ∃ found, reads ⟨number, value⟩ found ∧ wrap found = variant) :
    schema.Assigns number (Present variants) set := by
  intro value before after
  rw [assigns value before after]
  constructor
  · rintro ⟨found, read, stored⟩
    exact ⟨some (wrap found), ⟨wrap found, (carries value _).mpr ⟨found, read, rfl⟩, rfl⟩, stored⟩
  · rintro ⟨_, ⟨variant, carried, rfl⟩, stored⟩
    obtain ⟨found, read, rfl⟩ := (carries value variant).mp carried
    exact ⟨found, read, stored⟩

namespace Part

/-- A part with fields of several numbers, each of which assigns it. -/
def several (numbers : List UInt32) (reads : Field → β → Prop) (get : α → β) (set : β → α → α)
    (assigns : ∀ number ∈ numbers, schema.Assigns number reads set)
    (get_set : ∀ found message, get (set found message) = found := by intros; rfl) :
    schema.Part :=
  ⟨numbers, reads, get, set, assigns, get_set⟩

/-- A part with one field number. -/
@[simp]
def single (number : UInt32) (reads : Field → β → Prop) (get : α → β) (set : β → α → α)
    (assigns : schema.Assigns number reads set)
    (get_set : ∀ found message, get (set found message) = found := by intros; rfl) :
    schema.Part :=
  several [number] reads get set (by simpa using assigns) get_set

variable {γ : Type} {numbers : List UInt32} {reads : Field → β → Prop} {get : α → β}
  {set : β → α → α} {assigns : ∀ number ∈ numbers, schema.Assigns number reads set}
  {get_set : ∀ found message, get (set found message) = found}

@[simp]
theorem numbers_several : (several numbers reads get set assigns get_set).numbers = numbers :=
  rfl

@[simp]
theorem get_several_eq (message other : α) :
    (several numbers reads get set assigns get_set).get message =
      (several numbers reads get set assigns get_set).get other ↔ get message = get other :=
  Iff.rfl

@[simp]
theorem apart_several {numbers' : List UInt32} {reads' : Field → γ → Prop} {get' : α → γ}
    {set' : γ → α → α} {assigns' : ∀ number ∈ numbers', schema.Assigns number reads' set'}
    {get_set' : ∀ found message, get' (set' found message) = found} :
    (several numbers reads get set assigns get_set).Apart
        (several numbers' reads' get' set' assigns' get_set') ↔
      (∀ found message, get (set' found message) = get message) ∧
        ∀ found message, get' (set found message) = get' message :=
  apart_iff _ _

@[simp]
theorem givenBy_several {fields : List Field} {before after : α} :
    (several numbers reads get set assigns get_set).GivenBy fields before after ↔
      Gives fields numbers reads (get before) (get after) :=
  Iff.rfl

end Part

end Wire.Schema

end KeyRelay
