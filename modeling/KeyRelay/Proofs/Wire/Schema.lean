import KeyRelay.Wire.Schema
import KeyRelay.Proofs.Wire.Put

/-! # Decoding what puts have written

A schema stores a put if absorbing the put's field has the wanted effect, and
an omitted put has to leave the message as it is. A message that is built up by
the puts of its encoding, one after another from the default, is what the
encoding decodes to. -/
set_option autoImplicit false

namespace KeyRelay.Wire

theorem int32_extended (value : Int32) : int32 (Put.extended value) = value := by
  have narrowed : int32 (Put.extended value) = value.toInt64.toInt32 := by
    apply Int32.toBitVec_inj.mp
    rw [Int64.toBitVec_toInt32, BitVec.signExtend_eq_setWidth_of_le _ (by decide)]
    rfl
  rw [narrowed, Int32.toInt32_toInt64]

theorem extended_eq_zero {value : Int32} : Put.extended value = 0 ↔ value = 0 := by
  constructor
  · intro zero
    rw [← int32_extended value, zero]
    rfl
  · intro zero
    rw [zero]
    rfl

theorem uint32_toUInt64 (message : String) (field value : UInt32) :
    uint32 message field value.toUInt64 = .ok value := by
  have fits : value.toUInt64.toNat < UInt32.size := by
    rw [UInt32.toNat_toUInt64]
    exact value.toNat_lt
  rw [uint32, if_pos fits, UInt32.toUInt32_toUInt64]

namespace Schema

variable {α : Type} {schema : Schema α} {before middle after : α}

/-- What a put writes takes the message from `before` to `after`. -/
def Stores (schema : Schema α) (put : Put) (before after : α) : Prop :=
  match put.field? with
  | none => before = after
  | some field => schema.absorb field before = .ok after

inductive StoresAll (schema : Schema α) : List Put → α → α → Prop
  | nil (message : α) : StoresAll schema [] message message
  | cons {put : Put} {rest : List Put} {before : α} (middle : α) {after : α}
      (head : schema.Stores put before middle) (tail : StoresAll schema rest middle after) :
      StoresAll schema (put :: rest) before after

theorem absorb_varint {number : UInt32} {value : UInt64}
    {store : UInt64 → α → Except DecodeError α} (rule : schema.rule? number = some (.varint store))
    (stored : store value before = .ok after) :
    schema.absorb ⟨number, .varint value⟩ before = .ok after := by
  simp only [absorb, rule, stored]

theorem absorb_bytes {number : UInt32} {value : List UInt8}
    {store : List UInt8 → α → Except DecodeError α}
    (rule : schema.rule? number = some (.bytes store))
    (stored : store value before = .ok after) :
    schema.absorb ⟨number, .lengthDelimited value⟩ before = .ok after := by
  simp only [absorb, rule, stored]

theorem stores_varintField {number : UInt32} {value : UInt64}
    {store : UInt64 → α → Except DecodeError α} (rule : schema.rule? number = some (.varint store))
    (stored : store value before = .ok after) :
    schema.Stores (.varintField number value) before after :=
  absorb_varint rule stored

theorem stores_uint {number : UInt32} {value : UInt64}
    {store : UInt64 → α → Except DecodeError α} (rule : schema.rule? number = some (.varint store))
    (stored : store value before = .ok after) (omitted : value = 0 → before = after) :
    schema.Stores (.uint number value) before after := by
  by_cases zero : value = 0
  · simpa [Stores, Put.field?, zero] using omitted zero
  · simpa [Stores, Put.field?, zero] using absorb_varint rule stored

theorem stores_uint32 {number value : UInt32}
    {store : UInt64 → α → Except DecodeError α} (rule : schema.rule? number = some (.varint store))
    (stored : store value.toUInt64 before = .ok after) (omitted : value = 0 → before = after) :
    schema.Stores (.uint number value.toUInt64) before after := by
  apply stores_uint rule stored
  intro zero
  exact omitted (UInt32.toUInt64_inj.mp zero)

theorem stores_int32 {number : UInt32} {value : Int32}
    {store : UInt64 → α → Except DecodeError α} (rule : schema.rule? number = some (.varint store))
    (stored : store (Put.extended value) before = .ok after)
    (omitted : value = 0 → before = after) :
    schema.Stores (.int32 number value) before after := by
  by_cases zero : Put.extended value = 0
  · simpa [Stores, Put.field?, zero] using omitted (extended_eq_zero.mp zero)
  · simpa [Stores, Put.field?, zero] using absorb_varint rule stored

theorem stores_bool {number : UInt32} {value : Bool}
    {store : UInt64 → α → Except DecodeError α} (rule : schema.rule? number = some (.varint store))
    (stored : value = true → store 1 before = .ok after)
    (omitted : value = false → before = after) :
    schema.Stores (.bool number value) before after := by
  cases value with
  | false => simpa [Stores, Put.field?] using omitted rfl
  | true => simpa [Stores, Put.field?] using absorb_varint rule (stored rfl)

theorem stores_bytes {number : UInt32} {value : List UInt8}
    {store : List UInt8 → α → Except DecodeError α}
    (rule : schema.rule? number = some (.bytes store))
    (stored : store value before = .ok after) (omitted : value = [] → before = after) :
    schema.Stores (.bytes number value) before after := by
  by_cases empty : value = []
  · simpa [Stores, Put.field?, empty] using omitted empty
  · simpa [Stores, Put.field?, empty] using absorb_bytes rule stored

theorem stores_lengthDelimited {number : UInt32} {value : List UInt8}
    {store : List UInt8 → α → Except DecodeError α}
    (rule : schema.rule? number = some (.bytes store))
    (stored : store value before = .ok after) :
    schema.Stores (.lengthDelimited number value) before after :=
  absorb_bytes rule stored

theorem absorbAll_of_storesAll {puts : List Put} (stores : schema.StoresAll puts before after) :
    schema.absorbAll (Put.fields puts) before = .ok after := by
  induction stores with
  | nil message => rfl
  | cons middle head tail ih =>
    rw [Stores] at head
    rw [Put.fields_cons]
    split at head
    next omitted =>
      rw [omitted, head]
      exact ih
    next field written =>
      rw [written, Option.toList_some, List.singleton_append, absorbAll, head]
      exact ih

/-- The encoding of puts decodes to the message that they build up. -/
theorem decode_encodingAll {puts : List Put} (valid : ∀ put ∈ puts, put.Valid)
    (stores : schema.StoresAll puts before after) :
    schema.decode before (Put.encodingAll puts) = .ok after := by
  rw [decode, scan_encodingAll valid]
  dsimp only
  rw [absorbAll_of_storesAll stores]
  rfl

/-- The puts of a message fit its buffer and build it up from the default. -/
structure Written (schema : Schema α) (default : α) (capacity : Nat) (puts : List Put)
    (message : α) : Prop where
  valid : ∀ put ∈ puts, put.Valid
  fits : (Put.encodingAll puts).length ≤ capacity
  stores : schema.StoresAll puts default message

theorem Written.render {default message : α} {capacity : Nat} {puts : List Put}
    (written : schema.Written default capacity puts message) (name : String) :
    Writer.render name capacity puts = .ok (Put.encodingAll puts) :=
  Writer.render_of_fits name written.fits

theorem Written.decode {default message : α} {capacity : Nat} {puts : List Put}
    (written : schema.Written default capacity puts message) :
    schema.decode default (Put.encodingAll puts) = .ok message :=
  decode_encodingAll written.valid written.stores

end Schema

end KeyRelay.Wire
