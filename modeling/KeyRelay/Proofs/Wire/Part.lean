import KeyRelay.Wire.Schema
import KeyRelay.Proofs.Wire.Form
import Mathlib.Data.List.Pairwise
import Mathlib.Tactic.MkIffOfInductiveProp

/-! # The parts of a message

A message is made of parts. A part belongs to one field number, or to several
that exclude each other. Each of its fields has to be readable, and the last one
gives its value; where there is none the part has its default. A schema whose
rules read and set such parts, each without touching the others, decodes a
message exactly if the message is a form of fields that give its parts. -/
set_option autoImplicit false

namespace KeyRelay.Wire

/-- The last of the fields that have one of some numbers. -/
def lastOf (numbers : List UInt32) (fields : List Field) : Option Field :=
  (fields.filter fun field => numbers.contains field.number).getLast?

theorem lastOf_cons_of_mem {numbers : List UInt32} {field : Field} (rest : List Field)
    (member : field.number ∈ numbers) :
    lastOf numbers (field :: rest) = some ((lastOf numbers rest).getD field) := by
  rw [lastOf, List.filter_cons_of_pos (by simpa using member), List.getLast?_cons]
  rfl

theorem lastOf_cons_of_not_mem {numbers : List UInt32} {field : Field} (rest : List Field)
    (other : field.number ∉ numbers) : lastOf numbers (field :: rest) = lastOf numbers rest := by
  rw [lastOf, List.filter_cons_of_neg (by simpa using other)]
  rfl

theorem mem_of_lastOf {numbers : List UInt32} {fields : List Field} {field : Field}
    (last : lastOf numbers fields = some field) : field ∈ fields ∧ field.number ∈ numbers := by
  have member := List.mem_of_getLast? last
  simpa using member

theorem lastOf_eq_none {numbers : List UInt32} {fields : List Field} :
    lastOf numbers fields = none ↔ ∀ field ∈ fields, field.number ∉ numbers := by
  simp [lastOf]

/-- What fields say about a part: all of its fields are readable, and its value
is that of the last one, or the default. -/
structure Gives {β : Type} (fields : List Field) (numbers : List UInt32)
    (reads : Field → β → Prop) (default value : β) : Prop where
  readable : ∀ field ∈ fields, field.number ∈ numbers → ∃ found, reads field found
  last : match lastOf numbers fields with
    | some field => reads field value
    | none => value = default

section Gives

variable {β : Type} {field : Field} {rest fields : List Field} {numbers : List UInt32}
  {reads : Field → β → Prop} {default value : β}

theorem gives_nil : Gives [] numbers reads default value ↔ value = default := by
  constructor
  · intro gives
    exact gives.last
  · intro same
    exact ⟨by simp, same⟩

/-- A field of the part takes the place of what was there before. -/
theorem gives_cons_of_mem (member : field.number ∈ numbers) :
    Gives (field :: rest) numbers reads default value ↔
      ∃ found, reads field found ∧ Gives rest numbers reads found value := by
  constructor
  · rintro ⟨readable, last⟩
    rw [lastOf_cons_of_mem rest member] at last
    have restReadable : ∀ later ∈ rest, later.number ∈ numbers → ∃ found, reads later found := by
      intro later laterMember
      exact readable later (List.mem_cons_of_mem _ laterMember)
    cases later : lastOf numbers rest with
    | none =>
      rw [later] at last
      exact ⟨value, last, restReadable, by rw [later]⟩
    | some final =>
      rw [later] at last
      obtain ⟨found, head⟩ := readable field List.mem_cons_self member
      exact ⟨found, head, restReadable, by rw [later]; exact last⟩
  · rintro ⟨found, head, restReadable, last⟩
    constructor
    · intro later laterMember
      rcases List.mem_cons.mp laterMember with rfl | inRest
      · intro _
        exact ⟨found, head⟩
      · exact restReadable later inRest
    · rw [lastOf_cons_of_mem rest member]
      cases later : lastOf numbers rest with
      | none =>
        rw [later] at last
        dsimp only at last
        rw [last]
        exact head
      | some final =>
        rw [later] at last
        exact last

theorem gives_cons_of_not_mem (other : field.number ∉ numbers) :
    Gives (field :: rest) numbers reads default value ↔
      Gives rest numbers reads default value := by
  constructor
  · rintro ⟨readable, last⟩
    rw [lastOf_cons_of_not_mem rest other] at last
    exact ⟨fun later member => readable later (List.mem_cons_of_mem _ member), last⟩
  · rintro ⟨readable, last⟩
    rw [← lastOf_cons_of_not_mem rest other] at last
    refine ⟨?_, last⟩
    intro later member known
    rcases List.mem_cons.mp member with rfl | inRest
    · exact absurd known other
    · exact readable later inRest known

/-- A value is the default or was read. -/
theorem Gives.eq_default_or_read (gives : Gives fields numbers reads default value) :
    value = default ∨ ∃ field, reads field value := by
  obtain ⟨_, last⟩ := gives
  split at last
  next field _ => exact .inr ⟨field, last⟩
  next => exact .inl last

/-- Readable fields always give a value. -/
theorem exists_gives (default : β)
    (readable : ∀ field ∈ fields, field.number ∈ numbers → ∃ found, reads field found) :
    ∃ value, Gives fields numbers reads default value := by
  cases last : lastOf numbers fields with
  | none => exact ⟨default, readable, by rw [last]⟩
  | some field =>
    obtain ⟨member, known⟩ := mem_of_lastOf last
    obtain ⟨value, read⟩ := readable field member known
    exact ⟨value, readable, by rw [last]; exact read⟩

end Gives

namespace Schema

variable {α β : Type} {schema : Schema α} {number : UInt32}

/-- A field of this number is absorbed if it can be read, by setting what was read. -/
def Assigns (schema : Schema α) (number : UInt32) (reads : Field → β → Prop)
    (set : β → α → α) : Prop :=
  ∀ value before after, schema.absorb ⟨number, value⟩ before = .ok after ↔
    ∃ found, reads ⟨number, value⟩ found ∧ set found before = after

/-- One part of the messages of a schema. -/
structure Part (schema : Schema α) where
  {Value : Type}
  numbers : List UInt32
  reads : Field → Value → Prop
  get : α → Value
  set : Value → α → α
  assigns : ∀ number ∈ numbers, schema.Assigns number reads set
  get_set : ∀ found message, get (set found message) = found

def Part.GivenBy (part : schema.Part) (fields : List Field) (before after : α) : Prop :=
  Gives fields part.numbers part.reads (part.get before) (part.get after)

/-- Neither part changes when the other is set. -/
@[mk_iff]
structure Part.Apart (part other : schema.Part) : Prop where
  get_set : ∀ found message, part.get (other.set found message) = part.get message
  get_set' : ∀ found message, other.get (part.set found message) = other.get message

instance : Std.Symm (@Part.Apart α schema) where
  symm _ _ apart := ⟨apart.get_set', apart.get_set⟩

/-- The parts make up the whole message, and no other field says anything about it. -/
structure MadeOf (schema : Schema α) (parts : List schema.Part) : Prop where
  apart : parts.Pairwise Part.Apart
  unknown : ∀ number, (∀ part ∈ parts, number ∉ part.numbers) → schema.rule? number = none
  ext : ∀ message other, (∀ part ∈ parts, part.get message = part.get other) → message = other

/-- What is read off a field of a part is what absorbing it leaves there. -/
theorem Part.reads_iff {part : schema.Part} {field : Field} {before middle : α}
    (known : field.number ∈ part.numbers) (absorbed : schema.absorb field before = .ok middle)
    (found : part.Value) : part.reads field found ↔ found = part.get middle := by
  obtain ⟨stored, read, rfl⟩ := (part.assigns _ known field.value before middle).mp absorbed
  rw [part.get_set]
  constructor
  · intro alsoRead
    have again := (part.assigns _ known field.value before _).mpr ⟨found, alsoRead, rfl⟩
    have same : part.set found before = part.set stored before :=
      Except.ok.inj (again.symm.trans absorbed)
    rw [← part.get_set found before, same, part.get_set]
  · rintro rfl
    exact read

namespace MadeOf

variable {parts : List schema.Part} {part : schema.Part} {field : Field} {rest : List Field}
  {before middle after : α}

theorem absorb_unknown (made : schema.MadeOf parts)
    (foreign : ∀ part ∈ parts, field.number ∉ part.numbers) :
    schema.absorb field before = .ok before := by
  rw [absorb, made.unknown field.number foreign]

/-- A field whose part can be read is absorbed, and so is one without a part. -/
theorem exists_absorb (made : schema.MadeOf parts)
    (readable : ∀ part ∈ parts, field.number ∈ part.numbers → ∃ found, part.reads field found) :
    ∃ after, schema.absorb field before = .ok after := by
  by_cases known : ∃ part ∈ parts, field.number ∈ part.numbers
  · obtain ⟨part, member, known⟩ := known
    obtain ⟨found, read⟩ := readable part member known
    exact ⟨part.set found before,
      (part.assigns _ known field.value before _).mpr ⟨found, read, rfl⟩⟩
  · refine ⟨before, made.absorb_unknown ?_⟩
    intro part member mine
    exact known ⟨part, member, mine⟩

/-- A field of another part, or of none, leaves a part as it was. -/
theorem get_of_absorb (made : schema.MadeOf parts) (member : part ∈ parts)
    (foreign : field.number ∉ part.numbers) (absorbed : schema.absorb field before = .ok after) :
    part.get after = part.get before := by
  by_cases known : ∃ other ∈ parts, field.number ∈ other.numbers
  · obtain ⟨other, otherMember, known⟩ := known
    obtain ⟨found, _, rfl⟩ := (other.assigns _ known field.value before after).mp absorbed
    have different : part ≠ other := by
      rintro rfl
      exact foreign known
    have apart : part.Apart other :=
      made.apart.forall member otherMember different
    exact apart.get_set found before
  · have unchanged : schema.absorb field before = .ok before := by
      apply made.absorb_unknown
      intro other otherMember mine
      exact known ⟨other, otherMember, mine⟩
    rw [unchanged] at absorbed
    cases absorbed
    rfl

/-- Absorbing the first field carries the parts over to the fields that follow. -/
theorem givenBy_cons (made : schema.MadeOf parts) (member : part ∈ parts)
    (absorbed : schema.absorb field before = .ok middle) :
    part.GivenBy (field :: rest) before after ↔ part.GivenBy rest middle after := by
  rw [Part.GivenBy, Part.GivenBy]
  by_cases known : field.number ∈ part.numbers
  · simp only [gives_cons_of_mem known, part.reads_iff known absorbed, exists_eq_left]
  · rw [gives_cons_of_not_mem known, made.get_of_absorb member known absorbed]

/-- Folding fields into a message succeeds exactly if they give all of its parts. -/
theorem absorbAll_iff (made : schema.MadeOf parts) {fields : List Field} :
    schema.absorbAll fields before = .ok after ↔
      ∀ part ∈ parts, part.GivenBy fields before after := by
  induction fields generalizing before with
  | nil =>
    simp only [absorbAll, Except.ok.injEq, Part.GivenBy, gives_nil]
    constructor
    · rintro rfl part _
      rfl
    · intro same
      exact (made.ext after before same).symm
  | cons field rest ih =>
    rw [absorbAll]
    constructor
    · intro success part member
      cases absorbed : schema.absorb field before with
      | error failure => simp [absorbed] at success
      | ok middle =>
        rw [absorbed] at success
        exact (made.givenBy_cons member absorbed).mpr (ih.mp success part member)
    · intro given
      have readable : ∀ part ∈ parts, field.number ∈ part.numbers →
          ∃ found, part.reads field found := by
        intro part member
        exact (given part member).readable field List.mem_cons_self
      obtain ⟨middle, absorbed⟩ : ∃ middle, schema.absorb field before = .ok middle :=
        made.exists_absorb readable
      rw [absorbed]
      apply ih.mpr
      intro part member
      exact (made.givenBy_cons member absorbed).mp (given part member)

end MadeOf

theorem stopFailure?_eq_none {stop : Stop} :
    schema.stopFailure? stop = none ↔ stop = .finished := by
  cases stop with
  | finished => simp [stopFailure?]
  | badKey failure => simp [stopFailure?]
  | badValue key failure =>
    simp only [stopFailure?, reduceCtorEq, iff_false]
    split
    · simp
    · split <;> simp

/-- Decoding accepts the forms of fields that fold into a message. -/
theorem decode_eq_ok {default message : α} {bytes : List UInt8} :
    schema.decode default bytes = .ok message ↔
      ∃ fields, Forms fields bytes ∧ schema.absorbAll fields default = .ok message := by
  simp only [forms_iff_scan, decode]
  constructor
  · intro success
    split at success
    next => simp at success
    next found absorbed =>
      split at success
      next finished =>
        cases success
        exact ⟨_, ⟨rfl, stopFailure?_eq_none.mp finished⟩, absorbed⟩
      next => simp at success
  · rintro ⟨fields, ⟨rfl, finished⟩, absorbed⟩
    rw [absorbed, finished]
    rfl

theorem MadeOf.decode_iff {parts : List schema.Part} (made : schema.MadeOf parts)
    {default message : α} {bytes : List UInt8} :
    schema.decode default bytes = .ok message ↔
      ∃ fields, Forms fields bytes ∧ ∀ part ∈ parts, part.GivenBy fields default message := by
  simp only [decode_eq_ok, made.absorbAll_iff]

end Schema

/-! ## How a field is read -/

section Reads

variable {α β : Type} {schema : Schema α} {number : UInt32} {set : β → α → α}

/-- A field that carries a number. -/
def IsNumber (reads : UInt64 → β → Prop) (field : Field) (found : β) : Prop :=
  ∃ value, field.value = .varint value ∧ reads value found

/-- A field that carries a run of bytes. -/
def IsContent (reads : List UInt8 → β → Prop) (field : Field) (found : β) : Prop :=
  ∃ content, field.value = .lengthDelimited content ∧ reads content found

theorem Schema.assigns_number {reads : UInt64 → β → Prop}
    {store : UInt64 → α → Except DecodeError α} (rule : schema.rule? number = some (.varint store))
    (stores : ∀ value before after, store value before = .ok after ↔
      ∃ found, reads value found ∧ set found before = after) :
    schema.Assigns number (IsNumber reads) set := by
  intro value before after
  cases value with
  | varint value => simp [absorb, rule, stores, IsNumber]
  | fixed64 content => simp [absorb, rule, IsNumber]
  | lengthDelimited content => simp [absorb, rule, IsNumber]
  | fixed32 content => simp [absorb, rule, IsNumber]

theorem Schema.assigns_content {reads : List UInt8 → β → Prop}
    {store : List UInt8 → α → Except DecodeError α}
    (rule : schema.rule? number = some (.bytes store))
    (stores : ∀ content before after, store content before = .ok after ↔
      ∃ found, reads content found ∧ set found before = after) :
    schema.Assigns number (IsContent reads) set := by
  intro value before after
  cases value with
  | varint value => simp [absorb, rule, IsContent]
  | fixed64 content => simp [absorb, rule, IsContent]
  | lengthDelimited content => simp [absorb, rule, stores, IsContent]
  | fixed32 content => simp [absorb, rule, IsContent]

/-- A store that reads and then sets. -/
theorem stores_of_read {read : Except DecodeError β} {reads : β → Prop} {put : β → α} {after : α}
    (accepts : ∀ found, read = .ok found ↔ reads found) :
    (do return put (← read)) = .ok after ↔ ∃ found, reads found ∧ put found = after := by
  simp only [← accepts]
  cases read with
  | error failure => simp [bind, Except.bind]
  | ok found => simp [bind, Except.bind, pure, Except.pure]

end Reads

end KeyRelay.Wire
