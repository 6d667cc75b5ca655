import KeyRelay.Proofs.Wire.Part
import Mathlib.Logic.Relation

/-! # Changes that a decoder does not notice

Three kinds of change leave a message what it is: a field that its schema does not
know, put between two others; another form of a key, a number or a length, such as
one padded with empty groups; and such a change inside a message that a field
carries, with the length of the field to match. A schema that does not notice the
changes inside its fields decodes the changed bytes as it did the others. -/
set_option autoImplicit false

namespace KeyRelay.Wire

namespace Varint

theorem Denotes.unique {bytes : List UInt8} {number other : Nat} (denotes : Denotes bytes number)
    (also : Denotes bytes other) : number = other := by
  have read := read_of_denotes [] denotes (Nat.le_refl _)
  rw [read_of_denotes [] also (Nat.le_refl _)] at read
  exact (Reading.complete.inj read).1.symm

/-- Another form of the same number, of ten bytes at most. -/
structure Reforms (bytes other : List UInt8) : Prop where
  same : ∃ number, Denotes bytes number ∧ Denotes other number
  short : other.length ≤ maxLength

theorem Form.reform {value : UInt64} {bytes other : List UInt8} (form : Form value bytes)
    (reforms : Reforms bytes other) : Form value other := by
  obtain ⟨number, before, after⟩ := reforms.same
  obtain ⟨_, found, denotes, low⟩ := form
  rw [denotes.unique before] at low
  exact ⟨reforms.short, number, after, low⟩

/-- Empty groups: the last byte of a number gives up its place to a zero. -/
def padding (count : Nat) : List UInt8 :=
  List.replicate count 128 ++ [0]

theorem denotes_padding (count : Nat) : Denotes (padding count) 0 := by
  induction count with
  | zero => exact .last (by decide)
  | succ count ih => exact .continued (by decide) ih

/-- A number stays the same with empty groups behind its own. -/
theorem denotes_pad {front : List UInt8} {last : UInt8} {number : Nat} (count : Nat)
    (denotes : Denotes (front ++ [last]) number) :
    Denotes (front ++ (last + 128) :: padding count) number := by
  induction front generalizing number with
  | nil =>
    cases denotes with
    | last final =>
      have marked : (last + 128).toNat = last.toNat + 128 := by
        rw [UInt8.toNat_add]
        exact Nat.mod_eq_of_lt (by simp; omega)
      have padded : Denotes ((last + 128) :: padding count) ((last + 128).toNat % 128 + 128 * 0) :=
        .continued (by omega) (denotes_padding count)
      rwa [marked, Nat.add_mod_right, Nat.mod_eq_of_lt final] at padded
    | continued marked tail => cases tail
  | cons byte rest ih =>
    rw [List.cons_append] at denotes
    generalize split : rest ++ [last] = tail at denotes
    cases denotes with
    | last final => simp at split
    | continued marked high =>
      subst split
      exact .continued marked (ih high)

theorem reforms_pad {front : List UInt8} {last : UInt8} {number : Nat} (count : Nat)
    (denotes : Denotes (front ++ [last]) number) (room : front.length + count + 2 ≤ maxLength) :
    Reforms (front ++ [last]) (front ++ (last + 128) :: padding count) := by
  refine ⟨⟨number, denotes, denotes_pad count denotes⟩, ?_⟩
  simp only [padding, List.length_append, List.length_cons, List.length_replicate,
    List.length_nil]
  omega

end Varint

theorem Forms.append {fields others : List Field} {front back : List UInt8}
    (before : Forms fields front) (behind : Forms others back) :
    Forms (fields ++ others) (front ++ back) := by
  induction before with
  | nil => exact behind
  | cons head tail ih =>
    rw [List.append_assoc]
    exact .cons head ih

/-- One change in the bytes of a field. What may change inside a field depends on
its number. -/
inductive Field.Edit (inside : UInt32 → List UInt8 → List UInt8 → Prop) :
    List UInt8 → List UInt8 → Prop
  | key {number : UInt32} {value : FieldValue} {key other content : List UInt8}
      (valid : ValidNumber number) (keyForm : Varint.Form (Put.keyValue number value.kind) key)
      (form : value.Form content) (reforms : Varint.Reforms key other) :
      Edit inside (key ++ content) (other ++ content)
  | number {number : UInt32} {value : UInt64} {key content other : List UInt8}
      (valid : ValidNumber number) (keyForm : Varint.Form (Put.keyValue number .varint) key)
      (form : Varint.Form value content) (reforms : Varint.Reforms content other) :
      Edit inside (key ++ content) (key ++ other)
  | length {number : UInt32} {length : UInt64} {key announced other content : List UInt8}
      (valid : ValidNumber number)
      (keyForm : Varint.Form (Put.keyValue number .lengthDelimited) key)
      (form : Varint.Form length announced) (whole : length.toNat = content.length)
      (reforms : Varint.Reforms announced other) :
      Edit inside (key ++ (announced ++ content)) (key ++ (other ++ content))
  | content {number : UInt32} {length newLength : UInt64}
      {key announced content newAnnounced newContent : List UInt8} (valid : ValidNumber number)
      (keyForm : Varint.Form (Put.keyValue number .lengthDelimited) key)
      (form : Varint.Form length announced) (whole : length.toNat = content.length)
      (changed : inside number content newContent)
      (newForm : Varint.Form newLength newAnnounced)
      (newWhole : newLength.toNat = newContent.length) :
      Edit inside (key ++ (announced ++ content)) (key ++ (newAnnounced ++ newContent))

theorem Field.Form.number {number : UInt32} {value : UInt64} {key content : List UInt8}
    (valid : ValidNumber number) (keyForm : Varint.Form (Put.keyValue number .varint) key)
    (form : Varint.Form value content) : Field.Form ⟨number, .varint value⟩ (key ++ content) :=
  .mk valid keyForm (.varint form)

theorem Field.Form.content {number : UInt32} {length : UInt64}
    {key announced content : List UInt8} (valid : ValidNumber number)
    (keyForm : Varint.Form (Put.keyValue number .lengthDelimited) key)
    (form : Varint.Form length announced) (whole : length.toNat = content.length) :
    Field.Form ⟨number, .lengthDelimited content⟩ (key ++ (announced ++ content)) :=
  .mk valid keyForm (.lengthDelimited form whole)

/-- Both are forms of the same field, or of fields of one number whose contents
differ by a change inside. -/
theorem Field.Edit.forms {inside : UInt32 → List UInt8 → List UInt8 → Prop}
    {bytes other : List UInt8} (edit : Field.Edit inside bytes other) :
    ∃ field changed : Field, field.Form bytes ∧ changed.Form other ∧
      (changed = field ∨ ∃ number content newContent, inside number content newContent ∧
        field = ⟨number, .lengthDelimited content⟩ ∧
        changed = ⟨number, .lengthDelimited newContent⟩) := by
  cases edit with
  | key valid keyForm form reforms =>
    exact ⟨_, _, .mk valid keyForm form, .mk valid (keyForm.reform reforms) form, .inl rfl⟩
  | number valid keyForm form reforms =>
    exact ⟨_, _, .number valid keyForm form, .number valid keyForm (form.reform reforms),
      .inl rfl⟩
  | length valid keyForm form whole reforms =>
    exact ⟨_, _, .content valid keyForm form whole,
      .content valid keyForm (form.reform reforms) whole, .inl rfl⟩
  | content valid keyForm form whole changed newForm newWhole =>
    exact ⟨_, _, .content valid keyForm form whole, .content valid keyForm newForm newWhole,
      .inr ⟨_, _, _, changed, rfl, rfl⟩⟩

namespace Schema

variable {α β : Type} {schema : Schema α} {inside : UInt32 → List UInt8 → List UInt8 → Prop}

/-- One change in the bytes of a message, at a place where a field begins. -/
inductive Edit (schema : Schema α) (inside : UInt32 → List UInt8 → List UInt8 → Prop) :
    List UInt8 → List UInt8 → Prop
  | insert {fields others : List Field} {field : Field} {front new back : List UInt8}
      (before : Forms fields front) (behind : Forms others back)
      (unknown : schema.rule? field.number = none) (form : field.Form new) :
      Edit schema inside (front ++ back) (front ++ (new ++ back))
  | change {fields others : List Field} {front old new back : List UInt8}
      (before : Forms fields front) (behind : Forms others back)
      (edit : Field.Edit inside old new) :
      Edit schema inside (front ++ (old ++ back)) (front ++ (new ++ back))

/-- What one field does to a message, the other does too. -/
def Follows (schema : Schema α) (field changed : Field) : Prop :=
  ∀ before after, schema.absorb field before = .ok after → schema.absorb changed before = .ok after

/-- A change inside a field is not noticed. -/
def Overlooks (schema : Schema α) (inside : UInt32 → List UInt8 → List UInt8 → Prop) : Prop :=
  ∀ number content newContent, inside number content newContent →
    schema.Follows ⟨number, .lengthDelimited content⟩ ⟨number, .lengthDelimited newContent⟩

theorem absorbAll_append {fields others : List Field} {before after : α} :
    schema.absorbAll (fields ++ others) before = .ok after ↔
      ∃ middle, schema.absorbAll fields before = .ok middle ∧
        schema.absorbAll others middle = .ok after := by
  induction fields generalizing before with
  | nil => simp [absorbAll]
  | cons field rest ih =>
    rw [List.cons_append, absorbAll, absorbAll]
    cases schema.absorb field before with
    | error failure => simp
    | ok next => exact ih

/-- A field may give way to one that does the same. -/
theorem absorbAll_of_follows {fields others : List Field} {field changed : Field}
    {before after : α} (follows : schema.Follows field changed)
    (absorbed : schema.absorbAll (fields ++ field :: others) before = .ok after) :
    schema.absorbAll (fields ++ changed :: others) before = .ok after := by
  obtain ⟨middle, front, rest⟩ := absorbAll_append.mp absorbed
  refine absorbAll_append.mpr ⟨middle, front, ?_⟩
  rw [absorbAll] at rest ⊢
  cases stored : schema.absorb field middle with
  | error failure => simp [stored] at rest
  | ok next =>
    rw [stored] at rest
    rw [follows middle next stored]
    exact rest

/-- A field without a rule may stand anywhere. -/
theorem absorbAll_insert {fields others : List Field} {field : Field} {before after : α}
    (unknown : schema.rule? field.number = none)
    (absorbed : schema.absorbAll (fields ++ others) before = .ok after) :
    schema.absorbAll (fields ++ field :: others) before = .ok after := by
  obtain ⟨middle, front, rest⟩ := absorbAll_append.mp absorbed
  refine absorbAll_append.mpr ⟨middle, front, ?_⟩
  rw [absorbAll, absorb, unknown]
  exact rest

theorem Edit.decode {bytes other : List UInt8} {default message : α}
    (edit : schema.Edit inside bytes other) (overlooks : schema.Overlooks inside)
    (decoded : schema.decode default bytes = .ok message) :
    schema.decode default other = .ok message := by
  obtain ⟨found, forms, absorbed⟩ := decode_eq_ok.mp decoded
  apply decode_eq_ok.mpr
  cases edit with
  | @insert fields others field _ _ _ before behind unknown form =>
    obtain rfl := forms.unique (before.append behind)
    exact ⟨fields ++ field :: others, before.append (.cons form behind),
      absorbAll_insert unknown absorbed⟩
  | @change fields others _ _ _ _ before behind edit =>
    obtain ⟨field, changed, form, newForm, same⟩ := edit.forms
    obtain rfl := forms.unique (before.append (.cons form behind))
    have follows : schema.Follows field changed := by
      rcases same with rfl | ⟨number, content, newContent, edited, rfl, rfl⟩
      · exact fun _ _ stored => stored
      · exact overlooks number content newContent edited
    exact ⟨fields ++ changed :: others, before.append (.cons newForm behind),
      absorbAll_of_follows follows absorbed⟩

theorem overlooks_none : schema.Overlooks fun _ _ _ => False :=
  fun _ _ _ inside => inside.elim

theorem Overlooks.or {also : UInt32 → List UInt8 → List UInt8 → Prop}
    (overlooks : schema.Overlooks inside) (others : schema.Overlooks also) :
    schema.Overlooks fun number content newContent =>
      inside number content newContent ∨ also number content newContent := by
  intro number content newContent changed
  rcases changed with one | other
  · exact overlooks number content newContent one
  · exact others number content newContent other

/-- A field that carries a message overlooks what the message overlooks. -/
theorem overlooks_embedded {number : UInt32} {edit : List UInt8 → List UInt8 → Prop}
    {decode : List UInt8 → Except DecodeError β} {set : β → α → α}
    (rule : schema.rule? number = some (.bytes fun content message => do
      return set (← decode content) message))
    (same : ∀ {content newContent : List UInt8} {found : β}, edit content newContent →
      decode content = .ok found → decode newContent = .ok found) :
    schema.Overlooks fun changed content newContent =>
      changed = number ∧ edit content newContent := by
  rintro _ content newContent ⟨rfl, edited⟩ before after stored
  simp only [absorb, rule] at stored ⊢
  cases inner : decode content with
  | error failure => simp [inner, bind, Except.bind] at stored
  | ok found =>
    rw [inner] at stored
    rw [same edited inner]
    exact stored

end Schema

end KeyRelay.Wire
