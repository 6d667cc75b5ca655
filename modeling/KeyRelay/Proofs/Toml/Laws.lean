import KeyRelay.Proofs.Toml.Standard
import KeyRelay.Toml.Library

/-! # What is relied on of a library

Documents are read and written by the rules of the format. Values are read as what they are,
and a record field by field. No law speaks of any one record, or of reading together with
writing. -/
set_option autoImplicit false

namespace KeyRelay.Toml

open Standard (BareKey Denotes)

/-- Settings with bare keys, no two of which are the same in one place. -/
structure Settings.Regular (settings : Settings) : Prop where
  topBare : ∀ setting ∈ settings.top, BareKey setting.1
  partBare : ∀ part ∈ settings.sections, BareKey part.key
  settingBare : ∀ part ∈ settings.sections, ∀ setting ∈ part.settings, BareKey setting.1
  settingDistinct : ∀ part ∈ settings.sections, (part.settings.map Prod.fst).Nodup
  distinct : (settings.top.map Prod.fst ++ settings.sections.map Section.key).Nodup

theorem exists_of_mapM {α β : Type} {f : α → Option β} {items : List α} {found : List β}
    (given : items.mapM f = some found) : ∀ item ∈ items, ∃ value, f item = some value := by
  induction items generalizing found with
  | nil => exact nofun
  | cons item items ih =>
    rw [List.mapM_cons] at given
    obtain ⟨value, first, given⟩ := Option.bind_eq_some_iff.mp given
    obtain ⟨others, behind, _⟩ := Option.bind_eq_some_iff.mp given
    exact List.forall_mem_cons.mpr ⟨⟨value, first⟩, ih behind⟩

/-- What stands for settings has a value for each of them. -/
theorem Settings.exists_value? {settings : Settings} {table : Table}
    (given : settings.table? = some table) :
    ∀ part ∈ settings.sections, ∀ setting ∈ part.settings, ∃ value,
      setting.2.value? = some value := by
  intro part own setting member
  simp only [table?, Option.bind_eq_bind, Option.bind_eq_some_iff] at given
  obtain ⟨_, _, _, sections, _⟩ := given
  obtain ⟨_, written⟩ := exists_of_mapM sections part own
  obtain ⟨_, entries, _⟩ := Option.map_eq_some_iff.mp written
  obtain ⟨_, entry⟩ := exists_of_mapM entries setting member
  obtain ⟨value, has, _⟩ := Option.map_eq_some_iff.mp entry
  exact ⟨value, has⟩

/-- A fold that no item moves stays where it starts. -/
theorem foldlM_of_kept {α β : Type} {f : β → α → Option β} {start : β} {items : List α}
    (kept : ∀ item ∈ items, f start item = some start) : items.foldlM f start = some start := by
  induction items with
  | nil => rfl
  | cons item items ih =>
    obtain ⟨first, others⟩ := List.forall_mem_cons.mp kept
    rw [List.foldlM_cons, first]
    exact ih others

/-- Where nothing is found, every field keeps its default. -/
theorem fill?_none {α : Type} {declaration : Declaration α} {find? : Nat → String → Option Value}
    (nothing : ∀ member ∈ declaration.members, ∀ place, find? place member.key = none) :
    declaration.fill? find? = some declaration.defaults := by
  refine foldlM_of_kept fun pair among => ?_
  have absent := nothing pair.1 (List.fst_mem_of_mem_zipIdx among) pair.2
  simp only [absent, Option.elim_none]

namespace Library

/-- A document is read as the table that it means. -/
structure ReadsDocuments (library : Library) : Prop where
  read : ∀ text table, Denotes text.toList table → library.parse? text = some table

/-- Settings are written as a document that means them, if every one of them has a value. -/
structure WritesDocuments (library : Library) : Prop where
  written : ∀ settings table, settings.Regular → settings.table? = some table →
    ∃ text, library.write settings = .ok text ∧ Denotes text.toList table
  refused : ∀ settings, settings.Regular → settings.table? = none →
    ∃ reason, library.write settings = .error reason

/-- Strings and paths are read from strings, numbers from integers in their range. A record is
read from a table by its keys and from an array by its order, and takes nothing from a point
in time; from other values there is none. -/
structure ReadsValues (library : Library) : Prop where
  string : ∀ value text, library.string? value = some text ↔ value = .string text
  path : ∀ value path, library.path? value = some path ↔
    ∃ text, value = .string text ∧ path = .ofString text
  uint32 : ∀ value number, library.uint32? value = some number ↔
    ∃ signed, value = .integer signed ∧ signed.toInt = number.toNat
  uint64 : ∀ value number, library.uint64? value = some number ↔
    ∃ signed, value = .integer signed ∧ signed.toInt = number.toNat
  table : ∀ {α : Type} (declaration : Declaration α) (table : Table),
    library.record? declaration (.table table) =
      declaration.fill? fun _ key => table.value? key
  array : ∀ {α : Type} (declaration : Declaration α) (elements : List Value),
    library.record? declaration (.array elements) =
      declaration.fill? fun place _ => elements[place]?
  moment : ∀ {α : Type} (declaration : Declaration α),
    (∀ member ∈ declaration.members, member.key ≠ momentKey) →
      library.record? declaration .moment = some declaration.defaults
  other : ∀ {α : Type} (declaration : Declaration α) (value : Value),
    (∀ table, value ≠ .table table) → (∀ elements, value ≠ .array elements) → value ≠ .moment →
      library.record? declaration value = none

end Library

end KeyRelay.Toml
