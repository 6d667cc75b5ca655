import KeyRelay.Proofs.Toml.Document
import KeyRelay.Proofs.Toml.Laws
import KeyRelay.Toml.Builtin

/-! # The library that the programs run with keeps the laws

Settings are written line by line: what is written for each means its value, and as soon as
one has none, nothing is written at all. -/
set_option autoImplicit false

namespace KeyRelay.Toml

open Standard

/-! ## Writing -/

/-- What is written means the value that there is, and nothing is written if there is none. -/
structure Writes {α : Type} (meaning : Option α) (Means : List Char → α → Prop)
    (result : Except String (List Char)) : Prop where
  written : ∀ value, meaning = some value → ∃ code, result = .ok code ∧ Means code value
  refused : meaning = none → ∃ reason, result = .error reason

namespace Writes

theorem of_means {α : Type} {Means : List Char → α → Prop} {code : List Char} {value : α}
    (means : Means code value) : Writes (some value) Means (.ok code) where
  written := by
    rintro _ ⟨⟩
    exact ⟨code, rfl, means⟩
  refused missing := by cases missing

theorem of_none {α : Type} {Means : List Char → α → Prop} (reason : String) :
    Writes none Means (.error reason) where
  written _ given := by cases given
  refused _ := ⟨reason, rfl⟩

theorem map {α β : Type} {meaning : Option α} {Means : List Char → α → Prop}
    {Becomes : List Char → β → Prop} {result : Except String (List Char)}
    (writes : Writes meaning Means result) {f : α → β}
    (becomes : ∀ code value, meaning = some value → Means code value → Becomes code (f value)) :
    Writes (meaning.map f) Becomes result where
  written := by
    intro value given
    obtain ⟨inner, same, rfl⟩ := Option.map_eq_some_iff.mp given
    obtain ⟨code, done, means⟩ := writes.written inner same
    exact ⟨code, done, becomes code inner same means⟩
  refused := fun missing => writes.refused (Option.map_eq_none_iff.mp missing)

/-- Two pieces of writing, one behind the other. -/
theorem both {α β γ : Type} {first : Option α} {second : Option β}
    {MeansFirst : List Char → α → Prop} {MeansSecond : List Char → β → Prop}
    {Means : List Char → γ → Prop} {front behind : Except String (List Char)}
    (writesFirst : Writes first MeansFirst front) (writesSecond : Writes second MeansSecond behind)
    {f : α → β → γ} {g : List Char → List Char → List Char}
    (joins : ∀ code value rest others, MeansFirst code value → MeansSecond rest others →
      Means (g code rest) (f value others)) :
    Writes (do return f (← first) (← second)) Means (do return g (← front) (← behind)) := by
  cases first with
  | none =>
    obtain ⟨reason, failed⟩ := writesFirst.refused rfl
    subst failed
    exact of_none reason
  | some value =>
    obtain ⟨code, done, means⟩ := writesFirst.written value rfl
    subst done
    cases second with
    | none =>
      obtain ⟨reason, failed⟩ := writesSecond.refused rfl
      subst failed
      exact of_none reason
    | some others =>
      obtain ⟨rest, done, meansOthers⟩ := writesSecond.written others rfl
      subst done
      exact of_means (joins code value rest others means meansOthers)

end Writes

theorem writes_text (text : String) :
    Writes (some (.string text)) Written (.ok (quote text.toList)) := by
  have written := Written.string (quoted_quote text.toList)
  rw [String.ofList_toList] at written
  exact .of_means written

theorem writes_scalar (scalar : Scalar) : Writes scalar.value? Written (writeScalar scalar) := by
  cases scalar with
  | text content => exact writes_text content
  | path file =>
    rw [Scalar.value?, writeScalar]
    cases file.text? with
    | none => exact .of_none _
    | some text => exact writes_text text
  | number count =>
    rw [Scalar.value?, writeScalar]
    by_cases small : count < 0x8000000000000000
    · rw [if_pos small, if_pos small]
      exact .of_means (written_decimal small)
    · rw [if_neg small, if_neg small]
      exact .of_none _

theorem writes_assignments (settings : List Assignment)
    (bare : ∀ setting ∈ settings, BareKey setting.1) :
    Writes (settings.mapM Assignment.entry?) Assignments (writeAssignments settings) := by
  induction settings with
  | nil => exact .of_means .nil
  | cons setting settings ih =>
    obtain ⟨key, scalar⟩ := setting
    have value : Writes (Assignment.entry? (key, scalar))
        (fun code entry => entry.1 = key ∧ Written code entry.2) (writeScalar scalar) :=
      (writes_scalar scalar).map fun code value _ written => ⟨rfl, written⟩
    have others := ih fun other member => bare other (List.mem_cons_of_mem _ member)
    have blank : Blank [' '] := fun c member => .inl (List.mem_singleton.mp member)
    rw [List.mapM_cons]
    refine value.both others (g := fun code rest => settingLine key code ++ rest) ?_
    rintro code ⟨_, value⟩ rest entries ⟨rfl, written⟩ means
    have line := Assignments.setting (bare _ List.mem_cons_self) blank blank written means
    simpa [settingLine] using line

theorem keys_assignments {settings : List Assignment} {entries : Table}
    (given : settings.mapM Assignment.entry? = some entries) :
    entries.map Prod.fst = settings.map Prod.fst := by
  induction settings generalizing entries with
  | nil => cases given; rfl
  | cons setting settings ih =>
    rw [List.mapM_cons] at given
    obtain ⟨entry, first, given⟩ := Option.bind_eq_some_iff.mp given
    obtain ⟨others, behind, given⟩ := Option.bind_eq_some_iff.mp given
    cases given
    obtain ⟨value, _, rfl⟩ := Option.map_eq_some_iff.mp first
    rw [List.map_cons, List.map_cons, ih behind]

theorem writes_sections (parts : List Section) (bare : ∀ part ∈ parts, BareKey part.key)
    (bareSettings : ∀ part ∈ parts, ∀ setting ∈ part.settings, BareKey setting.1)
    (distinct : ∀ part ∈ parts, (part.settings.map Prod.fst).Nodup) :
    Writes (parts.mapM Section.entry?) Sections (writeSections parts) := by
  induction parts with
  | nil => exact .of_means .nil
  | cons part parts ih =>
    have own := List.mem_cons_self (a := part) (l := parts)
    have body : Writes part.entry?
        (fun code entry => entry.1 = part.key ∧ ∃ entries, entry.2 = .table entries ∧
          Assignments code entries ∧ (entries.map Prod.fst).Nodup)
        (writeAssignments part.settings) := by
      refine (writes_assignments part.settings (bareSettings part own)).map ?_
      intro code entries given means
      exact ⟨rfl, entries, rfl, means, keys_assignments given ▸ distinct part own⟩
    have others := ih (fun other member => bare other (List.mem_cons_of_mem _ member))
      (fun other member => bareSettings other (List.mem_cons_of_mem _ member))
      (fun other member => distinct other (List.mem_cons_of_mem _ member))
    rw [List.mapM_cons]
    refine body.both others (g := fun code rest => '\n' :: headerLine part.key ++ code ++ rest) ?_
    rintro code ⟨_, _⟩ rest tables ⟨rfl, entries, rfl, means, free⟩ meansOthers
    have lines := Sections.blankLine (.part (bare part own) means free meansOthers)
    simpa [headerLine] using lines

theorem keys_sections {parts : List Section} {tables : Table}
    (given : parts.mapM Section.entry? = some tables) :
    tables.map Prod.fst = parts.map Section.key := by
  induction parts generalizing tables with
  | nil => cases given; rfl
  | cons part parts ih =>
    rw [List.mapM_cons] at given
    obtain ⟨entry, first, given⟩ := Option.bind_eq_some_iff.mp given
    obtain ⟨others, behind, given⟩ := Option.bind_eq_some_iff.mp given
    cases given
    obtain ⟨entries, _, rfl⟩ := Option.map_eq_some_iff.mp first
    rw [List.map_cons, List.map_cons, ih behind]

theorem builtin_writesDocuments : builtin.WritesDocuments where
  written settings table regular given := by
    obtain ⟨entries, top, given⟩ := Option.bind_eq_some_iff.mp given
    obtain ⟨tables, sections, given⟩ := Option.bind_eq_some_iff.mp given
    cases given
    obtain ⟨front, doneFront, meansFront⟩ :=
      (writes_assignments settings.top regular.topBare).written entries top
    obtain ⟨behind, doneBehind, meansBehind⟩ := (writes_sections settings.sections
      regular.partBare regular.settingBare regular.settingDistinct).written tables sections
    refine ⟨String.ofList (front ++ behind), ?_, ?_⟩
    · change write settings = _
      rw [write, doneFront, doneBehind]
      rfl
    · rw [String.toList_ofList]
      refine .intro meansFront meansBehind ?_
      rw [List.map_append, keys_assignments top, keys_sections sections]
      exact regular.distinct
  refused settings regular missing := by
    have writesTop := writes_assignments settings.top regular.topBare
    have writesSections := writes_sections settings.sections regular.partBare regular.settingBare
      regular.settingDistinct
    cases top : settings.top.mapM Assignment.entry? with
    | none =>
      obtain ⟨reason, failed⟩ := writesTop.refused top
      refine ⟨reason, ?_⟩
      change write settings = _
      rw [write, failed]
      rfl
    | some entries =>
      obtain ⟨front, done, -⟩ := writesTop.written entries top
      cases sections : settings.sections.mapM Section.entry? with
      | none =>
        obtain ⟨reason, failed⟩ := writesSections.refused sections
        refine ⟨reason, ?_⟩
        change write settings = _
        rw [write, done, failed]
        rfl
      | some tables =>
        rw [Settings.table?, top, sections] at missing
        cases missing

/-! ## Reading -/

theorem builtin_readsDocuments : builtin.ReadsDocuments :=
  ⟨fun _ _ denotes => parse?_denotes denotes⟩

theorem number?_eq_some_iff {bound number : Nat} {value : Value} :
    number? bound value = some number ↔
      ∃ signed, value = .integer signed ∧ signed.toInt = number ∧ number < bound := by
  cases value with
  | integer given =>
    simp only [number?, Option.ite_none_right_eq_some, Option.some.injEq, Value.integer.injEq]
    constructor
    · rintro ⟨⟨low, high⟩, rfl⟩
      exact ⟨given, rfl, by omega, by omega⟩
    · rintro ⟨_, rfl, same, small⟩
      omega
  | _ => simp [number?]

theorem builtin_readsValues : builtin.ReadsValues where
  string value text := by
    cases value <;> simp [builtin, string?]
  path value path := by
    cases value <;> simp [builtin, string?, eq_comm]
  uint32 value number := by
    simp only [builtin, Option.map_eq_some_iff, number?_eq_some_iff]
    constructor
    · rintro ⟨_, ⟨signed, rfl, same, small⟩, rfl⟩
      exact ⟨signed, rfl, by rw [same, UInt32.toNat_ofNat_of_lt' small]⟩
    · rintro ⟨signed, rfl, same⟩
      exact ⟨_, ⟨signed, rfl, same, number.toNat_lt⟩, UInt32.ofNat_toNat⟩
  uint64 value number := by
    simp only [builtin, Option.map_eq_some_iff, number?_eq_some_iff]
    constructor
    · rintro ⟨_, ⟨signed, rfl, same, small⟩, rfl⟩
      exact ⟨signed, rfl, by rw [same, UInt64.toNat_ofNat_of_lt' small]⟩
    · rintro ⟨signed, rfl, same⟩
      exact ⟨_, ⟨signed, rfl, same, number.toNat_lt⟩, UInt64.ofNat_toNat⟩
  table _ _ := rfl
  array _ _ := rfl
  moment declaration apart := by
    have read : builtin.record? declaration .moment =
        declaration.fill? fun _ key => if key = momentKey then some .moment else none := rfl
    rw [read]
    exact fill?_none fun member own _ => if_neg (apart member own)
  other declaration value noTable noArray noMoment := by
    cases value with
    | table entries => exact absurd rfl (noTable entries)
    | array elements => exact absurd rfl (noArray elements)
    | moment => exact absurd rfl noMoment
    | _ => rfl

end KeyRelay.Toml
