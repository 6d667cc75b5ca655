import KeyRelay.Proofs.Config.RoundTrip

/-! # A document sets any part of the configuration

Each setting is read for itself: it is what the document says, if it says anything of the
right type and range, and its default otherwise. What else stands in the document does not
matter, nor does it matter whether a section is a table or lists its settings in order. -/
set_option autoImplicit false

namespace KeyRelay.Config

open Toml (Declaration Library ReadsAs Table Value)

/-- The settings that a document may name. -/
inductive SettingName
  | logLevel
  | observerPath
  | maxClients
  | kscanPath
  | rows
  | columns

/-- What a section says about a setting: a table under its name, an array at its place. -/
def sectionValue? (name : String) (index : Nat) : Value → Option Value
  | .table entries => Table.value? entries name
  | .array elements => elements[index]?
  | _ => none

namespace SettingName

/-- What a document says about a setting. -/
def valueIn? (table : Table) : SettingName → Option Value
  | .logLevel => table.value? "log_level"
  | .observerPath => (table.value? "observer").bind (sectionValue? "socket_path" 0)
  | .maxClients => (table.value? "observer").bind (sectionValue? "max_clients" 1)
  | .kscanPath => (table.value? "kscan").bind (sectionValue? "socket_path" 0)
  | .rows => (table.value? "kscan").bind (sectionValue? "rows" 1)
  | .columns => (table.value? "kscan").bind (sectionValue? "columns" 2)

/-- The values that a setting may have in a document. -/
inductive Admits : SettingName → Value → Prop
  | logLevel (text : String) : Admits .logLevel (.string text)
  | observerPath (text : String) : Admits .observerPath (.string text)
  | maxClients {number : Int64} (low : 0 ≤ number.toInt) (high : number.toInt < 2 ^ 63) :
    Admits .maxClients (.integer number)
  | kscanPath (text : String) : Admits .kscanPath (.string text)
  | rows {number : Int64} (low : 0 ≤ number.toInt) (high : number.toInt < 2 ^ 32) :
    Admits .rows (.integer number)
  | columns {number : Int64} (low : 0 ≤ number.toInt) (high : number.toInt < 2 ^ 32) :
    Admits .columns (.integer number)

/-- A configuration has a setting as the value says. -/
inductive Says (config : Config) : SettingName → Value → Prop
  | logLevel : Says config .logLevel (.string config.logLevel)
  | observerPath {text : String} (path : config.observer.socketPath = .ofString text) :
    Says config .observerPath (.string text)
  | maxClients {number : Int64} (count : number.toInt = config.observer.maxClients.toNat) :
    Says config .maxClients (.integer number)
  | kscanPath {text : String} (path : config.kscan.socketPath = .ofString text) :
    Says config .kscanPath (.string text)
  | rows {number : Int64} (count : number.toInt = config.kscan.rows.toNat) :
    Says config .rows (.integer number)
  | columns {number : Int64} (count : number.toInt = config.kscan.columns.toNat) :
    Says config .columns (.integer number)

/-- Two configurations agree in a setting. -/
def Same (left right : Config) : SettingName → Prop
  | .logLevel => left.logLevel = right.logLevel
  | .observerPath => left.observer.socketPath = right.observer.socketPath
  | .maxClients => left.observer.maxClients = right.observer.maxClients
  | .kscanPath => left.kscan.socketPath = right.kscan.socketPath
  | .rows => left.kscan.rows = right.kscan.rows
  | .columns => left.kscan.columns = right.kscan.columns

end SettingName

inductive TableOrArray : Value → Prop
  | table (entries : Table) : TableOrArray (.table entries)
  | array (elements : List Value) : TableOrArray (.array elements)

/-- What may stand for a section. A point in time stands for one that says nothing. -/
def Sectional (value : Value) : Prop :=
  TableOrArray value ∨ value = .moment

/-- What a document says about settings has the types and ranges of these. -/
structure Admissible (table : Table) : Prop where
  observer : ∀ value, table.value? "observer" = some value → Sectional value
  kscan : ∀ value, table.value? "kscan" = some value → Sectional value
  settings : ∀ (name : SettingName) value, name.valueIn? table = some value → name.Admits value

/-! ## Sections -/

section Sections
variable {library : Library} (reads : library.ReadsValues) {value : Value}
include reads

/-- A record is read setting by setting, from anything that may stand for a section. -/
theorem record?_eq_some_iff {α : Type} {declaration : Declaration α}
    (apart : ∀ member ∈ declaration.members, member.key ≠ Toml.momentKey) {record : α} :
    library.record? declaration value = some record ↔ Sectional value ∧
      declaration.fill? (fun place key => sectionValue? key place value) = some record := by
  by_cases sectional : Sectional value
  · rw [and_iff_right sectional]
    rcases sectional with ⟨⟨entries⟩ | ⟨elements⟩⟩ | rfl
    · rw [reads.table]
      rfl
    · rw [reads.array]
      rfl
    · have nothing : declaration.fill? (fun place key => sectionValue? key place .moment) =
          some declaration.defaults := Toml.fill?_none fun _ _ _ => rfl
      rw [reads.moment declaration apart, nothing]
  · have missing := reads.other declaration value
      (fun entries same => sectional (same ▸ .inl (.table entries)))
      (fun elements same => sectional (same ▸ .inl (.array elements)))
      (fun same => sectional (.inr same))
    simp [missing, sectional]

theorem observer_eq_some_iff {settings : ObserverSettings} :
    library.record? (observerDeclaration library) value = some settings ↔ Sectional value ∧
      given? library.path? ({} : ObserverSettings).socketPath
        (sectionValue? "socket_path" 0 value) = some settings.socketPath ∧
      given? library.uint64? ({} : ObserverSettings).maxClients
        (sectionValue? "max_clients" 1 value) = some settings.maxClients := by
  rw [record?_eq_some_iff reads, fill?_observer_iff]
  simp only [observerDeclaration, List.forall_mem_cons]
  exact ⟨(by decide : "socket_path" ≠ Toml.momentKey), (by decide : "max_clients" ≠ Toml.momentKey),
    nofun⟩

theorem kscan_eq_some_iff {settings : KscanSettings} :
    library.record? (kscanDeclaration library) value = some settings ↔ Sectional value ∧
      given? library.path? ({} : KscanSettings).socketPath
        (sectionValue? "socket_path" 0 value) = some settings.socketPath ∧
      given? library.uint32? ({} : KscanSettings).rows (sectionValue? "rows" 1 value) =
        some settings.rows ∧
      given? library.uint32? ({} : KscanSettings).columns (sectionValue? "columns" 2 value) =
        some settings.columns := by
  rw [record?_eq_some_iff reads, fill?_kscan_iff]
  simp only [kscanDeclaration, List.forall_mem_cons]
  exact ⟨(by decide : "socket_path" ≠ Toml.momentKey), (by decide : "rows" ≠ Toml.momentKey),
    (by decide : "columns" ≠ Toml.momentKey), nofun⟩

end Sections

/-! ## Documents -/

namespace SettingName

/-- A configuration has a setting as the document says, or has its default if the document
says nothing about it. -/
def Settled (table : Table) (config : Config) (name : SettingName) : Prop :=
  (∀ value, name.valueIn? table = some value → name.Says config value) ∧
    (name.valueIn? table = none → name.Same config {})

variable {library : Library} {table : Table} {config : Config}

theorem settled_iff {name : SettingName} {α : Type} {read? : Value → Option α} {default found : α}
    (meaning : ∀ value, name.Says config value ↔ read? value = some found)
    (unsaid : name.Same config {} ↔ found = default) :
    name.Settled table config ↔ given? read? default (name.valueIn? table) = some found := by
  rw [given?_eq_some_iff, Settled]
  simp only [meaning, unsaid]

section Settled
variable (reads : library.ReadsValues)
include reads

theorem settled_logLevel :
    logLevel.Settled table config ↔
      given? library.string? ({} : Config).logLevel (logLevel.valueIn? table) =
        some config.logLevel := by
  refine settled_iff (fun value => ?_) .rfl
  rw [reads.string]
  exact ⟨fun said => by cases said; rfl, fun same => same ▸ .logLevel⟩

theorem settled_observerPath :
    observerPath.Settled table config ↔
      given? library.path? ({} : ObserverSettings).socketPath (observerPath.valueIn? table) =
        some config.observer.socketPath := by
  refine settled_iff (fun value => ?_) .rfl
  rw [reads.path]
  exact ⟨fun said => by cases said with | observerPath path => exact ⟨_, rfl, path⟩,
    fun ⟨_, same, path⟩ => same ▸ .observerPath path⟩

theorem settled_maxClients :
    maxClients.Settled table config ↔
      given? library.uint64? ({} : ObserverSettings).maxClients (maxClients.valueIn? table) =
        some config.observer.maxClients := by
  refine settled_iff (fun value => ?_) .rfl
  rw [reads.uint64]
  exact ⟨fun said => by cases said with | maxClients count => exact ⟨_, rfl, count⟩,
    fun ⟨_, same, count⟩ => same ▸ .maxClients count⟩

theorem settled_kscanPath :
    kscanPath.Settled table config ↔
      given? library.path? ({} : KscanSettings).socketPath (kscanPath.valueIn? table) =
        some config.kscan.socketPath := by
  refine settled_iff (fun value => ?_) .rfl
  rw [reads.path]
  exact ⟨fun said => by cases said with | kscanPath path => exact ⟨_, rfl, path⟩,
    fun ⟨_, same, path⟩ => same ▸ .kscanPath path⟩

theorem settled_rows :
    rows.Settled table config ↔
      given? library.uint32? ({} : KscanSettings).rows (rows.valueIn? table) =
        some config.kscan.rows := by
  refine settled_iff (fun value => ?_) .rfl
  rw [reads.uint32]
  exact ⟨fun said => by cases said with | rows count => exact ⟨_, rfl, count⟩,
    fun ⟨_, same, count⟩ => same ▸ .rows count⟩

theorem settled_columns :
    columns.Settled table config ↔
      given? library.uint32? ({} : KscanSettings).columns (columns.valueIn? table) =
        some config.kscan.columns := by
  refine settled_iff (fun value => ?_) .rfl
  rw [reads.uint32]
  exact ⟨fun said => by cases said with | columns count => exact ⟨_, rfl, count⟩,
    fun ⟨_, same, count⟩ => same ▸ .columns count⟩

end Settled

end SettingName

open SettingName

variable {library : Library} {table : Table} {config : Config}

theorem given?_observer_eq_some_iff (reads : library.ReadsValues) :
    given? (library.record? (observerDeclaration library)) {} (table.value? "observer") =
        some config.observer ↔
      (∀ value, table.value? "observer" = some value → Sectional value) ∧
        observerPath.Settled table config ∧ maxClients.Settled table config := by
  rw [settled_observerPath reads, settled_maxClients reads, valueIn?, valueIn?]
  cases present : table.value? "observer" with
  | none =>
    obtain ⟨level, ⟨path, clients⟩, kscan⟩ := config
    simp [given?]
  | some value =>
    have read : library.record? (observerDeclaration library) value = some config.observer ↔ _ :=
      observer_eq_some_iff reads
    simpa [given?] using read

theorem given?_kscan_eq_some_iff (reads : library.ReadsValues) :
    given? (library.record? (kscanDeclaration library)) {} (table.value? "kscan") =
        some config.kscan ↔
      (∀ value, table.value? "kscan" = some value → Sectional value) ∧
        kscanPath.Settled table config ∧ rows.Settled table config ∧
        columns.Settled table config := by
  rw [settled_kscanPath reads, settled_rows reads, settled_columns reads, valueIn?, valueIn?,
    valueIn?]
  cases present : table.value? "kscan" with
  | none =>
    obtain ⟨level, observer, ⟨path, rows, columns⟩⟩ := config
    simp [given?]
  | some value =>
    have read : library.record? (kscanDeclaration library) value = some config.kscan ↔ _ :=
      kscan_eq_some_iff reads
    simpa [given?] using read

/-- A document is read setting by setting. -/
theorem config_eq_some_iff (reads : library.ReadsValues) :
    library.record? (declaration library) (.table table) = some config ↔
      (∀ value, table.value? "observer" = some value → Sectional value) ∧
      (∀ value, table.value? "kscan" = some value → Sectional value) ∧
      ∀ name : SettingName, name.Settled table config := by
  have level : given? library.string? ({} : Config).logLevel (table.value? "log_level") =
      some config.logLevel ↔ SettingName.logLevel.Settled table config :=
    (settled_logLevel reads).symm
  rw [reads.table, fill?_config_iff, level, given?_observer_eq_some_iff reads,
    given?_kscan_eq_some_iff reads]
  constructor
  · rintro ⟨level, ⟨observer, path, clients⟩, kscan, kscanPath, rows, columns⟩
    refine ⟨observer, kscan, fun name => ?_⟩
    cases name <;> assumption
  · rintro ⟨observer, kscan, each⟩
    exact ⟨each .logLevel, ⟨observer, each .observerPath, each .maxClients⟩, kscan,
      each .kscanPath, each .rows, each .columns⟩

/-! ## Which documents are read -/

/-- What a configuration can have is of the right type and range. -/
theorem SettingName.Says.admits {name : SettingName} {value : Value}
    (said : name.Says config value) : name.Admits value := by
  cases said with
  | logLevel => exact .logLevel _
  | observerPath path => exact .observerPath _
  | maxClients count => exact .maxClients (by omega) (Int64.toInt_lt _)
  | kscanPath path => exact .kscanPath _
  | rows count =>
    have small := config.kscan.rows.toNat_lt
    exact .rows (by omega) (by omega)
  | columns count =>
    have small := config.kscan.columns.toNat_lt
    exact .columns (by omega) (by omega)

theorem exists_uint32 {number : Int} (low : 0 ≤ number) (high : number < 2 ^ 32) :
    ∃ count : UInt32, number = count.toNat := by
  obtain ⟨count, rfl⟩ := Int.eq_ofNat_of_zero_le low
  have small : count < UInt32.size := Int.ofNat_lt.mp high
  exact ⟨UInt32.ofNat count, by rw [UInt32.toNat_ofNat_of_lt' small]⟩

theorem exists_uint64 {number : Int} (low : 0 ≤ number) (high : number < 2 ^ 63) :
    ∃ count : UInt64, number = count.toNat := by
  obtain ⟨count, rfl⟩ := Int.eq_ofNat_of_zero_le low
  have small : count < UInt64.size := Nat.lt_trans (Int.ofNat_lt.mp high) (by decide)
  exact ⟨UInt64.ofNat count, by rw [UInt64.toNat_ofNat_of_lt' small]⟩

/-- What is of the right type and range can be had. -/
theorem SettingName.Admits.exists_config {name : SettingName} {value : Value}
    (admitted : name.Admits value) : ∃ config, name.Says config value := by
  cases admitted with
  | logLevel text => exact ⟨{ logLevel := text }, .logLevel⟩
  | observerPath text =>
    exact ⟨{ observer := { socketPath := .ofString text } }, .observerPath rfl⟩
  | maxClients low high =>
    obtain ⟨count, same⟩ := exists_uint64 low high
    exact ⟨{ observer := { maxClients := count } }, .maxClients same⟩
  | kscanPath text => exact ⟨{ kscan := { socketPath := .ofString text } }, .kscanPath rfl⟩
  | rows low high =>
    obtain ⟨count, same⟩ := exists_uint32 low high
    exact ⟨{ kscan := { rows := count } }, .rows same⟩
  | columns low high =>
    obtain ⟨count, same⟩ := exists_uint32 low high
    exact ⟨{ kscan := { columns := count } }, .columns same⟩

/-- What is said about a setting depends on that setting alone. -/
theorem SettingName.Says.of_same {name : SettingName} {value : Value} {other : Config}
    (said : name.Says other value) (same : name.Same config other) : name.Says config value := by
  cases said with
  | logLevel =>
    have level : config.logLevel = other.logLevel := same
    exact level ▸ .logLevel
  | observerPath path => exact .observerPath (Eq.trans same path)
  | maxClients count =>
    have number : config.observer.maxClients = other.observer.maxClients := same
    exact .maxClients (number ▸ count)
  | kscanPath path => exact .kscanPath (Eq.trans same path)
  | rows count =>
    have number : config.kscan.rows = other.kscan.rows := same
    exact .rows (number ▸ count)
  | columns count =>
    have number : config.kscan.columns = other.kscan.columns := same
    exact .columns (number ▸ count)

theorem SettingName.Settled.of_same {name : SettingName} {other : Config}
    (settled : name.Settled table other) (same : name.Same config other) :
    name.Settled table config := by
  refine ⟨fun value found => (settled.1 value found).of_same same, fun missing => ?_⟩
  have default := settled.2 missing
  cases name <;> exact Eq.trans same default

theorem Admissible.exists_settled (admissible : Admissible table) (name : SettingName) :
    ∃ config, name.Settled table config := by
  cases said : name.valueIn? table with
  | none =>
    refine ⟨{}, fun value given => ?_, fun _ => ?_⟩
    · rw [said] at given
      cases given
    · cases name <;> rfl
  | some value =>
    obtain ⟨config, has⟩ := (admissible.settings name value said).exists_config
    refine ⟨config, fun other given => ?_, fun unsaid => ?_⟩
    · rw [said] at given
      cases given
      exact has
    · rw [said] at unsaid
      cases unsaid

theorem exists_config_iff (reads : library.ReadsValues) :
    (∃ config, library.record? (declaration library) (.table table) = some config) ↔
      Admissible table := by
  constructor
  · rintro ⟨config, read⟩
    obtain ⟨observer, kscan, settled⟩ := (config_eq_some_iff reads).mp read
    exact ⟨observer, kscan, fun name value found => ((settled name).1 value found).admits⟩
  · intro admissible
    choose apart settled using admissible.exists_settled
    -- every setting is taken from the configuration that has it as the document says
    refine ⟨⟨(apart .logLevel).logLevel,
      ⟨(apart .observerPath).observer.socketPath, (apart .maxClients).observer.maxClients⟩,
      ⟨(apart .kscanPath).kscan.socketPath, (apart .rows).kscan.rows,
        (apart .columns).kscan.columns⟩⟩, ?_⟩
    refine (config_eq_some_iff reads).mpr ⟨admissible.observer, admissible.kscan, ?_⟩
    intro name
    refine (settled name).of_same ?_
    cases name <;> rfl

/-! ## Documents that say the same -/

/-- Two documents say the same about a section, whose settings have these names in order: they
differ in keys that are no settings, or one lists the settings that the other names. A point in
time names none. -/
inductive SectionsAlike (names : List String) : Option Value → Option Value → Prop
  | same (part : Option Value) : SectionsAlike names part part
  | tables {table other : Table}
    (settings : ∀ name ∈ names, table.value? name = other.value? name) :
    SectionsAlike names (some (.table table)) (some (.table other))
  | listed {elements : List Value} {table : Table}
    (settings : ∀ (index : Nat) (name : String), names[index]? = some name →
      table.value? name = elements[index]?) :
    SectionsAlike names (some (.array elements)) (some (.table table))
  | moment {table : Table} (settings : ∀ name ∈ names, table.value? name = none) :
    SectionsAlike names (some .moment) (some (.table table))

/-- Two documents say the same about every setting. -/
structure Alike (table other : Table) : Prop where
  logLevel : table.value? "log_level" = other.value? "log_level"
  observer : SectionsAlike ["socket_path", "max_clients"] (table.value? "observer")
    (other.value? "observer")
  kscan : SectionsAlike ["socket_path", "rows", "columns"] (table.value? "kscan")
    (other.value? "kscan")

theorem SectionsAlike.sectional {names : List String} {part other : Option Value}
    (alike : SectionsAlike names part other) :
    (∀ value, part = some value → Sectional value) ↔
      ∀ value, other = some value → Sectional value := by
  have one : ∀ value : Value, Sectional value →
      ∀ given, some value = some given → Sectional given := by
    rintro value sectional given ⟨⟩
    exact sectional
  cases alike with
  | same => rfl
  | tables => exact iff_of_true (one _ (.inl (.table _))) (one _ (.inl (.table _)))
  | listed => exact iff_of_true (one _ (.inl (.array _))) (one _ (.inl (.table _)))
  | moment => exact iff_of_true (one _ (.inr rfl)) (one _ (.inl (.table _)))

theorem SectionsAlike.sectionValue? {names : List String} {part other : Option Value}
    (alike : SectionsAlike names part other) {index : Nat} {name : String}
    (known : names[index]? = some name) :
    part.bind (sectionValue? name index) = other.bind (sectionValue? name index) := by
  have member : name ∈ names := List.mem_of_getElem? known
  cases alike with
  | same => rfl
  | tables settings => exact settings name member
  | listed settings => exact (settings index name known).symm
  | moment settings => exact (settings name member).symm

theorem Alike.valueIn? {other : Table} (alike : Alike table other) (name : SettingName) :
    name.valueIn? table = name.valueIn? other := by
  cases name with
  | logLevel => exact alike.logLevel
  | observerPath => exact alike.observer.sectionValue? rfl
  | maxClients => exact alike.observer.sectionValue? rfl
  | kscanPath => exact alike.kscan.sectionValue? rfl
  | rows => exact alike.kscan.sectionValue? rfl
  | columns => exact alike.kscan.sectionValue? rfl

theorem config_of_alike {other : Table} (reads : library.ReadsValues) (alike : Alike table other) :
    library.record? (declaration library) (.table other) =
      library.record? (declaration library) (.table table) := by
  apply Option.ext
  intro config
  rw [config_eq_some_iff reads, config_eq_some_iff reads, alike.observer.sectional,
    alike.kscan.sectional]
  simp only [Settled, alike.valueIn?]

/-! ## Files -/

/-- A file holds a document. -/
def Holds (library : Library) (tree : FileTree) (path : Path) (table : Table) : Prop :=
  ∃ text : String, tree.read path = .ok (Text.utf8Bytes text) ∧ library.parse? text = some table

section Files
variable {tree : FileTree} {path : Path}

theorem Holds.load (holds : Holds library tree path table) :
    load library tree path =
      (library.record? (declaration library) (.table table)).elim (.error .malformed) .ok := by
  obtain ⟨text, present, parsed⟩ := holds
  rw [Config.load, present, ofContent, Text.utf8Text?_utf8Bytes]
  simp only [parse?, parsed, Option.bind_eq_bind, Option.bind_some]
  cases library.record? (declaration library) (.table table) <;> rfl

theorem Holds.load_eq_ok_iff (holds : Holds library tree path table) :
    Config.load library tree path = .ok config ↔
      library.record? (declaration library) (.table table) = some config := by
  rw [holds.load]
  cases library.record? (declaration library) (.table table) with
  | none => simp
  | some found => simp

end Files

/-- With a library that reads values as what they are, a file with a document is loaded if and
only if every setting that the document names has its type and range. Each setting is then what
the document says, or its default if it says nothing, whatever it says about others. Documents
that say the same about every setting are loaded alike. -/
theorem partial_document (library : Library) (reads : library.ReadsValues) (tree : FileTree)
    (path : Path) (table : Table) (holds : Holds library tree path table) :
    ((∃ config, load library tree path = .ok config) ↔ Admissible table) ∧
    (∀ config, load library tree path = .ok config → ∀ name : SettingName,
      (∀ value, name.valueIn? table = some value → name.Says config value) ∧
        (name.valueIn? table = none → name.Same config {})) ∧
    ∀ (otherTree : FileTree) (otherPath : Path) (other : Table),
      Holds library otherTree otherPath other → Alike table other →
        load library otherTree otherPath = load library tree path := by
  refine ⟨?_, ?_, ?_⟩
  · simp only [holds.load_eq_ok_iff]
    exact exists_config_iff reads
  · intro config loaded
    rw [holds.load_eq_ok_iff] at loaded
    exact ((config_eq_some_iff reads).mp loaded).2.2
  · intro otherTree otherPath other otherHolds alike
    rw [holds.load, otherHolds.load, config_of_alike reads alike]

/-- The root with one file in it, `a`. -/
def textFile (text : String) : FileTree where
  entries := [([[0x61]], .file (Text.utf8Bytes text))]

/-- The first section is a list. -/
def listedText : String := "observer = ['o']\n[kscan]\nlayers = 2\nrows = 7\n"

def listedTable : List (String × Value) :=
  [("observer", .array [.string "o"]),
    ("kscan", .table [("layers", .integer 2), ("rows", .integer 7)])]

/-- The same settings, each named. -/
def namedText : String := "[observer]\nsocket_path = 'o'\n[kscan]\nrows = 7\n"

def namedTable : List (String × Value) :=
  [("observer", .table [("socket_path", .string "o")]), ("kscan", .table [("rows", .integer 7)])]

theorem readsAs_rows : ReadsAs "rows = 7\n".toList [.assign ["rows"] (.integer 7)] :=
  Toml.readsAs_nil.statement (.inl rfl) rfl (by decide)

theorem parse?_listedText : Toml.builtin.parse? listedText = some listedTable := by
  have layers : ReadsAs "layers = 2\nrows = 7\n".toList
      [.assign ["layers"] (.integer 2), .assign ["rows"] (.integer 7)] :=
    readsAs_rows.statement (.inl rfl) rfl (by decide)
  have kscan : ReadsAs "[kscan]\nlayers = 2\nrows = 7\n".toList
      [.table ["kscan"], .assign ["layers"] (.integer 2), .assign ["rows"] (.integer 7)] :=
    layers.statement (.inr rfl) rfl (by decide)
  have observer : ReadsAs listedText.toList
      [.assign ["observer"] (.array [.string "o"]), .table ["kscan"],
        .assign ["layers"] (.integer 2), .assign ["rows"] (.integer 7)] :=
    kscan.statement (.inl rfl) rfl (by decide)
  exact observer.parse? (by decide) rfl

theorem parse?_namedText : Toml.builtin.parse? namedText = some namedTable := by
  have kscan : ReadsAs "[kscan]\nrows = 7\n".toList
      [.table ["kscan"], .assign ["rows"] (.integer 7)] :=
    readsAs_rows.statement (.inr rfl) rfl (by decide)
  have socketPath : ReadsAs "socket_path = 'o'\n[kscan]\nrows = 7\n".toList
      [.assign ["socket_path"] (.string "o"), .table ["kscan"],
        .assign ["rows"] (.integer 7)] :=
    kscan.statement (.inl rfl) rfl (by decide)
  have observer : ReadsAs namedText.toList
      [.table ["observer"], .assign ["socket_path"] (.string "o"), .table ["kscan"],
        .assign ["rows"] (.integer 7)] :=
    socketPath.statement (.inr rfl) rfl (by decide)
  exact observer.parse? (by decide) rfl

theorem listed_alike : Alike listedTable namedTable := by
  refine ⟨rfl, .listed ?_, .tables ?_⟩
  · intro index name known
    match index, known with
    | 0, known => cases known; rfl
    | 1, known => cases known; rfl
  · simp only [List.forall_mem_cons]
    exact ⟨rfl, rfl, rfl, nofun⟩

/-- One document lists the path that the other names, and has a key that is no setting. The
numbers that neither gives have their defaults. -/
theorem partial_document_listed :
    Toml.builtin.ReadsValues ∧
    Holds Toml.builtin (textFile listedText) (.ofString "/a") listedTable ∧
    Holds Toml.builtin (textFile namedText) (.ofString "/a") namedTable ∧
    Alike listedTable namedTable ∧
    Admissible listedTable ∧
    load Toml.builtin (textFile listedText) (.ofString "/a") =
      .ok { observer := { socketPath := .ofString "o" }, kscan := { rows := 7 } } ∧
    SettingName.columns.Same
      { observer := { socketPath := .ofString "o" }, kscan := { rows := 7 } } {} ∧
    load Toml.builtin (textFile namedText) (.ofString "/a") =
      load Toml.builtin (textFile listedText) (.ofString "/a") := by
  have reads := Toml.builtin_readsValues
  have holds : Holds Toml.builtin (textFile listedText) (.ofString "/a") listedTable :=
    ⟨_, rfl, parse?_listedText⟩
  have otherHolds : Holds Toml.builtin (textFile namedText) (.ofString "/a") namedTable :=
    ⟨_, rfl, parse?_namedText⟩
  have loaded : load Toml.builtin (textFile listedText) (.ofString "/a") =
      .ok { observer := { socketPath := .ofString "o" }, kscan := { rows := 7 } } :=
    holds.load_eq_ok_iff.mpr rfl
  obtain ⟨admissible, settled, others⟩ := partial_document Toml.builtin reads _ _ _ holds
  exact ⟨reads, holds, otherHolds, listed_alike, admissible.mp ⟨_, loaded⟩, loaded,
    (settled _ loaded .columns).2 rfl, others _ _ _ otherHolds listed_alike⟩

/-- A date in the place of a section is neither a table nor an array, and the document is
loaded with the defaults. -/
theorem date_in_place_of_section :
    Holds Toml.builtin (textFile "observer = 1979-05-27") (.ofString "/a") [("observer", .moment)] ∧
    ¬TableOrArray .moment ∧
    load Toml.builtin (textFile "observer = 1979-05-27") (.ofString "/a") = .ok {} := by
  have holds : Holds Toml.builtin (textFile "observer = 1979-05-27") (.ofString "/a")
      [("observer", .moment)] := ⟨_, rfl, rfl⟩
  exact ⟨holds, nofun, holds.load_eq_ok_iff.mpr rfl⟩

end KeyRelay.Config
