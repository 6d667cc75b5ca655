import KeyRelay.CommandLine.RelayStart
import KeyRelay.Proofs.Config.Settings
import KeyRelay.Proofs.Files.Parent

/-! # Writing the effective configuration back

What the relay starts with is what the file says, with the given socket paths in place of its
own, and only that is checked. It can always be written as a document, since a file says
nothing that a document cannot hold. The file is then read as the same configuration, and
written again it stays as it is. A start that fails leaves every file as it was. -/
set_option autoImplicit false

namespace KeyRelay

namespace FileTree

/-- Every file has the content it had, and there is no other file. -/
structure SameFiles (before after : FileTree) : Prop where
  file : ∀ place content,
    after.lookup place = some (.file content) ↔ before.lookup place = some (.file content)
  read : ∀ path content, before.read path = .ok content → after.read path = .ok content

theorem AddsDirectories.sameFiles {before after : FileTree}
    (adds : AddsDirectories before after) : SameFiles before after :=
  ⟨adds.file_iff, fun _ _ present => adds.grows.read present⟩

end FileTree

open Toml (Library ReadsAs)

namespace Config

/-! ## What a file says -/

/-- The configuration of a file: the defaults if it is not there, otherwise what its text says. -/
inductive InFile (library : Library) (tree : FileTree) (path : Path) : Config → Prop
  | absent (missing : tree.read path = .error .notFound) : InFile library tree path {}
  | text {text : String} {config : Config}
    (present : tree.read path = .ok (Text.utf8Bytes text))
    (parsed : parse? library text = some config) : InFile library tree path config

variable {library : Library}

theorem load_eq_ok_iff {tree : FileTree} {path : Path} {config : Config} :
    load library tree path = .ok config ↔ InFile library tree path config := by
  constructor
  · intro loaded
    rw [load] at loaded
    cases content : tree.read path with
    | error failure =>
      rw [content] at loaded
      cases failure with
      | notFound => cases loaded; exact .absent content
      | _ => cases loaded
    | ok bytes =>
      rw [content, ofContent] at loaded
      split at loaded
      next => cases loaded
      next text decoded =>
        split at loaded
        next => cases loaded
        next parsed =>
          cases loaded
          rw [← Text.utf8Bytes_of_utf8Text? decoded] at content
          exact .text content parsed
  · rintro (missing | ⟨present, parsed⟩)
    · rw [load, missing, ofContent]
    · rw [load, present, ofContent, Text.utf8Text?_utf8Bytes]
      simp only [parsed]

theorem isText_of_given? (reads : library.ReadsValues) {default : String}
    {value : Option Toml.Value} {path : Path}
    (read : given? library.path? (.ofString default) value = some path) : path.IsText := by
  cases value with
  | none => cases read; exact ⟨default, rfl⟩
  | some value =>
    obtain ⟨text, -, same⟩ := (reads.path _ _).mp read
    exact ⟨text, same⟩

/-- A document says nothing that a document cannot hold. -/
theorem storable_of_parse? (reads : library.ReadsValues) {text : String} {config : Config}
    (parsed : parse? library text = some config) : config.Storable := by
  obtain ⟨table, -, made⟩ := Option.bind_eq_some_iff.mp parsed
  obtain ⟨-, -, settled⟩ := (config_eq_some_iff reads).mp made
  refine ⟨isText_of_given? reads ((SettingName.settled_observerPath reads).mp (settled _)), ?_,
    isText_of_given? reads ((SettingName.settled_kscanPath reads).mp (settled _))⟩
  obtain ⟨given, unsaid⟩ := settled .maxClients
  cases said : SettingName.valueIn? table .maxClients with
  | none =>
    have default : config.observer.maxClients = 4 := unsaid said
    rw [default]
    decide
  | some value =>
    cases given value said with
    | @maxClients number count =>
      have bound := number.toInt_lt
      omega

theorem InFile.storable (reads : library.ReadsValues) {tree : FileTree} {path : Path}
    {config : Config} (own : InFile library tree path config) : config.Storable := by
  cases own with
  | absent => exact ⟨⟨_, rfl⟩, by decide, ⟨_, rfl⟩⟩
  | text _ parsed => exact storable_of_parse? reads parsed

/-! ## Saving again -/

theorem prepare_of_resolve {tree : FileTree} {path : Path} {place : Place}
    (leads : tree.resolve path = .ok place) : prepare tree path = (.ok (), tree) := by
  rw [prepare]
  split
  next => rfl
  next directory parent => rw [FileTree.createDirectories_parent? parent leads]

/-- A configuration that a document can hold is written as its text. The file is then read as
that configuration, and saving it again changes nothing. -/
theorem save_twice (reads : library.ReadsDocuments) (writes : library.WritesDocuments)
    (values : library.ReadsValues) {tree : FileTree} {path : Path} {config : Config}
    (storable : config.Storable) (writable : Writable tree path) :
    ∃ text written, library.write config.settings = .ok text ∧
      save library tree path config = (.ok (), written) ∧
      written.read path = .ok (Text.utf8Bytes text) ∧ load library written path = .ok config ∧
      save library written path config = (.ok (), written) := by
  obtain ⟨text, rendered, parsed⟩ := storable.write reads writes values
  obtain ⟨written, success⟩ := writable.accepts (Text.utf8Bytes text)
  obtain ⟨⟨place, leads⟩, again⟩ := FileTree.write_again success
  have prepared := prepare_of_resolve leads
  refine ⟨text, written, rendered, ?_, FileTree.read_write success, load_write success parsed, ?_⟩
  · rw [save_of_reachable writable.reachable, rendered]
    simp only [success]
  · rw [save, prepared]
    simp only [rendered, again]

theorem save_refuses {config : Config} {reason : String}
    (unwritten : library.write config.settings = .error reason) (tree : FileTree) (path : Path) :
    ∃ refusal, (save library tree path config).1 = .error refusal := by
  rw [save]
  split
  next refusal _ _ => exact ⟨refusal, rfl⟩
  next =>
    rw [unwritten]
    exact ⟨.unwritable reason, rfl⟩

end Config

namespace CommandLine.RelayOptions

open Config (SettingName InFile)

/-! ## Replacing paths -/

/-- The path that is given in place of a setting. -/
def given? (options : RelayOptions) : SettingName → Option Path
  | .observerPath => options.observerSocket
  | .kscanPath => options.kscanSocket
  | _ => none

/-- The given paths stand in place of the file's own, and nothing else is different. -/
structure Replaces (options : RelayOptions) (own config : Config) : Prop where
  observer : ∀ path, options.observerSocket = some path → config.observer.socketPath = path
  kscan : ∀ path, options.kscanSocket = some path → config.kscan.socketPath = path
  kept : ∀ name : SettingName, options.given? name = none → name.Same config own

theorem eq_getD_iff {given : Option Path} {own path : Path} :
    path = given.getD own ↔
      (∀ replacement, given = some replacement → path = replacement) ∧
        (given = none → path = own) := by
  cases given with
  | none => simp
  | some replacement => simp

theorem replaces_iff {options : RelayOptions} {own config : Config} :
    options.Replaces own config ↔ config = options.override own := by
  constructor
  · rintro ⟨observer, kscan, kept⟩
    have level : config.logLevel = own.logLevel := kept .logLevel rfl
    have observerPath := eq_getD_iff.mpr ⟨observer, kept .observerPath⟩
    have clients : config.observer.maxClients = own.observer.maxClients := kept .maxClients rfl
    have kscanPath := eq_getD_iff.mpr ⟨kscan, kept .kscanPath⟩
    have rows : config.kscan.rows = own.kscan.rows := kept .rows rfl
    have columns : config.kscan.columns = own.kscan.columns := kept .columns rfl
    obtain ⟨_, ⟨_, _⟩, ⟨_, _, _⟩⟩ := config
    cases level
    cases observerPath
    cases clients
    cases kscanPath
    cases rows
    cases columns
    rfl
  · rintro rfl
    obtain ⟨observer, observerKept⟩ :=
      eq_getD_iff.mp (rfl : (options.override own).observer.socketPath = _)
    obtain ⟨kscan, kscanKept⟩ :=
      eq_getD_iff.mp (rfl : (options.override own).kscan.socketPath = _)
    refine ⟨observer, kscan, fun name unreplaced => ?_⟩
    cases name with
    | observerPath => exact observerKept unreplaced
    | kscanPath => exact kscanKept unreplaced
    | _ => rfl

/-- The given paths are texts. -/
structure GivesText (options : RelayOptions) : Prop where
  observer : ∀ path, options.observerSocket = some path → path.IsText
  kscan : ∀ path, options.kscanSocket = some path → path.IsText

theorem Replaces.storable {options : RelayOptions} {own config : Config}
    (replaces : options.Replaces own config) (texts : options.GivesText) (storable : own.Storable) :
    config.Storable where
  observerPath := by
    cases given : options.observerSocket with
    | none =>
      have same : config.observer.socketPath = own.observer.socketPath :=
        replaces.kept .observerPath given
      exact same ▸ storable.observerPath
    | some path => exact replaces.observer path given ▸ texts.observer path given
  maxClients := by
    have same : config.observer.maxClients = own.observer.maxClients :=
      replaces.kept .maxClients rfl
    exact same ▸ storable.maxClients
  kscanPath := by
    cases given : options.kscanSocket with
    | none =>
      have same : config.kscan.socketPath = own.kscan.socketPath := replaces.kept .kscanPath given
      exact same ▸ storable.kscanPath
    | some path => exact replaces.kscan path given ▸ texts.kscan path given

/-- The options name a file, and no socket paths but those of a configuration. -/
structure Repeats (options : RelayOptions) (path : Path) (config : Config) : Prop where
  file : options.config = some path
  observer : ∀ given, options.observerSocket = some given → given = config.observer.socketPath
  kscan : ∀ given, options.kscanSocket = some given → given = config.kscan.socketPath

theorem Repeats.replaces {options : RelayOptions} {path : Path} {config : Config}
    (repeats : options.Repeats path config) : options.Replaces config config where
  observer := fun given present => (repeats.observer given present).symm
  kscan := fun given present => (repeats.kscan given present).symm
  kept := fun name _ => by cases name <;> rfl

/-! ## Starting -/

section Named
variable {library : Library} {options : RelayOptions} {path : Path}
  (named : options.config = some path)
include named

/-- What the relay starts with is the file's configuration with the given paths, if that is
usable. -/
theorem effective_eq_ok_iff {tree : FileTree} {config : Config} :
    options.effective library tree.read = .ok config ↔
      ∃ own, InFile library tree path own ∧ options.Replaces own config ∧
        config.validate = .ok () := by
  simp only [← Config.load_eq_ok_iff, replaces_iff, Config.load, effective, loadNamed, named]
  cases Config.ofContent library path (tree.read path) with
  | error failure => simp
  | ok own =>
    dsimp only
    cases accepted : (options.override own).validate with
    | error failure =>
      simp only [Except.ok.injEq, reduceCtorEq, false_iff, not_exists, not_and]
      rintro _ rfl rfl validated
      rw [accepted] at validated
      cases validated
    | ok =>
      simp only [Except.ok.injEq]
      constructor
      · rintro rfl
        exact ⟨own, rfl, rfl, accepted⟩
      · rintro ⟨_, rfl, rfl, _⟩
        rfl

theorem run_of_effective {tree : FileTree} {config : Config}
    (effective : options.effective library tree.read = .ok config)
    (write : options.writeConfig = true) :
    options.run library tree =
      (.ended (writtenBack path (config.save library tree path).1),
        (config.save library tree path).2) := by
  have target : options.target? = some path := by rw [target?, if_pos write, named]
  rw [run, effective]
  simp only [target]

end Named

theorem writtenBack_ok (path : Path) :
    writtenBack path (.ok ()) = ⟨"Wrote " ++ path.display ++ "\n", .success⟩ := by
  simp only [writtenBack, lines, List.foldr_cons, List.foldr_nil, String.append_empty]
  rfl

/-- With a library that reads and writes by the rules, what the relay starts with is what the
file says, whatever that is, with the given paths in place of its own, and it starts if and only
if this is usable. Then a document can hold it if the given paths are texts. Once it is written,
the file is read as the same configuration, with no paths given or the same again, and written
again it stays as it is. If the file cannot be read, or the configuration is not usable or cannot
be written as a document, every file is left as it was. -/
theorem effective_configuration_is_fixpoint (library : Library) (reads : library.ReadsDocuments)
    (writes : library.WritesDocuments) (values : library.ReadsValues) (options : RelayOptions)
    (tree : FileTree) (path : Path) (named : options.config = some path) :
    (∀ own, ∃! config, options.Replaces own config) ∧
    (∀ config, options.effective library tree.read = .ok config ↔
      ∃ own, InFile library tree path own ∧ options.Replaces own config ∧
        config.validate = .ok ()) ∧
    (∀ config, options.effective library tree.read = .ok config → options.writeConfig = true →
      options.GivesText → Config.Writable tree path →
      ∃ text written, library.write config.settings = .ok text ∧
        options.run library tree =
          (.ended ⟨"Wrote " ++ path.display ++ "\n", .success⟩, written) ∧
        written.read path = .ok (Text.utf8Bytes text) ∧
        Config.load library written path = .ok config ∧
        ∀ later : RelayOptions, later.Repeats path config →
          later.effective library written.read = .ok config ∧
            (later.writeConfig = true →
              later.run library written =
                (.ended ⟨"Wrote " ++ path.display ++ "\n", .success⟩, written))) ∧
    (∀ report, options.effective library tree.read = .error report →
      options.run library tree = (.ended ⟨"", .failure report⟩, tree)) ∧
    ∀ config reason, options.effective library tree.read = .ok config →
      options.writeConfig = true → library.write config.settings = .error reason →
      ∃ report left, options.run library tree = (.ended ⟨"", .failure report⟩, left) ∧
        FileTree.SameFiles tree left := by
  refine ⟨?_, fun config => effective_eq_ok_iff named, ?_, ?_, ?_⟩
  · intro own
    simp only [replaces_iff, existsUnique_eq]
  · intro config effective write texts writable
    obtain ⟨own, inFile, replaces, usable⟩ := (effective_eq_ok_iff named).mp effective
    have storable := replaces.storable texts (inFile.storable values)
    obtain ⟨text, written, rendered, saved, content, loaded, again⟩ :=
      Config.save_twice reads writes values storable writable
    refine ⟨text, written, rendered, ?_, content, loaded, fun later repeats => ?_⟩
    · rw [run_of_effective named effective write, saved, writtenBack_ok]
    · have same : later.effective library written.read = .ok config :=
        (effective_eq_ok_iff repeats.file).mpr
          ⟨config, Config.load_eq_ok_iff.mp loaded, repeats.replaces, usable⟩
      refine ⟨same, fun writeAgain => ?_⟩
      rw [run_of_effective repeats.file same writeAgain, again, writtenBack_ok]
  · intro report refused
    rw [run, refused]
  · intro config reason effective write unwritten
    obtain ⟨refusal, refused⟩ := Config.save_refuses unwritten tree path
    rw [run_of_effective named effective write, refused]
    exact ⟨_, _, rfl, (Config.save_adds unwritten).sameFiles⟩

/-- One path for both sockets. -/
def clashingText : String :=
  "[observer]\nsocket_path = 's'\n[kscan]\nsocket_path = 's'\n"

def clashingTable : Toml.Table :=
  [("observer", .table [("socket_path", .string "s")]),
    ("kscan", .table [("socket_path", .string "s")])]

theorem parse?_clashingText : Toml.builtin.parse? clashingText = some clashingTable := by
  have last : ReadsAs "socket_path = 's'\n".toList [.assign ["socket_path"] (.string "s")] :=
    Toml.readsAs_nil.statement (.inl rfl) rfl (by decide)
  have kscan : ReadsAs "[kscan]\nsocket_path = 's'\n".toList
      [.table ["kscan"], .assign ["socket_path"] (.string "s")] :=
    last.statement (.inr rfl) rfl (by decide)
  have first : ReadsAs "socket_path = 's'\n[kscan]\nsocket_path = 's'\n".toList
      [.assign ["socket_path"] (.string "s"), .table ["kscan"],
        .assign ["socket_path"] (.string "s")] :=
    kscan.statement (.inl rfl) rfl (by decide)
  have observer : ReadsAs clashingText.toList
      [.table ["observer"], .assign ["socket_path"] (.string "s"), .table ["kscan"],
        .assign ["socket_path"] (.string "s")] :=
    first.statement (.inr rfl) rfl (by decide)
  exact observer.parse? (by decide) rfl

def clashingFile : FileTree :=
  Config.textFile clashingText

/-- Writes the file back, with the given command socket. -/
def writingBack (kscanSocket : Option Path) : RelayOptions :=
  ⟨some (.ofString "/a"), none, kscanSocket, true⟩

/-- One of two paths that clash is replaced. A start that keeps both is refused, and one with a
path that is no text is not written. -/
theorem effective_configuration_is_fixpoint_clashing :
    Toml.builtin.ReadsDocuments ∧ Toml.builtin.WritesDocuments ∧ Toml.builtin.ReadsValues ∧
    (writingBack (some (.ofString "t"))).effective Toml.builtin clashingFile.read =
      .ok ⟨"info", ⟨.ofString "s", 4⟩, ⟨.ofString "t", 4, 12⟩⟩ ∧
    (writingBack (some (.ofString "t"))).GivesText ∧
    Config.Writable clashingFile (.ofString "/a") ∧
    (∃ written,
      (writingBack (some (.ofString "t"))).run Toml.builtin clashingFile =
        (.ended ⟨"Wrote /a\n", .success⟩, written) ∧
      (writingBack none).run Toml.builtin written =
        (.ended ⟨"Wrote /a\n", .success⟩, written)) ∧
    (writingBack none).run Toml.builtin clashingFile =
      (.ended ⟨"", .failure ⟨"invalid configuration",
        ["invalid config: observer and kscan share socket path s"]⟩⟩, clashingFile) ∧
    ∃ report left, (writingBack (some ⟨[0xFF]⟩)).run Toml.builtin clashingFile =
      (.ended ⟨"", .failure report⟩, left) ∧ FileTree.SameFiles clashingFile left := by
  have reads := Toml.builtin_readsDocuments
  have writes := Toml.builtin_writesDocuments
  have values := Toml.builtin_readsValues
  have holds : Config.Holds Toml.builtin clashingFile (.ofString "/a") clashingTable :=
    ⟨_, rfl, parse?_clashingText⟩
  have loaded : loadNamed Toml.builtin clashingFile.read (some (.ofString "/a")) =
      .ok ⟨"info", ⟨.ofString "s", 4⟩, ⟨.ofString "s", 4, 12⟩⟩ := by
    have read : Config.load Toml.builtin clashingFile (.ofString "/a") = .ok _ :=
      holds.load_eq_ok_iff.mpr rfl
    rw [Config.load] at read
    simp only [loadNamed, read]
    rfl
  have accepted : (writingBack (some (.ofString "t"))).effective Toml.builtin clashingFile.read =
      .ok ⟨"info", ⟨.ofString "s", 4⟩, ⟨.ofString "t", 4, 12⟩⟩ := by
    rw [effective, writingBack, loaded]
    rfl
  have texts : (writingBack (some (.ofString "t"))).GivesText := by
    constructor
    · rintro _ ⟨⟩
    · rintro _ ⟨⟩
      exact ⟨_, rfl⟩
  have writable : Config.Writable clashingFile (.ofString "/a") := ⟨rfl, fun _ => ⟨_, rfl⟩⟩
  obtain ⟨-, -, saves, -⟩ := effective_configuration_is_fixpoint Toml.builtin reads writes values
    (writingBack (some (.ofString "t"))) clashingFile (.ofString "/a") rfl
  obtain ⟨text, written, -, ran, -, -, again⟩ := saves _ accepted rfl texts writable
  have repeated : (writingBack none).Repeats (.ofString "/a")
      ⟨"info", ⟨.ofString "s", 4⟩, ⟨.ofString "t", 4, 12⟩⟩ := by
    refine ⟨rfl, ?_, ?_⟩
    · rintro _ ⟨⟩
    · rintro _ ⟨⟩
  obtain ⟨-, -, -, refuses, -⟩ := effective_configuration_is_fixpoint Toml.builtin reads writes
    values (writingBack none) clashingFile (.ofString "/a") rfl
  obtain ⟨-, -, -, -, unwritten⟩ := effective_configuration_is_fixpoint Toml.builtin reads writes
    values (writingBack (some ⟨[0xFF]⟩)) clashingFile (.ofString "/a") rfl
  have shown : "Wrote " ++ Path.display (.ofString "/a") ++ "\n" = "Wrote /a\n" := by decide
  rw [shown] at ran again
  have clash : (writingBack none).effective Toml.builtin clashingFile.read =
      .error ⟨"invalid configuration",
        ["invalid config: observer and kscan share socket path s"]⟩ := by
    rw [effective, writingBack, loaded]
    decide
  have noText : (writingBack (some ⟨[0xFF]⟩)).effective Toml.builtin clashingFile.read =
      .ok ⟨"info", ⟨.ofString "s", 4⟩, ⟨⟨[0xFF]⟩, 4, 12⟩⟩ := by
    rw [effective, writingBack, loaded]
    rfl
  have refused : Toml.builtin.write
      (Config.settings ⟨"info", ⟨.ofString "s", 4⟩, ⟨⟨[0xFF]⟩, 4, 12⟩⟩) =
        .error "path contains invalid UTF-8 characters" := rfl
  exact ⟨reads, writes, values, accepted, texts, writable,
    ⟨written, ran, (again _ repeated).2 rfl⟩, refuses _ clash,
    unwritten _ _ noText rfl refused⟩

end CommandLine.RelayOptions

end KeyRelay
