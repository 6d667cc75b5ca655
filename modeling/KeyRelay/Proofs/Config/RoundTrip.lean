import KeyRelay.Config.Store
import KeyRelay.Proofs.Config.Reading
import KeyRelay.Proofs.Files.Tree
import KeyRelay.Proofs.Toml.Builtin

/-! # A saved configuration is loaded as it was

A configuration is written as a document of one setting and two sections. With any library
that reads and writes by the rules, whatever the strings in it, the document is read as the
same configuration, and the file that holds it is read as it was written. What a document
cannot hold is a path that is not text and a number beyond the signed 64-bit range; then
nothing is written. -/
set_option autoImplicit false

namespace KeyRelay

theorem Text.utf8Bytes_of_utf8Text? {bytes : List UInt8} {text : String}
    (decoded : Text.utf8Text? bytes = some text) : Text.utf8Bytes text = bytes := by
  simp only [Text.utf8Text?, String.fromUTF8?] at decoded
  split at decoded
  next valid => cases decoded; rfl
  next => cases decoded

namespace Path

/-- A path that is the bytes of a text. -/
def IsText (path : Path) : Prop :=
  ∃ text, path = .ofString text

theorem text?_ofString (text : String) : (ofString text).text? = some text :=
  Text.utf8Text?_utf8Bytes text

theorem isText_iff {path : Path} : path.IsText ↔ ∃ text, path.text? = some text := by
  constructor
  · rintro ⟨text, rfl⟩
    exact ⟨text, text?_ofString text⟩
  · rintro ⟨text, decoded⟩
    exact ⟨text, by rw [ofString, Text.utf8Bytes_of_utf8Text? decoded]⟩

end Path

namespace Config

open Toml (Library Settings Table Value)
open Toml.Standard (Denotes)

/-! ## Documents -/

/-- What a document can hold. -/
structure Storable (config : Config) : Prop where
  observerPath : config.observer.socketPath.IsText
  maxClients : config.observer.maxClients.toNat < 0x8000000000000000
  kscanPath : config.kscan.socketPath.IsText

theorem uint32_small (number : UInt32) : number.toNat < 0x8000000000000000 :=
  Nat.lt_trans number.toNat_lt (by decide)

theorem settings_regular (config : Config) : config.settings.Regular where
  topBare := by
    simp only [settings, List.forall_mem_singleton]
    decide
  partBare := by
    simp only [settings, List.forall_mem_cons]
    exact ⟨by decide, by decide, nofun⟩
  settingBare := by
    simp only [settings, List.forall_mem_cons]
    exact ⟨⟨by decide, by decide, nofun⟩, ⟨by decide, by decide, by decide, nofun⟩, nofun⟩
  settingDistinct := by
    simp only [settings, List.forall_mem_cons]
    exact ⟨(by decide : ["socket_path", "max_clients"].Nodup),
      (by decide : ["socket_path", "rows", "columns"].Nodup), nofun⟩
  distinct := (by decide : ["log_level", "observer", "kscan"].Nodup)

/-- The document of a configuration with these texts for its paths. -/
def table (config : Config) (observerPath kscanPath : String) : Table :=
  [("log_level", .string config.logLevel),
    ("observer", .table [
      ("socket_path", .string observerPath),
      ("max_clients", .integer (.ofNat config.observer.maxClients.toNat))]),
    ("kscan", .table [
      ("socket_path", .string kscanPath),
      ("rows", .integer (.ofNat config.kscan.rows.toNat)),
      ("columns", .integer (.ofNat config.kscan.columns.toNat))])]

theorem table?_settings {config : Config} {observerPath kscanPath : String}
    (observer : config.observer.socketPath = .ofString observerPath)
    (kscan : config.kscan.socketPath = .ofString kscanPath)
    (small : config.observer.maxClients.toNat < 0x8000000000000000) :
    config.settings.table? = some (config.table observerPath kscanPath) := by
  simp [Settings.table?, settings, Toml.Assignment.entry?, Toml.Section.entry?, Toml.Scalar.value?,
    observer, kscan, Path.text?_ofString, small, uint32_small, table]

theorem storable_of_table? {config : Config} {table : Table}
    (given : config.settings.table? = some table) : config.Storable := by
  have each := Settings.exists_value? given
  simp only [settings, List.forall_mem_cons, Toml.Scalar.value?, Option.map_eq_some_iff,
    Option.ite_none_right_eq_some] at each
  obtain ⟨⟨⟨_, path, text, _⟩, ⟨_, small, _⟩, _⟩, ⟨⟨_, kscanPath, kscanText, _⟩, _⟩, _⟩ := each
  exact ⟨Path.isText_iff.mpr ⟨path, text⟩, small, Path.isText_iff.mpr ⟨kscanPath, kscanText⟩⟩

section Texts
variable {library : Library} {config : Config} {observerPath kscanPath text : String}

/-- The document of a configuration is read as the configuration. -/
theorem parse?_denotes (reads : library.ReadsDocuments) (values : library.ReadsValues)
    (observer : config.observer.socketPath = .ofString observerPath)
    (kscan : config.kscan.socketPath = .ofString kscanPath)
    (small : config.observer.maxClients.toNat < 0x8000000000000000)
    (denotes : Denotes text.toList (config.table observerPath kscanPath)) :
    parse? library text = some config := by
  rw [parse?, reads.read _ _ denotes, Option.bind_eq_bind, Option.bind_some, values.table,
    fill?_config_iff]
  refine ⟨(values.string _ _).mpr rfl, ?_, ?_⟩
  · refine (values.table _ _).trans (fill?_observer_iff.mpr ⟨?_, ?_⟩)
    · exact (values.path _ _).mpr ⟨observerPath, rfl, observer⟩
    · exact (values.uint64 _ _).mpr ⟨_, rfl, Int64.toInt_ofNat_of_lt small⟩
  · refine (values.table _ _).trans (fill?_kscan_iff.mpr ⟨?_, ?_, ?_⟩)
    · exact (values.path _ _).mpr ⟨kscanPath, rfl, kscan⟩
    · exact (values.uint32 _ _).mpr ⟨_, rfl, Int64.toInt_ofNat_of_lt (uint32_small _)⟩
    · exact (values.uint32 _ _).mpr ⟨_, rfl, Int64.toInt_ofNat_of_lt (uint32_small _)⟩

/-- What can be held is written in full, and read as it was. -/
theorem Storable.write (storable : config.Storable) (reads : library.ReadsDocuments)
    (writes : library.WritesDocuments) (values : library.ReadsValues) :
    ∃ text, library.write config.settings = .ok text ∧ parse? library text = some config := by
  obtain ⟨⟨observerPath, observer⟩, small, ⟨kscanPath, kscan⟩⟩ := storable
  obtain ⟨text, written, denotes⟩ := writes.written config.settings _ config.settings_regular
    (table?_settings observer kscan small)
  exact ⟨text, written, parse?_denotes reads values observer kscan small denotes⟩

/-- What cannot be held is not written at all. -/
theorem write_failure (unstorable : ¬config.Storable) (writes : library.WritesDocuments) :
    ∃ reason, library.write config.settings = .error reason := by
  refine writes.refused config.settings config.settings_regular ?_
  cases given : config.settings.table? with
  | none => rfl
  | some table => exact absurd (storable_of_table? given) unstorable

end Texts

/-! ## Files -/

theorem prepare_adds (tree : FileTree) (path : Path) :
    FileTree.AddsDirectories tree (prepare tree path).2 := by
  rw [prepare]
  split
  next => exact .refl
  next directory _ =>
    have adds := FileTree.AddsDirectories.createDirectories tree directory
    split
    next created => rwa [created] at adds
    next created => rwa [created] at adds

theorem load_write {library : Library} {tree written : FileTree} {path : Path} {text : String}
    {config : Config} (success : tree.write path (Text.utf8Bytes text) = .ok written)
    (parsed : parse? library text = some config) : load library written path = .ok config := by
  rw [load, FileTree.read_write success, ofContent, Text.utf8Text?_utf8Bytes]
  simp only [parsed]

/-- The directory of the file is there, or can be created. -/
def Reachable (tree : FileTree) (path : Path) : Prop :=
  (prepare tree path).1 = .ok ()

/-- Any content can be written to the file, once its directory is there. -/
structure Writable (tree : FileTree) (path : Path) : Prop where
  reachable : Reachable tree path
  accepts : ∀ content, ∃ written, (prepare tree path).2.write path content = .ok written

section Saving
variable {library : Library} {tree : FileTree} {path : Path} {config : Config}

theorem save_of_reachable (reachable : Reachable tree path) :
    save library tree path config =
      match library.write config.settings with
      | .error reason => (.error (.unwritable reason), (prepare tree path).2)
      | .ok text =>
        match (prepare tree path).2.write path (Text.utf8Bytes text) with
        | .error failure => (.error (.access path failure), (prepare tree path).2)
        | .ok written => (.ok (), written) := by
  rw [Reachable] at reachable
  rw [save]
  cases made : prepare tree path with
  | mk outcome left =>
    rw [made] at reachable
    obtain rfl : outcome = .ok () := reachable
    rfl

/-- A document that cannot be written leaves at most a new directory behind. -/
theorem save_adds {reason : String} (unwritten : library.write config.settings = .error reason) :
    FileTree.AddsDirectories tree (save library tree path config).2 := by
  have adds := prepare_adds tree path
  rw [save]
  split
  next refused => rwa [refused] at adds
  next prepared =>
    rw [prepared] at adds
    rw [unwritten]
    exact adds

end Saving

/-- With a library that reads and writes by the rules, a configuration with text for its paths
and a number in range is saved wherever a file can be written, and loading that file gives the
same configuration. Any other is refused for what it holds, and every file that could be read
keeps its content. -/
theorem configuration_roundTrip (library : Library) (reads : library.ReadsDocuments)
    (writes : library.WritesDocuments) (values : library.ReadsValues) (config : Config)
    (tree : FileTree) (path : Path) :
    (config.Storable → Writable tree path →
      ∃ written, save library tree path config = (.ok (), written) ∧
        load library written path = .ok config) ∧
    (¬config.Storable →
      (Reachable tree path →
        ∃ reason, (save library tree path config).1 = .error (.unwritable reason)) ∧
      ∀ file content, tree.read file = .ok content →
        (save library tree path config).2.read file = .ok content) := by
  constructor
  · intro storable writable
    obtain ⟨text, rendered, parsed⟩ := storable.write reads writes values
    obtain ⟨written, success⟩ := writable.accepts (Text.utf8Bytes text)
    refine ⟨written, ?_, load_write success parsed⟩
    rw [save_of_reachable writable.reachable, rendered]
    simp only [success]
  · intro unstorable
    obtain ⟨reason, refused⟩ := write_failure unstorable writes
    refine ⟨fun reachable => ⟨reason, ?_⟩, fun file content present => ?_⟩
    · rw [save_of_reachable reachable, refused]
    · exact (save_adds refused).grows.read present

/-- Quotes of both kinds, a carriage return and line feeds come back from a directory that
had to be created; a number one too large leaves the file that is there. -/
theorem configuration_roundTrip_awkward :
    Toml.builtin.ReadsDocuments ∧ Toml.builtin.WritesDocuments ∧ Toml.builtin.ReadsValues ∧
    Storable ⟨"'''\r\n\"\"\"", ⟨.ofString "it's \"here\"\n", 0x7FFFFFFFFFFFFFFF⟩, {}⟩ ∧
    Writable {} (.ofString "/relay/config.toml") ∧
    (∃ written,
      save Toml.builtin {} (.ofString "/relay/config.toml")
        ⟨"'''\r\n\"\"\"", ⟨.ofString "it's \"here\"\n", 0x7FFFFFFFFFFFFFFF⟩, {}⟩ =
          (.ok (), written) ∧
      load Toml.builtin written (.ofString "/relay/config.toml") =
        .ok ⟨"'''\r\n\"\"\"", ⟨.ofString "it's \"here\"\n", 0x7FFFFFFFFFFFFFFF⟩, {}⟩) ∧
    ¬Storable ⟨"info", ⟨.ofString "/o", 0x8000000000000000⟩, {}⟩ ∧
    Reachable { entries := [([[0x61]], .file [0x23])] } (.ofString "/a") ∧
    (∃ reason, (save Toml.builtin { entries := [([[0x61]], .file [0x23])] } (.ofString "/a")
      ⟨"info", ⟨.ofString "/o", 0x8000000000000000⟩, {}⟩).1 = .error (.unwritable reason)) ∧
    (save Toml.builtin { entries := [([[0x61]], .file [0x23])] } (.ofString "/a")
      ⟨"info", ⟨.ofString "/o", 0x8000000000000000⟩, {}⟩).2.read (.ofString "/a") =
        .ok [0x23] := by
  have storable : Storable
      ⟨"'''\r\n\"\"\"", ⟨.ofString "it's \"here\"\n", 0x7FFFFFFFFFFFFFFF⟩, {}⟩ :=
    ⟨⟨_, rfl⟩, by decide, ⟨_, rfl⟩⟩
  have writable : Writable {} (.ofString "/relay/config.toml") := ⟨rfl, fun _ => ⟨_, rfl⟩⟩
  have unstorable : ¬Storable ⟨"info", ⟨.ofString "/o", 0x8000000000000000⟩, {}⟩ :=
    fun storable => absurd storable.maxClients (by decide)
  have reachable : Reachable { entries := [([[0x61]], .file [0x23])] } (.ofString "/a") := rfl
  have reads := Toml.builtin_readsDocuments
  have writes := Toml.builtin_writesDocuments
  have values := Toml.builtin_readsValues
  obtain ⟨saves, -⟩ := configuration_roundTrip Toml.builtin reads writes values
    ⟨"'''\r\n\"\"\"", ⟨.ofString "it's \"here\"\n", 0x7FFFFFFFFFFFFFFF⟩, {}⟩ {}
    (.ofString "/relay/config.toml")
  obtain ⟨-, refuses⟩ := configuration_roundTrip Toml.builtin reads writes values
    ⟨"info", ⟨.ofString "/o", 0x8000000000000000⟩, {}⟩
    { entries := [([[0x61]], .file [0x23])] } (.ofString "/a")
  obtain ⟨refused, kept⟩ := refuses unstorable
  exact ⟨reads, writes, values, storable, writable, saves storable writable, unstorable, reachable,
    refused reachable, kept _ _ rfl⟩

end Config

end KeyRelay
