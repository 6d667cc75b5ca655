import KeyRelay.Config.Document
import KeyRelay.Files.Directories

/-! # Loading and saving a configuration

A file that is not there stands for the defaults. Saving creates the directory
of the file first, and touches the file only when the whole text is ready. -/
set_option autoImplicit false

namespace KeyRelay.Config

open Toml (Library)

/-- The configuration in a file, from what reading the file gave. -/
def ofContent (library : Library) (path : Path) :
    Except FileFailure (List UInt8) → Except ConfigError Config
  | .error .notFound => .ok {}
  | .error failure => .error (.access path failure)
  | .ok content =>
    match Text.utf8Text? content with
    | none => .error (.access path .notText)
    | some text =>
      match parse? library text with
      | none => .error .malformed
      | some config => .ok config

def load (library : Library) (tree : FileTree) (path : Path) : Except ConfigError Config :=
  ofContent library path (tree.read path)

/-- Creates the directory of a file. A failure names the directory. -/
def prepare (tree : FileTree) (path : Path) : Except ConfigError Unit × FileTree :=
  match path.parent? with
  | none => (.ok (), tree)
  | some directory =>
    match tree.createDirectories directory with
    | (.error failure, left) => (.error (.access directory failure), left)
    | (.ok (), left) => (.ok (), left)

/-- Gives the files as they are afterwards, also when saving failed. -/
def save (library : Library) (tree : FileTree) (path : Path) (config : Config) :
    Except ConfigError Unit × FileTree :=
  match prepare tree path with
  | (.error failure, left) => (.error failure, left)
  | (.ok (), prepared) =>
    match library.write config.settings with
    | .error reason => (.error (.unwritable reason), prepared)
    | .ok text =>
      match prepared.write path (Text.utf8Bytes text) with
      | .error failure => (.error (.access path failure), prepared)
      | .ok written => (.ok (), written)

end KeyRelay.Config
