import KeyRelay.Config.Basic
import KeyRelay.Toml.Library

/-! # The configuration as a document

A document sets any part of the configuration. The settings of either side are in
a section of their own, and what the document leaves out has its default. When a
configuration is written, all settings are, in the order in which they are
declared. -/
set_option autoImplicit false

namespace KeyRelay.Config

open Toml (Declaration Library Settings)

def observerDeclaration (library : Library) : Declaration ObserverSettings where
  defaults := {}
  members := [
    .of "socket_path" library.path? fun settings socketPath => { settings with socketPath },
    .of "max_clients" library.uint64? fun settings maxClients => { settings with maxClients }]

def kscanDeclaration (library : Library) : Declaration KscanSettings where
  defaults := {}
  members := [
    .of "socket_path" library.path? fun settings socketPath => { settings with socketPath },
    .of "rows" library.uint32? fun settings rows => { settings with rows },
    .of "columns" library.uint32? fun settings columns => { settings with columns }]

def declaration (library : Library) : Declaration Config where
  defaults := {}
  members := [
    .of "log_level" library.string? fun config logLevel => { config with logLevel },
    .of "observer" (library.record? (observerDeclaration library)) fun config observer =>
      { config with observer },
    .of "kscan" (library.record? (kscanDeclaration library)) fun config kscan =>
      { config with kscan }]

def parse? (library : Library) (text : String) : Option Config := do
  library.record? (declaration library) (.table (← library.parse? text))

def settings (config : Config) : Settings where
  top := [("log_level", .text config.logLevel)]
  sections := [
    ⟨"observer", [
      ("socket_path", .path config.observer.socketPath),
      ("max_clients", .number config.observer.maxClients.toNat)]⟩,
    ⟨"kscan", [
      ("socket_path", .path config.kscan.socketPath),
      ("rows", .number config.kscan.rows.toNat),
      ("columns", .number config.kscan.columns.toNat)]⟩]

end KeyRelay.Config
