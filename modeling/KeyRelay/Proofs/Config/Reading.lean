import KeyRelay.Config.Document
import KeyRelay.Proofs.Toml.Laws

/-! # What is declared is read field by field

A field has what a reader makes of its value, or its default if there is none. It does not
matter what the other fields have. -/
set_option autoImplicit false

namespace KeyRelay.Config

open Toml (Library Value)

/-- A setting that is given, or its default. -/
def given? {α : Type} (read? : Value → Option α) (default : α) : Option Value → Option α
  | some value => read? value
  | none => some default

theorem given?_eq_some_iff {α : Type} {read? : Value → Option α} {default found : α}
    {value : Option Value} :
    given? read? default value = some found ↔
      (∀ given, value = some given → read? given = some found) ∧
        (value = none → found = default) := by
  cases value with
  | none => simp [given?, eq_comm]
  | some given => simp [given?]

/-- A field that has its default so far takes its value, if there is one. -/
theorem bind_member {α β γ : Type} {key : String} {read? : Value → Option β} {put : α → β → α}
    {record : α} (default : β) (unset : put record default = record) (value : Option Value)
    (next : α → Option γ) :
    (value.elim (some record) fun value => (Toml.Member.of key read? put).put? value record).bind
        next =
      (given? read? default value).bind fun found => next (put record found) := by
  cases value with
  | none => rw [given?, Option.bind_some, unset]; rfl
  | some value => exact Option.bind_map ..

section Declarations
variable {library : Library} {find? : Nat → String → Option Value}

theorem fill?_observer_iff {settings : ObserverSettings} :
    (observerDeclaration library).fill? find? = some settings ↔
      given? library.path? ({} : ObserverSettings).socketPath (find? 0 "socket_path") =
        some settings.socketPath ∧
      given? library.uint64? ({} : ObserverSettings).maxClients (find? 1 "max_clients") =
        some settings.maxClients := by
  have filled : (observerDeclaration library).fill? find? = do
      let socketPath ← given? library.path? ({} : ObserverSettings).socketPath
        (find? 0 "socket_path")
      let maxClients ← given? library.uint64? ({} : ObserverSettings).maxClients
        (find? 1 "max_clients")
      return { socketPath, maxClients } := by
    refine (bind_member ({} : ObserverSettings).socketPath rfl _ _).trans ?_
    refine congrArg _ (funext fun socketPath => ?_)
    exact bind_member ({} : ObserverSettings).maxClients rfl _ _
  simp only [filled, Option.bind_eq_bind, Option.bind_eq_some_iff, Option.pure_def,
    Option.some.injEq]
  constructor
  · rintro ⟨socketPath, readPath, maxClients, readClients, rfl⟩
    exact ⟨readPath, readClients⟩
  · rintro ⟨readPath, readClients⟩
    exact ⟨_, readPath, _, readClients, rfl⟩

theorem fill?_kscan_iff {settings : KscanSettings} :
    (kscanDeclaration library).fill? find? = some settings ↔
      given? library.path? ({} : KscanSettings).socketPath (find? 0 "socket_path") =
        some settings.socketPath ∧
      given? library.uint32? ({} : KscanSettings).rows (find? 1 "rows") = some settings.rows ∧
      given? library.uint32? ({} : KscanSettings).columns (find? 2 "columns") =
        some settings.columns := by
  have filled : (kscanDeclaration library).fill? find? = do
      let socketPath ← given? library.path? ({} : KscanSettings).socketPath
        (find? 0 "socket_path")
      let rows ← given? library.uint32? ({} : KscanSettings).rows (find? 1 "rows")
      let columns ← given? library.uint32? ({} : KscanSettings).columns (find? 2 "columns")
      return { socketPath, rows, columns } := by
    refine (bind_member ({} : KscanSettings).socketPath rfl _ _).trans ?_
    refine congrArg _ (funext fun socketPath => ?_)
    refine (bind_member ({} : KscanSettings).rows rfl _ _).trans ?_
    refine congrArg _ (funext fun rows => ?_)
    exact bind_member ({} : KscanSettings).columns rfl _ _
  simp only [filled, Option.bind_eq_bind, Option.bind_eq_some_iff, Option.pure_def,
    Option.some.injEq]
  constructor
  · rintro ⟨socketPath, readPath, rows, readRows, columns, readColumns, rfl⟩
    exact ⟨readPath, readRows, readColumns⟩
  · rintro ⟨readPath, readRows, readColumns⟩
    exact ⟨_, readPath, _, readRows, _, readColumns, rfl⟩

theorem fill?_config_iff {config : Config} :
    (declaration library).fill? find? = some config ↔
      given? library.string? ({} : Config).logLevel (find? 0 "log_level") =
        some config.logLevel ∧
      given? (library.record? (observerDeclaration library)) {} (find? 1 "observer") =
        some config.observer ∧
      given? (library.record? (kscanDeclaration library)) {} (find? 2 "kscan") =
        some config.kscan := by
  have filled : (declaration library).fill? find? = do
      let logLevel ← given? library.string? ({} : Config).logLevel (find? 0 "log_level")
      let observer ← given? (library.record? (observerDeclaration library)) {} (find? 1 "observer")
      let kscan ← given? (library.record? (kscanDeclaration library)) {} (find? 2 "kscan")
      return { logLevel, observer, kscan } := by
    refine (bind_member ({} : Config).logLevel rfl _ _).trans ?_
    refine congrArg _ (funext fun logLevel => ?_)
    refine (bind_member ({} : ObserverSettings) rfl _ _).trans ?_
    refine congrArg _ (funext fun observer => ?_)
    exact bind_member ({} : KscanSettings) rfl _ _
  simp only [filled, Option.bind_eq_bind, Option.bind_eq_some_iff, Option.pure_def,
    Option.some.injEq]
  constructor
  · rintro ⟨logLevel, readLevel, observer, readObserver, kscan, readKscan, rfl⟩
    exact ⟨readLevel, readObserver, readKscan⟩
  · rintro ⟨readLevel, readObserver, readKscan⟩
    exact ⟨_, readLevel, _, readObserver, _, readKscan, rfl⟩

end Declarations

end KeyRelay.Config
