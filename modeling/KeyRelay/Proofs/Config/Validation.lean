import KeyRelay.CommandLine.RelayStart
import KeyRelay.Proofs.Files.Spelling

/-! # Which configurations are accepted

The two sockets of an accepted configuration are different paths by their components. That
tells apart all spellings but one: a dot at the very front of a relative path is a component,
so two paths of which only one begins with a dot are accepted even where both lead to one
place. The second server then removes the socket of the first. -/
set_option autoImplicit false

namespace KeyRelay.Config

theorem validate_eq_ok_iff {config : Config} :
    config.validate = .ok () ↔ config.observer.maxClients ≠ 0 ∧
      ¬Path.Same config.observer.socketPath config.kscan.socketPath := by
  rw [validate]
  split
  next none => simp [none]
  next some =>
    split
    next same => simp [same]
    next apart => simp [some, apart]

/-- A configuration is accepted if and only if it has room for an observer and its socket paths
have different clean forms, or the same and only one of them begins with a dot. Paths of one
clean form that lead anywhere lead to the same place. -/
theorem accepted_iff_spelled_apart (config : Config) (tree : FileTree) :
    (config.validate = .ok () ↔ 1 ≤ config.observer.maxClients.toNat ∧
      (config.observer.socketPath.cleaned = config.kscan.socketPath.cleaned →
        ¬(config.observer.socketPath.BeginsWithDot ↔
          config.kscan.socketPath.BeginsWithDot))) ∧
    ∀ first second, config.observer.socketPath.cleaned = config.kscan.socketPath.cleaned →
      tree.resolve config.observer.socketPath = .ok first →
      tree.resolve config.kscan.socketPath = .ok second → first = second := by
  constructor
  · have room : config.observer.maxClients ≠ 0 ↔ 1 ≤ config.observer.maxClients.toNat := by
      rw [Nat.one_le_iff_ne_zero, ne_eq, ne_eq, ← UInt64.toNat_inj]
      rfl
    rw [validate_eq_ok_iff, Path.same_iff, room, not_and]
  · intro first second
    exact FileTree.place_of_cleaned

/-- Only the first path begins with a dot. -/
theorem accepted_iff_spelled_apart_dotted :
    (⟨"info", ⟨.ofString ".//s", 4⟩, ⟨.ofString "s", 4, 12⟩⟩ : Config).validate = .ok () ∧
    (Path.ofString ".//s").cleaned = (Path.ofString "s").cleaned ∧
    ¬((Path.ofString ".//s").BeginsWithDot ↔ (Path.ofString "s").BeginsWithDot) ∧
    ({} : FileTree).resolve (.ofString ".//s") = .ok [[0x73]] ∧
    ∀ place, ({} : FileTree).resolve (.ofString "s") = .ok place → [[0x73]] = place := by
  obtain ⟨accepted, together⟩ := accepted_iff_spelled_apart
    ⟨"info", ⟨.ofString ".//s", 4⟩, ⟨.ofString "s", 4, 12⟩⟩ {}
  exact ⟨rfl, rfl, (accepted.mp rfl).2 rfl, rfl, fun place => together [[0x73]] place rfl rfl⟩

/-- Both servers start, but there is one socket: the second has taken the place of the first. -/
theorem dotted_socket_replaced :
    (⟨"info", ⟨.ofString "./s", 4⟩, ⟨.ofString "s", 4, 12⟩⟩ : Config).validate = .ok () ∧
    (Path.ofString "./s").cleaned = (Path.ofString "s").cleaned ∧
    CommandLine.openSockets ⟨"info", ⟨.ofString "./s", 4⟩, ⟨.ofString "s", 4, 12⟩⟩ {} =
      (.ok (), { entries := [([[0x73]], .socket)] }) :=
  ⟨rfl, rfl, rfl⟩

end KeyRelay.Config
