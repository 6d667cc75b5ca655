import KeyRelay.Proofs.Device.Shutdown
import KeyRelay.Proofs.Observer.Shutdown

/-! # What a stop leaves behind

Whatever the order in which a stop, the server thread and the clients take their turns, the
command server reads on no connection that a stop has looked past, and a server whose stop has
returned holds no one. -/
set_option autoImplicit false

namespace KeyRelay

/-- Once a stop of the command server has looked at the held connection, the thread reads, now
or later, only what has been shut by now; once the stop that cleared the flag has returned,
nothing is held ever after, and the table of a hub is empty. -/
theorem stop_outlasts_reader :
    (∀ (κ : Type) (react : Call κ → List (DeviceChange κ)) (geometry : Geometry)
      (device : Device κ) (turns later : List (ServerTurn Source (DeviceChange κ))),
      let service := CommandServer.service react geometry
      let now := service.run (CommandServer.launch device) turns
      let last := service.run now later
      (∀ left connection, now.stopper = some left → .access ∉ left →
        last.thread = .working (.read connection) → connection ∈ now.shared.shut) ∧
      (now.stopper = some [] → last.shared.held = none)) ∧
    ∀ (capacity : Nat) (turns later : List (ServerTurn (Option (List Acceptance)) Hub.Change)),
      let now := Hub.service.run (Hub.launch capacity) turns
      now.stopper = some [] → (Hub.service.run now later).shared.isEmpty = true := by
  constructor
  · intro κ react geometry device turns later service now last
    obtain ⟨consistent, guarded⟩ := CommandServer.reachable_launch react geometry device turns
    refine ⟨?_, ?_⟩
    · intro left connection called past reads
      exact CommandServer.shut_of_reads consistent guarded called past later reads
    · intro returned
      obtain ⟨lastConsistent, lastGuarded⟩ :=
        CommandServer.reachable_launch react geometry device (turns ++ later)
      rw [Service.run_append] at lastConsistent lastGuarded
      exact CommandServer.held_of_returned lastConsistent lastGuarded
        (consistent.returned returned later)
  · intro capacity turns later now returned
    obtain ⟨consistent, _⟩ := Hub.reachable_launch capacity turns
    obtain ⟨_, cleared⟩ := Hub.reachable_launch capacity (turns ++ later)
    rw [Service.run_append] at cleared
    exact cleared [] (consistent.returned returned later) (by simp)

/-- A client is published when the stop begins, and is read behind its look; another one is
published only behind it, and is never read. The hub has an observer when it is stopped. -/
theorem stop_outlasts_reader_crossed :
    let service := CommandServer.service (fun _ : Call Unit => []) ⟨4, 4⟩
    let reading := service.run (CommandServer.launch {})
      [.connect, .thread [], .thread [], .thread [], .thread [], .thread [], .stop,
        .proceed false]
    let stopped := service.run (CommandServer.launch {})
      [.connect, .thread [], .thread [], .thread [], .stop, .proceed false, .proceed true,
        .thread [], .thread [], .thread [], .thread [], .proceed false, .proceed false]
    let cleared := Hub.service.run (Hub.launch 1)
      [.connect, .thread none, .thread none, .thread none, .thread (some []), .stop,
        .proceed false, .thread none, .proceed false, .proceed false, .proceed false]
    (service.run reading [.thread [.chunk [0, 0, 0, 0]]]).thread = .working (.read 0) ∧
    0 ∈ reading.shared.shut ∧ stopped.stopper = some [] ∧ stopped.shared.shut = [] ∧
    (service.run stopped [.connect, .thread []]).shared.held = none ∧
    cleared.stopper = some [] ∧
    (Hub.service.run cleared [.outside (.broadcast (.kscan {})), .connect]).shared.isEmpty =
      true := by
  intro service reading stopped cleared
  have reads : (service.run reading [.thread [.chunk [0, 0, 0, 0]]]).thread =
      .working (.read 0) := by
    decide +kernel
  have returned : stopped.stopper = some [] := by decide +kernel
  have hubReturned : cleared.stopper = some [] := by decide +kernel
  refine ⟨reads, ?_, returned, by decide +kernel, ?_, hubReturned, ?_⟩
  · exact (stop_outlasts_reader.1 _ _ _ _ _ _).1 [.wake, .join, .unlink] 0 (by decide +kernel)
      (by decide) reads
  · exact (stop_outlasts_reader.1 _ _ _ _ _ _).2 returned
  · exact stop_outlasts_reader.2 _ _ _ hubReturned

end KeyRelay
