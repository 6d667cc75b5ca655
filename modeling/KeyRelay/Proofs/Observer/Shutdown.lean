import KeyRelay.Observer.Hub
import KeyRelay.Proofs.Observer.Table
import KeyRelay.Proofs.Server.Thread

/-! # Stopping the hub

A stop of the hub waits for the accept thread before it clears the table, so that no observer
is admitted behind it. -/
set_option autoImplicit false

namespace KeyRelay

namespace SubscriberTable

theorem isEmpty_iff {table : SubscriberTable} :
    table.isEmpty = true ↔ ∀ slot ∈ table.slots, slot = none := by
  rw [isEmpty, beq_iff_eq, length, List.countP_eq_zero]
  simp only [Bool.not_eq_true, Option.isSome_eq_false_iff, Option.isNone_iff_eq_none]

/-- A table that is empty stays so, whatever happens in its slots that takes no one in. -/
theorem isEmpty_map {table : SubscriberTable} (empty : table.isEmpty = true)
    {effect : Option Subscriber → Option Subscriber} (free : effect none = none) :
    isEmpty ⟨table.slots.map effect⟩ = true := by
  rw [isEmpty_iff] at empty ⊢
  intro slot member
  obtain ⟨before, present, rfl⟩ := List.mem_map.mp member
  rw [empty before present, free]

theorem isEmpty_clear (table : SubscriberTable) : table.clear.2.isEmpty = true := by
  rw [isEmpty, length_clear, beq_self_eq_true]

end SubscriberTable

namespace Hub

/-- What producers and far ends do to the table. -/
inductive Change
  | broadcast (event : Event)
  | adjust (number : Nat) (effect : Sink → Sink)

def change (table : SubscriberTable) : Change → SubscriberTable
  | .broadcast event =>
    match event.frame? with
    | none => table
    | some frame => (table.sendToAll frame).2.2
  | .adjust number effect => table.adjust number effect

/-- Takes in the connection, unless it cannot be made non-blocking or finds the table full.
What its writes are going to meet is not known before. -/
def enroll (outcomes : Option (List Acceptance)) (connection : Nat) (table : SubscriberTable) :
    SubscriberTable :=
  match outcomes with
  | none => table
  | some outcomes =>
    match table.insert ⟨connection, { outcomes }⟩ with
    | some (_, next) => next
    | none => table

/-- The hub, whose thread has one thing to do with a connection. -/
def service : Service SubscriberTable Nat (Option (List Acceptance)) Change where
  receive := id
  work := fun _ outcomes connection table => (none, enroll outcomes connection table)
  access := fun table => table.clear.2
  outside := fun what table => change table what
  stopSteps := [.wake, .join, .access, .unlink]
  joins := by decide

variable {server after : Server SubscriberTable Nat}

theorem isEmpty_change {table : SubscriberTable} (empty : table.isEmpty = true) (what : Change) :
    (change table what).isEmpty = true := by
  cases what with
  | broadcast event =>
    rw [change]
    split
    · exact empty
    · rw [SubscriberTable.sendToAll, SubscriberTable.offerEach_slots]
      exact SubscriberTable.isEmpty_map empty rfl
  | adjust number effect => exact SubscriberTable.isEmpty_map empty rfl

/-- Behind the access of a stop no one is in the table. -/
def Cleared (server : Server SubscriberTable Nat) : Prop :=
  ∀ left, server.stopper = some left → .access ∉ left → server.shared.isEmpty = true

/-- What is left of a stop behind its access is left behind its join too. -/
theorem join_of_access {left : List StopStep} (suffix : left <:+ service.stopSteps)
    (past : .access ∉ left) : .join ∉ left := by
  have order : ∀ left ∈ service.stopSteps.tails, .access ∉ left → StopStep.join ∉ left := by
    decide
  exact order left ((List.mem_tails left service.stopSteps).mpr suffix) past

theorem Cleared.step (cleared : Cleared server) (moves : service.Moves server after)
    (consistent : server.Consistent service) : Cleared after := by
  cases moves with
  | outside what =>
    intro left called past
    exact isEmpty_change (cleared left called past) what
  | work choice point done =>
    intro left called past
    have ended := consistent.joined left called (join_of_access (consistent.left _ called) past)
    rw [point] at ended
    cases ended
  | clear set =>
    intro left called past
    cases called
    exact absurd (by decide) past
  | access ahead =>
    intro left called past
    exact SubscriberTable.isEmpty_clear server.shared
  | pass waiting connected socketFile ahead accesses joins =>
    intro left called past
    cases called
    exact cleared _ ahead (List.not_mem_cons_of_ne_of_not_mem accesses.symm past)
  | join ahead done =>
    intro left called past
    cases called
    exact cleared _ ahead (List.not_mem_cons_of_ne_of_not_mem (by decide) past)
  | _ => exact cleared

/-- A hub whose accept thread has just been started. -/
def launch (capacity : Nat) : Server SubscriberTable Nat :=
  { shared := .ofCapacity capacity }

theorem reachable_launch (capacity : Nat)
    (turns : List (ServerTurn (Option (List Acceptance)) Change)) :
    (service.run (launch capacity) turns).Consistent service ∧
      Cleared (service.run (launch capacity) turns) := by
  refine Service.run_invariant (fun now => now.Consistent service ∧ Cleared now) ?_ turns ?_
  · intro server after moves ⟨consistent, cleared⟩
    exact ⟨consistent.step moves, cleared.step moves consistent⟩
  · exact ⟨Server.consistent_start service _, fun left called => by cases called⟩

/-- What can be seen of the hub from outside. -/
def view (server : Server SubscriberTable Nat) : Hub where
  table := server.shared
  running := server.running
  socketFile := server.socketFile

theorem view_enroll {connection : Nat} (point : server.thread = .working connection)
    (outcomes : List Acceptance) :
    view (service.turn server (.thread (some outcomes))) =
      ((view server).accept ⟨connection, { outcomes }⟩).2 := by
  simp only [Service.turn, Service.threadTurn, point, service, enroll, view, accept]
  cases server.shared.insert ⟨connection, { outcomes }⟩ with
  | some found => rfl
  | none => rfl

theorem view_broadcast (server : Server SubscriberTable Nat) (event : Event) :
    view (service.turn server (.outside (.broadcast event))) =
      ((view server).broadcast event).2 := by
  simp only [Service.turn, service, change, view, broadcast]
  cases event.frame? with
  | some frame => rfl
  | none => rfl

/-- With the flag cleared, the thread can end from wherever it stands. -/
theorem exists_drain (stopped : server.running = false) :
    ∃ turns, service.run server turns = { server with thread := .ended } := by
  obtain ⟨table, _, thread, waiting, connected, handle, stopper, file⟩ := server
  obtain rfl := stopped
  cases thread with
  | checking => exact ⟨[.thread none], rfl⟩
  | accepting => exact ⟨[.refuse, .thread none], rfl⟩
  | accepted connection => exact ⟨[.thread none], rfl⟩
  | refused => exact ⟨[.thread none], rfl⟩
  | working connection => exact ⟨[.thread none, .thread none], rfl⟩
  | ended => exact ⟨[], rfl⟩

/-- A stop can run to its end wherever the thread stands; then the hub is as a stop leaves it. -/
theorem exists_stop (server : Server SubscriberTable Nat) (set : server.running = true) :
    ∃ turns, let last := service.run server (.stop :: turns)
      last.stopper = some [] ∧ view last = (view server).stop.2 := by
  let woken : Server SubscriberTable Nat :=
    { server with running := false, stopper := some [.join, .access, .unlink] }
  have begun : service.run server [.stop, .proceed false] = woken := by
    simp only [Service.run, List.foldl_cons, List.foldl_nil, Service.turn, set]
    rfl
  have stopped : woken.running = false := rfl
  obtain ⟨turns, drained⟩ := exists_drain stopped
  refine ⟨[.proceed false] ++ (turns ++ [.proceed false, .proceed false, .proceed false]), ?_⟩
  rw [← List.cons_append, Service.run_append, begun, Service.run_append, drained]
  refine ⟨rfl, ?_⟩
  simp only [view, stop, set, if_pos]
  rfl

end Hub

end KeyRelay
