import Mathlib.Data.List.Infix

/-! # A server thread and the call that stops it

A server is stopped by a call on another thread, and clients come at any time. Their turns are
single looks at the running flag, single accesses to what both threads share, accepts, and the
end of the thread; they come in any order, and whoever cannot go on lets its turn pass.

The thread looks at the flag before it accepts, when it has a connection and when accepting
failed. Of all calls to stop, the one that finds the flag set clears it and goes on; the others
return at once. What is done with a connection, and what a stop does to what is shared, differs
from server to server. -/
set_option autoImplicit false

namespace KeyRelay

/-- What the call that cleared the flag still has to do. -/
inductive StopStep
  /-- Close what the server holds. -/
  | access
  /-- Make a pending accept return. -/
  | wake
  /-- Wait until the thread has ended. -/
  | join
  /-- Remove the socket file. -/
  | unlink
  deriving DecidableEq, Repr

/-- Where the server thread stands, by what it does next. -/
inductive ThreadPoint (τ : Type)
  | checking
  | accepting
  /-- It looks at the flag again before it takes the connection. -/
  | accepted (connection : Nat)
  /-- Accepting failed, and it looks at the flag before it tries again. -/
  | refused
  | working (task : τ)
  | ended
  deriving DecidableEq, Repr

def ThreadPoint.isEnded {τ : Type} : ThreadPoint τ → Bool
  | .ended => true
  | _ => false

theorem ThreadPoint.isEnded_iff {τ : Type} {point : ThreadPoint τ} :
    point.isEnded = true ↔ point = .ended := by
  cases point <;> simp [isEnded]

/-- A kind of server, with shared data `σ` and tasks `τ` for its connections. -/
structure Service (σ τ χ ω : Type) where
  /-- The task for a connection that was taken. -/
  receive : Nat → τ
  /-- One turn at a task, with the flag, what is met and the shared data; gives what is still
  to be done. -/
  work : Bool → χ → τ → σ → Option τ × σ
  access : σ → σ
  /-- What others do to the shared data. -/
  outside : ω → σ → σ
  stopSteps : List StopStep
  joins : StopStep.join ∈ stopSteps

structure Server (σ τ : Type) where
  shared : σ
  running : Bool := true
  thread : ThreadPoint τ := .checking
  /-- The connections that are not accepted yet. -/
  waiting : List Nat := []
  /-- How many connections came so far, which is the number of the next one. -/
  connected : Nat := 0
  /-- No one has joined the thread yet. -/
  handle : Bool := true
  /-- The call that cleared the flag, with what it still has to do. -/
  stopper : Option (List StopStep) := none
  socketFile : Bool := true
  deriving DecidableEq, Repr

inductive ServerTurn (χ ω : Type)
  | connect
  /-- The thread goes on. -/
  | thread (choice : χ)
  /-- The accept that the thread waits in fails. -/
  | refuse
  /-- Someone calls to stop the server. -/
  | stop
  /-- The call that cleared the flag goes on; its wake-up connection may get through. -/
  | proceed (reached : Bool)
  /-- The socket file is removed underneath the server. -/
  | removeFile
  | outside (change : ω)

section Turns

variable {σ τ χ ω : Type}

def Server.connect (server : Server σ τ) : Server σ τ :=
  if server.socketFile then
    { server with
      waiting := server.waiting ++ [server.connected]
      connected := server.connected + 1 }
  else server

theorem Server.connect_eq (server : Server σ τ) :
    ∃ waiting connected, server.connect = { server with waiting, connected } := by
  rw [connect]
  split
  · exact ⟨_, _, rfl⟩
  · exact ⟨server.waiting, server.connected, rfl⟩

namespace Service

def threadTurn (service : Service σ τ χ ω) (choice : χ) (server : Server σ τ) : Server σ τ :=
  match server.thread with
  | .checking => { server with thread := if server.running then .accepting else .ended }
  | .accepting =>
    match server.waiting with
    | [] => server
    | first :: rest => { server with thread := .accepted first, waiting := rest }
  | .accepted connection =>
    { server with
      thread := if server.running then .working (service.receive connection) else .ended }
  | .refused => { server with thread := if server.running then .checking else .ended }
  | .working task =>
    let (next, shared) := service.work server.running choice task server.shared
    { server with shared, thread := (next.map .working).getD .checking }
  | .ended => server

def stopTurn (service : Service σ τ χ ω) (reached : Bool) (server : Server σ τ) : Server σ τ :=
  match server.stopper with
  | some (.access :: rest) =>
    { server with shared := service.access server.shared, stopper := some rest }
  | some (.wake :: rest) =>
    { (if reached then server.connect else server) with stopper := some rest }
  | some (.join :: rest) =>
    if !server.thread.isEnded && server.handle then server
    else { server with handle := false, stopper := some rest }
  | some (.unlink :: rest) => { server with socketFile := false, stopper := some rest }
  | some [] | none => server

def turn (service : Service σ τ χ ω) (server : Server σ τ) : ServerTurn χ ω → Server σ τ
  | .connect => server.connect
  | .thread choice => service.threadTurn choice server
  | .refuse =>
    match server.thread with
    | .accepting => { server with thread := .refused }
    | _ => server
  | .stop =>
    if server.running then { server with running := false, stopper := some service.stopSteps }
    else server
  | .proceed reached => service.stopTurn reached server
  | .removeFile => { server with socketFile := false }
  | .outside change => { server with shared := service.outside change server.shared }

def run (service : Service σ τ χ ω) (server : Server σ τ) (turns : List (ServerTurn χ ω)) :
    Server σ τ :=
  turns.foldl service.turn server

theorem run_append (service : Service σ τ χ ω) (server : Server σ τ)
    (first rest : List (ServerTurn χ ω)) :
    service.run server (first ++ rest) = service.run (service.run server first) rest :=
  List.foldl_append

/-- What a turn can do. -/
inductive Moves (service : Service σ τ χ ω) (server : Server σ τ) : Server σ τ → Prop
  | aside (waiting : List Nat) (connected : Nat) (socketFile : Bool) :
      Moves service server { server with waiting, connected, socketFile }
  | outside (change : ω) :
      Moves service server { server with shared := service.outside change server.shared }
  | check (point : server.thread = .checking) :
      Moves service server
        { server with thread := if server.running then .accepting else .ended }
  | accept {first : Nat} (rest : List Nat) (point : server.thread = .accepting) :
      Moves service server { server with thread := .accepted first, waiting := rest }
  | refuse (point : server.thread = .accepting) :
      Moves service server { server with thread := .refused }
  | take {connection : Nat} (point : server.thread = .accepted connection) :
      Moves service server
        { server with
          thread := if server.running then .working (service.receive connection) else .ended }
  | retry (point : server.thread = .refused) :
      Moves service server
        { server with thread := if server.running then .checking else .ended }
  | work {task : τ} {next : Option τ} {shared : σ} (choice : χ)
      (point : server.thread = .working task)
      (done : service.work server.running choice task server.shared = (next, shared)) :
      Moves service server
        { server with shared, thread := (next.map .working).getD .checking }
  | clear (set : server.running = true) :
      Moves service server { server with running := false, stopper := some service.stopSteps }
  | access {rest : List StopStep} (ahead : server.stopper = some (.access :: rest)) :
      Moves service server
        { server with shared := service.access server.shared, stopper := some rest }
  | pass {step : StopStep} {rest : List StopStep} (waiting : List Nat) (connected : Nat)
      (socketFile : Bool) (ahead : server.stopper = some (step :: rest))
      (accesses : step ≠ .access) (joins : step ≠ .join) :
      Moves service server
        { server with waiting, connected, socketFile, stopper := some rest }
  | join {rest : List StopStep} (ahead : server.stopper = some (.join :: rest))
      (done : server.handle = false ∨ server.thread = .ended) :
      Moves service server { server with handle := false, stopper := some rest }

variable {service : Service σ τ χ ω} {server after : Server σ τ}

theorem moves_self (service : Service σ τ χ ω) (server : Server σ τ) :
    service.Moves server server :=
  .aside server.waiting server.connected server.socketFile

theorem moves_threadTurn (service : Service σ τ χ ω) (server : Server σ τ) (choice : χ) :
    service.Moves server (service.threadTurn choice server) := by
  rw [threadTurn]
  split
  next point => exact .check point
  next point =>
    split
    · exact service.moves_self server
    · exact .accept _ point
  next point => exact .take point
  next point => exact .retry point
  next point => exact .work choice point rfl
  next => exact service.moves_self server

theorem moves_stopTurn (service : Service σ τ χ ω) (server : Server σ τ) (reached : Bool) :
    service.Moves server (service.stopTurn reached server) := by
  rw [stopTurn]
  split
  next ahead => exact .access ahead
  next ahead =>
    split
    · obtain ⟨waiting, connected, connects⟩ := server.connect_eq
      rw [connects]
      exact .pass waiting connected server.socketFile ahead (by decide) (by decide)
    · exact .pass server.waiting server.connected server.socketFile ahead (by decide) (by decide)
  next ahead =>
    split
    · exact service.moves_self server
    next free =>
      refine .join ahead ?_
      rw [← ThreadPoint.isEnded_iff]
      cases handle : server.handle
      · exact .inl rfl
      · exact .inr (by simpa [handle] using free)
  next ahead =>
    exact .pass server.waiting server.connected false ahead (by decide) (by decide)
  next => exact service.moves_self server
  next => exact service.moves_self server

theorem moves_turn (service : Service σ τ χ ω) (server : Server σ τ) (next : ServerTurn χ ω) :
    service.Moves server (service.turn server next) := by
  cases next with
  | connect =>
    obtain ⟨waiting, connected, connects⟩ := server.connect_eq
    rw [turn, connects]
    exact .aside waiting connected server.socketFile
  | thread choice => exact service.moves_threadTurn server choice
  | refuse =>
    rw [turn]
    split
    next point => exact .refuse point
    next => exact service.moves_self server
  | stop =>
    rw [turn]
    split
    next set => exact .clear set
    next => exact service.moves_self server
  | proceed reached => exact service.moves_stopTurn server reached
  | removeFile => exact .aside server.waiting server.connected false
  | outside change => exact .outside change

/-- What every move preserves, every run preserves. -/
theorem run_invariant (holds : Server σ τ → Prop)
    (step : ∀ server after, service.Moves server after → holds server → holds after)
    (turns : List (ServerTurn χ ω)) (before : holds server) : holds (service.run server turns) := by
  induction turns generalizing server with
  | nil => exact before
  | cons next rest ih => exact ih (step _ _ (service.moves_turn server next) before)

end Service

/-- The flag and the call that cleared it agree, and behind a join the thread has ended. -/
structure Server.Consistent (service : Service σ τ χ ω) (server : Server σ τ) : Prop where
  flag : server.running = server.stopper.isNone
  left : ∀ left, server.stopper = some left → left <:+ service.stopSteps
  handle : server.handle = false → server.thread = .ended
  joined : ∀ left, server.stopper = some left → .join ∉ left → server.thread = .ended

namespace Server

variable {service : Service σ τ χ ω} {server after : Server σ τ}

theorem consistent_start (service : Service σ τ χ ω) (shared : σ) :
    Consistent service { shared } where
  flag := rfl
  left := fun _ called => by cases called
  handle := fun joined => by cases joined
  joined := fun _ called => by cases called

namespace Consistent

/-- A thread that has not ended may go anywhere: no one has joined it. -/
theorem move_thread (consistent : Consistent service server) (alive : server.thread ≠ .ended)
    (thread : ThreadPoint τ) (shared : σ) (waiting : List Nat) :
    Consistent service { server with thread, shared, waiting } where
  flag := consistent.flag
  left := consistent.left
  handle := fun joined => absurd (consistent.handle joined) alive
  joined := fun left called past => absurd (consistent.joined left called past) alive

theorem stopped (consistent : Consistent service server) {left : List StopStep}
    (called : server.stopper = some left) : server.running = false := by
  rw [consistent.flag, called]
  rfl

theorem left_of_cons {step : StopStep} {rest : List StopStep}
    (consistent : Consistent service server) (ahead : server.stopper = some (step :: rest)) :
    ∀ left, some rest = some left → left <:+ service.stopSteps := by
  intro left called
  cases called
  exact (List.suffix_cons step rest).trans (consistent.left _ ahead)

theorem joined_of_cons {step : StopStep} {rest : List StopStep}
    (consistent : Consistent service server) (ahead : server.stopper = some (step :: rest))
    (other : step ≠ .join) :
    ∀ left, some rest = some left → .join ∉ left → server.thread = .ended := by
  intro left called past
  cases called
  exact consistent.joined _ ahead (List.not_mem_cons_of_ne_of_not_mem other.symm past)

theorem step (consistent : Consistent service server) (moves : service.Moves server after) :
    Consistent service after := by
  cases moves with
  | aside waiting connected socketFile =>
    exact ⟨consistent.flag, consistent.left, consistent.handle, consistent.joined⟩
  | outside change =>
    exact ⟨consistent.flag, consistent.left, consistent.handle, consistent.joined⟩
  | check point => exact consistent.move_thread (by simp [point]) _ _ _
  | accept rest point => exact consistent.move_thread (by simp [point]) _ _ _
  | refuse point => exact consistent.move_thread (by simp [point]) _ _ _
  | take point => exact consistent.move_thread (by simp [point]) _ _ _
  | retry point => exact consistent.move_thread (by simp [point]) _ _ _
  | work choice point done => exact consistent.move_thread (by simp [point]) _ _ _
  | clear set =>
    refine ⟨rfl, ?_, consistent.handle, ?_⟩
    · intro left called
      cases called
      exact List.suffix_refl _
    · intro left called past
      cases called
      exact absurd service.joins past
  | access ahead =>
    exact ⟨consistent.stopped ahead, consistent.left_of_cons ahead, consistent.handle,
      consistent.joined_of_cons ahead (by decide)⟩
  | pass waiting connected socketFile ahead accesses joins =>
    exact ⟨consistent.stopped ahead, consistent.left_of_cons ahead, consistent.handle,
      consistent.joined_of_cons ahead joins⟩
  | join ahead done =>
    have ended : server.thread = .ended := done.elim consistent.handle id
    exact ⟨consistent.stopped ahead, consistent.left_of_cons ahead, fun _ => ended,
      fun _ _ _ => ended⟩

theorem ended (consistent : Consistent service server) (returned : server.stopper = some []) :
    server.thread = .ended :=
  consistent.joined [] returned (by simp)

end Consistent

/-- Once someone has cleared the flag, it stays cleared. -/
theorem stopped_of_moves (moves : service.Moves server after) (stopped : server.running = false) :
    after.running = false := by
  cases moves with
  | clear set => rfl
  | _ => exact stopped

theorem returned_of_moves (moves : service.Moves server after)
    (returned : server.stopper = some [] ∧ server.running = false) :
    after.stopper = some [] ∧ after.running = false := by
  obtain ⟨empty, stopped⟩ := returned
  cases moves with
  | clear set => simp [stopped] at set
  | access ahead => simp [empty] at ahead
  | pass waiting connected socketFile ahead accesses joins => simp [empty] at ahead
  | join ahead done => simp [empty] at ahead
  | _ => exact ⟨empty, stopped⟩

/-- A stop that has returned does not go on, and no other one begins. -/
theorem Consistent.returned (consistent : Consistent service server)
    (returned : server.stopper = some []) (turns : List (ServerTurn χ ω)) :
    (service.run server turns).stopper = some [] :=
  (Service.run_invariant _ (fun _ _ => returned_of_moves) turns
    ⟨returned, consistent.stopped returned⟩).1

end Server

end Turns

end KeyRelay
