import KeyRelay.Device.CommandServer
import KeyRelay.Proofs.Device.Ingestion
import KeyRelay.Proofs.Server.Thread

/-! # Stopping the command server

The thread publishes its connection before it looks at the flag and reads, and a stop clears
the flag before it looks for a connection to shut. Whichever comes first, one sees the other,
so that no read outlasts the stop. -/
set_option autoImplicit false

namespace KeyRelay

namespace CommandServer

/-- What the thread still does with its connection. -/
inductive Task
  | publish (connection : Nat)
  /-- It looks at the flag before it reads. -/
  | check (connection : Nat)
  | read (connection : Nat)
  | withdraw (connection : Nat)
  deriving DecidableEq, Repr

/-- What the thread and the others share, and the calls that were made. -/
structure Shared (κ : Type) where
  device : Device κ := {}
  calls : List (Call κ) := []
  held : Option Nat := none
  /-- The connections that were shut. -/
  shut : List Nat := []
  deriving DecidableEq, Repr

section Service

variable {κ : Type}

/-- Reads one frame of what the connection holds; a frame that cannot be read ends the reading. -/
def readFrame (react : Call κ → List (DeviceChange κ)) (geometry : Geometry) (source : Source)
    (shared : Shared κ) : Bool × Shared κ :=
  match Frame.receive source Size.command with
  | (.error _, _) => (false, shared)
  | (.ok payload, _) =>
    match Command.decode payload with
    | .error _ => (true, shared)
    | .ok command =>
      let dispatched := command.dispatch react geometry shared.device
      (true, { shared with
        device := dispatched.device
        calls := shared.calls ++ dispatched.calls })

def work (react : Call κ → List (DeviceChange κ)) (geometry : Geometry) (running : Bool)
    (source : Source) (task : Task) (shared : Shared κ) : Option Task × Shared κ :=
  match task with
  | .publish connection => (some (.check connection), { shared with held := some connection })
  | .check connection =>
    (some (if running then .read connection else .withdraw connection), shared)
  | .read connection =>
    let (more, next) := readFrame react geometry source shared
    (some (if more then .read connection else .withdraw connection), next)
  | .withdraw _ => (none, { shared with held := none })

/-- Shuts the connection that is held, if any is. -/
def Shared.shutHeld (shared : Shared κ) : Shared κ :=
  { shared with shut := shared.held.toList ++ shared.shut }

/-- The command server; others may change its device. -/
def service (react : Call κ → List (DeviceChange κ)) (geometry : Geometry) :
    Service (Shared κ) Task Source (DeviceChange κ) where
  receive := .publish
  work := work react geometry
  access := Shared.shutHeld
  outside := fun change shared => { shared with device := shared.device.change change }
  stopSteps := [.access, .wake, .join, .unlink]
  joins := by decide

/-- The connection that the thread has published. -/
def published : ThreadPoint Task → Option Nat
  | .working (.check connection) | .working (.read connection)
  | .working (.withdraw connection) => some connection
  | _ => none

/-- What is held is what the thread has published; what it reads behind the access of a stop is
shut. -/
structure Guarded (server : Server (Shared κ) Task) : Prop where
  held : server.shared.held = published server.thread
  shut : ∀ left, server.stopper = some left → .access ∉ left →
    ∀ connection, server.thread = .working (.read connection) → connection ∈ server.shared.shut

variable {react : Call κ → List (DeviceChange κ)} {geometry : Geometry}
  {server after : Server (Shared κ) Task}

theorem work_read (react : Call κ → List (DeviceChange κ)) (geometry : Geometry) (running : Bool)
    (source : Source) (connection : Nat) (shared : Shared κ) :
    work react geometry running source (.read connection) shared =
      (some (.withdraw connection), shared) ∨
    ∃ device calls, work react geometry running source (.read connection) shared =
      (some (.read connection), { shared with device, calls }) := by
  unfold work readFrame
  rcases Frame.receive source Size.command with ⟨outcome, rest⟩
  cases outcome with
  | error failure => exact .inl rfl
  | ok payload =>
    dsimp only
    cases Command.decode payload with
    | error failure => exact .inr ⟨_, _, rfl⟩
    | ok command => exact .inr ⟨_, _, rfl⟩

/-- A cleared flag keeps the thread from reading, unless it reads already. -/
theorem reads_of_moves (moves : (service react geometry).Moves server after)
    (stopped : server.running = false) {connection : Nat}
    (reads : after.thread = .working (.read connection)) :
    server.thread = .working (.read connection) := by
  cases moves with
  | check point => simp [stopped] at reads
  | accept rest point => simp at reads
  | refuse point => simp at reads
  | take point => simp [stopped] at reads
  | retry point => simp [stopped] at reads
  | @work task next shared choice point done =>
    cases task with
    | publish number =>
      cases done
      simp at reads
    | check number =>
      cases done
      simp [stopped] at reads
    | read number =>
      rcases work_read react geometry server.running choice number server.shared with
        ended | ⟨device, calls, more⟩
      · cases ended.symm.trans done
        simp at reads
      · cases more.symm.trans done
        simpa [point] using reads
    | withdraw number =>
      cases done
      simp at reads
  | _ => exact reads

theorem guarded_start (device : Device κ) : Guarded { shared := { device } } where
  held := rfl
  shut := fun _ called => by cases called

theorem Guarded.idle (held : after.shared.held = published after.thread)
    (idle : ∀ connection, after.thread ≠ .working (.read connection)) : Guarded after :=
  ⟨held, fun _ _ _ connection reads => absurd reads (idle connection)⟩

/-- A thread that has published nothing reads nothing. -/
theorem Guarded.unpublished (held : after.shared.held = none)
    (none : published after.thread = none) : Guarded after := by
  refine .idle (held.trans none.symm) ?_
  intro connection reads
  rw [reads] at none
  cases none

/-- A task that its thread goes on with keeps to this, with the flag set or cleared. -/
theorem Guarded.work {task : Task} {next : Option Task} {shared : Shared κ} {source : Source}
    (guarded : Guarded server) (consistent : server.Consistent (service react geometry))
    (point : server.thread = .working task)
    (done : CommandServer.work react geometry server.running source task server.shared =
      (next, shared)) :
    Guarded { server with shared, thread := (next.map .working).getD .checking } := by
  obtain ⟨held, shut⟩ := guarded
  rw [point] at held
  cases task with
  | publish connection =>
    cases done
    exact .idle rfl (by simp)
  | check connection =>
    cases done
    cases flag : server.running with
    | true =>
      -- A flag that is still set means that no stop has begun.
      refine ⟨held, fun left called => ?_⟩
      rw [consistent.stopped called] at flag
      cases flag
    | false => exact .idle held (by simp)
  | read connection =>
    rcases work_read react geometry server.running source connection server.shared with
      ended | ⟨device, calls, more⟩
    · cases ended.symm.trans done
      exact .idle held (by simp)
    · cases more.symm.trans done
      exact ⟨held, fun left called past other reads =>
        shut left called past other (point.trans reads)⟩
  | withdraw connection =>
    cases done
    exact .unpublished rfl rfl

theorem Guarded.step (guarded : Guarded server)
    (moves : (service react geometry).Moves server after)
    (consistent : server.Consistent (service react geometry)) : Guarded after := by
  have held := guarded.held
  cases moves with
  | aside waiting connected socketFile => exact ⟨held, guarded.shut⟩
  | outside change => exact ⟨held, guarded.shut⟩
  | check point =>
    rw [point] at held
    exact .unpublished held (by dsimp only; split <;> rfl)
  | accept rest point =>
    rw [point] at held
    exact .unpublished held rfl
  | refuse point =>
    rw [point] at held
    exact .unpublished held rfl
  | take point =>
    rw [point] at held
    exact .unpublished held (by dsimp only; split <;> rfl)
  | retry point =>
    rw [point] at held
    exact .unpublished held (by dsimp only; split <;> rfl)
  | work choice point done => exact guarded.work consistent point done
  | clear set =>
    refine ⟨held, fun left called past => ?_⟩
    cases called
    exact absurd List.mem_cons_self past
  | access ahead =>
    refine ⟨held, fun left called past connection reads => ?_⟩
    have found : server.shared.held = some connection := by
      rw [held]
      exact congrArg published reads
    simp [service, Shared.shutHeld, found]
  | pass waiting connected socketFile ahead accesses joins =>
    refine ⟨held, fun left called past => ?_⟩
    cases called
    exact guarded.shut _ ahead (List.not_mem_cons_of_ne_of_not_mem accesses.symm past)
  | join ahead done =>
    refine ⟨held, fun left called past => ?_⟩
    cases called
    exact guarded.shut _ ahead (List.not_mem_cons_of_ne_of_not_mem (by decide) past)

theorem reads_of_run (stopped : server.running = false) {connection : Nat}
    (turns : List (ServerTurn Source (DeviceChange κ)))
    (reads : ((service react geometry).run server turns).thread = .working (.read connection)) :
    server.thread = .working (.read connection) := by
  induction turns generalizing server with
  | nil => exact reads
  | cons next rest ih =>
    have moves := (service react geometry).moves_turn server next
    exact reads_of_moves moves stopped (ih (Server.stopped_of_moves moves stopped) reads)

/-- A command server whose thread has just been started. -/
def launch (device : Device κ) : Server (Shared κ) Task :=
  { shared := { device } }

theorem reachable_launch (react : Call κ → List (DeviceChange κ)) (geometry : Geometry)
    (device : Device κ) (turns : List (ServerTurn Source (DeviceChange κ))) :
    let now := (service react geometry).run (launch device) turns
    now.Consistent (service react geometry) ∧ Guarded now := by
  refine Service.run_invariant
    (fun now => now.Consistent (service react geometry) ∧ Guarded now) ?_ turns ?_
  · intro server after moves ⟨consistent, guarded⟩
    exact ⟨consistent.step moves, guarded.step moves consistent⟩
  · exact ⟨Server.consistent_start _ _, guarded_start device⟩

/-- Behind the access of a stop, whatever the thread still reads has been shut by now. -/
theorem shut_of_reads (consistent : server.Consistent (service react geometry))
    (guarded : Guarded server) {left : List StopStep} (called : server.stopper = some left)
    (past : .access ∉ left) {connection : Nat}
    (later : List (ServerTurn Source (DeviceChange κ)))
    (reads : ((service react geometry).run server later).thread = .working (.read connection)) :
    connection ∈ server.shared.shut :=
  guarded.shut left called past connection
    (reads_of_run (consistent.stopped called) later reads)

theorem held_of_returned (consistent : server.Consistent (service react geometry))
    (guarded : Guarded server) (returned : server.stopper = some []) :
    server.shared.held = none := by
  rw [guarded.held, consistent.ended returned]
  rfl

/-- What can be seen of the server from outside. -/
def view (geometry : Geometry) (server : Server (Shared κ) Task) : CommandServer κ where
  geometry := geometry
  device := server.shared.device
  running := server.running
  connected := server.shared.held.isSome
  socketFile := server.socketFile

/-- With the flag cleared, the thread can end from wherever it stands, if what it reads is at
its end. -/
theorem exists_drain (react : Call κ → List (DeviceChange κ)) (geometry : Geometry)
    (held : server.shared.held = published server.thread) (stopped : server.running = false) :
    ∃ turns, (service react geometry).run server turns =
      { server with thread := .ended, shared := { server.shared with held := none } } := by
  obtain ⟨⟨device, calls, _, shut⟩, _, thread, waiting, connected, handle, stopper, file⟩ := server
  obtain rfl := stopped
  dsimp only at held
  subst held
  cases thread with
  | checking => exact ⟨[.thread []], rfl⟩
  | accepting => exact ⟨[.refuse, .thread []], rfl⟩
  | accepted connection => exact ⟨[.thread []], rfl⟩
  | refused => exact ⟨[.thread []], rfl⟩
  | working task =>
    cases task with
    | publish connection => exact ⟨[.thread [], .thread [], .thread [], .thread []], rfl⟩
    | check connection => exact ⟨[.thread [], .thread [], .thread []], rfl⟩
    | read connection => exact ⟨[.thread [], .thread [], .thread []], rfl⟩
    | withdraw connection => exact ⟨[.thread [], .thread []], rfl⟩
  | ended => exact ⟨[], rfl⟩

/-- A stop can run to its end wherever the thread stands; then the server is as a stop leaves
it, and the connection that was held is shut. -/
theorem exists_stop (react : Call κ → List (DeviceChange κ)) (geometry : Geometry)
    (guarded : Guarded server) (set : server.running = true) :
    ∃ turns, let last := (service react geometry).run server (.stop :: turns)
      last.stopper = some [] ∧ view geometry last = (view geometry server).stop.2 ∧
      last.shared.calls = server.shared.calls ∧
      last.shared.shut = server.shared.held.toList ++ server.shared.shut := by
  let shut : Server (Shared κ) Task :=
    { server with
      running := false
      shared := server.shared.shutHeld
      stopper := some [.join, .unlink] }
  have closed : (service react geometry).run server [.stop, .proceed false, .proceed false] =
      shut := by
    simp only [Service.run, List.foldl_cons, List.foldl_nil, Service.turn, set]
    rfl
  have held : shut.shared.held = published shut.thread := guarded.held
  obtain ⟨turns, drained⟩ := exists_drain react geometry held rfl
  refine ⟨[.proceed false, .proceed false] ++ (turns ++ [.proceed false, .proceed false]), ?_⟩
  rw [← List.cons_append, Service.run_append, closed, Service.run_append, drained]
  refine ⟨rfl, ?_, rfl, rfl⟩
  simp only [view, stop, set, if_pos]
  rfl

theorem readFrame_of_payload {source next : Source} {payload : List UInt8} {shared : Shared κ}
    {device : Device κ} {calls : List (Call κ)}
    (received : Frame.receive source Size.command = (.ok payload, next))
    (dispatched : Command.dispatchAll react geometry shared.device
      (Command.decode payload).toOption.toList = (device, calls)) :
    readFrame react geometry source shared =
      (true, { shared with device, calls := shared.calls ++ calls }) := by
  rw [readFrame, received]
  cases decoded : Command.decode payload with
  | error failure =>
    rw [decoded] at dispatched
    cases dispatched
    simp only [decoded, List.append_nil]
  | ok command =>
    rw [decoded] at dispatched
    cases dispatched
    simp only [decoded, List.append_nil]

/-- The thread reads frame by frame what a connection is served as a whole. -/
theorem exists_reading (react : Call κ → List (DeviceChange κ)) (geometry : Geometry)
    {connection : Nat} (source : Source) (point : server.thread = .working (.read connection)) :
    let served := serveCommands react geometry server.shared.device source
    ∃ turns, (service react geometry).run server turns =
      { server with
        thread := .working (.withdraw connection)
        shared := { server.shared with
          device := served.device
          calls := server.shared.calls ++ served.calls } } := by
  dsimp only
  induction size : source.bytes.length using Nat.strongRecOn generalizing server source with
  | ind total ih =>
    rcases received : Frame.receive source Size.command with ⟨outcome, next⟩
    cases outcome with
    | error ending =>
      rw [serveCommands_of_failure react geometry received]
      refine ⟨[.thread source], ?_⟩
      simp only [Service.run, List.foldl_cons, List.foldl_nil, Service.turn, Service.threadTurn,
        point, service, work, readFrame, received, List.append_nil]
      rfl
    | ok payload =>
      have served :=
        @serveCommands_of_payload _ react geometry server.shared.device _ _ _ received
      rcases dispatched : Command.dispatchAll react geometry server.shared.device
        (Command.decode payload).toOption.toList with ⟨between, calls⟩
      simp only [dispatched] at served
      have first : (service react geometry).turn server (.thread source) =
          { server with
            shared := { server.shared with
              device := between
              calls := server.shared.calls ++ calls } } := by
        simp only [Service.turn, Service.threadTurn, point, service, work,
          readFrame_of_payload received dispatched]
        rfl
      have shorter : next.bytes.length < total := size ▸ Frame.receive_shortens received
      have reads : ((service react geometry).turn server (.thread source)).thread =
          .working (.read connection) := by
        rw [first]
        exact point
      obtain ⟨turns, rest⟩ := ih _ shorter next reads rfl
      refine ⟨.thread source :: turns, ?_⟩
      rw [Service.run, List.foldl_cons, ← Service.run, rest, first, served]
      simp only [List.append_assoc]

/-- A client that comes while the thread waits for one can be served as if no one else were
there. -/
theorem exists_serving (react : Call κ → List (DeviceChange κ)) (geometry : Geometry)
    (guarded : Guarded server) (set : server.running = true) (file : server.socketFile = true)
    (point : server.thread = .accepting) (alone : server.waiting = []) (source : Source) :
    ∃ turns calls, let last := (service react geometry).run server (.connect :: turns)
      (view geometry server).serveClient react source = (some calls, view geometry last) ∧
      last.shared.calls = server.shared.calls ++ calls := by
  have none : server.shared.held = none := by
    rw [guarded.held, point]
    rfl
  let reading : Server (Shared κ) Task :=
    { server with
      running := true
      thread := .working (.read server.connected)
      waiting := []
      connected := server.connected + 1
      shared := { server.shared with held := some server.connected } }
  have begun : (service react geometry).run server
      [.connect, .thread [], .thread [], .thread [], .thread []] = reading := by
    simp only [Service.run, List.foldl_cons, List.foldl_nil, Service.turn, Service.threadTurn,
      Server.connect, file, point, alone, set, reading]
    rfl
  have point : reading.thread = .working (.read server.connected) := rfl
  obtain ⟨turns, read⟩ := exists_reading react geometry source point
  refine ⟨[.thread [], .thread [], .thread [], .thread []] ++ (turns ++ [.thread []]),
    (serveCommands react geometry server.shared.device source).calls, ?_⟩
  rw [← List.cons_append, Service.run_append, begun, Service.run_append, read]
  refine ⟨?_, rfl⟩
  simp only [view, serveClient, set, none, if_pos]
  rfl

end Service

end CommandServer

end KeyRelay
