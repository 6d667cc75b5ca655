import KeyRelay.Proofs.Client.EventStream
import KeyRelay.Proofs.Observer.Table

/-! # What observers receive over a session

A session is any order of connections, broadcasts and clearings of the table.
The writes of each connection meet outcomes of their own. What an observer
should hear is told by the table alone: every event that is broadcast while the
observer is in it.

The invariant says that an observer in the table has the frames of all it
heard, and one that is out has them too, except that the last may be cut off;
it was dropped for that and stays out. -/
set_option autoImplicit false

namespace KeyRelay

inductive SessionStep
  /-- An observer connects, and its writes are going to meet these outcomes. -/
  | connect (outcomes : List Acceptance)
  | broadcast (event : Event)
  | clear
  deriving DecidableEq, Repr

structure Session where
  hub : Hub
  /-- How many observers connected so far, which is the number of the next one. -/
  connected : Nat := 0
  /-- The observers that are out: refused, dropped, or closed with the table. -/
  closed : List Subscriber := []
  deriving DecidableEq, Repr

namespace Session

def start (capacity : Nat) : Session :=
  { hub := .start capacity }

def newcomer (session : Session) (outcomes : List Acceptance) : Subscriber :=
  { number := session.connected, sink := { outcomes } }

def step (session : Session) : SessionStep → Session
  | .connect outcomes =>
    let (taken, hub) := session.hub.accept (session.newcomer outcomes)
    { hub
      connected := session.connected + 1
      closed := if taken then session.closed else session.closed ++ [session.newcomer outcomes] }
  | .broadcast event =>
    let (dropped, hub) := session.hub.broadcast event
    { session with hub, closed := session.closed ++ dropped }
  | .clear =>
    let (dropped, table) := session.hub.table.clear
    { session with hub := { session.hub with table }, closed := session.closed ++ dropped }

def run (session : Session) (steps : List SessionStep) : Session :=
  steps.foldl step session

def present (session : Session) : List Subscriber :=
  session.hub.table.subscribers

def everyone (session : Session) : List Subscriber :=
  session.present ++ session.closed

/-- The events broadcast in one step while the observer is in the table. -/
def heardIn (session : Session) (number : Nat) : SessionStep → List Event
  | .broadcast event => if number ∈ session.present.map (·.number) then [event] else []
  | _ => []

/-- The events broadcast while the observer is in the table, in order. -/
def heard (number : Nat) : Session → List SessionStep → List Event
  | _, [] => []
  | session, first :: rest =>
    session.heardIn number first ++ heard number (session.step first) rest

theorem heardIn_present {session : Session} {subscriber : Subscriber} (event : Event)
    (member : subscriber ∈ session.present) :
    session.heardIn subscriber.number (.broadcast event) = [event] :=
  if_pos (List.mem_map_of_mem member)

theorem heardIn_absent {session : Session} {number : Nat} (event : Event)
    (absent : number ∉ session.present.map (·.number)) :
    session.heardIn number (.broadcast event) = [] :=
  if_neg absent

/-- A newcomer is taken into the table or refused. -/
theorem step_connect (session : Session) (outcomes : List Acceptance) :
    (session.step (.connect outcomes)).present.Perm
        (session.newcomer outcomes :: session.present) ∧
      (session.step (.connect outcomes)).closed = session.closed ∨
    (session.step (.connect outcomes)).present = session.present ∧
      (session.step (.connect outcomes)).closed =
        session.closed ++ [session.newcomer outcomes] := by
  cases inserted : session.hub.table.insert (session.newcomer outcomes) with
  | none =>
    refine .inr ⟨?_, ?_⟩
    · simp only [step, Hub.accept, inserted, present]
    · simp only [step, Hub.accept, inserted]
      rfl
  | some found =>
    refine .inl ⟨?_, ?_⟩
    · simp only [step, Hub.accept, inserted, present]
      exact SubscriberTable.insert_perm inserted
    · simp only [step, Hub.accept, inserted]
      rfl

/-- Who stays in the table and who leaves it when an event is broadcast. -/
theorem step_broadcast (session : Session) (event : Event) :
    (session.step (.broadcast event)).present =
        (SubscriberTable.offerEach event.wire session.hub.table.slots).slots.filterMap id ∧
      (session.step (.broadcast event)).closed = session.closed ++
        (SubscriberTable.offerEach event.wire session.hub.table.slots).dropped := by
  simp only [step, Hub.broadcast, event.frame?_eq]
  exact ⟨rfl, rfl⟩

theorem step_clear (session : Session) :
    (session.step .clear).present = [] ∧
      (session.step .clear).closed = session.closed ++ session.present :=
  ⟨SubscriberTable.subscribers_clear session.hub.table, rfl⟩

theorem connected_connect (session : Session) (outcomes : List Acceptance) :
    (session.step (.connect outcomes)).connected = session.connected + 1 :=
  rfl

theorem everyone_connect (session : Session) (outcomes : List Acceptance) :
    (session.step (.connect outcomes)).everyone.Perm
      (session.newcomer outcomes :: session.everyone) := by
  rcases session.step_connect outcomes with ⟨present, closed⟩ | ⟨present, closed⟩
  · rw [everyone, closed]
    exact present.append_right session.closed
  · rw [everyone, present, closed, ← List.append_assoc]
    exact List.perm_append_singleton _ _

theorem numbers_broadcast (session : Session) (event : Event) :
    ((session.step (.broadcast event)).everyone.map (·.number)).Perm
      (session.everyone.map (·.number)) := by
  obtain ⟨present, closed⟩ := session.step_broadcast event
  have kept := (SubscriberTable.offerEach_numbers event.wire
    session.hub.table.slots).append_right (session.closed.map (·.number))
  rw [← List.map_append, ← List.map_append, List.append_assoc] at kept
  rw [everyone, present, closed]
  exact ((List.perm_append_comm.append_left _).map _).trans kept

theorem everyone_clear (session : Session) :
    (session.step .clear).everyone.Perm session.everyone := by
  obtain ⟨present, closed⟩ := session.step_clear
  rw [everyone, present, closed, List.nil_append]
  exact List.perm_append_comm

theorem run_append (session : Session) (steps later : List SessionStep) :
    session.run (steps ++ later) = (session.run steps).run later := by
  rw [run, run, run, List.foldl_append]

end Session

/-- The frames of events, of which the last may be cut off. -/
def Event.Ended (events : List Event) (bytes : List UInt8) : Prop :=
  bytes = events.flatMap wire ∨
    ∃ delivered next cut, events = delivered ++ [next] ∧
      bytes = delivered.flatMap wire ++ cut ∧ cut <+: next.wire ∧ cut.length < next.wire.length

namespace Session

/-- What every observer has, when the log says what each should have heard. -/
structure Accounted (session : Session) (log : Nat → List Event) : Prop where
  numbered : (session.everyone.map (·.number)).Perm (List.range session.connected)
  whole : ∀ subscriber ∈ session.present,
    subscriber.sink.accepted = (log subscriber.number).flatMap Event.wire
  ended : ∀ subscriber ∈ session.closed,
    Event.Ended (log subscriber.number) subscriber.sink.accepted
  fresh : ∀ number, session.connected ≤ number → log number = []

theorem start_accounted (capacity : Nat) : (start capacity).Accounted fun _ => [] := by
  have empty : (start capacity).present = [] := by
    simp [start, present, Hub.start, SubscriberTable.ofCapacity, SubscriberTable.subscribers]
  refine ⟨?_, ?_, ?_, fun _ _ => rfl⟩
  · rw [everyone, empty]
    exact List.Perm.refl _
  · rw [empty]
    simp
  · simp [start]

namespace Accounted

variable {session : Session} {log : Nat → List Event}

theorem number_lt (accounted : session.Accounted log) {subscriber : Subscriber}
    (member : subscriber ∈ session.everyone) : subscriber.number < session.connected := by
  have numbered := accounted.numbered.mem_iff.mp (List.mem_map_of_mem member)
  exact List.mem_range.mp numbered

/-- No observer is both in the table and out of it. -/
theorem closed_absent (accounted : session.Accounted log) {subscriber : Subscriber}
    (member : subscriber ∈ session.closed) :
    subscriber.number ∉ session.present.map (·.number) := by
  -- The numbers are those below `connected`, each once.
  have distinct : (session.everyone.map (·.number)).Nodup :=
    accounted.numbered.nodup_iff.mpr List.nodup_range
  rw [everyone, List.map_append] at distinct
  intro inTable
  exact (List.nodup_append.mp distinct).2.2 _ inTable _ (List.mem_map_of_mem member) rfl

theorem connected_absent (accounted : session.Accounted log) {number : Nat}
    (beyond : session.connected ≤ number) : number ∉ session.present.map (·.number) := by
  intro inTable
  obtain ⟨subscriber, member, same⟩ := List.mem_map.mp inTable
  have bound := accounted.number_lt (List.mem_append_left session.closed member)
  omega

theorem connect (accounted : session.Accounted log) (outcomes : List Acceptance) :
    (session.step (.connect outcomes)).Accounted log := by
  have silent : log (session.newcomer outcomes).number = [] :=
    accounted.fresh session.connected (Nat.le_refl _)
  have nothing : (session.newcomer outcomes).sink.accepted =
      (log (session.newcomer outcomes).number).flatMap Event.wire := by
    rw [silent, List.flatMap_nil]
    rfl
  refine ⟨?_, ?_, ?_, ?_⟩
  · rw [connected_connect, List.range_succ]
    refine ((session.everyone_connect outcomes).map _).trans ?_
    exact (accounted.numbered.cons session.connected).trans (List.perm_append_singleton _ _).symm
  · intro subscriber member
    rcases session.step_connect outcomes with ⟨present, _⟩ | ⟨present, _⟩
    · rcases List.mem_cons.mp (present.mem_iff.mp member) with new | old
      · rw [new, nothing]
      · exact accounted.whole subscriber old
    · rw [present] at member
      exact accounted.whole subscriber member
  · intro subscriber member
    rcases session.step_connect outcomes with ⟨_, closed⟩ | ⟨_, closed⟩
    · rw [closed] at member
      exact accounted.ended subscriber member
    · rw [closed] at member
      rcases List.mem_append.mp member with old | new
      · exact accounted.ended subscriber old
      · rw [List.mem_singleton.mp new]
        exact .inl nothing
  · intro number beyond
    rw [connected_connect] at beyond
    exact accounted.fresh number (by omega)

theorem clear (accounted : session.Accounted log) : (session.step .clear).Accounted log := by
  obtain ⟨present, closed⟩ := session.step_clear
  refine ⟨?_, ?_, ?_, accounted.fresh⟩
  · exact (session.everyone_clear.map _).trans accounted.numbered
  · rw [present]
    simp
  · rw [closed]
    intro subscriber member
    rcases List.mem_append.mp member with old | new
    · exact accounted.ended subscriber old
    · exact .inl (accounted.whole subscriber new)

theorem broadcast (accounted : session.Accounted log) (event : Event) :
    (session.step (.broadcast event)).Accounted fun number =>
      log number ++ session.heardIn number (.broadcast event) := by
  have nonempty := event.length_wire_pos
  obtain ⟨present, closed⟩ := session.step_broadcast event
  refine ⟨(session.numbers_broadcast event).trans accounted.numbered, ?_, ?_, ?_⟩
  · rw [present]
    intro subscriber member
    obtain ⟨before, inTable, number, accepted⟩ := SubscriberTable.took_of_mem nonempty member
    rw [number, heardIn_present event inTable, accepted, accounted.whole before inTable,
      List.flatMap_append, List.flatMap_singleton]
  · rw [closed]
    intro subscriber member
    rcases List.mem_append.mp member with old | lost
    · -- Numbers are not given twice, so whoever is out heard nothing of this.
      rw [heardIn_absent event (accounted.closed_absent old), List.append_nil]
      exact accounted.ended subscriber old
    · obtain ⟨before, inTable, number, cut, accepted, part, shorter⟩ :=
        SubscriberTable.tookPart_of_mem nonempty lost
      rw [number, heardIn_present event inTable]
      refine .inr ⟨log before.number, event, cut, rfl, ?_, part, shorter⟩
      rw [accepted, accounted.whole before inTable]
  · intro number beyond
    rw [accounted.fresh number beyond, heardIn_absent event (accounted.connected_absent beyond),
      List.append_nil]

/-- One step adds to the log what was heard in it. -/
theorem step (accounted : session.Accounted log) (next : SessionStep) :
    (session.step next).Accounted fun number => log number ++ session.heardIn number next := by
  cases next with
  | connect outcomes =>
    simp only [heardIn, List.append_nil]
    exact accounted.connect outcomes
  | broadcast event => exact accounted.broadcast event
  | clear =>
    simp only [heardIn, List.append_nil]
    exact accounted.clear

theorem run (accounted : session.Accounted log) (steps : List SessionStep) :
    (session.run steps).Accounted fun number => log number ++ heard number session steps := by
  induction steps generalizing session log with
  | nil =>
    simp only [heard, List.append_nil]
    exact accounted
  | cons next rest ih =>
    have remaining := ih (accounted.step next)
    simp only [List.append_assoc] at remaining
    exact remaining

end Accounted

theorem run_accounted (capacity : Nat) (steps : List SessionStep) :
    ((start capacity).run steps).Accounted fun number => heard number (start capacity) steps :=
  (start_accounted capacity).run steps

theorem closed_step (session : Session) (next : SessionStep) :
    session.closed ⊆ (session.step next).closed := by
  cases next with
  | connect outcomes =>
    rcases session.step_connect outcomes with ⟨_, closed⟩ | ⟨_, closed⟩
    · rw [closed]
      exact List.Subset.refl _
    · rw [closed]
      exact List.subset_append_left _ _
  | broadcast event => exact List.subset_append_left _ _
  | clear => exact List.subset_append_left _ _

theorem closed_run (session : Session) (steps : List SessionStep) :
    session.closed ⊆ (session.run steps).closed := by
  induction steps generalizing session with
  | nil => exact List.Subset.refl _
  | cons next rest ih => exact List.Subset.trans (session.closed_step next) (ih (session.step next))

/-- An observer's bytes are the whole frames of what was broadcast while it was
in the table, except that one that is out may have only the front of the last;
it stays out as it is. A watcher gets the events whose frames are whole, each
as it was broadcast, and then that the peer is gone. -/
theorem stream_integrity (capacity : Nat) (steps : List SessionStep) :
    (∀ event : Event, ∃ payload, event.encode = .ok payload ∧
      Frame.encode payload Size.event = .ok event.wire) ∧
    (((start capacity).run steps).everyone.map (·.number)).Perm
      (List.range ((start capacity).run steps).connected) ∧
    (∀ subscriber ∈ ((start capacity).run steps).everyone, ∃ delivered cut,
      subscriber.sink.accepted = delivered.flatMap Event.wire ++ cut ∧
      (heard subscriber.number (start capacity) steps = delivered ∧ cut = [] ∨
        subscriber ∈ ((start capacity).run steps).closed ∧
        ∃ next : Event, heard subscriber.number (start capacity) steps = delivered ++ [next] ∧
          cut <+: next.wire ∧ cut.length < next.wire.length) ∧
      ∀ chunks : List (List UInt8), (∀ chunk ∈ chunks, chunk ≠ []) →
        chunks.flatten = subscriber.sink.accepted →
        Watcher.results (chunks.map .chunk) =
          delivered.map .ok ++ [.error (.frame .peerClosed)]) ∧
    ∀ subscriber ∈ ((start capacity).run steps).closed, ∀ later,
      subscriber ∈ ((start capacity).run (steps ++ later)).closed ∧
      subscriber.number ∉ ((start capacity).run (steps ++ later)).present.map (·.number) := by
  have accounted := run_accounted capacity steps
  refine ⟨fun event => ⟨event.bytes, event.encode_wire⟩, accounted.numbered, ?_, ?_⟩
  · intro subscriber member
    by_cases whole : subscriber.sink.accepted =
        (heard subscriber.number (start capacity) steps).flatMap Event.wire
    · refine ⟨heard subscriber.number (start capacity) steps, [], ?_, .inl ⟨rfl, rfl⟩, ?_⟩
      · rw [whole, List.append_nil]
      · intro chunks nonempty joined
        exact Watcher.results_whole_chunks nonempty (joined.trans whole)
    · have out : subscriber ∈ ((start capacity).run steps).closed := by
        rcases List.mem_append.mp member with inTable | out
        · exact absurd (accounted.whole subscriber inTable) whole
        · exact out
      rcases accounted.ended subscriber out with
        all | ⟨delivered, next, cut, same, accepted, part, shorter⟩
      · exact absurd all whole
      · refine ⟨delivered, cut, accepted, .inr ⟨out, next, same, part, shorter⟩, ?_⟩
        intro chunks nonempty joined
        exact Watcher.results_chunks nonempty (joined.trans accepted) part shorter
  · intro subscriber out later
    have stays : subscriber ∈ ((start capacity).run (steps ++ later)).closed := by
      rw [run_append]
      exact closed_run _ later out
    exact ⟨stays, (run_accounted capacity (steps ++ later)).closed_absent stays⟩

/-- A write is interrupted, the next accepts a frame, and the last three bytes of one. -/
def shortWrite : List SessionStep :=
  [.connect [.failure ⟨.interrupted, none⟩, .atMost 100, .atMost 3],
    .broadcast (.kscan ⟨0, 7, true, 9⟩), .broadcast (.kscan ⟨0, 7, false, 12⟩)]

/-- The observer that they leave behind. -/
def cutOff : Subscriber :=
  { number := 0
    sink := { accepted := [0, 0, 0, 8, 10, 6, 16, 7, 24, 1, 32, 9, 0, 0, 0], writes := 3 } }

theorem stream_integrity_shortWrite :
    cutOff ∈ ((start 1).run shortWrite).everyone ∧
    Watcher.results ([[0, 0], [0, 8, 10, 6, 16, 7, 24], [1, 32, 9, 0, 0, 0]].map .chunk) =
      [.ok (.kscan ⟨0, 7, true, 9⟩), .error (.frame .peerClosed)] := by
  obtain ⟨_, _, received, _⟩ := stream_integrity 1 shortWrite
  have member : cutOff ∈ ((start 1).run shortWrite).everyone := by
    decide +kernel
  obtain ⟨delivered, cut, accepted, broadcast, watched⟩ := received cutOff member
  have heardBoth : heard cutOff.number (start 1) shortWrite =
      [.kscan ⟨0, 7, true, 9⟩] ++ [.kscan ⟨0, 7, false, 12⟩] := by
    decide +kernel
  have front : delivered = [.kscan ⟨0, 7, true, 9⟩] := by
    rcases broadcast with ⟨all, uncut⟩ | ⟨_, next, same, _, _⟩
    · rw [← all, heardBoth, uncut] at accepted
      exact absurd accepted (by decide +kernel)
    · exact (List.append_inj_left' (heardBoth.symm.trans same) rfl).symm
  rw [front] at watched
  exact ⟨member, watched _ (by decide) rfl⟩

end Session

end KeyRelay
