import KeyRelay.Proofs.Client.EventStream
import KeyRelay.Proofs.Observer.Slots

/-! # Producers side by side

Threads that broadcast on one hub, in any order of their turns. A broadcast is
two turns: the event is encoded outside the lock, and its frame is sent to all
in one atomic step. Observers may connect between any two turns.

What was sent so far is an interleaving of the fronts of what the producers
have to say. An observer that takes every frame keeps its slot and receives
what is sent from its arrival on. -/
set_option autoImplicit false

namespace KeyRelay

/-- A sequence that grew by one element of one of the parts at a time, each part in its own
order. -/
inductive Interleaving {α : Type} : List (List α) → List α → Prop
  | nothing (count : Nat) : Interleaving (List.replicate count []) []
  | grow {parts : List (List α)} {merged part : List α} {index : Nat} (next : α)
      (before : Interleaving parts merged) (own : parts[index]? = some part) :
      Interleaving (parts.set index (part ++ [next])) (merged ++ [next])

namespace Interleaving

variable {α : Type} {parts : List (List α)} {merged : List α}

/-- The elements of each part stand in their own order. -/
theorem sublist (interleaving : Interleaving parts merged) :
    ∀ part ∈ parts, part.Sublist merged := by
  induction interleaving with
  | nothing count =>
    intro part member
    have nothing : part = [] := List.eq_of_mem_replicate member
    subst nothing
    exact List.nil_sublist []
  | @grow parts merged own index next before found ih =>
    intro part member
    rcases List.mem_or_eq_of_mem_set member with other | rfl
    · exact (ih part other).trans (List.sublist_append_left merged [next])
    · exact (ih own (List.mem_of_getElem? found)).append_right [next]

/-- Every element of the parts is there once, and there is no other. -/
theorem perm_flatten (interleaving : Interleaving parts merged) : merged.Perm parts.flatten := by
  induction interleaving with
  | nothing count =>
    rw [List.flatten_replicate_nil]
  | @grow parts merged own index next before found ih =>
    obtain ⟨bound, rfl⟩ := List.getElem?_eq_some_iff.mp found
    have whole : parts = parts.take index ++ parts[index] :: parts.drop (index + 1) := by
      rw [List.getElem_cons_drop, List.take_append_drop]
    rw [List.set_eq_take_append_cons_drop, if_pos bound]
    rw [whole] at ih
    simp only [List.flatten_append, List.flatten_cons, List.append_assoc] at ih ⊢
    refine (ih.append_right [next]).trans ?_
    simp only [List.append_assoc]
    exact ((List.perm_append_comm.append_left _).append_left _)

end Interleaving

/-- Whoever is in the table when an observer connects stays where it is. -/
theorem Hub.accept_slot {hub : Hub} {index : Nat} {present : Subscriber}
    (inSlot : hub.table.slots[index]? = some (some present)) (subscriber : Subscriber) :
    (hub.accept subscriber).2.table.slots[index]? = some (some present) := by
  cases inserted : hub.table.insert subscriber with
  | none => simp only [accept, inserted, inSlot]
  | some found =>
    obtain ⟨free, _, slots⟩ := SubscriberTable.insert_eq_some_iff.mp inserted
    have apart : found.1 ≠ index := by
      intro same
      rw [same, inSlot] at free
      simp at free
    simp only [accept, inserted, slots, List.getElem?_set_ne apart, inSlot]

/-- An observer that is accepted stands in a slot. -/
theorem Hub.slot_of_accept {hub : Hub} {subscriber : Subscriber}
    (accepted : (hub.accept subscriber).1 = true) :
    ∃ index : Nat, (hub.accept subscriber).2.table.slots[index]? = some (some subscriber) := by
  cases inserted : hub.table.insert subscriber with
  | none => simp [accept, inserted] at accepted
  | some found =>
    obtain ⟨free, _, slots⟩ := SubscriberTable.insert_eq_some_iff.mp inserted
    obtain ⟨bound, _⟩ := List.getElem?_eq_some_iff.mp free
    refine ⟨found.1, ?_⟩
    simp only [accept, inserted, slots, List.getElem?_set_self bound]

/-- A thread that broadcasts events one after another. -/
structure Producer where
  /-- The event that is encoded and waits for the lock, with its frame. -/
  pending : Option (Event × List UInt8) := none
  /-- The events after it. -/
  ahead : List Event := []
  deriving DecidableEq, Repr

/-- The events that were not sent yet. -/
def Producer.unsent (producer : Producer) : List Event :=
  (producer.pending.map (·.1)).toList ++ producer.ahead

/-- A hub with producers at work on it. -/
structure BusyHub where
  hub : Hub
  producers : List Producer
  /-- How many observers connected so far, which is the number of the next one. -/
  connected : Nat := 0
  deriving DecidableEq, Repr

inductive BusyTurn
  /-- A producer encodes its next event. -/
  | encode (producer : Nat)
  /-- A producer takes the lock and sends the frame that it has ready. -/
  | send (producer : Nat)
  /-- An observer connects, and its writes are going to meet these outcomes. -/
  | connect (outcomes : List Acceptance)
  deriving DecidableEq, Repr

namespace BusyHub

def start (capacity : Nat) (programs : List (List Event)) : BusyHub :=
  { hub := .start capacity, producers := programs.map fun events => { ahead := events } }

def newcomer (busy : BusyHub) (outcomes : List Acceptance) : Subscriber :=
  ⟨busy.connected, { outcomes }⟩

/-- A producer that is not ready for a turn lets it pass. -/
def turn (busy : BusyHub) : BusyTurn → BusyHub
  | .encode index =>
    match busy.producers[index]? with
    | some ⟨none, event :: rest⟩ =>
      { busy with
        producers := busy.producers.set index ⟨event.frame?.map fun frame => (event, frame), rest⟩ }
    | _ => busy
  | .send index =>
    match busy.producers[index]? with
    | some ⟨some (_, frame), rest⟩ =>
      let (_, _, table) := busy.hub.table.sendToAll frame
      { busy with
        hub := { busy.hub with table }
        producers := busy.producers.set index ⟨none, rest⟩ }
    | _ => busy
  | .connect outcomes =>
    { busy with
      hub := (busy.hub.accept (busy.newcomer outcomes)).2
      connected := busy.connected + 1 }

def run (busy : BusyHub) (turns : List BusyTurn) : BusyHub :=
  turns.foldl turn busy

/-- The event that is sent in one turn, if any is. -/
def sentIn (busy : BusyHub) : BusyTurn → List Event
  | .send index =>
    match busy.producers[index]? with
    | some ⟨some (event, _), _⟩ => [event]
    | _ => []
  | _ => []

/-- The events that are sent in turns, in the order of the sends. -/
def sent : BusyHub → List BusyTurn → List Event
  | _, [] => []
  | busy, first :: rest => busy.sentIn first ++ (busy.turn first).sent rest

/-- Every producer has sent all its events. -/
def Finished (busy : BusyHub) : Prop :=
  ∀ producer ∈ busy.producers, producer.unsent = []

/-- Frames that wait for the lock are those of their events. -/
def Encoded (busy : BusyHub) : Prop :=
  ∀ producer ∈ busy.producers, ∀ event frame, producer.pending = some (event, frame) →
    frame = event.wire

/-- The parts are the fronts of the programs that were sent, and the producers have the rest. -/
structure Progress (programs parts : List (List Event)) (busy : BusyHub) : Prop where
  length_parts : parts.length = programs.length
  length_producers : busy.producers.length = programs.length
  split : ∀ (index : Nat) (part : List Event) (producer : Producer), parts[index]? = some part →
    busy.producers[index]? = some producer → programs[index]? = some (part ++ producer.unsent)

/-- A producer takes a turn to encode if it has no frame ready and has events ahead. -/
theorem turn_encode (busy : BusyHub) (index : Nat) :
    (∃ event rest, busy.producers[index]? = some ⟨none, event :: rest⟩ ∧
      busy.turn (.encode index) =
        { busy with producers := busy.producers.set index ⟨some (event, event.wire), rest⟩ }) ∨
    busy.turn (.encode index) = busy := by
  rw [turn]
  split
  next event rest ready =>
    refine .inl ⟨event, rest, ready, ?_⟩
    rw [event.frame?_eq]
    rfl
  next => exact .inr rfl

theorem turn_send (busy : BusyHub) (index : Nat) :
    (∃ event frame rest, busy.producers[index]? = some ⟨some (event, frame), rest⟩ ∧
      busy.sentIn (.send index) = [event] ∧
      busy.turn (.send index) =
        { busy with
          hub := { busy.hub with table := (busy.hub.table.sendToAll frame).2.2 }
          producers := busy.producers.set index ⟨none, rest⟩ }) ∨
    busy.sentIn (.send index) = [] ∧ busy.turn (.send index) = busy := by
  rw [turn, sentIn]
  split
  next event frame rest ready =>
    exact .inl ⟨event, frame, rest, ready, rfl, rfl⟩
  next => exact .inr ⟨rfl, rfl⟩

/-- A producer alone with the hub does what a broadcast of its event does. -/
theorem hub_encode_send {busy : BusyHub} {index : Nat} {event : Event} {rest : List Event}
    (ready : busy.producers[index]? = some ⟨none, event :: rest⟩) :
    ((busy.turn (.encode index)).turn (.send index)).hub = (busy.hub.broadcast event).2 := by
  obtain ⟨bound, _⟩ := List.getElem?_eq_some_iff.mp ready
  have encoded : (busy.producers.set index ⟨some (event, event.wire), rest⟩)[index]? =
      some ⟨some (event, event.wire), rest⟩ := List.getElem?_set_self bound
  simp only [turn, ready, event.frame?_eq, Option.map_some, encoded, Hub.broadcast]

theorem encoded_start (capacity : Nat) (programs : List (List Event)) :
    (start capacity programs).Encoded := by
  intro producer member event frame pending
  obtain ⟨events, _, rfl⟩ := List.mem_map.mp member
  simp at pending

theorem Encoded.turn {busy : BusyHub} (encoded : busy.Encoded) (next : BusyTurn) :
    (busy.turn next).Encoded := by
  cases next with
  | encode index =>
    rcases busy.turn_encode index with ⟨event, rest, _, stepped⟩ | stepped
    · rw [stepped]
      intro producer member other frame pending
      rcases List.mem_or_eq_of_mem_set member with old | rfl
      · exact encoded producer old other frame pending
      · simp only [Option.some.injEq, Prod.mk.injEq] at pending
        rw [← pending.1, ← pending.2]
    · rw [stepped]
      exact encoded
  | send index =>
    rcases busy.turn_send index with ⟨event, frame, rest, _, _, stepped⟩ | ⟨_, stepped⟩
    · rw [stepped]
      intro producer member other otherFrame pending
      rcases List.mem_or_eq_of_mem_set member with old | rfl
      · exact encoded producer old other otherFrame pending
      · simp at pending
    · rw [stepped]
      exact encoded
  | connect outcomes => exact encoded

theorem Encoded.run {busy : BusyHub} (encoded : busy.Encoded) (turns : List BusyTurn) :
    (busy.run turns).Encoded := by
  induction turns generalizing busy with
  | nil => exact encoded
  | cons next rest ih => exact ih (encoded.turn next)

namespace Progress

variable {programs parts : List (List Event)} {busy : BusyHub}

theorem start (capacity : Nat) (programs : List (List Event)) :
    Progress programs (List.replicate programs.length []) (start capacity programs) := by
  refine ⟨List.length_replicate, List.length_map _, ?_⟩
  intro index part producer ownPart ownProducer
  have nothing : part = [] := List.eq_of_mem_replicate (List.mem_of_getElem? ownPart)
  rw [BusyHub.start, List.getElem?_map] at ownProducer
  obtain ⟨events, found, rfl⟩ := Option.map_eq_some_iff.mp ownProducer
  rw [nothing]
  exact found

/-- A producer that has the same events unsent as before makes no difference. -/
theorem set_producer (progress : Progress programs parts busy) {index : Nat}
    {before after : Producer} (own : busy.producers[index]? = some before)
    (same : after.unsent = before.unsent) :
    Progress programs parts { busy with producers := busy.producers.set index after } := by
  obtain ⟨bound, _⟩ := List.getElem?_eq_some_iff.mp own
  refine ⟨progress.length_parts, ?_, ?_⟩
  · rw [List.length_set]
    exact progress.length_producers
  · intro other part producer ownPart ownProducer
    by_cases equal : index = other
    · subst equal
      rw [List.getElem?_set_self bound, Option.some.injEq] at ownProducer
      rw [← ownProducer, same]
      exact progress.split index part before ownPart own
    · rw [List.getElem?_set_ne equal] at ownProducer
      exact progress.split other part producer ownPart ownProducer

/-- A send moves the event from what its producer has unsent to the end of its part. -/
theorem send (progress : Progress programs parts busy) {index : Nat} {event : Event}
    {frame : List UInt8} {rest : List Event} {part : List Event} (hub : Hub)
    (ownPart : parts[index]? = some part)
    (own : busy.producers[index]? = some ⟨some (event, frame), rest⟩) :
    Progress programs (parts.set index (part ++ [event]))
      { busy with hub, producers := busy.producers.set index ⟨none, rest⟩ } := by
  obtain ⟨bound, _⟩ := List.getElem?_eq_some_iff.mp own
  obtain ⟨partBound, _⟩ := List.getElem?_eq_some_iff.mp ownPart
  refine ⟨?_, ?_, ?_⟩
  · rw [List.length_set]
    exact progress.length_parts
  · rw [List.length_set]
    exact progress.length_producers
  · intro other otherPart producer otherOwnPart otherOwn
    by_cases equal : index = other
    · subst equal
      rw [List.getElem?_set_self bound, Option.some.injEq] at otherOwn
      rw [List.getElem?_set_self partBound, Option.some.injEq] at otherOwnPart
      rw [← otherOwn, ← otherOwnPart, List.append_assoc]
      exact progress.split index part _ ownPart own
    · rw [List.getElem?_set_ne equal] at otherOwn otherOwnPart
      exact progress.split other otherPart producer otherOwnPart otherOwn

/-- One turn keeps what was sent an interleaving of the fronts of the programs. -/
theorem turn (progress : Progress programs parts busy) {merged : List Event}
    (interleaving : Interleaving parts merged) (next : BusyTurn) :
    ∃ after, Progress programs after (busy.turn next) ∧
      Interleaving after (merged ++ busy.sentIn next) := by
  cases next with
  | encode index =>
    have silent : merged ++ busy.sentIn (.encode index) = merged := List.append_nil merged
    rw [silent]
    rcases busy.turn_encode index with ⟨event, rest, ready, stepped⟩ | stepped
    · rw [stepped]
      exact ⟨parts, progress.set_producer ready rfl, interleaving⟩
    · rw [stepped]
      exact ⟨parts, progress, interleaving⟩
  | send index =>
    rcases busy.turn_send index with ⟨event, frame, rest, ready, sent, stepped⟩ | ⟨sent, stepped⟩
    · rw [stepped, sent]
      obtain ⟨bound, _⟩ := List.getElem?_eq_some_iff.mp ready
      have partBound : index < parts.length := by
        rw [progress.length_parts, ← progress.length_producers]
        exact bound
      have ownPart := List.getElem?_eq_getElem partBound
      exact ⟨_, progress.send _ ownPart ready, interleaving.grow event ownPart⟩
    · rw [stepped, sent, List.append_nil]
      exact ⟨parts, progress, interleaving⟩
  | connect outcomes =>
    have silent : merged ++ busy.sentIn (.connect outcomes) = merged := List.append_nil merged
    rw [silent]
    exact ⟨parts, ⟨progress.length_parts, progress.length_producers, progress.split⟩, interleaving⟩

theorem run (progress : Progress programs parts busy) {merged : List Event}
    (interleaving : Interleaving parts merged) (turns : List BusyTurn) :
    ∃ after, Progress programs after (busy.run turns) ∧
      Interleaving after (merged ++ busy.sent turns) := by
  induction turns generalizing busy parts merged with
  | nil => exact ⟨parts, progress, by rwa [sent, List.append_nil]⟩
  | cons next rest ih =>
    obtain ⟨between, stepped, joined⟩ := progress.turn interleaving next
    obtain ⟨after, reached, all⟩ := ih stepped joined
    rw [List.append_assoc] at all
    exact ⟨after, reached, all⟩

/-- Producers that are done have sent the whole programs. -/
theorem eq_programs (progress : Progress programs parts busy) (finished : busy.Finished) :
    parts = programs := by
  apply List.ext_getElem?
  intro index
  cases own : parts[index]? with
  | none =>
    rw [List.getElem?_eq_none_iff, progress.length_parts] at own
    exact (List.getElem?_eq_none own).symm
  | some part =>
    obtain ⟨bound, _⟩ := List.getElem?_eq_some_iff.mp own
    have producerBound : index < busy.producers.length := by
      rw [progress.length_producers, ← progress.length_parts]
      exact bound
    have program := progress.split index part _ own (List.getElem?_eq_getElem producerBound)
    rw [finished _ (List.getElem_mem producerBound), List.append_nil] at program
    exact program.symm

end Progress

/-- An observer that takes what is sent in a turn keeps its slot and has received it. -/
theorem slot_turn {busy : BusyHub} (encoded : busy.Encoded) {index : Nat} {before : Subscriber}
    (present : busy.hub.table.slots[index]? = some (some before)) (next : BusyTurn)
    {later : List Event}
    (takes : before.sink.Takes ((busy.sentIn next ++ later).map Event.wire)) :
    ∃ after, (busy.turn next).hub.table.slots[index]? = some (some after) ∧
      after.number = before.number ∧
      after.sink.accepted = before.sink.accepted ++ (busy.sentIn next).flatMap Event.wire ∧
      after.sink.Takes (later.map Event.wire) := by
  cases next with
  | encode producer =>
    have same : (busy.turn (.encode producer)).hub = busy.hub := by
      rcases busy.turn_encode producer with ⟨_, _, _, stepped⟩ | stepped
      · rw [stepped]
      · rw [stepped]
    rw [same]
    exact ⟨before, present, rfl, (List.append_nil _).symm, takes⟩
  | send producer =>
    rcases busy.turn_send producer with ⟨event, frame, rest, ready, sent, stepped⟩ | ⟨sent, stepped⟩
    · rw [sent] at takes ⊢
      obtain ⟨takesFirst, takesRest⟩ := takes
      have wire : frame = event.wire :=
        encoded _ (List.mem_of_getElem? ready) event frame rfl
      rw [stepped, wire]
      refine ⟨_, SubscriberTable.offerEach_slot present takesFirst, rfl, ?_, takesRest⟩
      rw [List.flatMap_singleton]
      exact Frame.accepted_of_isOk event.length_wire_pos takesFirst
    · rw [sent] at takes ⊢
      rw [stepped]
      exact ⟨before, present, rfl, (List.append_nil _).symm, takes⟩
  | connect outcomes =>
    refine ⟨before, ?_, rfl, (List.append_nil _).symm, takes⟩
    exact Hub.accept_slot present (busy.newcomer outcomes)

/-- What holds for one turn holds for all. -/
theorem slot_run {busy : BusyHub} (encoded : busy.Encoded) {index : Nat} {before : Subscriber}
    (present : busy.hub.table.slots[index]? = some (some before)) (turns : List BusyTurn)
    (takes : before.sink.Takes ((busy.sent turns).map Event.wire)) :
    ∃ after, (busy.run turns).hub.table.slots[index]? = some (some after) ∧
      after.number = before.number ∧
      after.sink.accepted = before.sink.accepted ++ (busy.sent turns).flatMap Event.wire := by
  induction turns generalizing busy before with
  | nil => exact ⟨before, present, rfl, (List.append_nil _).symm⟩
  | cons next rest ih =>
    rw [sent] at takes ⊢
    obtain ⟨between, kept, number, accepted, takesRest⟩ := slot_turn encoded present next takes
    obtain ⟨after, slot, sameNumber, received⟩ := ih (encoded.turn next) kept takesRest
    refine ⟨after, slot, sameNumber.trans number, ?_⟩
    rw [received, accepted, List.append_assoc, List.flatMap_append]

theorem sent_append (busy : BusyHub) (first rest : List BusyTurn) :
    busy.sent (first ++ rest) = busy.sent first ++ (busy.run first).sent rest := by
  induction first generalizing busy with
  | nil => rfl
  | cons next others ih =>
    rw [List.cons_append, sent, sent, ih, List.append_assoc]
    rfl

theorem run_append (busy : BusyHub) (first rest : List BusyTurn) :
    busy.run (first ++ rest) = (busy.run first).run rest := by
  rw [run, run, run, List.foldl_append]

/-- Whatever the order of the turns, what was sent is an interleaving of the fronts of the
programs. -/
theorem sent_interleaving (capacity : Nat) (programs : List (List Event)) (turns : List BusyTurn) :
    ∃ parts, Progress programs parts ((start capacity programs).run turns) ∧
      Interleaving parts ((start capacity programs).sent turns) :=
  (Progress.start capacity programs).run (.nothing programs.length) turns

/-- Producers broadcast side by side, and a broadcast that nothing comes
between is that of the hub. An observer that connected before the first send
and takes every frame receives whole frames of events that interleave the
fronts of what the producers say, all of it when they are done, and its watcher
gets these events. Of two observers that take every frame, both receive the
same from the time on when both are there. -/
theorem concurrent_broadcasts (capacity : Nat) (programs : List (List Event))
    (before : List BusyTurn) :
    let now := (start capacity programs).run before
    (∀ (index : Nat) (event : Event) (rest : List Event),
      now.producers[index]? = some ⟨none, event :: rest⟩ →
      ((now.turn (.encode index)).turn (.send index)).hub = (now.hub.broadcast event).2) ∧
    (∀ outcomes later, (start capacity programs).sent before = [] →
      (now.hub.accept (now.newcomer outcomes)).1 = true →
      let arrived := now.turn (.connect outcomes)
      let events := arrived.sent later
      let last := arrived.run later
      Sink.Takes { outcomes } (events.map Event.wire) →
      ∃ (index : Nat) (observer : Subscriber) (parts : List (List Event)),
        last.hub.table.slots[index]? = some (some observer) ∧
        observer.number = now.connected ∧
        observer.sink.accepted = events.flatMap Event.wire ∧
        Interleaving parts events ∧ Progress programs parts last ∧
        (last.Finished → Interleaving programs events ∧
          (∀ program ∈ programs, program.Sublist events) ∧ events.Perm programs.flatten) ∧
        ∀ chunks : List (List UInt8), (∀ chunk ∈ chunks, chunk ≠ []) →
          chunks.flatten = observer.sink.accepted →
          Watcher.results (chunks.map .chunk) =
            events.map .ok ++ [.error (.frame .peerClosed)]) ∧
    ∀ (first second : Nat) (one two : Subscriber) (later : List BusyTurn),
      now.hub.table.slots[first]? = some (some one) →
      now.hub.table.slots[second]? = some (some two) →
      one.sink.Takes ((now.sent later).map Event.wire) →
      two.sink.Takes ((now.sent later).map Event.wire) →
      ∃ oneAfter twoAfter,
        (now.run later).hub.table.slots[first]? = some (some oneAfter) ∧
        (now.run later).hub.table.slots[second]? = some (some twoAfter) ∧
        oneAfter.number = one.number ∧ twoAfter.number = two.number ∧
        oneAfter.sink.accepted =
          one.sink.accepted ++ (now.sent later).flatMap Event.wire ∧
        twoAfter.sink.accepted =
          two.sink.accepted ++ (now.sent later).flatMap Event.wire := by
  intro now
  have encoded : now.Encoded := (encoded_start capacity programs).run before
  refine ⟨fun index event rest => hub_encode_send, ?_, ?_⟩
  · intro outcomes later silent accepted arrived events last takes
    obtain ⟨index, inSlot⟩ := Hub.slot_of_accept accepted
    obtain ⟨observer, slot, number, received⟩ :=
      slot_run (encoded.turn (.connect outcomes)) inSlot later takes
    -- Nothing was sent before the observer came, so these are all the sends of the run.
    have all : (start capacity programs).sent (before ++ .connect outcomes :: later) = events := by
      rw [sent_append, silent, List.nil_append]
      rfl
    have reached : (start capacity programs).run (before ++ .connect outcomes :: later) = last :=
      run_append _ _ _
    obtain ⟨parts, progress, interleaving⟩ :=
      sent_interleaving capacity programs (before ++ .connect outcomes :: later)
    rw [all] at interleaving
    rw [reached] at progress
    refine ⟨index, observer, parts, slot, number, received, interleaving, progress, ?_, ?_⟩
    · intro finished
      have complete := progress.eq_programs finished
      rw [complete] at interleaving
      exact ⟨interleaving, interleaving.sublist, interleaving.perm_flatten⟩
    · intro chunks nonempty joined
      exact Watcher.results_whole_chunks nonempty (joined.trans received)
  · intro first second one two later oneSlot twoSlot oneTakes twoTakes
    obtain ⟨oneAfter, oneKept, oneNumber, oneReceived⟩ := slot_run encoded oneSlot later oneTakes
    obtain ⟨twoAfter, twoKept, twoNumber, twoReceived⟩ := slot_run encoded twoSlot later twoTakes
    exact ⟨oneAfter, twoAfter, oneKept, twoKept, oneNumber, twoNumber, oneReceived, twoReceived⟩

/-- One producer presses and releases a key, another presses one. -/
def crossed : List (List Event) :=
  [[.kscan ⟨0, 7, true, 1⟩, .kscan ⟨0, 7, false, 4⟩], [.kscan ⟨0, 9, true, 2⟩]]

/-- Both have encoded when the first observer comes, the second producer is
first to send, and then the second observer comes. -/
theorem concurrent_broadcasts_crossed :
    let now := (start 2 crossed).run [.encode 0, .encode 1, .connect []]
    let both := now.run [.send 1, .connect [.failure ⟨.interrupted, none⟩]]
    (((start 2 crossed).turn (.encode 1)).turn (.send 1)).hub =
      ((start 2 crossed).hub.broadcast (.kscan ⟨0, 9, true, 2⟩)).2 ∧
    (∃ (index : Nat) (observer : Subscriber) (events : List Event),
      (both.run [.send 0, .encode 0, .send 0]).hub.table.slots[index]? = some (some observer) ∧
      observer.sink.accepted = events.flatMap Event.wire ∧ Interleaving crossed events) ∧
    ∃ oneAfter twoAfter,
      (both.run [.send 0]).hub.table.slots[0]? = some (some oneAfter) ∧
      (both.run [.send 0]).hub.table.slots[1]? = some (some twoAfter) ∧
      oneAfter.sink.accepted =
        Event.wire (.kscan ⟨0, 9, true, 2⟩) ++ Event.wire (.kscan ⟨0, 7, true, 1⟩) ∧
      twoAfter.sink.accepted = Event.wire (.kscan ⟨0, 7, true, 1⟩) := by
  intro now both
  obtain ⟨alone, _, _⟩ := concurrent_broadcasts 2 crossed []
  obtain ⟨_, arrives, _⟩ := concurrent_broadcasts 2 crossed [.encode 0, .encode 1]
  obtain ⟨_, _, together⟩ := concurrent_broadcasts 2 crossed
    [.encode 0, .encode 1, .connect [], .send 1, .connect [.failure ⟨.interrupted, none⟩]]
  refine ⟨alone 1 _ [] (by decide +kernel), ?_, ?_⟩
  · obtain ⟨index, observer, parts, slot, _, received, _, _, done, _⟩ :=
      arrives [] [.send 1, .connect [.failure ⟨.interrupted, none⟩], .send 0, .encode 0, .send 0]
        (by decide +kernel) (by decide +kernel) (by decide +kernel)
    have finished : Finished (both.run [.send 0, .encode 0, .send 0]) := by
      unfold Finished
      decide +kernel
    exact ⟨index, observer, _, slot, received, (done finished).1⟩
  · obtain ⟨oneAfter, twoAfter, oneSlot, twoSlot, _, _, oneReceived, twoReceived⟩ :=
      together 0 1 ⟨0, { accepted := Event.wire (.kscan ⟨0, 9, true, 2⟩), writes := 1 }⟩
        ⟨1, { outcomes := [.failure ⟨.interrupted, none⟩] }⟩ [.send 0]
        (by decide +kernel) (by decide +kernel) (by decide +kernel) (by decide +kernel)
    have said : sent ((start 2 crossed).run
        [.encode 0, .encode 1, .connect [], .send 1,
          .connect [.failure ⟨.interrupted, none⟩]]) [.send 0] = [.kscan ⟨0, 7, true, 1⟩] := by
      decide +kernel
    rw [said, List.flatMap_singleton] at oneReceived twoReceived
    exact ⟨oneAfter, twoAfter, oneSlot, twoSlot, oneReceived, twoReceived⟩

end BusyHub

end KeyRelay
