import KeyRelay.Proofs.Client.Agreement

/-! # A watcher on a task of its own

The task passes events on through a channel that has room for a number of them,
and waits with an event in hand while the channel is full. A receiver takes the
events out at the other end. The two take their turns in any order.

What was received, what is in the channel, what the task has in hand and what it
has still to read are the events of the stream at any time. Every turn takes one
off a number that the stream fixes, so the turns come to an end, and then the
receiver has all the events. -/
set_option autoImplicit false

namespace KeyRelay

structure Spawned where
  source : Source
  /-- The event that the task has in hand. -/
  held : Option Event := none
  channel : List Event := []
  received : List Event := []
  /-- The error that ended the task. -/
  ending : Option ClientError := none
  deriving DecidableEq, Repr

inductive SpawnedTurn
  | task
  | receiver
  deriving DecidableEq, Repr

namespace Spawned

/-- The task has no turn once it has ended, nor while there is no room for its event. -/
def taskTurn? (capacity : Nat) (spawned : Spawned) : Option Spawned :=
  match spawned.ending, spawned.held with
  | some _, _ => none
  | none, some event =>
    if spawned.channel.length < capacity then
      some { spawned with held := none, channel := spawned.channel ++ [event] }
    else none
  | none, none =>
    match Watcher.nextEvent spawned.source with
    | (.ok event, rest) => some { spawned with source := rest, held := some event }
    | (.error (.decode _), rest) => some { spawned with source := rest }
    | (.error failure, rest) => some { spawned with source := rest, ending := some failure }

/-- The receiver waits while the channel is empty. -/
def receiverTurn? (spawned : Spawned) : Option Spawned :=
  match spawned.channel with
  | [] => none
  | event :: rest =>
    some { spawned with channel := rest, received := spawned.received ++ [event] }

def turn? (capacity : Nat) (spawned : Spawned) : SpawnedTurn → Option Spawned
  | .task => spawned.taskTurn? capacity
  | .receiver => spawned.receiverTurn?

/-- Turns one after another, or nothing if one of them cannot be taken. -/
def run? (capacity : Nat) : Spawned → List SpawnedTurn → Option Spawned
  | spawned, [] => some spawned
  | spawned, next :: rest =>
    match spawned.turn? capacity next with
    | none => none
    | some after => run? capacity after rest

/-- Neither the task nor the receiver has a turn. -/
def Stuck (capacity : Nat) (spawned : Spawned) : Prop :=
  spawned.taskTurn? capacity = none ∧ spawned.receiverTurn? = none

instance (capacity : Nat) (spawned : Spawned) : Decidable (Stuck capacity spawned) :=
  inferInstanceAs (Decidable (_ ∧ _))

/-- The payloads that the task has still to read. -/
def ahead (spawned : Spawned) : List (List UInt8) :=
  match spawned.ending with
  | none => Watcher.frames spawned.source
  | some _ => []

/-- All events, in the order of the stream. -/
def events (spawned : Spawned) : List Event :=
  spawned.received ++ spawned.channel ++ spawned.held.toList ++ Watcher.decoded spawned.ahead

/-- Every frame is read in one turn, and so is the end; an event takes two turns more. -/
def turnsLeft (spawned : Spawned) : Nat :=
  spawned.channel.length + 2 * spawned.held.toList.length +
    2 * (Watcher.decoded spawned.ahead).length + spawned.ahead.length +
    (if spawned.ending = none then 1 else 0)

/-- What holds of a task with its channel while the stream gives these events and this error. -/
structure Conveys (capacity : Nat) (events : List Event) (failure : FrameError)
    (spawned : Spawned) : Prop where
  inOrder : spawned.events = events
  room : spawned.channel.length ≤ capacity
  reason : spawned.ending = none ∧ Watcher.lastError spawned.source = failure ∨
    spawned.ending = some (.frame failure) ∧ spawned.held = none

variable {capacity : Nat} {expected : List Event} {failure : FrameError} {spawned next : Spawned}

theorem conveys_start (capacity : Nat) (source : Source) :
    Conveys capacity (Watcher.decoded (Watcher.frames source)) (Watcher.lastError source)
      { source } :=
  ⟨rfl, Nat.zero_le _, .inl ⟨rfl, rfl⟩⟩

/-- An event moves from the task's hand into the channel, or a frame is read. -/
theorem taskTurn?_cases (turned : spawned.taskTurn? capacity = some next) :
    spawned.ending = none ∧
    ((∃ event, spawned.held = some event ∧ spawned.channel.length < capacity ∧
        next = { spawned with held := none, channel := spawned.channel ++ [event] }) ∨
      spawned.held = none ∧
      ((∃ event payload rest, Event.decode payload = .ok event ∧
          Watcher.frames spawned.source = payload :: Watcher.frames rest ∧
          Watcher.lastError rest = Watcher.lastError spawned.source ∧
          next = { spawned with source := rest, held := some event }) ∨
        (∃ failure payload rest, Event.decode payload = .error failure ∧
          Watcher.frames spawned.source = payload :: Watcher.frames rest ∧
          Watcher.lastError rest = Watcher.lastError spawned.source ∧
          next = { spawned with source := rest }) ∨
        ∃ rest, Watcher.frames spawned.source = [] ∧
          next = { spawned with
            source := rest
            ending := some (.frame (Watcher.lastError spawned.source)) })) := by
  rw [taskTurn?] at turned
  split at turned
  next => simp at turned
  next event running held =>
    split at turned
    next room =>
      rw [Option.some.injEq] at turned
      exact ⟨running, .inl ⟨event, held, room, turned.symm⟩⟩
    next => simp at turned
  next running held =>
    refine ⟨running, .inr ⟨held, ?_⟩⟩
    rcases Watcher.nextEvent_cases spawned.source with
      ⟨event, payload, rest, read, decodes, first, same⟩ |
      ⟨failure, payload, rest, read, fails, first, same⟩ | ⟨rest, read, nothing⟩
    · simp only [read, Option.some.injEq] at turned
      exact .inl ⟨event, payload, rest, decodes, first, same, turned.symm⟩
    · simp only [read, Option.some.injEq] at turned
      exact .inr (.inl ⟨failure, payload, rest, fails, first, same, turned.symm⟩)
    · simp only [read, Option.some.injEq] at turned
      exact .inr (.inr ⟨rest, nothing, turned.symm⟩)

/-- The task gives up its turn only at the end, or with an event in hand and no room for it. -/
theorem taskTurn?_eq_none (waits : spawned.taskTurn? capacity = none) :
    (∃ failure, spawned.ending = some failure) ∨ capacity ≤ spawned.channel.length := by
  rw [taskTurn?] at waits
  split at waits
  next cause ended => exact .inl ⟨cause, ended⟩
  next event running held =>
    split at waits
    next => simp at waits
    next full => exact .inr (Nat.not_lt.mp full)
  next running held =>
    rcases Watcher.nextEvent_cases spawned.source with
      ⟨_, _, _, read, _⟩ | ⟨_, _, _, read, _⟩ | ⟨_, read, _⟩
    · simp [read] at waits
    · simp [read] at waits
    · simp [read] at waits

theorem receiverTurn?_cases (turned : spawned.receiverTurn? = some next) :
    ∃ event rest, spawned.channel = event :: rest ∧
      next = { spawned with channel := rest, received := spawned.received ++ [event] } := by
  rw [receiverTurn?] at turned
  split at turned
  next => simp at turned
  next event rest found =>
    rw [Option.some.injEq] at turned
    exact ⟨event, rest, found, turned.symm⟩

theorem receiverTurn?_eq_none (waits : spawned.receiverTurn? = none) : spawned.channel = [] := by
  rw [receiverTurn?] at waits
  split at waits
  next found => exact found
  next => simp at waits

namespace Conveys

theorem taskTurn (conveys : Conveys capacity expected failure spawned)
    (turned : spawned.taskTurn? capacity = some next) :
    Conveys capacity expected failure next ∧ next.turnsLeft + 1 = spawned.turnsLeft := by
  obtain ⟨inOrder, room, reason⟩ := conveys
  obtain ⟨running, moves⟩ := taskTurn?_cases turned
  have source : Watcher.lastError spawned.source = failure := by
    rcases reason with ⟨_, same⟩ | ⟨ended, _⟩
    · exact same
    · simp [running] at ended
  rcases moves with ⟨event, held, free, rfl⟩ |
    ⟨held, ⟨event, payload, rest, decodes, first, same, rfl⟩ |
      ⟨_, payload, rest, fails, first, same, rfl⟩ | ⟨rest, nothing, rfl⟩⟩
  · refine ⟨⟨?_, ?_, .inl ⟨running, source⟩⟩, ?_⟩
    · rw [← inOrder]
      simp [events, ahead, held]
    · rw [List.length_append, List.length_singleton]
      exact free
    · simp only [turnsLeft, ahead, held, running, List.length_append, Option.toList_some,
        Option.toList_none, List.length_singleton, List.length_nil]
      omega
  · have front := Watcher.decoded_cons_ok decodes (Watcher.frames rest)
    refine ⟨⟨?_, room, .inl ⟨running, same.trans source⟩⟩, ?_⟩
    · rw [← inOrder]
      simp [events, ahead, held, running, first, front]
    · simp only [turnsLeft, ahead, held, running, first, front, List.length_cons,
        Option.toList_some, Option.toList_none, List.length_nil]
      omega
  · have front := Watcher.decoded_cons_error fails (Watcher.frames rest)
    refine ⟨⟨?_, room, .inl ⟨running, same.trans source⟩⟩, ?_⟩
    · rw [← inOrder]
      simp [events, ahead, held, running, first, front]
    · simp only [turnsLeft, ahead, held, running, first, front, List.length_cons]
      omega
  · refine ⟨⟨?_, room, .inr ⟨by rw [source], held⟩⟩, ?_⟩
    · rw [← inOrder]
      simp [events, ahead, held, running, nothing]
    · simp [turnsLeft, ahead, held, running, nothing, Watcher.decoded]

theorem receiverTurn (conveys : Conveys capacity expected failure spawned)
    (turned : spawned.receiverTurn? = some next) :
    Conveys capacity expected failure next ∧ next.turnsLeft + 1 = spawned.turnsLeft := by
  obtain ⟨inOrder, room, reason⟩ := conveys
  obtain ⟨event, rest, found, rfl⟩ := receiverTurn?_cases turned
  rw [found, List.length_cons] at room
  refine ⟨⟨?_, Nat.le_of_succ_le room, reason⟩, ?_⟩
  · rw [← inOrder]
    simp [events, ahead, found]
  · simp only [turnsLeft, ahead, found, List.length_cons]
    omega

/-- What one turn keeps holds after any number of them. -/
theorem run (conveys : Conveys capacity expected failure spawned) {turns : List SpawnedTurn}
    (ran : spawned.run? capacity turns = some next) :
    Conveys capacity expected failure next ∧
      next.turnsLeft + turns.length = spawned.turnsLeft := by
  induction turns generalizing spawned with
  | nil =>
    rw [run?, Option.some.injEq] at ran
    rw [← ran]
    exact ⟨conveys, rfl⟩
  | cons first rest ih =>
    rw [run?] at ran
    split at ran
    next => simp at ran
    next after turned =>
      have stepped : Conveys capacity expected failure after ∧
          after.turnsLeft + 1 = spawned.turnsLeft := by
        cases first with
        | task => exact conveys.taskTurn turned
        | receiver => exact conveys.receiverTurn turned
      obtain ⟨reached, left⟩ := ih stepped.1 ran
      refine ⟨reached, ?_⟩
      rw [List.length_cons]
      omega

/-- With room for an event there is a turn left until everything has arrived. -/
theorem stuck (conveys : Conveys capacity expected failure spawned) (positive : 1 ≤ capacity)
    (stuck : spawned.Stuck capacity) :
    spawned.received = expected ∧ spawned.ending = some (.frame failure) ∧
      spawned.turnsLeft = 0 := by
  have empty := receiverTurn?_eq_none stuck.2
  have ended : spawned.ending = some (.frame failure) ∧ spawned.held = none := by
    rcases conveys.reason with ⟨running, _⟩ | done
    · rcases taskTurn?_eq_none stuck.1 with ⟨_, ended⟩ | full
      · simp [running] at ended
      · rw [empty, List.length_nil] at full
        omega
    · exact done
  refine ⟨?_, ended.1, ?_⟩
  · rw [← conveys.inOrder]
    simp [events, ahead, empty, ended.1, ended.2, Watcher.decoded]
  · simp [turnsLeft, ahead, empty, ended.1, ended.2, Watcher.decoded]

end Conveys

/-- What a watcher on a task and its receiver get to, in any order of turns. -/
theorem run_delivers {source : Source} {turns : List SpawnedTurn} {now : Spawned}
    (ran : run? capacity { source } turns = some now) :
    now.channel.length ≤ capacity ∧
    now.received <+: Watcher.decoded (Watcher.frames source) ∧
    turns.length ≤
      (Watcher.frames source).length + 2 * (Watcher.decoded (Watcher.frames source)).length + 1 ∧
    (1 ≤ capacity → now.Stuck capacity →
      now.received = Watcher.decoded (Watcher.frames source) ∧
      now.ending = some (.frame (Watcher.lastError source))) := by
  obtain ⟨conveys, left⟩ := (conveys_start capacity source).run ran
  have total : turnsLeft { source } = (Watcher.frames source).length +
      2 * (Watcher.decoded (Watcher.frames source)).length + 1 := by
    simp [turnsLeft, ahead, Nat.add_comm]
  refine ⟨conveys.room, ?_, by omega, ?_⟩
  · rw [← conveys.inOrder, events, List.append_assoc, List.append_assoc]
    exact List.prefix_append _ _
  · intro positive stuck
    obtain ⟨received, ending, _⟩ := conveys.stuck positive stuck
    exact ⟨received, ending⟩

end Spawned

namespace Watcher

variable {chunks : List (List UInt8)} {payloads : List (List UInt8)} {rest : List UInt8}

/-- What there is to read in bytes that come in any pieces before the peer closes. -/
theorem frames_chunks (nonempty : ∀ chunk ∈ chunks, chunk ≠ [])
    (cut : Frame.Split Size.event chunks.flatten payloads rest) :
    frames (chunks.map .chunk) = payloads ∧
      lastError (chunks.map .chunk) =
        if Frame.Oversized Size.event rest then .oversized (Frame.declared rest) Size.event
        else .peerClosed := by
  have split : Frame.split Size.event (Source.stream (chunks.map .chunk)) = (payloads, rest) := by
    rw [Source.stream_chunks chunks nonempty]
    exact cut.split_eq bounded_event
  rw [frames, lastError, split, Source.ending_chunks]
  exact ⟨rfl, rfl⟩

/-- A frame that does not decode can be left out. -/
theorem decoded_removed (front back : List (List UInt8)) {removed : List UInt8}
    (fails : (Event.decode removed).toOption = none) :
    decoded (front ++ removed :: back) = decoded (front ++ back) := by
  simp only [decoded, List.filterMap_append, List.filterMap_cons, fails]

/-- Bytes come in any pieces, and then the peer closes. They are whole frames
and a rest that begins with none, which tells the error of the stream. Asking
for events one at a time gives what each frame decodes to, and then that error.
A task that passes events on through a channel ends with the error, and its
receiver gets exactly the events of the frames that decode, however the two
take their turns. A watch has one line for each of the same events, prints them
behind its opening line, and succeeds if the peer just closed. A frame that does
not decode could as well be left out. -/
theorem readers_agree (chunks : List (List UInt8)) (nonempty : ∀ chunk ∈ chunks, chunk ≠ []) :
    ∃ (payloads : List (List UInt8)) (rest : List UInt8),
      let source : Source := chunks.map .chunk
      let events := decoded payloads
      let failure : FrameError :=
        if Frame.Oversized Size.event rest then .oversized (Frame.declared rest) Size.event
        else .peerClosed
      Frame.Split Size.event chunks.flatten payloads rest ∧
      results source = payloads.map outcome ++ [.error (.frame failure)] ∧
      forward source none = ⟨events, some (.frame failure)⟩ ∧
      (∀ (capacity : Nat) (turns : List SpawnedTurn) (now : Spawned),
        Spawned.run? capacity { source } turns = some now →
        now.channel.length ≤ capacity ∧ now.received <+: events ∧
        turns.length ≤ payloads.length + 2 * events.length + 1 ∧
        (1 ≤ capacity → now.Stuck capacity →
          now.received = events ∧ now.ending = some (.frame failure))) ∧
      CommandLine.watchLines source = (events.map Event.line,
        if failure = .peerClosed then none else some ⟨"reading events", [failure.text]⟩) ∧
      (∀ socket : Path,
        CommandLine.runWatch socket (.ok source) =
          ⟨"Watching " ++ socket.display ++ " (Ctrl-C to stop)\n" ++
              String.join (events.map fun event => event.line ++ "\n"),
            if failure = .peerClosed then .success
            else .failure ⟨"reading events", [failure.text]⟩⟩) ∧
      ∀ (front back : List (List UInt8)) (undecodable : List UInt8)
        (others : List (List UInt8)), payloads = front ++ undecodable :: back →
        (Event.decode undecodable).toOption = none →
        (∀ chunk ∈ others, chunk ≠ []) →
        others.flatten = (front ++ back).flatMap Frame.whole ++ rest →
        results (others.map .chunk) =
          front.map outcome ++ back.map outcome ++ [.error (.frame failure)] ∧
        forward (others.map .chunk) none = forward source none := by
  obtain ⟨payloads, rest, cut⟩ : ∃ payloads rest,
      Frame.Split Size.event chunks.flatten payloads rest :=
    ⟨_, _, Frame.split_spec Size.event bounded_event chunks.flatten⟩
  refine ⟨payloads, rest, ?_⟩
  intro source events failure
  obtain ⟨whole, last⟩ := frames_chunks nonempty cut
  have forwarded : forward source none = ⟨events, some (.frame failure)⟩ := by
    rw [forward_eq, whole, last]
  refine ⟨cut, ?_, forwarded, ?_, ?_, ?_, ?_⟩
  · rw [results_frames, whole, last]
  · intro capacity turns now ran
    have delivers := Spawned.run_delivers ran
    rw [whole, last] at delivers
    exact delivers
  · rw [CommandLine.watchLines_eq, whole, last]
    rfl
  · intro socket
    rw [CommandLine.runWatch_eq, whole, last]
  · intro front back undecodable others parts fails otherNonempty joined
    rw [parts] at cut
    have otherCut := cut.remove
    rw [← joined] at otherCut
    obtain ⟨otherWhole, otherLast⟩ := frames_chunks otherNonempty otherCut
    refine ⟨?_, ?_⟩
    · rw [results_frames, otherWhole, otherLast, List.map_append]
    · rw [forwarded, forward_eq, otherWhole, otherLast, ← decoded_removed front back fails,
        ← parts]

/-- A press, a frame that does not decode, a release, and a header beyond the limit. -/
def garbled : List (List UInt8) :=
  [[0, 0, 0, 8, 10, 6, 16], [7, 24, 1, 32, 9, 0, 0, 0, 1, 7, 0, 0],
    [0, 6, 10, 4, 16, 7, 32, 12, 0, 0, 16, 0]]

theorem readers_agree_garbled :
    let source : Source := garbled.map .chunk
    let events : List Event := [.kscan ⟨0, 7, true, 9⟩, .kscan ⟨0, 7, false, 12⟩]
    let ending : ClientError := .frame (.oversized 4096 Size.event)
    forward source none = ⟨events, some ending⟩ ∧
    (∃ now, Spawned.run? 1 { source }
        [.task, .task, .receiver, .task, .task, .task, .receiver, .task] = some now ∧
      now.received = events ∧ now.ending = some ending) ∧
    CommandLine.runWatch (.ofString "s") (.ok source) =
      ⟨"Watching s (Ctrl-C to stop)\n" ++
          "[kscan   ] PRESS    pos=7     source=0  ts=9 ms\n" ++
          "[kscan   ] RELEASE  pos=7     source=0  ts=12 ms\n",
        .failure ⟨"reading events", ["peer announced a 4096-byte frame, maximum is 62"]⟩⟩ ∧
    forward [.chunk [0, 0, 0, 8, 10, 6, 16, 7, 24, 1, 32, 9],
      .chunk [0, 0, 0, 6, 10, 4, 16, 7, 32, 12, 0, 0, 16, 0]] none = forward source none := by
  intro source events ending
  obtain ⟨payloads, rest, cut, _, forwarded, delivered, _, watched, removed⟩ :=
    readers_agree garbled (by decide)
  have joined : garbled.flatten = List.flatMap Frame.whole
      [[10, 6, 16, 7, 24, 1, 32, 9], [7], [10, 4, 16, 7, 32, 12]] ++ [0, 0, 16, 0] := by
    decide
  have split : Frame.split Size.event garbled.flatten =
      ([[10, 6, 16, 7, 24, 1, 32, 9], [7], [10, 4, 16, 7, 32, 12]], [0, 0, 16, 0]) := by
    rw [joined, Frame.split_flatMap _ (by decide) bounded_event,
      Frame.split_of_not_starts (by decide), List.append_nil]
  obtain ⟨rfl, rfl⟩ := Prod.mk.inj ((cut.split_eq bounded_event).symm.trans split)
  have decodes : decoded [[10, 6, 16, 7, 24, 1, 32, 9], [7], [10, 4, 16, 7, 32, 12]] = events := by
    decide +kernel
  have last : (if Frame.Oversized Size.event [0, 0, 16, 0] then
      FrameError.oversized (Frame.declared [0, 0, 16, 0]) Size.event else .peerClosed) =
      .oversized 4096 Size.event := by
    decide
  rw [decodes, last] at forwarded delivered watched
  have ran : Spawned.run? 1 { source }
      [.task, .task, .receiver, .task, .task, .task, .receiver, .task] =
        some { source := [], received := events, ending := some ending } := by
    decide +kernel
  refine ⟨forwarded, ⟨_, ran, ?_⟩, ?_, ?_⟩
  · obtain ⟨_, _, _, complete⟩ := delivered 1 _ _ ran
    exact complete (Nat.le_refl 1) (by decide +kernel)
  · rw [watched]
    rfl
  · obtain ⟨_, same⟩ := removed [[10, 6, 16, 7, 24, 1, 32, 9]] [[10, 4, 16, 7, 32, 12]] [7]
      [[0, 0, 0, 8, 10, 6, 16, 7, 24, 1, 32, 9], [0, 0, 0, 6, 10, 4, 16, 7, 32, 12, 0, 0, 16, 0]]
      rfl (by decide +kernel) (by decide) (by decide)
    exact same

end Watcher

end KeyRelay
