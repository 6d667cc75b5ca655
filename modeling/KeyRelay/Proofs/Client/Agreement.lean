import KeyRelay.CommandLine.ClientRun
import KeyRelay.Proofs.Client.Watcher

/-! # What the readers of events make of a stream

The frames of a stream are read up to the first error of the stream itself. A
reader that passes events on, and one that prints them, both keep the events of
the frames that decode, in order, and both stop at that error. -/
set_option autoImplicit false

namespace KeyRelay

namespace Watcher

/-- The payloads that are read before the first error of the stream. -/
def frames (source : Source) : List (List UInt8) :=
  (Frame.split Size.event source.stream).1

/-- The first error of the stream. -/
def lastError (source : Source) : FrameError :=
  Frame.endError Size.event (Frame.split Size.event source.stream).2 source.ending

/-- The events of the frames that decode. -/
def decoded (payloads : List (List UInt8)) : List Event :=
  payloads.filterMap fun payload => (Event.decode payload).toOption

theorem decoded_cons_ok {payload : List UInt8} {event : Event}
    (decodes : Event.decode payload = .ok event) (others : List (List UInt8)) :
    decoded (payload :: others) = event :: decoded others := by
  rw [decoded, List.filterMap_cons, decodes]
  rfl

theorem decoded_cons_error {payload : List UInt8} {failure : Wire.DecodeError}
    (fails : Event.decode payload = .error failure) (others : List (List UInt8)) :
    decoded (payload :: others) = decoded others := by
  rw [decoded, List.filterMap_cons, fails]
  rfl

/-- Asked for events one at a time, a watcher gives the outcome of each frame. -/
theorem results_frames (source : Source) :
    results source = (frames source).map outcome ++ [.error (.frame (lastError source))] :=
  results_eq source

/-- One call takes the first frame, whose payload decodes or does not, or meets
the error of the stream. -/
theorem nextEvent_cases (source : Source) :
    (∃ event payload next, nextEvent source = (.ok event, next) ∧
      Event.decode payload = .ok event ∧
      frames source = payload :: frames next ∧ lastError next = lastError source) ∨
    (∃ failure payload next, nextEvent source = (.error (.decode failure), next) ∧
      Event.decode payload = .error failure ∧
      frames source = payload :: frames next ∧ lastError next = lastError source) ∨
    ∃ next, nextEvent source = (.error (.frame (lastError source)), next) ∧
      frames source = [] := by
  rcases Frame.receive_cases bounded_event source with
    ⟨payload, next, received, splits, nextEnding, _⟩ | ⟨next, received, splits, _⟩
  · have first : frames source = payload :: frames next := by
      rw [frames, splits, frames]
    have sameError : lastError next = lastError source := by
      rw [lastError, lastError, splits, nextEnding]
    have read := nextEvent_of_receive received
    cases decodes : Event.decode payload with
    | ok event =>
      rw [outcome, decodes] at read
      exact .inl ⟨event, payload, next, read, decodes, first, sameError⟩
    | error failure =>
      rw [outcome, decodes] at read
      exact .inr (.inl ⟨failure, payload, next, read, decodes, first, sameError⟩)
  · have nothing : frames source = [] := by
      rw [frames, splits]
    have same : lastError source = Frame.endError Size.event source.stream source.ending := by
      rw [lastError, splits]
    refine .inr (.inr ⟨next, ?_, nothing⟩)
    rw [nextEvent, received, same]

/-- Induction along the frames of a stream, one call at a time. -/
theorem frames_induction {motive : Source → Prop}
    (passed : ∀ source event payload next, nextEvent source = (.ok event, next) →
      Event.decode payload = .ok event → frames source = payload :: frames next →
      lastError next = lastError source → motive next → motive source)
    (skipped : ∀ source failure payload next,
      nextEvent source = (.error (.decode failure), next) →
      Event.decode payload = .error failure → frames source = payload :: frames next →
      lastError next = lastError source → motive next → motive source)
    (ended : ∀ source next, nextEvent source = (.error (.frame (lastError source)), next) →
      frames source = [] → motive source) (source : Source) : motive source := by
  induction found : frames source generalizing source with
  | nil =>
    rcases nextEvent_cases source with
      ⟨_, _, _, _, _, first, _⟩ | ⟨_, _, _, _, _, first, _⟩ | ⟨next, read, nothing⟩
    · simp [first] at found
    · simp [first] at found
    · exact ended source next read nothing
  | cons payload others ih =>
    rcases nextEvent_cases source with
      ⟨event, own, next, read, decodes, first, sameError⟩ |
      ⟨failure, own, next, read, fails, first, sameError⟩ | ⟨_, _, nothing⟩
    · rw [first, List.cons.injEq] at found
      exact passed source event own next read decodes first sameError (ih next found.2)
    · rw [first, List.cons.injEq] at found
      exact skipped source failure own next read fails first sameError (ih next found.2)
    · simp [nothing] at found

theorem forward_of_ok {source next : Source} {event : Event}
    (read : nextEvent source = (.ok event, next)) :
    forward source none =
      ⟨event :: (forward next none).events, (forward next none).ending⟩ := by
  rw [forward]
  · split
    next call =>
      simp only [read, Prod.mk.injEq, Except.ok.injEq] at call
      obtain ⟨rfl, rfl⟩ := call
      rfl
    next call => simp [read] at call
    next notDecode call => simp [read] at call
  · intro taken
    cases taken

theorem forward_of_decode {source next : Source} {failure : Wire.DecodeError}
    (read : nextEvent source = (.error (.decode failure), next)) :
    forward source none = forward next none := by
  rw [forward]
  · split
    next call => simp [read] at call
    next call =>
      simp only [read, Prod.mk.injEq] at call
      rw [call.2]
    next notDecode call =>
      simp only [read, Prod.mk.injEq, Except.error.injEq] at call
      exact absurd call.1.symm (notDecode failure)
  · intro taken
    cases taken

theorem forward_of_frame {source next : Source} {failure : FrameError}
    (read : nextEvent source = (.error (.frame failure), next)) :
    forward source none = ⟨[], some (.frame failure)⟩ := by
  rw [forward]
  · split
    next call => simp [read] at call
    next call => simp [read] at call
    next notDecode call =>
      simp only [read, Prod.mk.injEq, Except.error.injEq] at call
      rw [← call.1]
  · intro taken
    cases taken

/-- A receiver that never leaves gets the events of the frames that decode. -/
theorem forward_eq (source : Source) :
    forward source none = ⟨decoded (frames source), some (.frame (lastError source))⟩ := by
  induction source using frames_induction with
  | passed source event payload next read decodes first sameError ih =>
    rw [forward_of_ok read, ih, sameError, first, decoded_cons_ok decodes]
  | skipped source failure payload next read fails first sameError ih =>
    rw [forward_of_decode read, ih, sameError, first, decoded_cons_error fails]
  | ended source next read nothing =>
    rw [forward_of_frame read, nothing]
    rfl

end Watcher

namespace CommandLine

theorem watchLines_of_ok {source next : Source} {event : Event}
    (read : Watcher.nextEvent source = (.ok event, next)) :
    watchLines source = (event.line :: (watchLines next).1, (watchLines next).2) := by
  rw [watchLines]
  split
  next call =>
    simp only [read, Prod.mk.injEq, Except.ok.injEq] at call
    obtain ⟨rfl, rfl⟩ := call
    rfl
  next call => simp [read] at call
  next notDecode call => simp [read] at call

theorem watchLines_of_decode {source next : Source} {failure : Wire.DecodeError}
    (read : Watcher.nextEvent source = (.error (.decode failure), next)) :
    watchLines source = watchLines next := by
  rw [watchLines]
  split
  next call => simp [read] at call
  next call =>
    simp only [read, Prod.mk.injEq] at call
    rw [call.2]
  next notDecode call =>
    simp only [read, Prod.mk.injEq, Except.error.injEq] at call
    exact absurd call.1.symm (notDecode failure)

/-- The report of a stream that ended with an error; a relay that closed is none. -/
def watchReport (failure : FrameError) : Option Report :=
  if failure = .peerClosed then none else some ⟨"reading events", [failure.text]⟩

theorem watchLines_of_frame {source next : Source} {failure : FrameError}
    (read : Watcher.nextEvent source = (.error (.frame failure), next)) :
    watchLines source = ([], watchReport failure) := by
  rw [watchLines]
  split
  next call => simp [read] at call
  next call => simp [read] at call
  next notDecode call =>
    simp only [read, Prod.mk.injEq, Except.error.injEq] at call
    rw [← call.1, watchReport]
    cases failure <;> rfl

/-- There is a line for every event that is passed on, and none besides. -/
theorem watchLines_eq (source : Source) :
    watchLines source = ((Watcher.decoded (Watcher.frames source)).map Event.line,
      watchReport (Watcher.lastError source)) := by
  induction source using Watcher.frames_induction with
  | passed source event payload next read decodes first sameError ih =>
    rw [watchLines_of_ok read, ih, sameError, first, Watcher.decoded_cons_ok decodes,
      List.map_cons]
  | skipped source failure payload next read fails first sameError ih =>
    rw [watchLines_of_decode read, ih, sameError, first, Watcher.decoded_cons_error fails]
  | ended source next read nothing =>
    rw [watchLines_of_frame read, nothing]
    rfl

/-- Each line that is printed ends in a line feed. -/
theorem lines_eq (texts : List String) :
    lines texts = String.join (texts.map fun line => line ++ "\n") := by
  induction texts with
  | nil => rfl
  | cons line texts ih =>
    rw [List.map_cons, String.join_cons, ← ih]
    rfl

/-- A watch prints its opening line and then one line for every event. -/
theorem runWatch_eq (socket : Path) (source : Source) :
    runWatch socket (.ok source) =
      ⟨"Watching " ++ socket.display ++ " (Ctrl-C to stop)\n" ++
          String.join ((Watcher.decoded (Watcher.frames source)).map fun event =>
            event.line ++ "\n"),
        if Watcher.lastError source = .peerClosed then .success
        else .failure ⟨"reading events", [(Watcher.lastError source).text]⟩⟩ := by
  have opening : s!"Watching {socket.display} (Ctrl-C to stop)" ++ "\n" =
      "Watching " ++ socket.display ++ " (Ctrl-C to stop)\n" := by
    rw [String.append_assoc]
    rfl
  have printed := lines_eq (s!"Watching {socket.display} (Ctrl-C to stop)" ::
    (Watcher.decoded (Watcher.frames source)).map Event.line)
  rw [List.map_cons, List.map_map, String.join_cons, opening] at printed
  simp only [runWatch, watchLines_eq, watchReport]
  by_cases closed : Watcher.lastError source = .peerClosed
  · rw [if_pos closed, if_pos closed, conclude, printed]
    rfl
  · rw [if_neg closed, if_neg closed, conclude, printed]
    rfl

end CommandLine

end KeyRelay
