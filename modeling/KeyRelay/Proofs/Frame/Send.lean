import KeyRelay.Proofs.Frame.Offer
import KeyRelay.Proofs.Frame.Write
import KeyRelay.Proofs.Stream.Script

/-! # Frames against any connection

Whatever the writes of a connection meet, it gets the front of a frame and nothing else. A
frame that is sent in a single attempt is out exactly if the one call that is not interrupted
takes all of it. A frame that is written out is stopped by the first call that takes nothing
or fails, and is flushed once its last byte is out. A payload that makes no frame is not
written at all. -/
set_option autoImplicit false

namespace KeyRelay

open Acceptance

namespace Sink

variable {sink : Sink} {data : List UInt8}

theorem flush_of_works (works : sink.flushFailure = none) :
    sink.flush = (.ok (), { sink with flushes := sink.flushes + 1 }) := by
  simp only [flush, works]

theorem flush_of_fails {cause : StreamFailure} (fails : sink.flushFailure = some cause) :
    sink.flush = (.error cause, { sink with flushes := sink.flushes + 1 }) := by
  simp only [flush, fails]

theorem flushes_flush (sink : Sink) : sink.flush.2.flushes = sink.flushes + 1 := by
  rw [flush]
  split <;> rfl

theorem writeOnce_took {count : Nat} (took : attempt sink.outcomes data.length = .ok count) :
    count ≤ data.length ∧
      (sink.writeOnce data).2.accepted = sink.accepted ++ data.take count := by
  have outcome := sink.writeOnce_outcome data
  rcases sink.writeOnce_accepted data with
    ⟨written, next, call, bound, accepted⟩ | ⟨cause, next, call, accepted⟩
  · rw [call, took] at outcome
    cases outcome
    rw [call]
    exact ⟨bound, accepted⟩
  · rw [call, took] at outcome
    cases outcome

theorem writeOnce_failed {cause : StreamFailure}
    (failed : attempt sink.outcomes data.length = .error cause) :
    (sink.writeOnce data).2.accepted = sink.accepted := by
  have outcome := sink.writeOnce_outcome data
  rcases sink.writeOnce_accepted data with
    ⟨written, next, call, bound, accepted⟩ | ⟨cause, next, call, accepted⟩
  · rw [call, failed] at outcome
    cases outcome
  · rw [call]
    exact accepted

end Sink

namespace Frame

variable {sink next : Sink} {frame payload : List UInt8} {max : Nat}

/-- The error a failed operation is reported as: the kinds that mean the peer is gone, the one
that means its buffer is full, and the failure itself for all other kinds. -/
inductive Reported (cause : StreamFailure) : FrameError → Prop
  | peerClosed (kind : cause.kind ∈
      [.unexpectedEof, .connectionReset, .connectionAborted, .brokenPipe]) :
    Reported cause .peerClosed
  | congested (kind : cause.kind = .wouldBlock) : Reported cause .congested
  | stream (kind : cause.kind ∉
      [.unexpectedEof, .connectionReset, .connectionAborted, .brokenPipe, .wouldBlock]) :
    Reported cause (.stream cause)

theorem reported_ofFailure (cause : StreamFailure) : Reported cause (.ofFailure cause) := by
  rw [FrameError.ofFailure]
  split
  next lost => exact .peerClosed (by simp [lost])
  next lost => exact .peerClosed (by simp [lost])
  next lost => exact .peerClosed (by simp [lost])
  next lost => exact .peerClosed (by simp [lost])
  next full => exact .congested full
  next _ ended reset aborted broken full =>
    refine .stream ?_
    simp only [List.mem_cons, List.not_mem_nil, or_false, not_or]
    exact ⟨ended, reset, aborted, broken, full⟩

/-- What comes of a frame that is sent in a single attempt. -/
structure SentOnce (sink : Sink) (frame : List UInt8)
    (result : Except FrameError Unit × Sink) : Prop where
  front : ∃ front, front <+: frame ∧ result.2.accepted = sink.accepted ++ front
  calls : result.2.writes = sink.writes + (sink.outcomes.takeWhile interrupts).length + 1
  unflushed : result.2.flushes = sink.flushes
  ok_iff : result.1 = .ok () ↔ attempt sink.outcomes frame.length = .ok frame.length
  took : ∀ count, attempt sink.outcomes frame.length = .ok count →
    result.2.accepted = sink.accepted ++ frame.take count ∧
      (count ≠ frame.length → count < frame.length ∧
        result.1 = .error (.partialWrite count frame.length))
  failed : ∀ cause, attempt sink.outcomes frame.length = .error cause →
    result.2.accepted = sink.accepted ∧
      ∃ error, Reported cause error ∧ result.1 = .error error

/-- What comes of a frame that is written until it is out. -/
structure WrittenOut (sink : Sink) (frame : List UInt8)
    (result : Except FrameError Unit × Sink) : Prop where
  front : ∃ front, front <+: frame ∧ result.2.accepted = sink.accepted ++ front
  ok_iff : result.1 = .ok () ↔
    result.2.accepted = sink.accepted ++ frame ∧ sink.flushFailure = none
  whole_iff : result.2.accepted = sink.accepted ++ frame ↔
    sink.outcomes.dropWhile goesOn = [] ∨ frame.length ≤ taken sink.outcomes
  /-- The last byte is out before the one flush, which has the last word. -/
  flushed : result.2.accepted = sink.accepted ++ frame →
    ∃ before, sink.writeAll frame = (.ok (), before) ∧
      before.accepted = sink.accepted ++ frame ∧ before.flushes = sink.flushes ∧
      result.2 = before.flush.2 ∧ result.2.flushes = sink.flushes + 1 ∧
      ∀ cause, sink.flushFailure = some cause →
        ∃ error, Reported cause error ∧ result.1 = .error error
  unflushed : result.2.accepted ≠ sink.accepted ++ frame → result.2.flushes = sink.flushes
  stopped : ∀ outcome rest, sink.outcomes.dropWhile goesOn = outcome :: rest →
    taken sink.outcomes < frame.length →
    result.2.accepted = sink.accepted ++ frame.take (taken sink.outcomes) ∧
      result.2.writes = sink.writes + (sink.outcomes.takeWhile goesOn).length + 1 ∧
      (∀ count, outcome = .atMost count →
        result.1 = .error (.stream ⟨.writeZero, some "failed to write whole buffer"⟩)) ∧
      ∀ cause, outcome = .failure cause →
        ∃ error, Reported cause error ∧ result.1 = .error error

/-- What was accepted tells how the attempt ends. -/
theorem offer_eq (sink : Sink) (frame : List UInt8) :
    offer sink frame =
      (match attempt sink.outcomes frame.length with
        | .ok count =>
          if count = frame.length then .ok () else .error (.partialWrite count frame.length)
        | .error cause => .error (.ofFailure cause), (sink.writeOnce frame).2) := by
  rw [← sink.writeOnce_outcome frame, offer]
  rcases sink.writeOnce frame with ⟨outcome, next⟩
  cases outcome with
  | ok written =>
    dsimp only
    split <;> rfl
  | error cause => rfl

theorem offer_sentOnce (sink : Sink) (frame : List UInt8) :
    SentOnce sink frame (offer sink frame) := by
  rw [offer_eq]
  refine ⟨?_, sink.writes_writeOnce frame, sink.flushes_writeOnce frame, ?_, ?_, ?_⟩
  · cases met : attempt sink.outcomes frame.length with
    | ok count => exact ⟨_, List.take_prefix count frame, (Sink.writeOnce_took met).2⟩
    | error cause =>
      exact ⟨[], List.nil_prefix, by rw [Sink.writeOnce_failed met, List.append_nil]⟩
  · cases met : attempt sink.outcomes frame.length with
    | ok count => by_cases whole : count = frame.length <;> simp [whole]
    | error cause => simp
  · intro count met
    obtain ⟨bound, accepted⟩ := Sink.writeOnce_took met
    refine ⟨accepted, ?_⟩
    intro part
    refine ⟨Nat.lt_of_le_of_ne bound part, ?_⟩
    rw [met]
    exact if_neg part
  · intro cause met
    refine ⟨Sink.writeOnce_failed met, _, reported_ofFailure cause, ?_⟩
    rw [met]

theorem write_of_whole {before : Sink} (encoded : encode payload max = .ok frame)
    (out : sink.writeAll frame = (.ok (), before)) :
    write sink payload max = (before.flush.1.mapError FrameError.ofFailure, before.flush.2) := by
  simp only [write, encoded, out]
  rcases before.flush with ⟨outcome, done⟩
  cases outcome <;> rfl

theorem write_of_stopped {cause : StreamFailure} (encoded : encode payload max = .ok frame)
    (stopped : sink.writeAll frame = (.error cause, next)) :
    write sink payload max = (.error (.ofFailure cause), next) := by
  simp only [write, encoded, stopped]

/-- Without anything in the way the frame is out, and flushed. -/
theorem write_writtenOut_of_enough (encoded : encode payload max = .ok frame)
    (enough : sink.outcomes.dropWhile goesOn = [] ∨ frame.length ≤ taken sink.outcomes) :
    WrittenOut sink frame (write sink payload max) := by
  obtain ⟨before, out⟩ := Sink.writeAll_of_enough enough
  have accepted := Sink.writeAll_accepted out
  obtain ⟨flushes, flushFailure⟩ := sink.flush_writeAll frame
  rw [out] at flushes flushFailure
  have whole : before.flush.2.accepted = sink.accepted ++ frame := by
    rw [Sink.flush_accepted, accepted]
  rw [write_of_whole encoded out]
  refine ⟨⟨frame, List.prefix_refl frame, whole⟩, ?_, ⟨fun _ => enough, fun _ => whole⟩,
    ?_, fun part => absurd whole part, ?_⟩
  · rw [← flushFailure]
    cases flush : before.flushFailure with
    | none =>
      have flushed : before.flush.1 = .ok () := by rw [Sink.flush_of_works flush]
      rw [flushed]
      exact ⟨fun _ => ⟨whole, rfl⟩, fun _ => rfl⟩
    | some cause =>
      have refused : before.flush.1.mapError FrameError.ofFailure = .error (.ofFailure cause) := by
        rw [Sink.flush_of_fails flush]
        rfl
      rw [refused]
      constructor
      · intro out
        cases out
      · rintro ⟨_, works⟩
        cases works
  · intro _
    refine ⟨before, out, accepted, flushes, rfl, ?_, ?_⟩
    · rw [Sink.flushes_flush, flushes]
    · intro cause fails
      refine ⟨_, reported_ofFailure cause, ?_⟩
      rw [Sink.flush_of_fails (flushFailure.trans fails)]
      rfl
  · intro outcome rest obstacle short
    rcases enough with none | enough
    · simp [none] at obstacle
    · omega

theorem write_writtenOut_of_obstacle {outcome : Acceptance} {rest : List Acceptance}
    (encoded : encode payload max = .ok frame)
    (obstacle : sink.outcomes.dropWhile goesOn = outcome :: rest)
    (short : taken sink.outcomes < frame.length) :
    WrittenOut sink frame (write sink payload max) := by
  obtain ⟨next, stopped, accepted, writes⟩ := Sink.writeAll_of_obstacle obstacle short
  obtain ⟨flushes, _⟩ := sink.flush_writeAll frame
  rw [stopped] at flushes
  have part : next.accepted ≠ sink.accepted ++ frame := by
    rw [accepted]
    intro same
    have length := congrArg List.length (List.append_cancel_left same)
    rw [List.length_take] at length
    omega
  rw [write_of_stopped encoded stopped]
  refine ⟨⟨_, List.take_prefix _ frame, accepted⟩, ?_, ?_, fun whole => absurd whole part,
    fun _ => flushes, ?_⟩
  · simp [part]
  · simp only [part, obstacle, false_iff, not_or]
    exact ⟨List.cons_ne_nil outcome rest, by omega⟩
  · intro met others found _
    rw [obstacle, List.cons.injEq] at found
    obtain ⟨rfl, rfl⟩ := found
    refine ⟨accepted, writes, ?_, ?_⟩
    · rintro count rfl
      rfl
    · rintro cause rfl
      exact ⟨_, reported_ofFailure cause, rfl⟩

theorem write_writtenOut (encoded : encode payload max = .ok frame) :
    WrittenOut sink frame (write sink payload max) := by
  cases obstacle : sink.outcomes.dropWhile goesOn with
  | nil => exact write_writtenOut_of_enough encoded (.inl obstacle)
  | cons outcome rest =>
    by_cases short : taken sink.outcomes < frame.length
    · exact write_writtenOut_of_obstacle encoded obstacle short
    · exact write_writtenOut_of_enough encoded (.inr (Nat.not_lt.mp short))

/-- A payload either makes no frame, and then no write is made, or it makes one, and then the
connection gets of it what its writes let through: one attempt, or all until something stops
it, with the outcome that says so. -/
theorem frame_against_any_script (sink : Sink) (payload : List UInt8) (max : Nat) :
    (max < payload.length ∨ 2 ^ 32 ≤ payload.length →
      send sink payload max = (.error (.tooLarge payload.length max), sink) ∧
      write sink payload max = (.error (.tooLarge payload.length max), sink)) ∧
    (payload.length ≤ max → payload.length < 2 ^ 32 →
      ∃ frame, encode payload max = .ok frame ∧
        SentOnce sink frame (send sink payload max) ∧
        WrittenOut sink frame (write sink payload max)) := by
  constructor
  · intro long
    have refused : encode payload max = .error (.tooLarge payload.length max) := by
      apply if_neg
      rintro ⟨fits, short⟩
      have size : UInt32.size = 2 ^ 32 := rfl
      omega
    simp only [send, write, refused, and_self]
  · intro fits short
    have encoded : encode payload max = .ok (whole payload) := if_pos ⟨fits, short⟩
    refine ⟨whole payload, encoded, ?_, write_writtenOut encoded⟩
    simp only [send, encoded]
    exact offer_sentOnce sink (whole payload)

/-- An interruption, three bytes and then none, for a frame of seven. -/
def haltingSink : Sink :=
  { outcomes := [.failure ⟨.interrupted, none⟩, .atMost 3, .atMost 0, .atMost 9] }

/-- Two bytes, and the peer is gone. -/
def leavingSink : Sink :=
  { outcomes := [.atMost 2, .failure ⟨.brokenPipe, none⟩] }

/-- Sent, the frame stays cut; written out, it stops at the third call, or at the second where
that one fails; beyond the limit, no call is made. -/
theorem frame_against_any_script_halting :
    (send haltingSink [1, 2, 3] 8).1 = .error (.partialWrite 3 7) ∧
    (send haltingSink [1, 2, 3] 8).2.writes = 2 ∧
    (write haltingSink [1, 2, 3] 8).1 =
      .error (.stream ⟨.writeZero, some "failed to write whole buffer"⟩) ∧
    (write haltingSink [1, 2, 3] 8).2.accepted = [0, 0, 0] ∧
    (write haltingSink [1, 2, 3] 8).2.writes = 3 ∧
    (write haltingSink [1, 2, 3] 8).2.flushes = 0 ∧
    (write leavingSink [1, 2, 3] 8).1 = .error .peerClosed ∧
    (write leavingSink [1, 2, 3] 8).2.accepted = [0, 0] ∧
    write haltingSink [1, 2, 3] 2 = (.error (.tooLarge 3 2), haltingSink) := by
  have framed : encode [1, 2, 3] 8 = .ok [0, 0, 0, 3, 1, 2, 3] := rfl
  obtain ⟨frame, encoded, sent, written⟩ :=
    (frame_against_any_script haltingSink [1, 2, 3] 8).2 (by decide) (by decide)
  obtain rfl : frame = [0, 0, 0, 3, 1, 2, 3] := Except.ok.inj (encoded.symm.trans framed)
  obtain ⟨_, part⟩ := sent.took 3 rfl
  obtain ⟨accepted, writes, halted, _⟩ :=
    written.stopped (.atMost 0) [.atMost 9] (by decide) (by decide)
  have unflushed := written.unflushed (by rw [accepted]; decide)
  obtain ⟨frame, encoded, _, left⟩ :=
    (frame_against_any_script leavingSink [1, 2, 3] 8).2 (by decide) (by decide)
  obtain rfl : frame = [0, 0, 0, 3, 1, 2, 3] := Except.ok.inj (encoded.symm.trans framed)
  obtain ⟨front, _, _, failed⟩ :=
    left.stopped (.failure ⟨.brokenPipe, none⟩) [] (by decide) (by decide)
  obtain ⟨error, reported, outcome⟩ := failed _ rfl
  have refused := (frame_against_any_script haltingSink [1, 2, 3] 2).1 (by decide)
  refine ⟨(part (by decide)).2, sent.calls, halted 0 rfl, accepted, writes, unflushed, ?_, front,
    refused.2⟩
  cases reported with
  | peerClosed => exact outcome
  | congested full => exact absurd full (by decide)
  | stream other => exact absurd other (by decide)

end Frame

end KeyRelay
