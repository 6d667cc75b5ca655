import KeyRelay.Proofs.Stream.Sink
import Mathlib.Algebra.GroupWithZero.Nat

/-! # Writes against a script of outcomes

A single attempt is made again as long as it is interrupted, and ends with the next outcome,
whatever that is. A write of all bytes goes on behind interruptions and behind parts that were
accepted. It ends with the first write that accepts nothing or fails, unless all bytes were
accepted before that. -/
set_option autoImplicit false

namespace KeyRelay

namespace Acceptance

def interrupts : Acceptance → Bool
  | .atMost _ => false
  | .failure cause => cause.kind = .interrupted

/-- A write of all bytes goes on behind this. -/
def goesOn : Acceptance → Bool
  | .atMost count => 0 < count
  | .failure cause => cause.kind = .interrupted

def count : Acceptance → Nat
  | .atMost count => count
  | .failure _ => 0

/-- Why a write of all bytes ends with this. -/
def cause : Acceptance → StreamFailure
  | .atMost _ => ⟨.writeZero, some "failed to write whole buffer"⟩
  | .failure cause => cause

/-- How many bytes are accepted before a write of all bytes would have to end. -/
def taken (outcomes : List Acceptance) : Nat :=
  ((outcomes.takeWhile goesOn).map count).sum

/-- What becomes of an attempt to write so many bytes that is not interrupted. -/
def attempt (outcomes : List Acceptance) (size : Nat) : Except StreamFailure Nat :=
  match outcomes.dropWhile interrupts with
  | [] => .ok size
  | .atMost count :: _ => .ok (min count size)
  | .failure cause :: _ => .error cause

variable {outcome : Acceptance}

theorem taken_cons_of_goesOn (rest : List Acceptance) (further : outcome.goesOn) :
    taken (outcome :: rest) = outcome.count + taken rest := by
  rw [taken, List.takeWhile_cons_of_pos further, List.map_cons, List.sum_cons, ← taken]

theorem taken_cons_of_obstacle (rest : List Acceptance) (obstacle : ¬ outcome.goesOn) :
    taken (outcome :: rest) = 0 := by
  rw [taken, List.takeWhile_cons_of_neg obstacle, List.map_nil, List.sum_nil]

theorem count_of_obstacle (obstacle : ¬ outcome.goesOn) : outcome.count = 0 := by
  cases outcome with
  | atMost count => exact Nat.eq_zero_of_not_pos fun some => obstacle (decide_eq_true some)
  | failure cause => rfl

end Acceptance

namespace Sink

open Acceptance

variable {sink : Sink} {rest : List Acceptance} {outcome : Acceptance} {data : List UInt8}

theorem writes_write (sink : Sink) (data : List UInt8) :
    (sink.write data).2.writes = sink.writes + 1 := by
  unfold write
  split <;> rfl

theorem flushes_write (sink : Sink) (data : List UInt8) :
    (sink.write data).2.flushes = sink.flushes := by
  unfold write
  split <;> rfl

theorem flushFailure_write (sink : Sink) (data : List UInt8) :
    (sink.write data).2.flushFailure = sink.flushFailure := by
  unfold write
  split <;> rfl

theorem accepted_write (ahead : sink.outcomes = outcome :: rest) (data : List UInt8) :
    (sink.write data).2.accepted = sink.accepted ++ data.take outcome.count := by
  cases outcome with
  | atMost count => exact write_atMost ahead data
  | failure cause => rw [write_failure ahead, count, List.take_zero, List.append_nil]

/-- The sink at the call that is not interrupted. -/
def ready (sink : Sink) : Sink :=
  { sink with
    outcomes := sink.outcomes.dropWhile interrupts
    writes := sink.writes + (sink.outcomes.takeWhile interrupts).length }

theorem ready_of_final (final : ∀ outcome rest, sink.outcomes = outcome :: rest →
    ¬ outcome.interrupts) : sink.ready = sink := by
  obtain ⟨outcomes, flushFailure, accepted, writes, flushes⟩ := sink
  cases outcomes with
  | nil => rfl
  | cons outcome rest =>
    have last := final outcome rest rfl
    simp only [ready, List.dropWhile_cons_of_neg last, List.takeWhile_cons_of_neg last,
      List.length_nil, Nat.add_zero]

theorem ready_of_interrupted {cause : StreamFailure}
    (ahead : sink.outcomes = .failure cause :: rest) (interrupted : cause.kind = .interrupted)
    (data : List UInt8) : (sink.write data).2.ready = sink.ready := by
  have again : Acceptance.interrupts (.failure cause) := decide_eq_true interrupted
  simp only [ready, write, ahead, List.dropWhile_cons_of_pos again,
    List.takeWhile_cons_of_pos again, List.length_cons]
  congr 1
  omega

/-- A single attempt is one write, behind those that are interrupted. -/
theorem writeOnce_eq (sink : Sink) (data : List UInt8) :
    sink.writeOnce data = sink.ready.write data := by
  induction ahead : sink.outcomes generalizing sink with
  | nil =>
    rw [writeOnce_final data (by simp [ahead]), ready_of_final (by simp [ahead])]
  | cons outcome rest ih =>
    cases outcome with
    | atMost count =>
      rw [writeOnce_final data (by simp [ahead]), ready_of_final (by simp [ahead, interrupts])]
    | failure cause =>
      by_cases interrupted : cause.kind = .interrupted
      · rw [writeOnce_interrupted ahead interrupted,
          ih (sink.write data).2 (outcomes_write_cons ahead data),
          ready_of_interrupted ahead interrupted]
      · rw [writeOnce_final data (by simp [ahead, interrupted]),
          ready_of_final (by simp [ahead, interrupts, interrupted])]

theorem writeOnce_outcome (sink : Sink) (data : List UInt8) :
    (sink.writeOnce data).1 = attempt sink.outcomes data.length := by
  rw [writeOnce_eq]
  cases ahead : sink.outcomes.dropWhile interrupts with
  | nil => simp only [write, ready, attempt, ahead]
  | cons outcome rest => cases outcome <;> simp only [write, ready, attempt, ahead]

theorem writes_writeOnce (sink : Sink) (data : List UInt8) :
    (sink.writeOnce data).2.writes =
      sink.writes + (sink.outcomes.takeWhile interrupts).length + 1 := by
  rw [writeOnce_eq, writes_write]
  rfl

theorem flushes_writeOnce (sink : Sink) (data : List UInt8) :
    (sink.writeOnce data).2.flushes = sink.flushes := by
  rw [writeOnce_eq, flushes_write]
  rfl

/-- Bytes that were accepted are not written again. -/
theorem writeAll_goesOn (ahead : sink.outcomes = outcome :: rest) (further : outcome.goesOn)
    (bytes : data ≠ []) :
    sink.writeAll data = (sink.write data).2.writeAll (data.drop outcome.count) := by
  cases outcome with
  | atMost count =>
    have positive : 0 < count := of_decide_eq_true further
    rw [writeAll_atMost ahead bytes, if_neg (by omega)]
    rfl
  | failure cause =>
    have interrupted : cause.kind = .interrupted := of_decide_eq_true further
    rw [writeAll_failure ahead bytes, if_pos interrupted, count, List.drop_zero]

theorem writeAll_obstacle (ahead : sink.outcomes = outcome :: rest) (obstacle : ¬ outcome.goesOn)
    (bytes : data ≠ []) :
    sink.writeAll data = (.error outcome.cause, (sink.write data).2) := by
  cases outcome with
  | atMost count =>
    have nothing : ¬ 0 < count := fun positive => obstacle (decide_eq_true positive)
    rw [writeAll_atMost ahead bytes, if_pos (by omega)]
    rfl
  | failure cause =>
    have final : cause.kind ≠ .interrupted := fun again => obstacle (decide_eq_true again)
    rw [writeAll_failure ahead bytes, if_neg final]
    rfl

theorem flush_writeAll (sink : Sink) (data : List UInt8) :
    (sink.writeAll data).2.flushes = sink.flushes ∧
      (sink.writeAll data).2.flushFailure = sink.flushFailure := by
  induction ahead : sink.outcomes generalizing sink data with
  | nil =>
    by_cases bytes : data = []
    · rw [bytes, writeAll_empty]
      exact ⟨rfl, rfl⟩
    · rw [writeAll_nil ahead bytes]
      exact ⟨flushes_write sink data, flushFailure_write sink data⟩
  | cons outcome rest ih =>
    by_cases bytes : data = []
    · rw [bytes, writeAll_empty]
      exact ⟨rfl, rfl⟩
    · by_cases further : outcome.goesOn
      · rw [writeAll_goesOn ahead further bytes, ← flushes_write sink data,
          ← flushFailure_write sink data]
        exact ih _ _ (outcomes_write_cons ahead data)
      · rw [writeAll_obstacle ahead further bytes]
        exact ⟨flushes_write sink data, flushFailure_write sink data⟩

/-- Nothing is in the way before all bytes are out. -/
theorem writeAll_of_enough
    (enough : sink.outcomes.dropWhile goesOn = [] ∨ data.length ≤ taken sink.outcomes) :
    ∃ next, sink.writeAll data = (.ok (), next) := by
  induction ahead : sink.outcomes generalizing sink data with
  | nil =>
    by_cases bytes : data = []
    · exact ⟨sink, by rw [bytes, writeAll_empty]⟩
    · exact ⟨_, writeAll_nil ahead bytes⟩
  | cons outcome rest ih =>
    by_cases bytes : data = []
    · exact ⟨sink, by rw [bytes, writeAll_empty]⟩
    · have remaining := outcomes_write_cons ahead data
      rw [ahead] at enough
      by_cases further : outcome.goesOn
      · rw [List.dropWhile_cons_of_pos further, taken_cons_of_goesOn rest further] at enough
        rw [writeAll_goesOn ahead further bytes]
        apply ih _ remaining
        rw [remaining, List.length_drop]
        exact enough.imp id (by omega)
      · rw [List.dropWhile_cons_of_neg further, taken_cons_of_obstacle rest further] at enough
        have empty : data.length = 0 := by simpa using enough
        exact absurd (List.length_eq_zero_iff.mp empty) bytes

/-- The write ends where something is in the way, with what was accepted until then. -/
theorem writeAll_of_obstacle (obstacle : sink.outcomes.dropWhile goesOn = outcome :: rest)
    (before : taken sink.outcomes < data.length) :
    ∃ next, sink.writeAll data = (.error outcome.cause, next) ∧
      next.accepted = sink.accepted ++ data.take (taken sink.outcomes) ∧
      next.writes = sink.writes + (sink.outcomes.takeWhile goesOn).length + 1 := by
  have bytes : data ≠ [] := List.length_pos_iff.mp (by omega)
  induction ahead : sink.outcomes generalizing sink data with
  | nil => simp [ahead] at obstacle
  | cons first others ih =>
    have remaining := outcomes_write_cons ahead data
    rw [ahead] at obstacle before
    by_cases further : first.goesOn
    · rw [List.dropWhile_cons_of_pos further] at obstacle
      rw [taken_cons_of_goesOn others further] at before ⊢
      have later : (sink.write data).2.outcomes.dropWhile goesOn = outcome :: rest := by
        rw [remaining, obstacle]
      have left : taken (sink.write data).2.outcomes < (data.drop first.count).length := by
        rw [remaining, List.length_drop]
        omega
      obtain ⟨next, call, accepted, writes⟩ :=
        ih later left (List.length_pos_iff.mp (by omega)) remaining
      refine ⟨next, ?_, ?_, ?_⟩
      · rw [writeAll_goesOn ahead further bytes, call]
      · rw [accepted, accepted_write ahead, List.append_assoc, List.take_add]
      · rw [writes, writes_write, List.takeWhile_cons_of_pos further, List.length_cons]
        omega
    · rw [List.dropWhile_cons_of_neg further, List.cons.injEq] at obstacle
      obtain ⟨rfl, rfl⟩ := obstacle
      refine ⟨_, writeAll_obstacle ahead further bytes, ?_, ?_⟩
      · rw [accepted_write ahead, count_of_obstacle further, taken_cons_of_obstacle others further]
      · rw [writes_write, List.takeWhile_cons_of_neg further, List.length_nil, Nat.add_zero]

end Sink

end KeyRelay
