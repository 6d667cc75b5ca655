import KeyRelay.Stream.Source

/-! # What a reader gets from a stream

A reader gets the bytes in front of the first end: the last item, an empty
chunk, or a failure other than an interruption. How they are cut into chunks,
and where reads are interrupted, makes no difference to an exact read. -/
set_option autoImplicit false

namespace KeyRelay.Source

/-- The bytes that come before the stream ends or fails. -/
def stream : Source → List UInt8
  | [] => []
  | .chunk data :: rest => if data.isEmpty then [] else data ++ stream rest
  | .failure cause :: rest => if cause.kind = .interrupted then stream rest else []

/-- The failure of a read that goes beyond them. -/
def ending : Source → StreamFailure
  | [] => ⟨.unexpectedEof, none⟩
  | .chunk data :: rest => if data.isEmpty then ⟨.unexpectedEof, none⟩ else ending rest
  | .failure cause :: rest => if cause.kind = .interrupted then ending rest else cause

/-- Every item is a chunk with bytes in it, or an interruption. -/
def Flows (arrivals : Source) : Prop :=
  ∀ item ∈ arrivals, (∃ data, item = .chunk data ∧ data ≠ []) ∨
    ∃ cause, item = .failure cause ∧ cause.kind = .interrupted

theorem stream_append {arrivals : Source} (flows : Flows arrivals) (rest : Source) :
    stream (arrivals ++ rest) = arrivals.bytes ++ stream rest := by
  induction arrivals with
  | nil => rfl
  | cons item others ih =>
    have tail := ih fun other member => flows other (List.mem_cons_of_mem _ member)
    rw [List.cons_append]
    rcases flows item List.mem_cons_self with ⟨data, rfl, nonempty⟩ | ⟨cause, rfl, interrupted⟩
    · have head : data.isEmpty = false := by simpa using nonempty
      simp [stream, bytes, head, tail]
    · simp [stream, bytes, interrupted, tail]

theorem ending_append {arrivals : Source} (flows : Flows arrivals) (rest : Source) :
    ending (arrivals ++ rest) = ending rest := by
  induction arrivals with
  | nil => rfl
  | cons item others ih =>
    have tail := ih fun other member => flows other (List.mem_cons_of_mem _ member)
    rw [List.cons_append]
    rcases flows item List.mem_cons_self with ⟨data, rfl, nonempty⟩ | ⟨cause, rfl, interrupted⟩
    · have head : data.isEmpty = false := by simpa using nonempty
      simp [ending, head, tail]
    · simp [ending, interrupted, tail]

/-- Bytes that arrive in any pieces and then end. -/
theorem stream_chunks (chunks : List (List UInt8)) (nonempty : ∀ chunk ∈ chunks, chunk ≠ []) :
    stream (chunks.map .chunk) = chunks.flatten := by
  induction chunks with
  | nil => rfl
  | cons chunk rest ih =>
    have head : chunk.isEmpty = false := by
      simpa using nonempty chunk (by simp)
    have tail := ih fun other member => nonempty other (by simp [member])
    simp [stream, head, tail]

theorem ending_chunks (chunks : List (List UInt8)) :
    ending (chunks.map .chunk) = ⟨.unexpectedEof, none⟩ := by
  induction chunks with
  | nil => rfl
  | cons chunk rest ih => simp [ending, ih]

/-- An exact read takes its bytes off the front. -/
theorem readExact_of_le {count : Nat} {source : Source} (enough : count ≤ source.stream.length) :
    ∃ next : Source, readExact count source = (.ok (source.stream.take count), next) ∧
      next.stream = source.stream.drop count ∧ next.ending = source.ending := by
  induction source generalizing count with
  | nil =>
    have zero : count = 0 := by simpa [stream] using enough
    subst zero
    exact ⟨[], rfl, rfl, rfl⟩
  | cons item rest ih =>
    cases count with
    | zero => exact ⟨item :: rest, rfl, rfl, rfl⟩
    | succ count =>
      cases item with
      | failure cause =>
        by_cases interrupted : cause.kind = .interrupted
        · simp only [stream, ending, if_pos interrupted] at enough ⊢
          rw [readExact, if_pos interrupted]
          exact ih enough
        · simp [stream, interrupted] at enough
      | chunk data =>
        by_cases empty : data.isEmpty
        · simp [stream, empty] at enough
        · simp only [stream, ending, if_neg empty, List.length_append] at enough ⊢
          rw [readExact, if_neg empty]
          by_cases within : count + 1 < data.length
          · -- The read ends inside the chunk, whose tail then stands in front of the rest.
            have left : (data.drop (count + 1)).isEmpty = false := by
              simpa using within
            have short : count + 1 - data.length = 0 := by omega
            rw [if_pos within]
            refine ⟨.chunk (data.drop (count + 1)) :: rest, ?_, ?_, ?_⟩
            · rw [List.take_append, short, List.take_zero, List.append_nil]
            · simp only [stream, left, List.drop_append, short, List.drop_zero]
              rfl
            · simp only [ending, left]
              rfl
          · have more : count + 1 - data.length ≤ (stream rest).length := by omega
            obtain ⟨next, read, nextStream, nextEnding⟩ := ih more
            have whole : data.length ≤ count + 1 := by omega
            rw [if_neg within, read]
            refine ⟨next, ?_, ?_, nextEnding⟩
            · rw [List.take_append, List.take_of_length_le whole]
            · rw [nextStream, List.drop_append, List.drop_of_length_le whole, List.nil_append]

/-- A read that goes beyond the bytes fails as the stream ends. -/
theorem readExact_of_lt {count : Nat} {source : Source} (short : source.stream.length < count) :
    ∃ next : Source, readExact count source = (.error source.ending, next) := by
  induction source generalizing count with
  | nil =>
    cases count with
    | zero => simp at short
    | succ count => exact ⟨[], rfl⟩
  | cons item rest ih =>
    cases count with
    | zero => simp at short
    | succ count =>
      cases item with
      | failure cause =>
        by_cases interrupted : cause.kind = .interrupted
        · simp only [stream, if_pos interrupted] at short
          simp only [ending, readExact, if_pos interrupted]
          exact ih short
        · simp only [ending, readExact, if_neg interrupted]
          exact ⟨rest, rfl⟩
      | chunk data =>
        by_cases empty : data.isEmpty
        · simp only [ending, readExact, if_pos empty]
          exact ⟨rest, rfl⟩
        · simp only [stream, if_neg empty, List.length_append] at short
          have notWithin : ¬ count + 1 < data.length := by omega
          have missing : (stream rest).length < count + 1 - data.length := by omega
          obtain ⟨next, read⟩ := ih missing
          simp only [ending, readExact, if_neg empty, if_neg notWithin, read]
          exact ⟨next, rfl⟩

end KeyRelay.Source
