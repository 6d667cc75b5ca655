import KeyRelay.Stream.Failure

/-! # Reading from a stream

The readable side of a connection is the list of what its reads will meet:
chunks of bytes and failures. A read takes at most what it asks for from the
first chunk; what is left of the chunk waits for the next read. A read that
gets nothing, from an empty chunk or behind the last item, is at the end of the
stream. -/
set_option autoImplicit false

namespace KeyRelay

inductive Arrival
  | chunk (bytes : List UInt8)
  | failure (cause : StreamFailure)
  deriving DecidableEq, Repr

abbrev Source := List Arrival

namespace Source

/-- The bytes that are still to come, without the failures between them. -/
def bytes : Source → List UInt8
  | [] => []
  | .chunk data :: rest => data ++ bytes rest
  | .failure _ :: rest => bytes rest

/-- Reads exactly `count` bytes. An interrupted read is tried again; any other
failure, and the end of the stream, lose what was read so far. -/
def readExact : Nat → Source → Except StreamFailure (List UInt8) × Source
  | 0, source => (.ok [], source)
  | _ + 1, [] => (.error ⟨.unexpectedEof, none⟩, [])
  | count + 1, .failure cause :: rest =>
    if cause.kind = .interrupted then readExact (count + 1) rest
    else (.error cause, rest)
  | count + 1, .chunk data :: rest =>
    if data.isEmpty then (.error ⟨.unexpectedEof, none⟩, rest)
    else if count + 1 < data.length then
      (.ok (data.take (count + 1)), .chunk (data.drop (count + 1)) :: rest)
    else
      match readExact (count + 1 - data.length) rest with
      | (.ok more, remaining) => (.ok (data ++ more), remaining)
      | (.error cause, remaining) => (.error cause, remaining)

/-- A successful read takes its bytes off the front of what was to come. -/
theorem readExact_bytes {count : Nat} {source next : Source} {found : List UInt8}
    (success : readExact count source = (.ok found, next)) :
    found.length = count ∧ source.bytes = found ++ next.bytes := by
  induction source generalizing count found next with
  | nil =>
    cases count with
    | zero =>
      simp only [readExact, Prod.mk.injEq, Except.ok.injEq] at success
      obtain ⟨rfl, rfl⟩ := success
      simp
    | succ count => simp [readExact] at success
  | cons head rest ih =>
    cases count with
    | zero =>
      simp only [readExact, Prod.mk.injEq, Except.ok.injEq] at success
      obtain ⟨rfl, rfl⟩ := success
      simp
    | succ count =>
      cases head with
      | failure cause =>
        rw [readExact] at success
        split at success
        · simpa only [bytes] using ih success
        · simp at success
      | chunk data =>
        rw [readExact] at success
        split at success
        · simp at success
        · split at success
          · rename_i shorter
            simp only [Prod.mk.injEq, Except.ok.injEq] at success
            obtain ⟨rfl, rfl⟩ := success
            refine ⟨by simp; omega, ?_⟩
            simp only [bytes, ← List.append_assoc, List.take_append_drop]
          · rename_i nonempty notShorter
            split at success
            · rename_i more remaining call
              simp only [Prod.mk.injEq, Except.ok.injEq] at success
              obtain ⟨rfl, rfl⟩ := success
              obtain ⟨length, joined⟩ := ih call
              refine ⟨by simp only [List.length_append]; omega, ?_⟩
              simp only [bytes, joined, List.append_assoc]
            · simp at success

end Source

end KeyRelay
