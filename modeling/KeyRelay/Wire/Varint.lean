/-! # Base-128 integers

A varint holds a number in groups of seven bits, least significant group
first; every byte but the last has its high bit set. A writer emits the
shortest form of a 64-bit value. A reader accepts any form of at most ten bytes
and gives the number that its groups denote, so the caller decides how a
number beyond 64 bits is cut down. -/
set_option autoImplicit false

namespace KeyRelay.Wire.Varint

/-- The most bytes a reader accepts; a full 64-bit value needs all of them. -/
def maxLength : Nat := 10

def maxLength32 : Nat := 5

/-- At most `more + 1` groups of a number, ending at the first group that is the last. -/
def groups : Nat → Nat → List UInt8
  | 0, value => [UInt8.ofNat value]
  | more + 1, value =>
    if value < 128 then [UInt8.ofNat value]
    else UInt8.ofNat (value % 128 + 128) :: groups more (value / 128)

def encode (value : UInt64) : List UInt8 :=
  groups 9 value.toNat

/-- The number of bytes in the shortest form: one for every seven significant bits. -/
def length (value : UInt64) : Nat :=
  value.toNat.log2 / 7 + 1

/-- What a reader finds at the start of a byte string. -/
inductive Reading
  | complete (value : Nat) (rest : List UInt8)
  | truncated
  | overlong (rest : List UInt8)
  deriving DecidableEq, Repr

/-- Reads one number of at most the given number of bytes. -/
def read : Nat → List UInt8 → Reading
  | 0, rest => .overlong rest
  | _ + 1, [] => .truncated
  | more + 1, byte :: rest =>
    if byte < 128 then .complete byte.toNat rest
    else
      match read more rest with
      | .complete high remaining => .complete (byte.toNat % 128 + 128 * high) remaining
      | .truncated => .truncated
      | .overlong remaining => .overlong remaining

theorem groups_ne_nil (more value : Nat) : groups more value ≠ [] := by
  cases more with
  | zero => simp [groups]
  | succ more => rw [groups]; split <;> simp

/-- A complete number takes at least one byte. -/
theorem length_lt_of_read {limit value : Nat} {bytes rest : List UInt8}
    (found : read limit bytes = .complete value rest) : rest.length < bytes.length := by
  induction limit generalizing value bytes rest with
  | zero => simp [read] at found
  | succ more ih =>
    cases bytes with
    | nil => simp [read] at found
    | cons byte tail =>
      rw [read] at found
      split at found
      · simp only [Reading.complete.injEq] at found
        simp [← found.2]
      · split at found
        next high remaining call =>
          simp only [Reading.complete.injEq] at found
          have shorter := ih call
          simp only [List.length_cons, ← found.2]
          omega
        next => simp at found
        next => simp at found

end KeyRelay.Wire.Varint
