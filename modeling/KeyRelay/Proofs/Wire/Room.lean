import KeyRelay.Proofs.Wire.Put

/-! # Writing with too little room

Atoms go into the buffer one after another as long as each fits. The first that does not
ends the put: those before it stay where they are, and the error names the place where it
would have ended, which lies behind the end of the buffer. -/
set_option autoImplicit false

namespace KeyRelay.Wire.Writer

variable {writer : Writer} {atom : List UInt8}

theorem length_advance (writer : Writer) (bytes : List UInt8) :
    (writer.advance bytes).length = writer.length + bytes.length := by
  simp only [length, advance, List.length_append]

theorem capacity_advance {bytes : List UInt8} (fits : bytes.length ≤ writer.spare.length) :
    (writer.advance bytes).capacity = writer.capacity := by
  simp only [capacity, advance, List.length_append, List.length_drop]
  omega

theorem append_of_short (short : writer.spare.length < atom.length) :
    writer.append atom =
      (.error ⟨writer.message, writer.length + atom.length, writer.capacity⟩, writer) := by
  rw [append, if_neg (Nat.not_le.mpr short)]

theorem appendAll_of_short {front : List (List UInt8)} (back : List (List UInt8))
    (fits : front.flatten.length ≤ writer.spare.length)
    (short : writer.spare.length < front.flatten.length + atom.length) :
    writer.appendAll (front ++ atom :: back) =
      (.error ⟨writer.message, writer.length + front.flatten.length + atom.length,
        writer.capacity⟩, writer.advance front.flatten) := by
  induction front generalizing writer with
  | nil =>
    rw [List.flatten_nil, List.length_nil, Nat.zero_add] at short
    rw [List.nil_append, appendAll, append_of_short short, List.flatten_nil, advance_nil,
      List.length_nil, Nat.add_zero]
  | cons first rest ih =>
    rw [List.flatten_cons, List.length_append] at fits short
    have spare : (writer.advance first).spare.length = writer.spare.length - first.length :=
      List.length_drop
    have within : rest.flatten.length ≤ (writer.advance first).spare.length := by omega
    have beyond : (writer.advance first).spare.length < rest.flatten.length + atom.length := by
      omega
    have refused := ih within beyond
    rw [length_advance, capacity_advance (by omega), advance_append] at refused
    rw [List.cons_append, appendAll, append_of_fits (by omega)]
    dsimp only
    rw [refused, List.flatten_cons, List.length_append, ← Nat.add_assoc]
    rfl

theorem putAll_singleton (writer : Writer) (item : Put) :
    writer.putAll [item] = writer.appendAll item.atoms := by
  rw [putAll, put]
  rcases writer.appendAll item.atoms with ⟨outcome, next⟩
  cases outcome <;> rfl

end KeyRelay.Wire.Writer
