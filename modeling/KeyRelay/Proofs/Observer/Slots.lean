import KeyRelay.Proofs.Observer.Table

/-! # The table slot by slot

A newcomer takes the free slot with the least index. Sending a frame to all is
one attempt for each subscriber, in the order of the slots: the turn of a slot
offers the frame to the subscriber in it and frees the slot if that fails, and
leaves the other slots alone. -/
set_option autoImplicit false

namespace KeyRelay

namespace SubscriberTable

theorem fillFirst_eq_some_iff {subscriber : Subscriber} {slots filled : List (Option Subscriber)}
    {index : Nat} :
    fillFirst subscriber slots = some (index, filled) ↔
      slots[index]? = some none ∧ (∀ lower < index, slots[lower]? ≠ some none) ∧
      filled = slots.set index (some subscriber) := by
  induction slots generalizing index filled with
  | nil => simp [fillFirst]
  | cons slot rest ih =>
    cases slot with
    | none =>
      constructor
      · intro found
        simp only [fillFirst, Option.some.injEq, Prod.mk.injEq] at found
        obtain ⟨rfl, rfl⟩ := found
        exact ⟨rfl, by simp, rfl⟩
      · rintro ⟨_, least, rfl⟩
        -- The first slot is free already, so no later one is the first.
        have first : index = 0 := by
          apply Nat.eq_zero_of_not_pos
          intro later
          exact least 0 later rfl
        rw [first]
        rfl
    | some taken =>
      simp only [fillFirst, Option.map_eq_some_iff, Prod.mk.injEq, Prod.exists]
      constructor
      · rintro ⟨inner, others, found, rfl, rfl⟩
        obtain ⟨free, least, rfl⟩ := ih.mp found
        refine ⟨free, ?_, rfl⟩
        intro lower before
        cases lower with
        | zero => simp
        | succ lower => exact least lower (by omega)
      · rintro ⟨free, least, rfl⟩
        cases index with
        | zero => simp at free
        | succ index =>
          refine ⟨index, rest.set index (some subscriber), ih.mpr ⟨free, ?_, rfl⟩, rfl, rfl⟩
          intro lower before
          exact least (lower + 1) (by omega)

/-- A newcomer gets the free slot with the least index, and no other slot changes. -/
theorem insert_eq_some_iff {table next : SubscriberTable} {subscriber : Subscriber} {index : Nat} :
    table.insert subscriber = some (index, next) ↔
      table.slots[index]? = some none ∧ (∀ lower < index, table.slots[lower]? ≠ some none) ∧
      next.slots = table.slots.set index (some subscriber) := by
  obtain ⟨slots⟩ := next
  rw [← fillFirst_eq_some_iff]
  simp [insert]

end SubscriberTable

/-- One attempt to send: the slot, the subscriber that was in it, and how it went. -/
structure Attempt where
  index : Nat
  subscriber : Subscriber
  result : Except FrameError Unit

namespace SubscriberTable

/-- The turn of one slot. -/
def turn (frame : List UInt8) (index : Nat) (slots : List (Option Subscriber)) :
    List Attempt × List (Option Subscriber) :=
  match slots[index]? with
  | some (some subscriber) =>
    ([⟨index, subscriber, (Frame.offer subscriber.sink frame).1⟩],
      slots.set index (subscriber.keep? frame))
  | _ => ([], slots)

/-- The turns of the first slots, one after another. -/
def turns (frame : List UInt8) (slots : List (Option Subscriber)) :
    Nat → List Attempt × List (Option Subscriber)
  | 0 => ([], slots)
  | count + 1 =>
    let (earlier, between) := turns frame slots count
    let (next, after) := turn frame count between
    (earlier ++ next, after)

variable {frame : List UInt8}

end SubscriberTable

end KeyRelay
