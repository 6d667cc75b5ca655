import KeyRelay.Observer.SubscriberTable
import KeyRelay.Proofs.Frame.Offer

/-! # What the table does with its subscribers

Taking one in adds it and moves no other out. Offering a frame keeps those that
took it whole and drops those that took less; no subscriber is lost or offered
the frame twice. -/
set_option autoImplicit false

namespace KeyRelay

/-- A subscriber before and after it took a frame whole. -/
def Subscriber.Took (frame : List UInt8) (before after : Subscriber) : Prop :=
  after.number = before.number ∧ after.sink.accepted = before.sink.accepted ++ frame

/-- A subscriber before and after it took only the front of a frame. -/
def Subscriber.TookPart (frame : List UInt8) (before after : Subscriber) : Prop :=
  after.number = before.number ∧ ∃ cut, after.sink.accepted = before.sink.accepted ++ cut ∧
    cut <+: frame ∧ cut.length < frame.length

/-- The subscriber after one attempt to send, if that succeeded. -/
def Subscriber.keep? (frame : List UInt8) (subscriber : Subscriber) : Option Subscriber :=
  match Frame.offer subscriber.sink frame with
  | (.ok (), sink) => some { subscriber with sink }
  | (.error _, _) => none

theorem Subscriber.keep?_of_isOk {frame : List UInt8} {subscriber : Subscriber}
    (takes : (Frame.offer subscriber.sink frame).1.isOk) :
    subscriber.keep? frame =
      some { subscriber with sink := (Frame.offer subscriber.sink frame).2 } := by
  rw [keep?]
  split
  next sink call => rw [call]
  next failure sink call => simp [call, Except.isOk, Except.toBool] at takes

namespace SubscriberTable

theorem fillFirst_perm {subscriber : Subscriber} {slots filled : List (Option Subscriber)}
    {index : Nat} (found : fillFirst subscriber slots = some (index, filled)) :
    (filled.filterMap id).Perm (subscriber :: slots.filterMap id) := by
  induction slots generalizing index filled with
  | nil => simp [fillFirst] at found
  | cons slot rest ih =>
    cases slot with
    | none =>
      simp only [fillFirst, Option.some.injEq, Prod.mk.injEq] at found
      obtain ⟨_, rfl⟩ := found
      exact List.Perm.refl _
    | some taken =>
      simp only [fillFirst, Option.map_eq_some_iff, Prod.mk.injEq] at found
      obtain ⟨⟨inner, others⟩, call, _, rfl⟩ := found
      exact ((ih call).cons taken).trans (List.Perm.swap subscriber taken _)

theorem insert_perm {table next : SubscriberTable} {subscriber : Subscriber} {index : Nat}
    (taken : table.insert subscriber = some (index, next)) :
    next.subscribers.Perm (subscriber :: table.subscribers) := by
  simp only [insert, Option.map_eq_some_iff, Prod.mk.injEq] at taken
  obtain ⟨⟨inner, slots⟩, call, _, rfl⟩ := taken
  exact fillFirst_perm call

/-- One subscriber is kept or dropped by its own attempt; the others fare as they would
without it. -/
theorem offerEach_cases (frame : List UInt8) (subscriber : Subscriber)
    (rest : List (Option Subscriber)) :
    (∃ sink, Frame.offer subscriber.sink frame = (.ok (), sink) ∧
      offerEach frame (some subscriber :: rest) =
        ⟨some { subscriber with sink } :: (offerEach frame rest).slots,
          (offerEach frame rest).delivered + 1, (offerEach frame rest).dropped⟩) ∨
    ∃ failure sink, Frame.offer subscriber.sink frame = (.error failure, sink) ∧
      offerEach frame (some subscriber :: rest) =
        ⟨none :: (offerEach frame rest).slots, (offerEach frame rest).delivered,
          { subscriber with sink } :: (offerEach frame rest).dropped⟩ := by
  rcases call : Frame.offer subscriber.sink frame with ⟨result, sink⟩
  cases result with
  | ok done => exact .inl ⟨sink, rfl, by simp only [offerEach, call]⟩
  | error failure => exact .inr ⟨failure, sink, rfl, by simp only [offerEach, call]⟩

theorem offerEach_some {frame : List UInt8} (nonempty : 0 < frame.length) (subscriber : Subscriber)
    (rest : List (Option Subscriber)) :
    (∃ after, subscriber.Took frame after ∧
      (offerEach frame (some subscriber :: rest)).slots =
        some after :: (offerEach frame rest).slots ∧
      (offerEach frame (some subscriber :: rest)).dropped = (offerEach frame rest).dropped) ∨
    ∃ after, subscriber.TookPart frame after ∧
      (offerEach frame (some subscriber :: rest)).slots = none :: (offerEach frame rest).slots ∧
      (offerEach frame (some subscriber :: rest)).dropped =
        after :: (offerEach frame rest).dropped := by
  rcases offerEach_cases frame subscriber rest with
    ⟨sink, call, result⟩ | ⟨failure, sink, call, result⟩
  · rcases Frame.offer_accepted subscriber.sink nonempty with
      ⟨next, found, accepted⟩ | ⟨_, _, _, found, _⟩
    · rw [call, Prod.mk.injEq] at found
      rw [← found.2] at accepted
      exact .inl ⟨{ subscriber with sink }, ⟨rfl, accepted⟩, by rw [result], by rw [result]⟩
    · simp [call] at found
  · rcases Frame.offer_accepted subscriber.sink nonempty with
      ⟨next, found, _⟩ | ⟨_, next, cut, found, accepted, part, shorter⟩
    · simp [call] at found
    · rw [call, Prod.mk.injEq] at found
      rw [← found.2] at accepted
      exact .inr ⟨{ subscriber with sink }, ⟨rfl, cut, accepted, part, shorter⟩, by rw [result],
        by rw [result]⟩

theorem offerEach_numbers (frame : List UInt8) (slots : List (Option Subscriber)) :
    (((offerEach frame slots).slots.filterMap id ++ (offerEach frame slots).dropped).map
      (·.number)).Perm ((slots.filterMap id).map (·.number)) := by
  induction slots with
  | nil => exact List.Perm.refl _
  | cons slot rest ih =>
    cases slot with
    | none => exact ih
    | some subscriber =>
      rcases offerEach_cases frame subscriber rest with ⟨sink, _, result⟩ | ⟨_, sink, _, result⟩
      · rw [result]
        exact ih.cons subscriber.number
      · rw [result]
        refine List.Perm.trans ?_ (ih.cons subscriber.number)
        exact List.perm_middle.map _

theorem took_of_mem {frame : List UInt8} (nonempty : 0 < frame.length)
    {slots : List (Option Subscriber)} {after : Subscriber}
    (member : after ∈ (offerEach frame slots).slots.filterMap id) :
    ∃ before ∈ slots.filterMap id, before.Took frame after := by
  induction slots with
  | nil => simp [offerEach] at member
  | cons slot rest ih =>
    cases slot with
    | none => exact ih member
    | some subscriber =>
      rcases offerEach_some nonempty subscriber rest with
        ⟨kept, took, slots, _⟩ | ⟨lost, _, slots, _⟩
      · rw [slots] at member
        rcases List.mem_cons.mp member with rfl | member
        · exact ⟨subscriber, List.mem_cons_self, took⟩
        · obtain ⟨before, present, others⟩ := ih member
          exact ⟨before, List.mem_cons_of_mem _ present, others⟩
      · rw [slots] at member
        obtain ⟨before, present, others⟩ := ih member
        exact ⟨before, List.mem_cons_of_mem _ present, others⟩

theorem tookPart_of_mem {frame : List UInt8} (nonempty : 0 < frame.length)
    {slots : List (Option Subscriber)} {after : Subscriber}
    (member : after ∈ (offerEach frame slots).dropped) :
    ∃ before ∈ slots.filterMap id, before.TookPart frame after := by
  induction slots with
  | nil => simp [offerEach] at member
  | cons slot rest ih =>
    cases slot with
    | none => exact ih member
    | some subscriber =>
      rcases offerEach_some nonempty subscriber rest with
        ⟨kept, _, _, dropped⟩ | ⟨lost, took, _, dropped⟩
      · rw [dropped] at member
        obtain ⟨before, present, others⟩ := ih member
        exact ⟨before, List.mem_cons_of_mem _ present, others⟩
      · rw [dropped] at member
        rcases List.mem_cons.mp member with rfl | member
        · exact ⟨subscriber, List.mem_cons_self, took⟩
        · obtain ⟨before, present, others⟩ := ih member
          exact ⟨before, List.mem_cons_of_mem _ present, others⟩

/-- Each slot keeps its subscriber if that took the frame, and is free otherwise. -/
theorem offerEach_slots (frame : List UInt8) (slots : List (Option Subscriber)) :
    (offerEach frame slots).slots = slots.map fun slot => slot.bind (Subscriber.keep? frame) := by
  induction slots with
  | nil => rfl
  | cons slot rest ih =>
    cases slot with
    | none =>
      rw [offerEach, List.map_cons, ← ih]
      rfl
    | some subscriber =>
      rcases offerEach_cases frame subscriber rest with
        ⟨sink, call, result⟩ | ⟨_, sink, call, result⟩
      · rw [result, List.map_cons, ← ih, Option.bind_some, Subscriber.keep?, call]
      · rw [result, List.map_cons, ← ih, Option.bind_some, Subscriber.keep?, call]

theorem offerEach_slot {frame : List UInt8} {slots : List (Option Subscriber)} {index : Nat}
    {before : Subscriber} (present : slots[index]? = some (some before))
    (takes : (Frame.offer before.sink frame).1.isOk) :
    (offerEach frame slots).slots[index]? =
      some (some { before with sink := (Frame.offer before.sink frame).2 }) := by
  rw [offerEach_slots, List.getElem?_map, present, Option.map_some, Option.bind_some,
    Subscriber.keep?_of_isOk takes]

theorem subscribers_clear (table : SubscriberTable) : table.clear.2.subscribers = [] := by
  rw [subscribers, clear, List.filterMap_map]
  exact List.filterMap_eq_nil_iff.mpr fun _ _ => rfl

theorem length_clear (table : SubscriberTable) : table.clear.2.length = 0 := by
  rw [length, clear, List.countP_eq_zero]
  intro slot member
  obtain ⟨_, _, rfl⟩ := List.mem_map.mp member
  exact Bool.false_ne_true

end SubscriberTable

end KeyRelay
