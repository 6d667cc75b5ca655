import KeyRelay.Proofs.Observer.Slots

/-! # Streams and slots

Any order of insertions, sends and clearings of a table, in which every stream
offered has writes of its own. A stream that the table does not take in, drops
or clears out is closed. The invariant is that the streams in the slots and the
closed ones are all that were offered, each once; what the single operations
return then follows from the table alone. -/
set_option autoImplicit false

namespace KeyRelay

inductive TableStep
  /-- A stream is offered to the table. -/
  | insert (sink : Sink)
  | send (frame : List UInt8)
  | clear
  deriving DecidableEq, Repr

/-- Why a stream was closed. -/
inductive Closing
  | refused
  | evicted
  | cleared
  deriving DecidableEq, Repr

structure Tenancy where
  table : SubscriberTable
  /-- How many streams were offered so far, which is the number of the next one. -/
  offered : Nat := 0
  closed : List (Closing × Subscriber) := []
  deriving DecidableEq, Repr

namespace Tenancy

def start (capacity : Nat) : Tenancy :=
  { table := .ofCapacity capacity }

def newcomer (tenancy : Tenancy) (sink : Sink) : Subscriber :=
  ⟨tenancy.offered, sink⟩

def step (tenancy : Tenancy) : TableStep → Tenancy
  | .insert sink =>
    match tenancy.table.insert (tenancy.newcomer sink) with
    | some (_, table) => { tenancy with table, offered := tenancy.offered + 1 }
    | none => { tenancy with
        offered := tenancy.offered + 1
        closed := tenancy.closed ++ [(.refused, tenancy.newcomer sink)] }
  | .send frame =>
    let (_, dropped, table) := tenancy.table.sendToAll frame
    { tenancy with table, closed := tenancy.closed ++ dropped.map (Closing.evicted, ·) }
  | .clear =>
    let (dropped, table) := tenancy.table.clear
    { tenancy with table, closed := tenancy.closed ++ dropped.map (Closing.cleared, ·) }

def run (tenancy : Tenancy) (steps : List TableStep) : Tenancy :=
  steps.foldl step tenancy

/-- The stream with this number is in this slot. -/
def Seated (tenancy : Tenancy) (number index : Nat) : Prop :=
  ∃ subscriber, tenancy.table.slots[index]? = some (some subscriber) ∧ subscriber.number = number

def Closed (tenancy : Tenancy) (number : Nat) : Prop :=
  number ∈ tenancy.closed.map (·.2.number)

/-- The numbers of the streams in the slots, and of the closed ones. -/
def numbers (tenancy : Tenancy) : List Nat :=
  tenancy.table.subscribers.map (·.number) ++ tenancy.closed.map (·.2.number)

theorem step_insert (tenancy : Tenancy) (sink : Sink) :
    (∃ index table, tenancy.table.insert (tenancy.newcomer sink) = some (index, table) ∧
      tenancy.step (.insert sink) = { tenancy with table, offered := tenancy.offered + 1 }) ∨
    tenancy.table.insert (tenancy.newcomer sink) = none ∧
      tenancy.step (.insert sink) = { tenancy with
        offered := tenancy.offered + 1
        closed := tenancy.closed ++ [(.refused, tenancy.newcomer sink)] } := by
  cases inserted : tenancy.table.insert (tenancy.newcomer sink) with
  | none => exact .inr ⟨rfl, by rw [step, inserted]⟩
  | some found => exact .inl ⟨found.1, found.2, rfl, by rw [step, inserted]⟩

theorem closed_step (tenancy : Tenancy) (next : TableStep) :
    tenancy.closed ⊆ (tenancy.step next).closed := by
  cases next with
  | insert sink =>
    rcases tenancy.step_insert sink with ⟨_, _, _, stepped⟩ | ⟨_, stepped⟩
    · rw [stepped]
      exact List.Subset.refl _
    · rw [stepped]
      exact List.subset_append_left _ _
  | send frame => exact List.subset_append_left _ _
  | clear => exact List.subset_append_left _ _

theorem closed_run (tenancy : Tenancy) (steps : List TableStep) :
    tenancy.closed ⊆ (tenancy.run steps).closed := by
  induction steps generalizing tenancy with
  | nil => exact List.Subset.refl _
  | cons next rest ih =>
    exact List.Subset.trans (tenancy.closed_step next) (ih (tenancy.step next))

theorem Seated.mem {tenancy : Tenancy} {number index : Nat} (seated : tenancy.Seated number index) :
    number ∈ tenancy.table.subscribers.map (·.number) := by
  obtain ⟨subscriber, present, rfl⟩ := seated
  have member : some subscriber ∈ tenancy.table.slots := List.mem_of_getElem? present
  exact List.mem_map_of_mem (List.mem_filterMap.mpr ⟨some subscriber, member, rfl⟩)

theorem exists_seated {tenancy : Tenancy} {number : Nat}
    (member : number ∈ tenancy.table.subscribers.map (·.number)) :
    ∃ index, tenancy.Seated number index := by
  obtain ⟨subscriber, inTable, rfl⟩ := List.mem_map.mp member
  obtain ⟨slot, inSlots, rfl⟩ := List.mem_filterMap.mp inTable
  obtain ⟨index, present⟩ := List.mem_iff_getElem?.mp inSlots
  exact ⟨index, subscriber, present, rfl⟩

/-- Where no number stands twice, a stream has one slot. -/
theorem Seated.unique {tenancy : Tenancy} {number index other : Nat}
    (distinct : (tenancy.table.subscribers.map (·.number)).Nodup)
    (seated : tenancy.Seated number index) (also : tenancy.Seated number other) :
    other = index := by
  obtain ⟨first, present, rfl⟩ := seated
  obtain ⟨second, otherPresent, same⟩ := also
  -- Of two slots the later one would hold a number that stands before it.
  have apart : tenancy.table.slots.Pairwise fun slot later =>
      ∀ one ∈ slot, ∀ two ∈ later, one.number ≠ two.number := by
    have inOrder := List.pairwise_map.mp distinct
    exact List.pairwise_filterMap.mp inOrder
  have ordered := List.pairwise_iff_getElem.mp apart
  obtain ⟨bound, found⟩ := List.getElem?_eq_some_iff.mp present
  obtain ⟨otherBound, otherFound⟩ := List.getElem?_eq_some_iff.mp otherPresent
  rcases Nat.lt_trichotomy other index with before | equal | behind
  · exact absurd same (ordered other index otherBound bound before second otherFound first found)
  · exact equal
  · exact absurd same.symm
      (ordered index other bound otherBound behind first found second otherFound)

/-- Every stream that was offered is in exactly one slot or closed, and never both. -/
theorem seated_or_closed {tenancy : Tenancy}
    (all : tenancy.numbers.Perm (List.range tenancy.offered)) {number : Nat}
    (known : number < tenancy.offered) :
    (∃ index, tenancy.Seated number index ∧ ∀ other, tenancy.Seated number other → other = index) ∧
        ¬ tenancy.Closed number ∨
      tenancy.Closed number ∧ ∀ index, ¬ tenancy.Seated number index := by
  have distinct : tenancy.numbers.Nodup := all.nodup_iff.mpr List.nodup_range
  obtain ⟨once, _, apart⟩ := List.nodup_append.mp distinct
  have somewhere : number ∈ tenancy.numbers := all.mem_iff.mpr (List.mem_range.mpr known)
  rcases List.mem_append.mp somewhere with inTable | out
  · obtain ⟨index, seated⟩ := exists_seated inTable
    refine .inl ⟨⟨index, seated, fun other also => seated.unique once also⟩, ?_⟩
    intro out
    exact apart number inTable number out rfl
  · refine .inr ⟨out, ?_⟩
    intro index seated
    exact apart number seated.mem number out rfl

theorem closed_absent {tenancy : Tenancy}
    (all : tenancy.numbers.Perm (List.range tenancy.offered)) {number : Nat}
    (out : tenancy.Closed number) (index : Nat) : ¬ tenancy.Seated number index := by
  have known : number < tenancy.offered :=
    List.mem_range.mp (all.mem_iff.mp (List.mem_append_right _ out))
  rcases seated_or_closed all known with ⟨_, within⟩ | ⟨_, absent⟩
  · exact absurd out within
  · exact absent index

end Tenancy

end KeyRelay
