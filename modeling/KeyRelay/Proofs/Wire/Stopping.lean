import KeyRelay.Proofs.Wire.ReadBack
import KeyRelay.Proofs.Wire.Room

/-! # Puts that stop half-way

A writer may be asked for more puts after one has failed. What it has written stays, and a
later put that is smaller may still find room. A put that fails has stopped in front of the
first of its parts without room: at its start, behind its key, or behind its key and its
length. More room changes nothing for puts that all had enough. -/
set_option autoImplicit false

namespace KeyRelay.Wire

namespace Put

/-- A put of a number or a key alone, which is no field. -/
def Bare : Put → Prop
  | .varint _ | .key _ _ => True
  | _ => False

/-- The parts that a put writes, each of them whole or not at all. -/
inductive Parts : Put → List (List UInt8) → Prop
  | number (value : UInt64) : Parts (.varint value) [Varint.encode value]
  | key (number : UInt32) (kind : WireType) :
    Parts (.key number kind) [Key.bytes ⟨number, kind⟩]
  | omitted {put : Put} (field : ¬ put.Bare) (omits : put.field? = none) : Parts put []
  | varint {put : Put} {number : UInt32} {value : UInt64}
    (writes : put.field? = some ⟨number, .varint value⟩) :
    Parts put [Key.bytes ⟨number, .varint⟩, Varint.encode value]
  | lengthDelimited {put : Put} {number : UInt32} {content : List UInt8}
    (writes : put.field? = some ⟨number, .lengthDelimited content⟩) :
    Parts put [Key.bytes ⟨number, .lengthDelimited⟩,
      Varint.encode (UInt64.ofNat content.length), content]

theorem parts_uintAtoms {put : Put} {number : UInt32} {value : UInt64} (field : ¬ put.Bare)
    (writes : put.field? = if value = 0 then none else some ⟨number, .varint value⟩) :
    put.Parts (uintAtoms number value) := by
  by_cases zero : value = 0
  · rw [if_pos zero] at writes
    rw [uintAtoms, if_pos zero]
    exact .omitted field writes
  · rw [if_neg zero] at writes
    rw [uintAtoms, if_neg zero]
    exact .varint writes

theorem parts_atoms (put : Put) : put.Parts put.atoms := by
  cases put with
  | varint value => exact .number value
  | key number kind => exact .key number kind
  | varintField number value => exact .varint rfl
  | uint number value => exact parts_uintAtoms id rfl
  | int32 number value => exact parts_uintAtoms id rfl
  | bool number value =>
    apply parts_uintAtoms id
    cases value <;> rfl
  | bytes number value =>
    cases value with
    | nil => exact .omitted id rfl
    | cons first rest => exact .lengthDelimited rfl
  | lengthDelimited number value => exact .lengthDelimited rfl

/-- A bare put writes no field, so what a put is and whether it writes a field settle its parts. -/
theorem Parts.unique {put : Put} {parts others : List (List UInt8)} (made : put.Parts parts)
    (again : put.Parts others) : parts = others := by
  cases made with
  | number value =>
    cases again with
    | number => rfl
    | omitted field _ => exact (field trivial).elim
    | varint writes => cases writes
    | lengthDelimited writes => cases writes
  | key number kind =>
    cases again with
    | key => rfl
    | omitted field _ => exact (field trivial).elim
    | varint writes => cases writes
    | lengthDelimited writes => cases writes
  | omitted field omits =>
    cases again with
    | number value => exact (field trivial).elim
    | key number kind => exact (field trivial).elim
    | omitted => rfl
    | varint writes => cases omits.symm.trans writes
    | lengthDelimited writes => cases omits.symm.trans writes
  | varint writes =>
    cases again with
    | number value => cases writes
    | key number kind => cases writes
    | omitted _ omits => cases omits.symm.trans writes
    | varint others =>
      cases writes.symm.trans others
      rfl
    | lengthDelimited others => cases writes.symm.trans others
  | lengthDelimited writes =>
    cases again with
    | number value => cases writes
    | key number kind => cases writes
    | omitted _ omits => cases omits.symm.trans writes
    | varint others => cases writes.symm.trans others
    | lengthDelimited others =>
      cases writes.symm.trans others
      rfl

theorem parts_iff {put : Put} {parts : List (List UInt8)} :
    put.Parts parts ↔ parts = put.atoms := by
  constructor
  · intro made
    exact made.unique put.parts_atoms
  · rintro rfl
    exact put.parts_atoms

end Put

/-- What becomes of a put behind bytes that are written already: all of its parts follow, or
those in front of the first that does not fit, whose end the error names. -/
inductive PutBehind (message : String) (capacity : Nat) (before : List UInt8) (put : Put) :
    Except EncodeError Unit → List UInt8 → Prop
  | whole {parts : List (List UInt8)} (made : put.Parts parts)
    (fits : (before ++ parts.flatten).length ≤ capacity) :
    PutBehind message capacity before put (.ok ()) (before ++ parts.flatten)
  | stopped {front : List (List UInt8)} {part : List UInt8} {back : List (List UInt8)}
    (made : put.Parts (front ++ part :: back))
    (fits : (before ++ front.flatten).length ≤ capacity)
    (beyond : capacity < (before ++ front.flatten ++ part).length) :
    PutBehind message capacity before put
      (.error ⟨message, (before ++ front.flatten ++ part).length, capacity⟩)
      (before ++ front.flatten)

/-- Parts that do not all fit have a first that does not. -/
theorem exists_first_short {parts : List (List UInt8)} {room : Nat}
    (short : room < parts.flatten.length) :
    ∃ front part back, parts = front ++ part :: back ∧ front.flatten.length ≤ room ∧
      room < front.flatten.length + part.length := by
  induction parts generalizing room with
  | nil => simp at short
  | cons first rest ih =>
    by_cases fits : first.length ≤ room
    · rw [List.flatten_cons, List.length_append] at short
      have later : room - first.length < rest.flatten.length := by omega
      obtain ⟨front, part, back, rfl, within, beyond⟩ := ih later
      refine ⟨first :: front, part, back, rfl, ?_, ?_⟩
      · rw [List.flatten_cons, List.length_append]
        omega
      · rw [List.flatten_cons, List.length_append]
        omega
    · exact ⟨[], first, rest, rfl, Nat.zero_le _, by simpa using fits⟩

namespace Writer

/-- The other is this writer after it has written some more bytes into its room. -/
def Precedes (writer next : Writer) : Prop :=
  ∃ bytes, bytes.length ≤ writer.spare.length ∧ next = writer.advance bytes

theorem Precedes.refl (writer : Writer) : writer.Precedes writer :=
  ⟨[], Nat.zero_le _, writer.advance_nil.symm⟩

theorem Precedes.trans {first second third : Writer} (earlier : first.Precedes second)
    (later : second.Precedes third) : first.Precedes third := by
  obtain ⟨front, room, rfl⟩ := earlier
  obtain ⟨back, roomBehind, rfl⟩ := later
  rw [advance, List.length_drop] at roomBehind
  refine ⟨front ++ back, ?_, advance_append first front back⟩
  rw [List.length_append]
  omega

theorem Precedes.written {writer next : Writer} (precedes : writer.Precedes next) :
    writer.written <+: next.written := by
  obtain ⟨bytes, _, rfl⟩ := precedes
  exact List.prefix_append _ _

theorem Precedes.message {writer next : Writer} (precedes : writer.Precedes next) :
    next.message = writer.message := by
  obtain ⟨bytes, _, rfl⟩ := precedes
  rfl

theorem Precedes.capacity {writer next : Writer} (precedes : writer.Precedes next) :
    next.capacity = writer.capacity := by
  obtain ⟨bytes, room, rfl⟩ := precedes
  exact capacity_advance room

/-- What is behind the written part of a buffer is as it was. -/
theorem Precedes.buffer {writer next : Writer} (precedes : writer.Precedes next) :
    next.buffer.length = writer.buffer.length ∧
      next.buffer.drop next.length = writer.buffer.drop next.length := by
  obtain ⟨bytes, room, rfl⟩ := precedes
  constructor
  · simp only [Writer.buffer, advance, List.length_append, List.length_drop]
    omega
  · simp only [Writer.buffer, advance, length, List.length_append, List.drop_length_add_append]
    rw [← List.length_append, List.drop_left]

/-- A put writes on from where the writer stands and keeps to its room. -/
theorem put_behind (writer : Writer) (put : Put) :
    writer.Precedes (writer.put put).2 ∧
      PutBehind writer.message writer.capacity writer.written put (writer.put put).1
        (writer.put put).2.written := by
  by_cases room : put.atoms.flatten.length ≤ writer.spare.length
  · rw [Writer.put, appendAll_of_fits _ _ room]
    refine ⟨⟨_, room, rfl⟩, .whole put.parts_atoms ?_⟩
    rw [List.length_append, capacity]
    omega
  · obtain ⟨front, part, back, parts, within, beyond⟩ :=
      exists_first_short (Nat.lt_of_not_le room)
    have made := put.parts_atoms
    rw [Writer.put, parts, appendAll_of_short back within beyond]
    rw [parts] at made
    refine ⟨⟨_, within, rfl⟩, ?_⟩
    have stopped : PutBehind writer.message writer.capacity writer.written put _ _ :=
      .stopped made (by rw [List.length_append, capacity]; omega)
        (by rw [List.length_append, List.length_append, capacity]; omega)
    rw [List.length_append, List.length_append] at stopped
    exact stopped

/-- Where a writer stands when it has been asked for all of these puts, one after the other. A
failure does not end the run. -/
def after (writer : Writer) (puts : List Put) : Writer :=
  puts.foldl (fun here put => (here.put put).2) writer

theorem after_append (writer : Writer) (puts more : List Put) :
    writer.after (puts ++ more) = (writer.after puts).after more :=
  List.foldl_append

theorem precedes_after (writer : Writer) (puts : List Put) :
    writer.Precedes (writer.after puts) := by
  induction puts generalizing writer with
  | nil => exact .refl writer
  | cons put puts ih => exact (writer.put_behind put).1.trans (ih _)

theorem putEach_append (writer : Writer) (puts more : List Put) :
    writer.putEach (puts ++ more) = writer.putEach puts ++ (writer.after puts).putEach more := by
  induction puts generalizing writer with
  | nil => rfl
  | cons put puts ih =>
    rw [List.cons_append, putEach, ih, putEach, List.cons_append]
    rfl

theorem length_putEach (writer : Writer) (puts : List Put) :
    (writer.putEach puts).length = puts.length := by
  induction puts generalizing writer with
  | nil => rfl
  | cons put puts ih => rw [putEach, List.length_cons, List.length_cons, ih]

/-- What a run shows of a put is what the put does behind those in front of it. -/
theorem putEach_at (writer : Writer) (front : List Put) (put : Put) (back : List Put) :
    (writer.putEach (front ++ put :: back))[front.length]? =
      some ((writer.after front).put put) := by
  rw [putEach_append, List.getElem?_append_right (by rw [length_putEach]), length_putEach,
    Nat.sub_self]
  rfl

/-- Puts that all succeed do so with more room, and write the same. -/
theorem putEach_roomier {writer roomier : Writer} {puts : List Put}
    (same : roomier.written = writer.written) (room : writer.spare.length ≤ roomier.spare.length)
    (succeed : ∀ result ∈ writer.putEach puts, result.1 = .ok ()) :
    (roomier.putEach puts).map (fun result => (result.1, result.2.written)) =
      (writer.putEach puts).map (fun result => (result.1, result.2.written)) := by
  induction puts generalizing writer roomier with
  | nil => rfl
  | cons put puts ih =>
    rw [putEach, List.forall_mem_cons] at succeed
    obtain ⟨first, others⟩ := succeed
    have done : writer.appendAll put.atoms = (.ok (), (writer.put put).2) := Prod.ext first rfl
    obtain ⟨fits, next⟩ := appendAll_ok done
    have wider := appendAll_of_fits roomier put.atoms (fits.trans room)
    rw [next] at others
    rw [putEach, putEach, List.map_cons, List.map_cons, Writer.put, Writer.put, wider, done, next]
    rw [ih _ _ others]
    · rw [advance, advance, same]
    · rw [advance, advance, same]
    · simp only [advance, List.length_drop]
      omega

end Writer

/-- Every run of puts on a buffer, going on after failures. What is written stays as it is, and
so does what is behind it. Each put writes all of its parts, or those in front of the first
that does not fit. Puts that all succeed write the same into every larger buffer. -/
theorem puts_stop_between_parts (message : String) (buffer : List UInt8) :
    let writer := Writer.start message buffer
    (∀ puts more : List Put,
      (writer.after puts).written <+: (writer.after (puts ++ more)).written) ∧
    (∀ puts : List Put, (writer.after puts).length ≤ buffer.length ∧
      (writer.after puts).buffer.length = buffer.length ∧
      (writer.after puts).buffer.drop (writer.after puts).length =
        buffer.drop (writer.after puts).length) ∧
    (∀ (put : Put) (parts : List (List UInt8)), put.Parts parts ↔ parts = put.atoms) ∧
    (∀ (front : List Put) (put : Put) (back : List Put), ∃ outcome,
      (writer.putEach (front ++ put :: back))[front.length]? =
        some (outcome, writer.after (front ++ [put])) ∧
      PutBehind message buffer.length (writer.after front).written put outcome
        (writer.after (front ++ [put])).written) ∧
    ∀ (puts : List Put) (larger : List UInt8), buffer.length ≤ larger.length →
      (∀ result ∈ writer.putEach puts, result.1 = .ok ()) →
      ((Writer.start message larger).putEach puts).map
          (fun result => (result.1, result.2.written)) =
        (writer.putEach puts).map (fun result => (result.1, result.2.written)) := by
  intro writer
  have capacity : writer.capacity = buffer.length := Nat.zero_add _
  refine ⟨?_, ?_, fun put parts => Put.parts_iff, ?_, ?_⟩
  · intro puts more
    rw [Writer.after_append]
    exact (Writer.precedes_after _ more).written
  · intro puts
    have reached := writer.precedes_after puts
    refine ⟨?_, reached.buffer⟩
    rw [← capacity, ← reached.capacity]
    exact Nat.le_add_right _ _
  · intro front put back
    have reached := writer.precedes_after front
    have behind := ((writer.after front).put_behind put).2
    rw [reached.message, reached.capacity, capacity] at behind
    rw [Writer.after_append]
    exact ⟨_, writer.putEach_at front put back, behind⟩
  · intro puts larger room succeed
    exact Writer.putEach_roomier rfl room succeed

/-- A content finds no room behind its key and its length, the number after it does, and the key
after that does not. Without these three puts a larger buffer gets the same. -/
theorem puts_stop_between_parts_overfull :
    let writer := Writer.start "Sample" [9, 9, 9, 9, 9]
    let puts : List Put := [.varint 300, .lengthDelimited 1 [7, 8, 9], .varint 5, .bool 2 true]
    (∃ outcome, (writer.putEach puts)[1]? = some (outcome, writer.after (puts.take 2)) ∧
      PutBehind "Sample" 5 [172, 2] (.lengthDelimited 1 [7, 8, 9]) outcome [172, 2, 10, 3]) ∧
    (writer.putEach puts).map (fun result => (result.1, result.2.written)) =
      [(.ok (), [172, 2]), (.error ⟨"Sample", 7, 5⟩, [172, 2, 10, 3]),
        (.ok (), [172, 2, 10, 3, 5]), (.error ⟨"Sample", 6, 5⟩, [172, 2, 10, 3, 5])] ∧
    ((Writer.start "Sample" [1, 2, 3, 4, 5, 6, 7]).putEach [.varint 300, .bool 2 true]).map
      (fun result => (result.1, result.2.written)) =
        [(.ok (), [172, 2]), (.ok (), [172, 2, 16, 1])] := by
  intro writer puts
  obtain ⟨_, _, _, settled, roomier⟩ := puts_stop_between_parts "Sample" [9, 9, 9, 9, 9]
  refine ⟨settled [.varint 300] (.lengthDelimited 1 [7, 8, 9]) [.varint 5, .bool 2 true],
    by decide, ?_⟩
  exact roomier [.varint 300, .bool 2 true] [1, 2, 3, 4, 5, 6, 7] (by decide) (by decide)

end KeyRelay.Wire
