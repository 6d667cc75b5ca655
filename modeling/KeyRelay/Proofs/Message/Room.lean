import KeyRelay.Proofs.Message.Cut
import KeyRelay.Proofs.Wire.Room

/-! # Messages in buffers of any size

An event or a command is written as a key of one byte, a length of one byte and a content,
or as nothing. A buffer takes it exactly if the whole of it fits. If not, the error speaks of
the message that was to be written, never of one inside it, and names the end of the first of
the three parts that did not fit. -/
set_option autoImplicit false

namespace KeyRelay

open Wire

/-- Where the first part that does not fit would have ended, in a message of this size. -/
def neededFor (capacity size : Nat) : Nat :=
  if capacity = 0 then 1 else if capacity = 1 then 2 else size

/-- What becomes of writing a message to the front of a buffer is told by the room there is. -/
structure WrittenByRoom (message : String) (encoding : List UInt8)
    (write : List UInt8 → Except EncodeError Nat × List UInt8) : Prop where
  ok_iff : ∀ buffer : List UInt8,
    (∃ count, (write buffer).1 = .ok count) ↔ encoding.length ≤ buffer.length
  whole : ∀ buffer : List UInt8, encoding.length ≤ buffer.length →
    write buffer = (.ok encoding.length, encoding ++ buffer.drop encoding.length)
  refused : ∀ buffer : List UInt8, buffer.length < encoding.length →
    (write buffer).1 =
      .error ⟨message, neededFor buffer.length encoding.length, buffer.length⟩
  missing : ∀ buffer : List UInt8, buffer.length < encoding.length →
    buffer.length < neededFor buffer.length encoding.length ∧
      neededFor buffer.length encoding.length ≤ encoding.length
  /-- A key and a length that fitted are there, and the rest of the buffer is as it was. -/
  begun : ∀ buffer : List UInt8, buffer.length < encoding.length →
    (write buffer).2 = encoding.take (min 2 buffer.length) ++ buffer.drop 2

/-- The parts of a put before one that does not fit are in the buffer, and no other. -/
theorem writeInto_of_short (message : String) (buffer : List UInt8) {atom : List UInt8}
    {item : Put} (front : List (List UInt8)) {back : List (List UInt8)}
    (parts : item.atoms = front ++ atom :: back)
    (fits : front.flatten.length ≤ buffer.length)
    (short : buffer.length < front.flatten.length + atom.length) :
    writeInto message buffer [item] =
      (.error ⟨message, front.flatten.length + atom.length, buffer.length⟩,
        front.flatten ++ buffer.drop front.flatten.length) := by
  have stopped : (Writer.start message buffer).appendAll (front ++ atom :: back) = _ :=
    Writer.appendAll_of_short back fits short
  rw [writeInto, Writer.putAll_singleton, parts, stopped]
  simp [Writer.start, Writer.advance, Writer.buffer, Writer.length, Writer.capacity, Except.map]

/-- A small message in a field with a small number is written as two bytes and its content. -/
theorem atoms_of_small {number : UInt32} {content : List UInt8}
    (small : Size.SmallNumber number) (short : content.length < 128) :
    ∃ key length : UInt8,
      (Put.lengthDelimited number content).atoms = [[key], [length], content] := by
  have keyLength : (Varint.encode (Put.keyValue number .lengthDelimited)).length = 1 :=
    Size.length_key ⟨number, .lengthDelimited⟩ small
  have lengthLength : (Varint.encode (UInt64.ofNat content.length)).length = 1 := by
    have value : (UInt64.ofNat content.length).toNat = content.length := by
      rw [UInt64.toNat_ofNat']
      omega
    rw [Varint.length_encode, Varint.length, value, Varint.log2_of_lt short]
  obtain ⟨key, keyByte⟩ := List.length_eq_one_iff.mp keyLength
  obtain ⟨length, lengthByte⟩ := List.length_eq_one_iff.mp lengthLength
  refine ⟨key, length, ?_⟩
  rw [Put.atoms, Put.lengthDelimitedAtoms, keyByte, lengthByte]

theorem encodingAll_of_parts {item : Put} {key length : UInt8} {content : List UInt8}
    (parts : item.atoms = [[key], [length], content]) :
    Put.encodingAll [item] = key :: length :: content := by
  simp [Put.encodingAll, Put.encoding, parts]

/-- The first part that does not fit is the key, the length or the content. -/
theorem writeInto_embedded_of_short (message : String) {item : Put} {key length : UInt8}
    {content buffer : List UInt8} (parts : item.atoms = [[key], [length], content])
    (short : buffer.length < (key :: length :: content).length) :
    writeInto message buffer [item] =
      (.error ⟨message, neededFor buffer.length (key :: length :: content).length,
        buffer.length⟩,
        (key :: length :: content).take (min 2 buffer.length) ++ buffer.drop 2) := by
  cases buffer with
  | nil =>
    have stopped := writeInto_of_short message [] [] parts (by simp) (by simp)
    simpa [neededFor] using stopped
  | cons first others =>
    cases others with
    | nil =>
      have stopped := writeInto_of_short message [first] [[key]] parts (by simp) (by simp)
      simpa [neededFor] using stopped
    | cons second rest =>
      have needed : neededFor (first :: second :: rest).length (key :: length :: content).length =
          2 + content.length := by
        rw [neededFor, if_neg (by simp), if_neg (by simp)]
        simp only [List.length_cons]
        omega
      have stopped := writeInto_of_short message (first :: second :: rest) [[key], [length]]
        parts (by simp) (by simp at short ⊢; omega)
      rw [needed]
      simpa using stopped

namespace WrittenByRoom

variable {message : String} {encoding : List UInt8}
  {write : List UInt8 → Except EncodeError Nat × List UInt8}

/-- It is enough to say what happens with room and without. -/
theorem of_cases
    (whole : ∀ buffer : List UInt8, encoding.length ≤ buffer.length →
      write buffer = (.ok encoding.length, encoding ++ buffer.drop encoding.length))
    (short : ∀ buffer : List UInt8, buffer.length < encoding.length →
      write buffer = (.error ⟨message, neededFor buffer.length encoding.length, buffer.length⟩,
        encoding.take (min 2 buffer.length) ++ buffer.drop 2)) :
    WrittenByRoom message encoding write where
  ok_iff := by
    intro buffer
    constructor
    · rintro ⟨count, written⟩
      by_contra little
      rw [short buffer (Nat.not_le.mp little)] at written
      cases written
    · intro room
      exact ⟨encoding.length, by rw [whole buffer room]⟩
  whole := whole
  refused := by
    intro buffer little
    rw [short buffer little]
  missing := by
    intro buffer little
    unfold neededFor
    split
    · omega
    · split <;> omega
  begun := by
    intro buffer little
    rw [short buffer little]

theorem of_parts (message : String) {item : Put} {key length : UInt8} {content : List UInt8}
    (parts : item.atoms = [[key], [length], content]) :
    WrittenByRoom message (Put.encodingAll [item]) fun buffer =>
      writeInto message buffer [item] := by
  refine of_cases (fun buffer => writeInto_of_fits message) ?_
  rw [encodingAll_of_parts parts]
  exact fun buffer => writeInto_embedded_of_short message parts

end WrittenByRoom

namespace Event

theorem encodeInto_eq (event : Event) :
    event.encodeInto = fun buffer => writeInto "Event" buffer event.puts := by
  funext buffer
  rw [encodeInto, encodeBody_eq]
  rfl

/-- An event is one message in a field of its own. -/
theorem exists_parts (event : Event) : ∃ item key length content,
    event.puts = [item] ∧ item.atoms = [[key], [length], content] := by
  have bound := event.length_body_le
  have room : max (max Size.kscanEvent Size.keyboardReport)
    (max Size.consumerReport Size.mouseReport) < 128 := by decide
  have short : event.body.length < 128 := by omega
  obtain ⟨key, length, parts⟩ := atoms_of_small event.smallNumber_field short
  exact ⟨_, key, length, event.body, rfl, parts⟩

theorem two_le_length_bytes (event : Event) : 2 ≤ event.bytes.length := by
  obtain ⟨item, key, length, content, one, parts⟩ := event.exists_parts
  rw [bytes, one, encodingAll_of_parts parts]
  simp

theorem writtenByRoom (event : Event) : WrittenByRoom "Event" event.bytes event.encodeInto := by
  obtain ⟨item, key, length, content, one, parts⟩ := event.exists_parts
  rw [encodeInto_eq, bytes, one]
  exact .of_parts "Event" parts

end Event

namespace Command

theorem encodeInto_eq (command : Command) :
    command.encodeInto = fun buffer => writeInto "ClientMessage" buffer command.puts := by
  funext buffer
  cases given : command.keyEvent with
  | none => simp only [encodeInto, given, puts, Option.map_none, Option.toList_none]
  | some event =>
    simp only [encodeInto, given, puts, event.encode_eq, Option.map_some, Option.toList_some]

/-- A command with a key event is one message in a field. -/
theorem exists_parts {command : Command} {event : KeyEvent}
    (given : command.keyEvent = some event) : ∃ item key length content,
      command.puts = [item] ∧ item.atoms = [[key], [length], content] := by
  have bound := event.length_bytes_le
  have room : Size.keyEvent < 128 := by decide
  have small : Size.SmallNumber 1 := by decide
  have short : event.bytes.length < 128 := by omega
  obtain ⟨key, length, parts⟩ := atoms_of_small small short
  rw [puts, given]
  exact ⟨_, key, length, event.bytes, rfl, parts⟩

theorem two_le_length_bytes {command : Command} {event : KeyEvent}
    (given : command.keyEvent = some event) : 2 ≤ command.bytes.length := by
  obtain ⟨item, key, length, content, one, parts⟩ := exists_parts given
  rw [bytes, one, encodingAll_of_parts parts]
  simp

theorem writtenByRoom (command : Command) :
    WrittenByRoom "ClientMessage" command.bytes command.encodeInto := by
  rw [encodeInto_eq, bytes]
  cases given : command.keyEvent with
  | none =>
    rw [puts, given]
    exact .of_cases (fun buffer => writeInto_of_fits "ClientMessage")
      fun buffer none => absurd none (Nat.not_lt_zero _)
  | some event =>
    obtain ⟨item, key, length, content, one, parts⟩ := exists_parts given
    rw [one]
    exact .of_parts "ClientMessage" parts

end Command

/-- Any event and any command goes into any buffer that has room for its encoding, and is
refused by every other as too long for it. A command without a key event needs no room, and
every other message needs two bytes and the room for what is in it. -/
theorem encodeInto_by_room :
    (∀ event : Event, ∃ encoding, event.encode = .ok encoding ∧ 2 ≤ encoding.length ∧
      WrittenByRoom "Event" encoding event.encodeInto) ∧
    ∀ command : Command, ∃ encoding, command.encode = .ok encoding ∧
      WrittenByRoom "ClientMessage" encoding command.encodeInto ∧
      (∀ event, command.keyEvent = some event → 2 ≤ encoding.length) ∧
      (command.keyEvent = none → encoding = [] ∧
        ∀ buffer, command.encodeInto buffer = (.ok 0, buffer)) := by
  constructor
  · intro event
    exact ⟨event.bytes, event.encode_eq, event.two_le_length_bytes, event.writtenByRoom⟩
  · intro command
    refine ⟨command.bytes, command.encode_eq, command.writtenByRoom,
      fun _ => Command.two_le_length_bytes, ?_⟩
    intro empty
    have nothing : command.bytes = [] := Command.bytes_of_none empty
    refine ⟨nothing, ?_⟩
    intro buffer
    have written := command.writtenByRoom.whole buffer
    rw [nothing] at written
    exact written (Nat.zero_le _)

/-- A switch report of nine bytes with room for ten, for three and for one; a command without
a key event with no room at all; and one with a key event, of six bytes, with room for seven,
for five and for none. -/
theorem encodeInto_by_room_tight :
    let event : Event := .kscan ⟨0, 7, true, 1200⟩
    let command : Command := ⟨none⟩
    let keyed : Command := ⟨some ⟨.release, some (.position 5)⟩⟩
    event.encodeInto [1, 2, 3, 4, 5, 6, 7, 8, 9, 99] =
      (.ok 9, [10, 7, 16, 7, 24, 1, 32, 176, 9, 99]) ∧
    event.encodeInto [1, 2, 3] = (.error ⟨"Event", 9, 3⟩, [10, 7, 3]) ∧
    event.encodeInto [1] = (.error ⟨"Event", 2, 1⟩, [10]) ∧
    command.encodeInto [] = (.ok 0, []) ∧
    keyed.encodeInto [1, 2, 3, 4, 5, 6, 99] = (.ok 6, [10, 4, 8, 1, 24, 5, 99]) ∧
    keyed.encodeInto [1, 2, 3, 4, 5] = (.error ⟨"ClientMessage", 6, 5⟩, [10, 4, 3, 4, 5]) ∧
    keyed.encodeInto [] = (.error ⟨"ClientMessage", 1, 0⟩, []) := by
  intro event command keyed
  have sent : event.encode = .ok [10, 7, 16, 7, 24, 1, 32, 176, 9] := by decide +kernel
  obtain ⟨encoding, encoded, _, written⟩ := encodeInto_by_room.1 event
  obtain rfl : encoding = _ := Except.ok.inj (encoded.symm.trans sent)
  obtain ⟨_, _, _, _, empty⟩ := encodeInto_by_room.2 command
  have sentKey : keyed.encode = .ok [10, 4, 8, 1, 24, 5] := by decide +kernel
  obtain ⟨encoding, encoded, writtenKey, _⟩ := encodeInto_by_room.2 keyed
  obtain rfl : encoding = _ := Except.ok.inj (encoded.symm.trans sentKey)
  refine ⟨written.whole _ (by decide), ?_, ?_, (empty rfl).2 [], writtenKey.whole _ (by decide),
    ?_, ?_⟩
  · exact Prod.ext (written.refused [1, 2, 3] (by decide)) (written.begun _ (by decide))
  · exact Prod.ext (written.refused [1] (by decide)) (written.begun _ (by decide))
  · exact Prod.ext (writtenKey.refused [1, 2, 3, 4, 5] (by decide)) (writtenKey.begun _ (by decide))
  · exact Prod.ext (writtenKey.refused [] (by decide)) (writtenKey.begun _ (by decide))

end KeyRelay
