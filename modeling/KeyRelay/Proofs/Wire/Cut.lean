import KeyRelay.Proofs.Wire.Fault

/-! # Cut messages

A number, a value and a field say in front where they end, so that none of them is complete
when bytes are missing. Wherever a message is cut, what is left is a message of its first fields
or is truncated, and then the offset is that of the cut. -/
set_option autoImplicit false

namespace KeyRelay.Wire

theorem Varint.read_of_cut {limit number count : Nat} {bytes : List UInt8}
    (denotes : Denotes bytes number) (short : bytes.length ≤ limit) (cut : count < bytes.length) :
    read limit (bytes.take count) = .truncated := by
  induction denotes generalizing limit count with
  | last final =>
    obtain ⟨more, rfl⟩ : ∃ more, limit = more + 1 := ⟨limit - 1, by simp at short; omega⟩
    obtain rfl : count = 0 := by simpa using cut
    rw [List.take_zero, read]
  | @continued byte rest high marked tail ih =>
    obtain ⟨more, rfl⟩ : ∃ more, limit = more + 1 := ⟨limit - 1, by simp at short; omega⟩
    cases count with
    | zero => rw [List.take_zero, read]
    | succ count =>
      have notLow : ¬ byte < 128 := by
        rw [UInt8.lt_iff_toNat_lt]
        exact Nat.not_lt.mpr marked
      rw [List.take_succ_cons, read, if_neg notLow,
        ih (Nat.le_of_succ_le_succ short) (Nat.lt_of_succ_lt_succ cut)]

namespace Cursor

variable {count : Nat} {front : List UInt8}

theorem varint_of_cut {value : UInt64} (offset : Nat) (form : Varint.Form value front)
    (cut : count < front.length) :
    varint ⟨offset, front.take count⟩ =
      (.error (.truncated (offset + count)), ⟨offset + count, []⟩) := by
  obtain ⟨short, number, denotes, _⟩ := form
  have length : (front.take count).length = count := List.length_take_of_le (by omega)
  rw [varint, Varint.read_of_cut denotes short cut]
  simp only [limit, moveTo, length, List.length_nil, Nat.sub_zero]

theorem take_of_cut {needed : Nat} (offset : Nat) (bytes : List UInt8)
    (cut : bytes.length < needed) :
    take ⟨offset, bytes⟩ needed =
      (.error (.truncated (offset + bytes.length)), ⟨offset, bytes⟩) := by
  rw [take, if_neg (Nat.not_le.mpr cut), limit]

theorem key_of_cut {number : UInt32} {kind : WireType} (offset : Nat)
    (form : Varint.Form (Put.keyValue number kind) front) (begun : 0 < count)
    (cut : count < front.length) :
    key ⟨offset, front.take count⟩ =
      (.error (.truncated (offset + count)), ⟨offset + count, []⟩) := by
  have nonempty : (front.take count).isEmpty = false := by
    cases front with
    | nil => simp at cut
    | cons byte rest =>
      obtain ⟨less, rfl⟩ : ∃ less, count = less + 1 := ⟨count - 1, by omega⟩
      rfl
  rw [key, nonempty, varint_of_cut offset form cut]
  rfl

theorem value_of_cut {found : FieldValue} (offset : Nat) (number : UInt32)
    (form : found.Form front) (cut : count < front.length) :
    ∃ next, value ⟨offset, front.take count⟩ ⟨number, found.kind⟩ =
      (.error (.truncated (offset + count)), next) := by
  have length : (front.take count).length = count := List.length_take_of_le (by omega)
  cases form with
  | varint number =>
    simp only [value, FieldValue.kind, varint_of_cut offset number cut, Except.map]
    exact ⟨_, rfl⟩
  | fixed64 whole =>
    rw [whole, ← length] at cut
    simp only [value, FieldValue.kind, take_of_cut offset _ cut, Except.map, length]
    exact ⟨_, rfl⟩
  | @lengthDelimited announced front content form whole =>
    by_cases inside : count < front.length
    · rw [List.take_append_of_le_length (by omega)]
      simp only [value, FieldValue.kind, lengthDelimited, varint_of_cut offset form inside,
        Except.map]
      exact ⟨_, rfl⟩
    · have missing : (content.take (count - front.length)).length < announced.toNat := by
        rw [List.length_append] at cut
        rw [List.length_take]
        omega
      have reached : offset + front.length + (content.take (count - front.length)).length =
          offset + count := by
        rw [List.length_append] at cut
        rw [List.length_take]
        omega
      rw [List.take_append, List.take_of_length_le (by omega)]
      simp only [value, FieldValue.kind, lengthDelimited, varint_of_form offset _ form,
        take_of_cut _ _ missing, reached, Except.map]
      exact ⟨_, rfl⟩
  | fixed32 whole =>
    rw [whole, ← length] at cut
    simp only [value, FieldValue.kind, take_of_cut offset _ cut, Except.map, length]
    exact ⟨_, rfl⟩

end Cursor

/-- A field that has begun and is cut fails at the cut, in its key or in its value. -/
theorem Field.Form.cut {field : Field} {bytes : List UInt8} {count : Nat} (offset : Nat)
    (form : field.Form bytes) (begun : 0 < count) (cut : count < bytes.length) :
    (∃ next, Cursor.key ⟨offset, bytes.take count⟩ =
      (.error (.truncated (offset + count)), next)) ∨
    ∃ middle next, Cursor.key ⟨offset, bytes.take count⟩ = (.ok (some field.key), middle) ∧
      middle.value field.key = (.error (.truncated (offset + count)), next) := by
  cases form with
  | @mk number value front back valid keyForm content =>
    by_cases inside : count < front.length
    · rw [List.take_append_of_le_length (by omega)]
      exact .inl ⟨_, Cursor.key_of_cut offset keyForm begun inside⟩
    · have missing : count - front.length < back.length := by
        rw [List.length_append] at cut
        omega
      have reached : offset + front.length + (count - front.length) = offset + count := by
        omega
      obtain ⟨next, failed⟩ :=
        Cursor.value_of_cut (offset + front.length) number content missing
      rw [reached] at failed
      rw [List.take_append, List.take_of_length_le (by omega)]
      exact .inr ⟨_, next, Cursor.key_of_form offset _ valid keyForm, failed⟩

/-- A field of which at least one byte is missing is no message. -/
theorem Field.Form.eq_of_prefix {field : Field} {fields : List Field} {front back : List UInt8}
    (form : field.Form back) (forms : Forms fields front) (some : front ≠ [])
    (within : front <+: back) : front = back := by
  by_contra other
  have shorter : front.length < back.length :=
    lt_of_le_of_ne within.length_le fun same => other (within.eq_of_length same)
  have stopped := (forms_iff_scan.mp forms).2
  rw [Cursor.ofBytes, List.prefix_iff_eq_take.mp within] at stopped
  rcases form.cut 0 (List.length_pos_iff.mpr some) shorter with
    ⟨next, failed⟩ | ⟨middle, next, read, failed⟩
  · rw [scan_of_badKey failed] at stopped
    cases stopped
  · rw [scan_of_badValue read failed] at stopped
    cases stopped

namespace Schema

variable {α : Type} {schema : Schema α} {default message : α} {bytes whole : List UInt8}
  {cursor : Cursor} {count : Nat}

theorem Reaches.fails_of_cut {field : Field}
    (reached : schema.Reaches default whole message cursor)
    (expected : ∀ rule, schema.rule? field.number = some rule → field.value.kind = rule.kind)
    (form : field.Form bytes) (begun : 0 < count) (cut : count < bytes.length)
    (ahead : cursor.rest = bytes.take count) :
    schema.Fails default whole .reader (.truncated (cursor.offset + count)) := by
  obtain ⟨offset, rest⟩ := cursor
  obtain rfl : rest = bytes.take count := ahead
  rcases form.cut offset begun cut with ⟨next, failed⟩ | ⟨middle, next, read, failed⟩
  · exact .key reached failed
  · exact .value reached read expected failed

/-- A field of the right kind that has begun and is cut is a fault at the cut. -/
theorem fails_of_cut {field : Field} (default : α) (form : field.Form bytes)
    (expected : ∀ rule, schema.rule? field.number = some rule → field.value.kind = rule.kind)
    (begun : 0 < count) (cut : count < bytes.length) :
    schema.Fails default (bytes.take count) .reader (.truncated count) := by
  have fails := (reaches_start schema default (bytes.take count)).fails_of_cut expected form
    begun cut rfl
  rwa [Cursor.ofBytes, Nat.zero_add] at fails

theorem expected_of_absorb {field : Field} {after : α}
    (stored : schema.absorb field message = .ok after) :
    ∀ rule, schema.rule? field.number = some rule → field.value.kind = rule.kind := by
  intro rule known
  by_contra other
  rw [absorb_of_otherKind known other] at stored
  cases stored

/-- What is left of fields that can all be stored are the first of them, or the cut is in one
of them and is met there. -/
theorem Reaches.forms_or_fails {fields : List Field} {after : α}
    (reached : schema.Reaches default whole message cursor) (forms : Forms fields bytes)
    (absorbed : schema.absorbAll fields message = .ok after)
    (ahead : cursor.rest = bytes.take count) (within : count ≤ bytes.length) :
    (∃ front, front <+: fields ∧ Forms front (bytes.take count)) ∨
      schema.Fails default whole .reader (.truncated (cursor.offset + count)) := by
  induction forms generalizing message cursor count with
  | nil =>
    rw [List.take_nil]
    exact .inl ⟨[], List.prefix_refl _, .nil⟩
  | @cons field fields front back head tail ih =>
    rw [absorbAll] at absorbed
    cases stored : schema.absorb field message with
    | error failure => simp [stored] at absorbed
    | ok next =>
      rw [stored] at absorbed
      by_cases inside : count < front.length
      · rw [List.take_append_of_le_length (by omega)] at ahead ⊢
        rcases Nat.eq_zero_or_pos count with rfl | begun
        · exact .inl ⟨[], List.nil_prefix, .nil⟩
        · exact .inr (reached.fails_of_cut (expected_of_absorb stored) head begun inside ahead)
      · rw [List.take_append, List.take_of_length_le (by omega)] at ahead ⊢
        rw [List.length_append] at within
        have further := reached.behind_field head ahead stored
        rcases ih further absorbed rfl (by omega) with ⟨first, before, rest⟩ | fails
        · exact .inl ⟨field :: first, List.prefix_cons_inj field |>.mpr before, .cons head rest⟩
        · have reached : cursor.offset + front.length + (count - front.length) =
              cursor.offset + count := by omega
          rw [reached] at fails
          exact .inr fails

/-- Wherever an accepted message is cut, a message of its first fields is left, which is
accepted too, or it is truncated there. -/
theorem decode_of_cut (accepted : schema.decode default bytes = .ok message)
    (within : count ≤ bytes.length) :
    (∃ earlier, schema.decode default (bytes.take count) = .ok earlier) ∨
      schema.decode default (bytes.take count) = .error (.truncated count) := by
  obtain ⟨fields, forms, absorbed⟩ := decode_eq_ok.mp accepted
  have start := reaches_start schema default (bytes.take count)
  rcases start.forms_or_fails forms absorbed rfl within with ⟨front, ⟨others, rfl⟩, first⟩ | fails
  · obtain ⟨earlier, stored, _⟩ := absorbAll_append.mp absorbed
    exact .inl ⟨earlier, decode_eq_ok.mpr ⟨front, first, stored⟩⟩
  · rw [Cursor.ofBytes, Nat.zero_add] at fails
    exact .inr fails.decode

end Schema

end KeyRelay.Wire
