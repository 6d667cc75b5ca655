import KeyRelay.Proofs.Wire.Field

/-! # Every form of a field

The shortest form of a number is one of several: empty groups may pad it, up to
ten bytes. The forms of numbers, values and fields are described here without a
reader. A scan that reaches the end of a message has found the one sequence of
fields of which the message is a form. -/
set_option autoImplicit false

namespace KeyRelay.Wire

namespace Varint

/-- Groups of seven bits, least significant first; the last alone has its high
bit clear. -/
inductive Denotes : List UInt8 → Nat → Prop
  | last {byte : UInt8} (final : byte.toNat < 128) : Denotes [byte] byte.toNat
  | continued {byte : UInt8} {rest : List UInt8} {high : Nat} (marked : 128 ≤ byte.toNat)
      (tail : Denotes rest high) : Denotes (byte :: rest) (byte.toNat % 128 + 128 * high)

/-- At most ten bytes, which stand for what they denote modulo `2 ^ 64`. -/
structure Form (value : UInt64) (bytes : List UInt8) : Prop where
  length_le : bytes.length ≤ maxLength
  denotes : ∃ number, Denotes bytes number ∧ value.toNat = number % 2 ^ 64

theorem read_of_denotes {limit number : Nat} {front : List UInt8} (rest : List UInt8)
    (denotes : Denotes front number) (short : front.length ≤ limit) :
    read limit (front ++ rest) = .complete number rest := by
  induction denotes generalizing limit with
  | last final =>
    obtain ⟨more, rfl⟩ : ∃ more, limit = more + 1 := ⟨limit - 1, by simp at short; omega⟩
    exact read_last more rest final
  | continued marked tail ih =>
    obtain ⟨more, rfl⟩ : ∃ more, limit = more + 1 := ⟨limit - 1, by simp at short; omega⟩
    have shorter := Nat.le_of_succ_le_succ short
    exact read_continued marked (ih shorter)

theorem denotes_of_read {limit number : Nat} {bytes rest : List UInt8}
    (found : read limit bytes = .complete number rest) :
    ∃ front, bytes = front ++ rest ∧ front.length ≤ limit ∧ Denotes front number := by
  induction limit generalizing bytes number with
  | zero => simp [read] at found
  | succ more ih =>
    cases bytes with
    | nil => simp [read] at found
    | cons byte tail =>
      rw [read] at found
      split at found
      next low =>
        simp only [Reading.complete.injEq] at found
        obtain ⟨rfl, rfl⟩ := found
        exact ⟨[byte], rfl, by simp, .last (UInt8.lt_iff_toNat_lt.mp low)⟩
      next notLow =>
        have marked : 128 ≤ byte.toNat := by
          rw [UInt8.lt_iff_toNat_lt] at notLow
          exact Nat.not_lt.mp notLow
        split at found
        next high remaining call =>
          simp only [Reading.complete.injEq] at found
          obtain ⟨rfl, rfl⟩ := found
          obtain ⟨front, rfl, short, denotes⟩ := ih call
          exact ⟨byte :: front, rfl, Nat.succ_le_succ short, .continued marked denotes⟩
        next => simp at found
        next => simp at found

/-- The writer's form is one of them. -/
theorem form_encode (value : UInt64) : Form value (encode value) := by
  have complete := read_encode value []
  obtain ⟨front, whole, short, denotes⟩ := denotes_of_read complete
  rw [List.append_nil, List.append_nil] at whole
  rw [whole]
  exact ⟨short, value.toNat, denotes, (Nat.mod_eq_of_lt value.toNat_lt).symm⟩

end Varint

/-- The value behind the key of a field. -/
inductive FieldValue.Form : FieldValue → List UInt8 → Prop
  | varint {value : UInt64} {bytes : List UInt8} (number : Varint.Form value bytes) :
      Form (.varint value) bytes
  | fixed64 {content : List UInt8} (whole : content.length = 8) :
      Form (.fixed64 content) content
  | lengthDelimited {length : UInt64} {front content : List UInt8}
      (announced : Varint.Form length front) (whole : length.toNat = content.length) :
      Form (.lengthDelimited content) (front ++ content)
  | fixed32 {content : List UInt8} (whole : content.length = 4) :
      Form (.fixed32 content) content

/-- A key with a number that keys may carry, and behind it the value. -/
inductive Field.Form : Field → List UInt8 → Prop
  | mk {number : UInt32} {value : FieldValue} {front back : List UInt8}
      (valid : ValidNumber number) (key : Varint.Form (Put.keyValue number value.kind) front)
      (content : value.Form back) : Form ⟨number, value⟩ (front ++ back)

/-- Fields one behind the other and nothing else. -/
inductive Forms : List Field → List UInt8 → Prop
  | nil : Forms [] []
  | cons {field : Field} {fields : List Field} {front back : List UInt8}
      (head : field.Form front) (tail : Forms fields back) :
      Forms (field :: fields) (front ++ back)

theorem WireType.code_of_ofCode? {code : UInt8} {kind : WireType}
    (known : ofCode? code = some kind) : kind.code = code := by
  unfold ofCode? at known
  split at known <;> cases known <;> rfl

namespace Cursor

theorem varint_of_form {value : UInt64} {front : List UInt8} (offset : Nat)
    (rest : List UInt8) (form : Varint.Form value front) :
    varint ⟨offset, front ++ rest⟩ = (.ok value, ⟨offset + front.length, rest⟩) := by
  obtain ⟨short, number, denotes, low⟩ := form
  have narrowed : UInt64.ofNat number = value := by
    apply UInt64.toNat_inj.mp
    rw [UInt64.toNat_ofNat', low]
  rw [varint, Varint.read_of_denotes rest denotes short]
  dsimp only
  rw [narrowed, moveTo_append]

theorem form_of_varint {cursor next : Cursor} {value : UInt64}
    (success : cursor.varint = (.ok value, next)) :
    ∃ front, cursor.rest = front ++ next.rest ∧ Varint.Form value front := by
  unfold varint at success
  split at success
  next number rest call =>
    simp only [Prod.mk.injEq, Except.ok.injEq] at success
    obtain ⟨rfl, rfl⟩ := success
    obtain ⟨front, whole, short, denotes⟩ := Varint.denotes_of_read call
    exact ⟨front, whole, short, number, denotes, UInt64.toNat_ofNat'⟩
  next => simp at success
  next => simp at success

theorem front_of_take {cursor next : Cursor} {count : Nat} {content : List UInt8}
    (success : cursor.take count = (.ok content, next)) :
    cursor.rest = content ++ next.rest ∧ content.length = count := by
  unfold take at success
  split at success
  next enough =>
    simp only [Prod.mk.injEq, Except.ok.injEq] at success
    obtain ⟨rfl, rfl⟩ := success
    exact ⟨(List.take_append_drop count cursor.rest).symm, List.length_take_of_le enough⟩
  next => simp at success

theorem lengthDelimited_of_form {length : UInt64} {front content : List UInt8} (offset : Nat)
    (rest : List UInt8) (announced : Varint.Form length front)
    (whole : length.toNat = content.length) :
    lengthDelimited ⟨offset, front ++ content ++ rest⟩ =
      (.ok content, ⟨offset + (front ++ content).length, rest⟩) := by
  rw [List.append_assoc, lengthDelimited, varint_of_form offset _ announced]
  dsimp only
  rw [whole, take_append, List.length_append, Nat.add_assoc]

theorem form_of_lengthDelimited {cursor next : Cursor} {content : List UInt8}
    (success : cursor.lengthDelimited = (.ok content, next)) :
    ∃ front, cursor.rest = front ++ next.rest ∧
      (FieldValue.lengthDelimited content).Form front := by
  unfold lengthDelimited at success
  split at success
  next length middle call =>
    obtain ⟨front, before, announced⟩ := form_of_varint call
    obtain ⟨behind, whole⟩ := front_of_take success
    refine ⟨front ++ content, ?_, .lengthDelimited announced whole.symm⟩
    rw [before, behind, List.append_assoc]
  next => simp at success

theorem keyOf_ok {offset : Nat} {packed : UInt64} {found : Key}
    (success : keyOf offset packed = .ok found) :
    ValidNumber found.field ∧ packed = Put.keyValue found.field found.kind := by
  unfold keyOf at success
  dsimp only at success
  split at success
  next => simp at success
  next allowed =>
    have bounds : 0 < packed.toNat / 8 ∧ packed.toNat / 8 ≤ maxFieldNumber := by omega
    have number : (UInt32.ofNat (packed.toNat / 8)).toNat = packed.toNat / 8 := by
      rw [UInt32.toNat_ofNat', maxFieldNumber] at *
      omega
    split at success
    next kind known =>
      simp only [Except.ok.injEq] at success
      subst success
      have low : kind.code.toNat = packed.toNat % 8 := by
        rw [WireType.code_of_ofCode? known, UInt8.toNat_ofNat']
        omega
      constructor
      · rw [ValidNumber, number]
        exact bounds
      · apply UInt64.toNat_inj.mp
        rw [Put.toNat_keyValue, number, low]
        omega
    next => simp at success

theorem key_of_form {number : UInt32} {kind : WireType} {front : List UInt8} (offset : Nat)
    (rest : List UInt8) (valid : ValidNumber number)
    (form : Varint.Form (Put.keyValue number kind) front) :
    key ⟨offset, front ++ rest⟩ =
      (.ok (some ⟨number, kind⟩), ⟨offset + front.length, rest⟩) := by
  have nonempty : (front ++ rest).isEmpty = false := by
    obtain ⟨_, _, denotes, _⟩ := form
    cases denotes <;> rfl
  rw [key, nonempty, varint_of_form offset rest form]
  simp only [keyOf_keyValue offset number kind valid, Except.map, if_neg, Bool.false_eq_true,
    not_false_eq_true]

theorem form_of_key {cursor next : Cursor} {found : Key}
    (success : cursor.key = (.ok (some found), next)) :
    ∃ front, cursor.rest = front ++ next.rest ∧ ValidNumber found.field ∧
      Varint.Form (Put.keyValue found.field found.kind) front := by
  unfold key at success
  split at success
  · simp at success
  · split at success
    next packed middle call =>
      cases named : keyOf cursor.offset packed with
      | error failure => simp [named, Except.map] at success
      | ok key =>
        simp only [named, Except.map, Prod.mk.injEq, Except.ok.injEq, Option.some.injEq] at success
        obtain ⟨rfl, rfl⟩ := success
        obtain ⟨valid, rfl⟩ := keyOf_ok named
        obtain ⟨front, whole, form⟩ := form_of_varint call
        exact ⟨front, whole, valid, form⟩
    next => simp at success

theorem end_of_key {cursor next : Cursor} (success : cursor.key = (.ok none, next)) :
    cursor.rest = [] := by
  unfold key at success
  split at success
  next empty => exact List.isEmpty_iff.mp empty
  next =>
    split at success
    next packed middle call =>
      cases named : keyOf cursor.offset packed with
      | error failure => simp [named, Except.map] at success
      | ok key => simp [named, Except.map] at success
    next => simp at success

theorem value_of_form {found : FieldValue} {front : List UInt8} (offset : Nat) (number : UInt32)
    (rest : List UInt8) (form : found.Form front) :
    value ⟨offset, front ++ rest⟩ ⟨number, found.kind⟩ =
      (.ok found, ⟨offset + front.length, rest⟩) := by
  cases form with
  | varint number =>
    simp only [value, FieldValue.kind, varint_of_form offset rest number, Except.map]
  | fixed64 whole =>
    have taken := take_append offset front rest
    rw [whole] at taken
    simp only [value, FieldValue.kind, taken, Except.map, whole]
  | lengthDelimited announced whole =>
    simp only [value, FieldValue.kind, lengthDelimited_of_form offset rest announced whole,
      Except.map]
  | fixed32 whole =>
    have taken := take_append offset front rest
    rw [whole] at taken
    simp only [value, FieldValue.kind, taken, Except.map, whole]

/-- What was wrapped was read. -/
theorem ok_of_map {α β : Type} {read : Except DecodeError α × Cursor} {wrap : α → β} {found : β}
    {next : Cursor} (success : (read.1.map wrap, read.2) = (.ok found, next)) :
    ∃ inner, read = (.ok inner, next) ∧ wrap inner = found := by
  obtain ⟨outcome, after⟩ := read
  cases outcome with
  | error failure => simp [Except.map] at success
  | ok inner =>
    simp only [Except.map, Prod.mk.injEq, Except.ok.injEq] at success
    obtain ⟨rfl, rfl⟩ := success
    exact ⟨inner, rfl, rfl⟩

theorem form_of_value {cursor next : Cursor} {key : Key} {found : FieldValue}
    (success : cursor.value key = (.ok found, next)) :
    found.kind = key.kind ∧ ∃ front, cursor.rest = front ++ next.rest ∧ found.Form front := by
  unfold value at success
  split at success
  next kind =>
    obtain ⟨number, read, rfl⟩ := ok_of_map success
    obtain ⟨front, whole, form⟩ := form_of_varint read
    exact ⟨kind.symm, front, whole, .varint form⟩
  next kind =>
    obtain ⟨content, read, rfl⟩ := ok_of_map success
    obtain ⟨whole, length⟩ := front_of_take read
    exact ⟨kind.symm, content, whole, .fixed64 length⟩
  next kind =>
    obtain ⟨content, read, rfl⟩ := ok_of_map success
    exact ⟨kind.symm, form_of_lengthDelimited read⟩
  next kind =>
    obtain ⟨content, read, rfl⟩ := ok_of_map success
    obtain ⟨whole, length⟩ := front_of_take read
    exact ⟨kind.symm, content, whole, .fixed32 length⟩
  next => simp at success
  next => simp at success

/-- In any of its forms a field is read, and the reader stands behind it then. -/
theorem field_of_form {field : Field} {front : List UInt8} (offset : Nat) (rest : List UInt8)
    (form : field.Form front) :
    ∃ middle, key ⟨offset, front ++ rest⟩ = (.ok (some field.key), middle) ∧
      middle.value field.key = (.ok field.value, ⟨offset + front.length, rest⟩) := by
  cases form with
  | @mk number value front back valid keyForm content =>
    have keyRead := key_of_form offset (back ++ rest) valid keyForm
    have valueRead := value_of_form (offset + front.length) number rest content
    rw [← List.append_assoc] at keyRead
    rw [Nat.add_assoc, ← List.length_append] at valueRead
    exact ⟨_, keyRead, valueRead⟩

/-- What was read as a key and a value is a form of a field. -/
theorem form_of_field {cursor middle next : Cursor} {key : Key} {found : FieldValue}
    (keyRead : cursor.key = (.ok (some key), middle))
    (valueRead : middle.value key = (.ok found, next)) :
    Field.key ⟨key.field, found⟩ = key ∧
      ∃ front, cursor.rest = front ++ next.rest ∧ Field.Form ⟨key.field, found⟩ front := by
  obtain ⟨front, whole, valid, keyForm⟩ := form_of_key keyRead
  obtain ⟨kind, back, content, valueForm⟩ := form_of_value valueRead
  rw [← kind] at keyForm
  refine ⟨?_, front ++ back, ?_, .mk valid keyForm valueForm⟩
  · rw [Field.key, kind]
  · rw [whole, content, List.append_assoc]

end Cursor

/-- A scan takes a field off the front in any of its forms. -/
theorem scan_form {field : Field} {front : List UInt8} (offset : Nat) (rest : List UInt8)
    (form : field.Form front) :
    scan ⟨offset, front ++ rest⟩ =
      { scan ⟨offset + front.length, rest⟩ with
        fields := field :: (scan ⟨offset + front.length, rest⟩).fields } := by
  obtain ⟨middle, keyRead, valueRead⟩ := Cursor.field_of_form offset rest form
  exact scan_of_read keyRead valueRead

theorem scan_forms {fields : List Field} {front : List UInt8} (offset : Nat) (rest : List UInt8)
    (forms : Forms fields front) :
    scan ⟨offset, front ++ rest⟩ =
      { scan ⟨offset + front.length, rest⟩ with
        fields := fields ++ (scan ⟨offset + front.length, rest⟩).fields } := by
  induction forms generalizing offset with
  | nil => simp
  | cons head tail ih =>
    rw [List.append_assoc, scan_form _ _ head, ih, List.length_append, Nat.add_assoc,
      List.cons_append]

theorem scan_of_end {cursor next : Cursor} (ended : cursor.key = (.ok none, next)) :
    scan cursor = ⟨[], .finished, next⟩ := by
  rw [scan]
  split
  next call =>
    simp only [ended, Prod.mk.injEq, true_and] at call
    rw [call]
  next call => simp [ended] at call
  next call => simp [ended] at call

theorem scan_of_badKey {cursor next : Cursor} {failure : DecodeError}
    (failed : cursor.key = (.error failure, next)) :
    scan cursor = ⟨[], .badKey failure, next⟩ := by
  rw [scan]
  split
  next call => simp [failed] at call
  next call =>
    simp only [failed, Prod.mk.injEq, Except.error.injEq] at call
    rw [call.1, call.2]
  next call => simp [failed] at call

theorem scan_of_badValue {cursor middle next : Cursor} {key : Key} {failure : DecodeError}
    (keyRead : cursor.key = (.ok (some key), middle))
    (failed : middle.value key = (.error failure, next)) :
    scan cursor = ⟨[], .badValue key failure, next⟩ := by
  rw [scan]
  split
  next call => simp [keyRead] at call
  next call => simp [keyRead] at call
  next call =>
    simp only [keyRead, Prod.mk.injEq, Except.ok.injEq, Option.some.injEq] at call
    obtain ⟨rfl, rfl⟩ := call
    split
    next call =>
      simp only [failed, Prod.mk.injEq, Except.error.injEq] at call
      rw [call.1, call.2]
    next call => simp [failed] at call

/-- A scan that reaches the end has passed over forms of its fields only. -/
theorem forms_of_scan (cursor : Cursor) (finished : (scan cursor).stop = .finished) :
    Forms (scan cursor).fields cursor.rest := by
  induction cursor using scan.induct with
  | case1 cursor next ended =>
    rw [scan_of_end ended, Cursor.end_of_key ended]
    exact .nil
  | case2 cursor failure next failed =>
    rw [scan_of_badKey failed] at finished
    cases finished
  | case3 cursor key middle keyRead failure next failed =>
    rw [scan_of_badValue keyRead failed] at finished
    cases finished
  | case4 cursor key middle keyRead found next valueRead ih =>
    rw [scan_of_read keyRead valueRead] at finished ⊢
    obtain ⟨_, front, whole, form⟩ := Cursor.form_of_field keyRead valueRead
    rw [whole]
    exact .cons form (ih finished)

/-- A message is a form of the fields of its scan, if that reaches the end, and
of no others. -/
theorem forms_iff_scan {fields : List Field} {bytes : List UInt8} :
    Forms fields bytes ↔
      (scan (.ofBytes bytes)).fields = fields ∧ (scan (.ofBytes bytes)).stop = .finished := by
  constructor
  · intro forms
    have scanned := scan_forms 0 [] forms
    rw [List.append_nil, scan_nil, List.append_nil] at scanned
    rw [Cursor.ofBytes, scanned]
    exact ⟨rfl, rfl⟩
  · rintro ⟨rfl, finished⟩
    exact forms_of_scan _ finished

theorem Forms.unique {fields others : List Field} {bytes : List UInt8}
    (forms : Forms fields bytes) (otherForms : Forms others bytes) : fields = others := by
  obtain ⟨rfl, _⟩ := forms_iff_scan.mp forms
  exact (forms_iff_scan.mp otherForms).1

/-- A field somewhere in a message. -/
def Occurs (field : Field) (bytes : List UInt8) : Prop :=
  ∃ fields, Forms fields bytes ∧ field ∈ fields

theorem Occurs.mem {field : Field} {fields : List Field} {bytes : List UInt8}
    (occurs : Occurs field bytes) (forms : Forms fields bytes) : field ∈ fields := by
  obtain ⟨others, otherForms, member⟩ := occurs
  rw [forms.unique otherForms]
  exact member

theorem occurs_iff_scan {field : Field} {bytes : List UInt8} :
    Occurs field bytes ↔
      (scan (.ofBytes bytes)).stop = .finished ∧ field ∈ (scan (.ofBytes bytes)).fields := by
  simp only [Occurs, forms_iff_scan]
  constructor
  · rintro ⟨_, ⟨rfl, finished⟩, member⟩
    exact ⟨finished, member⟩
  · rintro ⟨finished, member⟩
    exact ⟨_, ⟨rfl, finished⟩, member⟩

end KeyRelay.Wire
