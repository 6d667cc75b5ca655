import KeyRelay.Proofs.Wire.Edit

/-! # Where decoding fails

The first fault of a message lies behind a front of fields that were all stored. It is
met either by the reader of the message, at a key, at the wire type of a known field or
at a value, or in the content of a field that was read: a number out of range, or a
message that is at fault itself. Behind other bytes the offset of the former counts from
further back; the latter does not notice them. -/
set_option autoImplicit false

namespace KeyRelay.Wire

/-- The same error with its offset counted from a place further back. -/
def DecodeError.shift (distance : Nat) : DecodeError → DecodeError
  | .truncated offset => .truncated (distance + offset)
  | .varintOverflow offset => .varintOverflow (distance + offset)
  | .invalidFieldNumber offset => .invalidFieldNumber (distance + offset)
  | failure => failure

/-- Who meets a fault: the reader of a message, or whoever takes what one of its fields holds. -/
inductive Level
  | reader
  | content
  deriving DecidableEq, Repr

/-- An error of a message as it shows when the message stands behind other bytes. -/
def DecodeError.behind (distance : Nat) (failure : DecodeError) : Level → DecodeError
  | .reader => failure.shift distance
  | .content => failure

namespace Cursor

def shift (distance : Nat) (cursor : Cursor) : Cursor :=
  ⟨distance + cursor.offset, cursor.rest⟩

/-- What a reading step gives and leaves, the same way. -/
def shiftRead {β : Type} (distance : Nat) (read : Except DecodeError β × Cursor) :
    Except DecodeError β × Cursor :=
  (read.1.mapError (DecodeError.shift distance), read.2.shift distance)

theorem rest_shift (distance : Nat) (cursor : Cursor) :
    (cursor.shift distance).rest = cursor.rest :=
  rfl

theorem limit_shift (distance : Nat) (cursor : Cursor) :
    (cursor.shift distance).limit = distance + cursor.limit := by
  rw [limit, limit, shift, Nat.add_assoc]

theorem moveTo_shift (distance : Nat) (cursor : Cursor) (rest : List UInt8) :
    (cursor.shift distance).moveTo rest = (cursor.moveTo rest).shift distance := by
  simp only [moveTo, shift, Nat.add_assoc]

theorem varint_shift (distance : Nat) (cursor : Cursor) :
    (cursor.shift distance).varint = shiftRead distance cursor.varint := by
  unfold varint
  rw [rest_shift]
  split
  · rw [moveTo_shift]
    rfl
  · rw [moveTo_shift, limit_shift]
    rfl
  · rw [moveTo_shift]
    rfl

theorem take_shift (distance count : Nat) (cursor : Cursor) :
    (cursor.shift distance).take count = shiftRead distance (cursor.take count) := by
  unfold take
  rw [rest_shift]
  split
  · simp only [shiftRead, shift, Except.mapError, Nat.add_assoc]
  · rw [limit_shift]
    rfl

theorem lengthDelimited_shift (distance : Nat) (cursor : Cursor) :
    (cursor.shift distance).lengthDelimited = shiftRead distance cursor.lengthDelimited := by
  unfold lengthDelimited
  rw [varint_shift]
  rcases cursor.varint with ⟨outcome, next⟩
  cases outcome with
  | ok length => exact take_shift distance length.toNat next
  | error failure => rfl

theorem keyOf_shift (distance offset : Nat) (packed : UInt64) :
    keyOf (distance + offset) packed =
      (keyOf offset packed).mapError (DecodeError.shift distance) := by
  unfold keyOf
  dsimp only
  split
  · rfl
  · split <;> rfl

theorem key_shift (distance : Nat) (cursor : Cursor) :
    (cursor.shift distance).key = shiftRead distance cursor.key := by
  unfold key
  rw [rest_shift, varint_shift]
  split
  · rfl
  · rcases cursor.varint with ⟨outcome, next⟩
    cases outcome with
    | ok packed =>
      simp only [shiftRead, Except.mapError, shift, keyOf_shift]
      cases keyOf cursor.offset packed <;> rfl
    | error failure => rfl

theorem shiftRead_map {β : Type} (distance : Nat) (read : Except DecodeError β × Cursor)
    (wrap : β → FieldValue) :
    ((shiftRead distance read).1.map wrap, (shiftRead distance read).2) =
      shiftRead distance (read.1.map wrap, read.2) := by
  rcases read with ⟨outcome, next⟩
  cases outcome <;> rfl

theorem value_shift (distance : Nat) (cursor : Cursor) (key : Key) :
    (cursor.shift distance).value key = shiftRead distance (cursor.value key) := by
  unfold value
  split
  · rw [varint_shift]
    exact shiftRead_map distance cursor.varint .varint
  · rw [take_shift]
    exact shiftRead_map distance (cursor.take 8) .fixed64
  · rw [lengthDelimited_shift]
    exact shiftRead_map distance cursor.lengthDelimited .lengthDelimited
  · rw [take_shift]
    exact shiftRead_map distance (cursor.take 4) .fixed32
  · rfl
  · rfl

end Cursor

namespace Schema

variable {α : Type} {schema : Schema α} {default message : α} {bytes : List UInt8}
  {cursor : Cursor} {failure : DecodeError} {level : Level}

/-- Behind a front of complete fields, all of them stored, a message is read up to here. -/
def Reaches (schema : Schema α) (default : α) (bytes : List UInt8) (message : α)
    (cursor : Cursor) : Prop :=
  ∃ fields front, bytes = front ++ cursor.rest ∧ front.length = cursor.offset ∧
    Forms fields front ∧ schema.absorbAll fields default = .ok message

/-- The fault that a message fails with. -/
inductive Fails (schema : Schema α) (default : α) (bytes : List UInt8) :
    Level → DecodeError → Prop
  | key {message : α} {cursor next : Cursor} {failure : DecodeError}
      (reached : schema.Reaches default bytes message cursor)
      (failed : cursor.key = (.error failure, next)) : Fails schema default bytes .reader failure
  | kind {message : α} {cursor next : Cursor} {key : Key} {rule : Rule α}
      (reached : schema.Reaches default bytes message cursor)
      (read : cursor.key = (.ok (some key), next)) (known : schema.rule? key.field = some rule)
      (other : key.kind ≠ rule.kind) :
      Fails schema default bytes .reader
        (.wireTypeMismatch schema.message key.field rule.kind key.kind)
  | value {message : α} {cursor middle next : Cursor} {key : Key} {failure : DecodeError}
      (reached : schema.Reaches default bytes message cursor)
      (read : cursor.key = (.ok (some key), middle))
      (expected : ∀ rule, schema.rule? key.field = some rule → key.kind = rule.kind)
      (failed : middle.value key = (.error failure, next)) :
      Fails schema default bytes .reader failure
  | number {message : α} {cursor middle next : Cursor} {key : Key} {value : UInt64}
      {store : UInt64 → α → Except DecodeError α} {failure : DecodeError}
      (reached : schema.Reaches default bytes message cursor)
      (read : cursor.key = (.ok (some key), middle))
      (carried : middle.value key = (.ok (.varint value), next))
      (known : schema.rule? key.field = some (.varint store))
      (refused : store value message = .error failure) :
      Fails schema default bytes .content failure
  | bytes {message : α} {cursor middle next : Cursor} {key : Key} {content : List UInt8}
      {store : List UInt8 → α → Except DecodeError α} {failure : DecodeError}
      (reached : schema.Reaches default bytes message cursor)
      (read : cursor.key = (.ok (some key), middle))
      (carried : middle.value key = (.ok (.lengthDelimited content), next))
      (known : schema.rule? key.field = some (.bytes store))
      (refused : store content message = .error failure) :
      Fails schema default bytes .content failure

/-- What becomes of a message that is read so far, with what a scan finds behind it. -/
def conclude (schema : Schema α) (found : Scan) (message : α) : Except DecodeError α :=
  match schema.absorbAll found.fields message with
  | .error failure => .error failure
  | .ok message =>
    match schema.stopFailure? found.stop with
    | none => .ok message
    | some failure => .error failure

theorem reaches_start (schema : Schema α) (default : α) (bytes : List UInt8) :
    schema.Reaches default bytes default (.ofBytes bytes) :=
  ⟨[], [], rfl, rfl, .nil, rfl⟩

/-- A field that stands here and is stored takes the message and the cursor further. -/
theorem Reaches.behind_field {field : Field} {front rest : List UInt8} {after : α}
    (reached : schema.Reaches default bytes message cursor) (form : field.Form front)
    (ahead : cursor.rest = front ++ rest) (stored : schema.absorb field message = .ok after) :
    schema.Reaches default bytes after ⟨cursor.offset + front.length, rest⟩ := by
  obtain ⟨fields, before, rfl, length, forms, absorbed⟩ := reached
  refine ⟨fields ++ [field], before ++ front, ?_, ?_, ?_, ?_⟩
  · rw [ahead, List.append_assoc]
  · rw [List.length_append, length]
  · simpa using forms.append (.cons form .nil)
  · refine absorbAll_append.mpr ⟨message, absorbed, ?_⟩
    rw [absorbAll, stored]
    rfl

theorem Reaches.next {middle next : Cursor} {key : Key} {found : FieldValue} {after : α}
    (reached : schema.Reaches default bytes message cursor)
    (keyRead : cursor.key = (.ok (some key), middle))
    (valueRead : middle.value key = (.ok found, next))
    (stored : schema.absorb ⟨key.field, found⟩ message = .ok after) :
    schema.Reaches default bytes after next := by
  obtain ⟨same, front, joined, form⟩ := Cursor.form_of_field keyRead valueRead
  obtain ⟨between, keyAgain, valueAgain⟩ :=
    Cursor.field_of_form cursor.offset next.rest form
  rw [← joined, same, keyRead] at keyAgain
  cases keyAgain
  rw [same, valueRead] at valueAgain
  have place : next = ⟨cursor.offset + front.length, next.rest⟩ :=
    congrArg Prod.snd valueAgain
  rw [place]
  exact reached.behind_field form joined stored

theorem absorbAll_of_front {fields : List Field} (others : List Field)
    (absorbed : schema.absorbAll fields default = .ok message) :
    schema.absorbAll (fields ++ others) default = schema.absorbAll others message := by
  induction fields generalizing default with
  | nil =>
    cases absorbed
    rfl
  | cons field rest ih =>
    rw [absorbAll] at absorbed
    rw [List.cons_append, absorbAll]
    cases stored : schema.absorb field default with
    | error failure => simp [stored] at absorbed
    | ok next =>
      rw [stored] at absorbed
      exact ih absorbed

theorem decode_eq_conclude (schema : Schema α) (default : α) (bytes : List UInt8) :
    schema.decode default bytes = schema.conclude (scan (.ofBytes bytes)) default :=
  rfl

theorem conclude_of_front {fields : List Field} (found : Scan)
    (absorbed : schema.absorbAll fields default = .ok message) :
    schema.conclude { found with fields := fields ++ found.fields } default =
      schema.conclude found message := by
  simp only [conclude, absorbAll_of_front found.fields absorbed]

/-- From a place that is reached, the rest decides how the message ends. -/
theorem Reaches.decode_eq (reached : schema.Reaches default bytes message cursor) :
    schema.decode default bytes = schema.conclude (scan cursor) message := by
  obtain ⟨fields, front, rfl, length, forms, absorbed⟩ := reached
  have scanned := scan_forms 0 cursor.rest forms
  rw [Nat.zero_add, length] at scanned
  rw [decode_eq_conclude, Cursor.ofBytes, scanned]
  exact conclude_of_front (scan cursor) absorbed

theorem absorb_of_otherKind {rule : Rule α} {field : Field}
    (known : schema.rule? field.number = some rule) (other : field.value.kind ≠ rule.kind) :
    schema.absorb field message =
      .error (.wireTypeMismatch schema.message field.number rule.kind field.value.kind) := by
  obtain ⟨number, value⟩ := field
  cases rule <;> cases value <;> simp_all [absorb, Rule.kind, FieldValue.kind]

theorem stopFailure?_of_otherKind {rule : Rule α} {key : Key} (failure : DecodeError)
    (known : schema.rule? key.field = some rule) (other : key.kind ≠ rule.kind) :
    schema.stopFailure? (.badValue key failure) =
      some (.wireTypeMismatch schema.message key.field rule.kind key.kind) := by
  simp only [stopFailure?, known, expectKind, if_neg other]

theorem stopFailure?_of_expected {key : Key} (failure : DecodeError)
    (expected : ∀ rule, schema.rule? key.field = some rule → key.kind = rule.kind) :
    schema.stopFailure? (.badValue key failure) = some failure := by
  cases known : schema.rule? key.field with
  | none => simp only [stopFailure?, known]
  | some rule => simp only [stopFailure?, known, expectKind, if_pos (expected rule known)]

theorem exists_stopFailure? (schema : Schema α) (key : Key) (failure : DecodeError) :
    ∃ found, schema.stopFailure? (.badValue key failure) = some found := by
  rw [stopFailure?]
  split
  · exact ⟨_, rfl⟩
  · split <;> exact ⟨_, rfl⟩

theorem conclude_of_refused {field : Field} {found : Scan}
    (refused : schema.absorb field message = .error failure) :
    schema.conclude { found with fields := field :: found.fields } message = .error failure := by
  rw [conclude, absorbAll, refused]

theorem conclude_of_stopped {stop : Stop} (stopped : schema.stopFailure? stop = some failure) :
    schema.conclude ⟨[], stop, cursor⟩ message = .error failure := by
  rw [conclude, absorbAll]
  dsimp only
  rw [stopped]

theorem conclude_of_stored {field : Field} {found : Scan} {after : α}
    (stored : schema.absorb field message = .ok after) :
    schema.conclude { found with fields := field :: found.fields } message =
      schema.conclude found after := by
  rw [conclude, absorbAll, stored]
  rfl

/-- A field of the right kind is refused for what it holds. -/
theorem store_of_refused {field : Field}
    (expected : ∀ rule, schema.rule? field.number = some rule → field.value.kind = rule.kind)
    (refused : schema.absorb field message = .error failure) :
    (∃ value store, field.value = .varint value ∧
      schema.rule? field.number = some (.varint store) ∧ store value message = .error failure) ∨
    ∃ content store, field.value = .lengthDelimited content ∧
      schema.rule? field.number = some (.bytes store) ∧ store content message = .error failure := by
  obtain ⟨number, value⟩ := field
  cases known : schema.rule? number with
  | none => simp [absorb, known] at refused
  | some rule =>
    have kind := expected rule known
    cases rule with
    | varint store =>
      cases value with
      | varint value =>
        simp only [absorb, known] at refused
        exact .inl ⟨value, store, rfl, rfl, refused⟩
      | lengthDelimited content => cases kind
      | fixed64 content => cases kind
      | fixed32 content => cases kind
    | bytes store =>
      cases value with
      | lengthDelimited content =>
        simp only [absorb, known] at refused
        exact .inr ⟨content, store, rfl, rfl, refused⟩
      | varint value => cases kind
      | fixed64 content => cases kind
      | fixed32 content => cases kind

/-- A message fails with its fault. -/
theorem Fails.decode (fails : schema.Fails default bytes level failure) :
    schema.decode default bytes = .error failure := by
  cases fails with
  | key reached failed =>
    rw [reached.decode_eq, scan_of_badKey failed]
    exact conclude_of_stopped rfl
  | @kind message cursor middle key rule reached read known other =>
    rw [reached.decode_eq]
    rcases found : middle.value key with ⟨outcome, next⟩
    cases outcome with
    | error failure =>
      rw [scan_of_badValue read found]
      exact conclude_of_stopped (stopFailure?_of_otherKind failure known other)
    | ok value =>
      obtain ⟨same, _⟩ := Cursor.form_of_value found
      rw [scan_of_read read found, ← same]
      rw [← same] at other
      exact conclude_of_refused (absorb_of_otherKind known other)
  | value reached read expected failed =>
    rw [reached.decode_eq, scan_of_badValue read failed]
    exact conclude_of_stopped (stopFailure?_of_expected _ expected)
  | number reached read carried known refused =>
    rw [reached.decode_eq, scan_of_read read carried]
    apply conclude_of_refused
    simp only [absorb, known]
    exact refused
  | bytes reached read carried known refused =>
    rw [reached.decode_eq, scan_of_read read carried]
    apply conclude_of_refused
    simp only [absorb, known]
    exact refused

/-- A value that cannot be read is a fault, unless the wire type of its field is one before. -/
theorem Reaches.fails_of_badValue {middle next : Cursor} {key : Key} {cause : DecodeError}
    (reached : schema.Reaches default bytes message cursor)
    (keyRead : cursor.key = (.ok (some key), middle))
    (badValue : middle.value key = (.error cause, next))
    (stopped : schema.stopFailure? (.badValue key cause) = some failure) :
    schema.Fails default bytes .reader failure := by
  by_cases expected : ∀ rule, schema.rule? key.field = some rule → key.kind = rule.kind
  · rw [stopFailure?_of_expected cause expected] at stopped
    cases stopped
    exact .value reached keyRead expected badValue
  · push Not at expected
    obtain ⟨rule, known, other⟩ := expected
    rw [stopFailure?_of_otherKind cause known other] at stopped
    cases stopped
    exact .kind reached keyRead known other

/-- So is a field that is read and cannot be stored. -/
theorem Reaches.fails_of_refused {middle next : Cursor} {key : Key} {found : FieldValue}
    (reached : schema.Reaches default bytes message cursor)
    (keyRead : cursor.key = (.ok (some key), middle))
    (valueRead : middle.value key = (.ok found, next))
    (refused : schema.absorb ⟨key.field, found⟩ message = .error failure) :
    ∃ level, schema.Fails default bytes level failure := by
  obtain ⟨same, _⟩ := Cursor.form_of_value valueRead
  by_cases expected : ∀ rule, schema.rule? key.field = some rule → found.kind = rule.kind
  · rcases store_of_refused expected refused with
      ⟨value, store, rfl, known, refused⟩ | ⟨content, store, rfl, known, refused⟩
    · exact ⟨.content, .number reached keyRead valueRead known refused⟩
    · exact ⟨.content, .bytes reached keyRead valueRead known refused⟩
  · push Not at expected
    obtain ⟨rule, known, other⟩ := expected
    have mismatch : schema.absorb ⟨key.field, found⟩ message = _ :=
      absorb_of_otherKind known other
    rw [mismatch] at refused
    cases refused
    rw [same] at other ⊢
    exact ⟨.reader, .kind reached keyRead known other⟩

/-- Every failure is one of these faults. -/
theorem exists_fails (failed : schema.decode default bytes = .error failure) :
    ∃ level, schema.Fails default bytes level failure := by
  suffices behind : ∀ cursor message, schema.Reaches default bytes message cursor →
      schema.conclude (scan cursor) message = .error failure →
      ∃ level, schema.Fails default bytes level failure by
    have start := reaches_start schema default bytes
    exact behind _ _ start (start.decode_eq.symm.trans failed)
  intro cursor
  induction cursor using scan.induct with
  | case1 cursor next ended =>
    intro message _ failed
    rw [scan_of_end ended] at failed
    cases failed
  | case2 cursor found next badKey =>
    intro message reached failed
    rw [scan_of_badKey badKey, conclude_of_stopped rfl] at failed
    cases failed
    exact ⟨.reader, .key reached badKey⟩
  | case3 cursor key middle keyRead cause next badValue =>
    intro message reached failed
    rw [scan_of_badValue keyRead badValue] at failed
    obtain ⟨found, stopped⟩ := exists_stopFailure? schema key cause
    rw [conclude_of_stopped stopped] at failed
    cases failed
    exact ⟨.reader, reached.fails_of_badValue keyRead badValue stopped⟩
  | case4 cursor key middle keyRead found next valueRead ih =>
    intro message reached failed
    rw [scan_of_read keyRead valueRead] at failed
    cases stored : schema.absorb ⟨key.field, found⟩ message with
    | ok after =>
      rw [conclude_of_stored stored] at failed
      exact ih after (reached.next keyRead valueRead stored) failed
    | error refused =>
      rw [conclude_of_refused stored] at failed
      cases failed
      exact reached.fails_of_refused keyRead valueRead stored

/-- A message fails exactly with its faults. -/
theorem decode_eq_error :
    schema.decode default bytes = .error failure ↔
      ∃ level, schema.Fails default bytes level failure := by
  constructor
  · exact exists_fails
  · rintro ⟨level, fails⟩
    exact fails.decode

/-- Every known field carries a message, which takes the place of an earlier one: what is
stored over something else is what is stored over nothing, laid over the other. -/
structure Replaces (schema : Schema α) (default : α) (atop : α → α → α) : Prop where
  nothing : ∀ earlier, atop default earlier = earlier
  rule : ∀ number rule, schema.rule? number = some rule →
    ∃ read : List UInt8 → Except DecodeError α, (rule = .bytes fun content _ => read content) ∧
      ∀ content found earlier, read content = .ok found → atop found earlier = found

namespace Replaces

variable {atop : α → α → α} {earlier later : α} {front back : List UInt8}

theorem absorb_atop (replaces : schema.Replaces default atop) (field : Field) :
    schema.absorb field (atop later earlier) =
      (schema.absorb field later).map fun next => atop next earlier := by
  obtain ⟨number, value⟩ := field
  cases known : schema.rule? number with
  | none => simp only [absorb, known, Except.map]
  | some rule =>
    obtain ⟨read, rfl, stays⟩ := replaces.rule number rule known
    cases value with
    | lengthDelimited content =>
      simp only [absorb, known]
      cases found : read content with
      | error failure => rfl
      | ok next => rw [Except.map, stays content next earlier found]
    | varint value => simp only [absorb, known, Except.map]
    | fixed64 content => simp only [absorb, known, Except.map]
    | fixed32 content => simp only [absorb, known, Except.map]

theorem absorbAll_atop (replaces : schema.Replaces default atop) (fields : List Field) :
    schema.absorbAll fields (atop later earlier) =
      (schema.absorbAll fields later).map fun next => atop next earlier := by
  induction fields generalizing later with
  | nil => rfl
  | cons field rest ih =>
    rw [absorbAll, absorbAll, replaces.absorb_atop]
    cases schema.absorb field later with
    | error failure => rfl
    | ok next => exact ih

theorem absorbAll_behind (replaces : schema.Replaces default atop) {fields : List Field}
    (earlier : α) (absorbed : schema.absorbAll fields default = .ok later) :
    schema.absorbAll fields earlier = .ok (atop later earlier) := by
  have laid : schema.absorbAll fields (atop default earlier) = _ := replaces.absorbAll_atop fields
  rw [replaces.nothing, absorbed] at laid
  exact laid

/-- Messages that are accepted join to one that is accepted. -/
theorem decode_append (replaces : schema.Replaces default atop)
    (first : schema.decode default front = .ok earlier)
    (second : schema.decode default back = .ok later) :
    schema.decode default (front ++ back) = .ok (atop later earlier) := by
  obtain ⟨fields, forms, absorbed⟩ := decode_eq_ok.mp first
  obtain ⟨others, otherForms, otherAbsorbed⟩ := decode_eq_ok.mp second
  refine decode_eq_ok.mpr ⟨fields ++ others, forms.append otherForms, ?_⟩
  rw [absorbAll_of_front others absorbed]
  exact replaces.absorbAll_behind earlier otherAbsorbed

/-- Behind a message that is accepted, the places of another are reached as they are in it. -/
theorem reaches (replaces : schema.Replaces default atop)
    (first : schema.decode default front = .ok earlier)
    (reached : schema.Reaches default back message cursor) :
    schema.Reaches default (front ++ back) (atop message earlier)
      (cursor.shift front.length) := by
  obtain ⟨fields, forms, absorbed⟩ := decode_eq_ok.mp first
  obtain ⟨others, before, rfl, length, otherForms, otherAbsorbed⟩ := reached
  refine ⟨fields ++ others, front ++ before, ?_, ?_, forms.append otherForms, ?_⟩
  · rw [Cursor.rest_shift, List.append_assoc]
  · rw [List.length_append, length]
    rfl
  · rw [absorbAll_of_front others absorbed]
    exact replaces.absorbAll_behind earlier otherAbsorbed

/-- A fault stays a fault behind a message that is accepted. -/
theorem fails (replaces : schema.Replaces default atop)
    (first : schema.decode default front = .ok earlier)
    (second : schema.Fails default back level failure) :
    schema.Fails default (front ++ back) level (failure.behind front.length level) := by
  cases second with
  | key reached failed =>
    have shifted := congrArg (Cursor.shiftRead front.length) failed
    rw [← Cursor.key_shift] at shifted
    exact .key (replaces.reaches first reached) shifted
  | kind reached read known other =>
    have shifted := congrArg (Cursor.shiftRead front.length) read
    rw [← Cursor.key_shift] at shifted
    exact .kind (replaces.reaches first reached) shifted known other
  | value reached read expected failed =>
    have shifted := congrArg (Cursor.shiftRead front.length) read
    have shiftedValue := congrArg (Cursor.shiftRead front.length) failed
    rw [← Cursor.key_shift] at shifted
    rw [← Cursor.value_shift] at shiftedValue
    exact .value (replaces.reaches first reached) shifted expected shiftedValue
  | number reached read carried known refused =>
    obtain ⟨_, bytes, _⟩ := replaces.rule _ _ known
    cases bytes
  | bytes reached read carried known refused =>
    have shifted := congrArg (Cursor.shiftRead front.length) read
    have shiftedValue := congrArg (Cursor.shiftRead front.length) carried
    rw [← Cursor.key_shift] at shifted
    rw [← Cursor.value_shift] at shiftedValue
    refine .bytes (replaces.reaches first reached) shifted shiftedValue known ?_
    obtain ⟨inner, same, _⟩ := replaces.rule _ _ known
    cases same
    exact refused

end Replaces

end Schema

end KeyRelay.Wire
