import KeyRelay.Proofs.Wire.Position
import Mathlib.Data.List.Infix
import Mathlib.Logic.Function.Defs

/-! # Walking through any bytes

A walk reads a key, skips the value behind it and starts over, until there is no byte left or
one of the two fails. It ends on every byte string. If the bytes are fields one behind the
other, there is one way only to cut them into fields, and the walk sees their keys; otherwise
it sees those of the longest front that can be cut, and then the next key if that can be
read. -/
set_option autoImplicit false

namespace KeyRelay.Wire

namespace Cursor

/-- A field that the reader gets over: its key is read and its value skipped. -/
def Passes (cursor : Cursor) (key : Key) (next : Cursor) : Prop :=
  ∃ middle, cursor.key = (.ok (some key), middle) ∧ middle.skip key = (.ok (), next)

/-- One round of a walk that is the last, with the keys that it still sees. -/
inductive Ends : Cursor → List Key → Stop → Cursor → Prop
  | finished {cursor next : Cursor} (nothing : cursor.key = (.ok none, next)) :
      Ends cursor [] .finished next
  | badKey {cursor next : Cursor} {failure : DecodeError}
      (failed : cursor.key = (.error failure, next)) : Ends cursor [] (.badKey failure) next
  | badValue {cursor middle next : Cursor} {key : Key} {failure : DecodeError}
      (read : cursor.key = (.ok (some key), middle))
      (failed : middle.skip key = (.error failure, next)) :
      Ends cursor [key] (.badValue key failure) next

/-- Rounds up to the one that is the last, with all keys seen, why they end and where. -/
inductive Walks : Cursor → List Key → Stop → Cursor → Prop
  | ends {cursor last : Cursor} {keys : List Key} {stop : Stop}
      (here : Ends cursor keys stop last) : Walks cursor keys stop last
  | field {cursor next last : Cursor} {key : Key} {keys : List Key} {stop : Stop}
      (passed : cursor.Passes key next) (walks : Walks next keys stop last) :
      Walks cursor (key :: keys) stop last

variable {cursor next last : Cursor} {key : Key} {keys : List Key} {stop : Stop}

theorem skip_eq_ok :
    cursor.skip key = (.ok (), next) ↔ ∃ found, cursor.value key = (.ok found, next) := by
  rw [skip]
  rcases cursor.value key with ⟨outcome, after⟩
  cases outcome <;> simp [Except.map]

theorem skip_eq_error {failure : DecodeError} :
    cursor.skip key = (.error failure, next) ↔ cursor.value key = (.error failure, next) := by
  rw [skip]
  rcases cursor.value key with ⟨outcome, after⟩
  cases outcome <;> simp [Except.map]

theorem passes_iff : cursor.Passes key next ↔
    ∃ middle found, cursor.key = (.ok (some key), middle) ∧
      middle.value key = (.ok found, next) := by
  simp only [Passes, skip_eq_ok, exists_and_left]

/-! ## A walk is what a scan does -/

/-- What a scan finds from a field on is what it finds behind the field, and the key. -/
theorem scan_of_passes (passed : cursor.Passes key next) :
    (scan cursor).keys = key :: (scan next).keys ∧ (scan cursor).stop = (scan next).stop ∧
      (scan cursor).cursor = (scan next).cursor := by
  obtain ⟨middle, found, keyRead, valueRead⟩ := passes_iff.mp passed
  have same := (form_of_field keyRead valueRead).1
  rw [scan_of_read keyRead valueRead, Scan.keys, List.map_cons, same]
  exact ⟨rfl, rfl, rfl⟩

theorem walks_scan (cursor : Cursor) :
    cursor.Walks (scan cursor).keys (scan cursor).stop (scan cursor).cursor := by
  induction cursor using scan.induct with
  | case1 cursor next nothing =>
    rw [scan_of_end nothing]
    exact .ends (.finished nothing)
  | case2 cursor failure next failed =>
    rw [scan_of_badKey failed]
    exact .ends (.badKey failed)
  | case3 cursor key middle keyRead failure next failed =>
    rw [scan_of_badValue keyRead failed]
    exact .ends (.badValue keyRead (skip_eq_error.mpr failed))
  | case4 cursor key middle keyRead found next valueRead ih =>
    have passed : cursor.Passes key next := passes_iff.mpr ⟨middle, found, keyRead, valueRead⟩
    obtain ⟨seen, why, place⟩ := scan_of_passes passed
    rw [seen, why, place]
    exact .field passed ih

theorem Ends.eq_scan (ends : cursor.Ends keys stop last) :
    keys = (scan cursor).keys ∧ stop = (scan cursor).stop ∧ last = (scan cursor).cursor := by
  cases ends with
  | finished nothing =>
    rw [scan_of_end nothing]
    exact ⟨rfl, rfl, rfl⟩
  | badKey failed =>
    rw [scan_of_badKey failed]
    exact ⟨rfl, rfl, rfl⟩
  | badValue read failed =>
    rw [scan_of_badValue read (skip_eq_error.mp failed)]
    exact ⟨rfl, rfl, rfl⟩

theorem Walks.eq_scan (walks : cursor.Walks keys stop last) :
    keys = (scan cursor).keys ∧ stop = (scan cursor).stop ∧ last = (scan cursor).cursor := by
  induction walks with
  | ends here => exact here.eq_scan
  | field passed _ ih =>
    obtain ⟨seen, why, place⟩ := scan_of_passes passed
    rw [seen, why, place, ← ih.1]
    exact ⟨rfl, ih.2⟩

/-- Every round takes a byte at least. -/
theorem Passes.shortens (passed : cursor.Passes key next) :
    next.rest.length < cursor.rest.length := by
  obtain ⟨middle, found, keyRead, valueRead⟩ := passes_iff.mp passed
  exact lt_of_le_of_lt (value_shortens valueRead) (key_shortens keyRead)

theorem Walks.length_le (walks : cursor.Walks keys stop last) :
    keys.length ≤ cursor.rest.length := by
  induction walks with
  | ends here =>
    cases here with
    | finished nothing => exact Nat.zero_le _
    | badKey failed => exact Nat.zero_le _
    | badValue read failed => exact Nat.zero_lt_of_lt (key_shortens read)
  | field passed _ ih => exact lt_of_le_of_lt ih passed.shortens

end Cursor

/-! ## Cutting bytes into fields -/

/-- A field and the bytes that it stands in. -/
@[ext]
structure Piece where
  field : Field
  bytes : List UInt8
  form : field.Form bytes

def Piece.key (piece : Piece) : Key :=
  piece.field.key

def joined (pieces : List Piece) : List UInt8 :=
  pieces.flatMap Piece.bytes

theorem joined_cons (piece : Piece) (pieces : List Piece) :
    joined (piece :: pieces) = piece.bytes ++ joined pieces :=
  List.flatMap_cons

/-- No piece begins another: what bytes begin with decides the piece. -/
theorem Piece.eq_of_append {piece other : Piece} {rest more : List UInt8}
    (same : piece.bytes ++ rest = other.bytes ++ more) : piece = other ∧ rest = more := by
  obtain ⟨middle, keyRead, valueRead⟩ := Cursor.field_of_form 0 rest piece.form
  obtain ⟨otherMiddle, otherKey, otherValue⟩ := Cursor.field_of_form 0 more other.form
  rw [same, otherKey] at keyRead
  simp only [Prod.mk.injEq, Except.ok.injEq, Option.some.injEq] at keyRead
  obtain ⟨key, rfl⟩ := keyRead
  rw [← key, otherValue] at valueRead
  simp only [Prod.mk.injEq, Except.ok.injEq, Cursor.mk.injEq] at valueRead
  obtain ⟨value, _, rfl⟩ := valueRead
  have number : piece.field.number = other.field.number := (congrArg Key.field key).symm
  have field : piece.field = other.field := by
    rw [Field.mk.injEq]
    exact ⟨number, value.symm⟩
  exact ⟨Piece.ext field (List.append_cancel_right same), rfl⟩

theorem Cursor.Passes.exists_piece {cursor next : Cursor} {key : Key}
    (passed : cursor.Passes key next) :
    ∃ piece : Piece, piece.key = key ∧ cursor.rest = piece.bytes ++ next.rest := by
  obtain ⟨middle, found, keyRead, valueRead⟩ := passes_iff.mp passed
  obtain ⟨same, front, whole, form⟩ := form_of_field keyRead valueRead
  exact ⟨⟨⟨key.field, found⟩, front, form⟩, same, whole⟩

/-- Where a walk ends, no field begins. -/
theorem Cursor.Ends.no_piece {cursor last : Cursor} {keys : List Key} {stop : Stop}
    (ends : cursor.Ends keys stop last) (piece : Piece) : ¬ piece.bytes <+: cursor.rest := by
  rintro ⟨rest, whole⟩
  obtain ⟨middle, keyRead, valueRead⟩ := field_of_form cursor.offset rest piece.form
  rw [whole] at keyRead
  cases ends with
  | finished nothing => cases nothing.symm.trans keyRead
  | badKey failed => cases failed.symm.trans keyRead
  | badValue read failed =>
    cases read.symm.trans keyRead
    cases (skip_eq_error.mp failed).symm.trans valueRead

/-- A front that can be cut further ends where no field begins; any other is cut the same way
and not as far. -/
theorem prefix_of_joined {pieces others : List Piece} {rest : List UInt8}
    (stuck : ∀ piece : Piece, ¬ piece.bytes <+: rest)
    (within : joined others <+: joined pieces ++ rest) : others <+: pieces := by
  induction others generalizing pieces with
  | nil => exact List.nil_prefix
  | cons other others ih =>
    obtain ⟨more, whole⟩ := within
    rw [joined_cons, List.append_assoc] at whole
    cases pieces with
    | nil => exact absurd ⟨_, whole⟩ (stuck other)
    | cons piece pieces =>
      rw [joined_cons, List.append_assoc] at whole
      obtain ⟨rfl, tail⟩ := Piece.eq_of_append whole
      exact (List.prefix_cons_inj _).mpr (ih ⟨more, tail⟩)

theorem joined_injective : Function.Injective joined := by
  intro pieces others same
  have nothing : Cursor.Ends (.ofBytes []) [] .finished (.ofBytes []) := .finished rfl
  have front : pieces <+: others := by
    refine prefix_of_joined nothing.no_piece ?_
    rw [same]
    exact List.prefix_append _ _
  have back : others <+: pieces := by
    refine prefix_of_joined nothing.no_piece ?_
    rw [same]
    exact List.prefix_append _ _
  exact front.eq_of_length_le back.length_le

/-- A key with a number that keys may carry, of any wire type, stands at the front. -/
def Key.Begins (key : Key) (bytes : List UInt8) : Prop :=
  ValidNumber key.field ∧
    ∃ front, front <+: bytes ∧ Varint.Form (Put.keyValue key.field key.kind) front

theorem Key.begins_iff {key : Key} {cursor : Cursor} :
    key.Begins cursor.rest ↔ ∃ next, cursor.key = (.ok (some key), next) := by
  constructor
  · rintro ⟨valid, front, ⟨back, whole⟩, form⟩
    have read := Cursor.key_of_form cursor.offset back valid form
    rw [whole] at read
    exact ⟨_, read⟩
  · rintro ⟨next, read⟩
    obtain ⟨front, whole, valid, form⟩ := Cursor.form_of_key read
    exact ⟨valid, front, ⟨next.rest, whole.symm⟩, form⟩

/-- No more of these bytes can be cut into fields than this. -/
structure LongestFront (bytes : List UInt8) (pieces : List Piece) (rest : List UInt8) :
    Prop where
  whole : joined pieces ++ rest = bytes
  longest : ∀ others, joined others <+: bytes → joined others <+: joined pieces

/-- A walk passes over pieces up to a place where it ends. -/
theorem Cursor.Walks.exists_pieces {cursor last : Cursor} {keys : List Key} {stop : Stop}
    (walks : cursor.Walks keys stop last) :
    ∃ (pieces : List Piece) (here : Cursor) (more : List Key),
      joined pieces ++ here.rest = cursor.rest ∧ keys = pieces.map Piece.key ++ more ∧
        here.Ends more stop last := by
  induction walks with
  | @ends cursor last keys stop here => exact ⟨[], cursor, keys, rfl, rfl, here⟩
  | field passed _ ih =>
    obtain ⟨pieces, here, more, whole, rfl, ends⟩ := ih
    obtain ⟨piece, rfl, front⟩ := passed.exists_piece
    refine ⟨piece :: pieces, here, more, ?_, rfl, ends⟩
    rw [joined_cons, List.append_assoc, whole, front]

/-- What a walk through bytes sees, in terms of the bytes. -/
structure Sees (bytes : List UInt8) (keys : List Key) (stop : Stop) : Prop where
  finished : stop = .finished ↔ ∃ pieces, joined pieces = bytes
  unique : ∀ pieces others, joined pieces = bytes → joined others = bytes → pieces = others
  complete : ∀ pieces, joined pieces = bytes → keys = pieces.map Piece.key
  rounds : keys.length ≤ bytes.length
  stopped : stop ≠ .finished → ∃ pieces rest, LongestFront bytes pieces rest ∧
    ((∃ key failure, stop = .badValue key failure ∧ key.Begins rest ∧
        keys = pieces.map Piece.key ++ [key]) ∨
      (∃ failure, stop = .badKey failure) ∧ (∀ key : Key, ¬ key.Begins rest) ∧
        keys = pieces.map Piece.key)

theorem LongestFront.eq_of_joined {bytes rest : List UInt8} {pieces others : List Piece}
    (longest : LongestFront bytes pieces rest) (whole : joined others = bytes) :
    rest = [] ∧ others = pieces := by
  have within : joined others <+: joined pieces := by
    apply longest.longest
    rw [whole]
  have nothing : rest = [] := by
    have short := within.length_le
    rw [whole, ← longest.whole, List.length_append] at short
    exact List.length_eq_zero_iff.mp (by omega)
  refine ⟨nothing, joined_injective ?_⟩
  rw [whole, ← longest.whole, nothing, List.append_nil]

theorem Cursor.Ends.longestFront {bytes : List UInt8} {pieces : List Piece} {here last : Cursor}
    {keys : List Key} {stop : Stop} (ends : here.Ends keys stop last)
    (whole : joined pieces ++ here.rest = bytes) : LongestFront bytes pieces here.rest := by
  refine ⟨whole, fun others within => ?_⟩
  rw [← whole] at within
  exact (prefix_of_joined ends.no_piece within).flatMap Piece.bytes

/-- Behind the last byte a walk ends well, and only there. -/
theorem Cursor.Ends.finished_iff {here last : Cursor} {keys : List Key} {stop : Stop}
    (ends : here.Ends keys stop last) : stop = .finished ↔ here.rest = [] := by
  constructor
  · rintro rfl
    cases ends with
    | finished nothing => exact end_of_key nothing
  · intro nothing
    have read : here.key = (.ok none, here) := by
      rw [key, nothing]
      rfl
    cases ends with
    | finished _ => rfl
    | badKey failed => cases read.symm.trans failed
    | badValue found _ => cases read.symm.trans found

theorem Cursor.Walks.sees {bytes : List UInt8} {keys : List Key} {stop : Stop} {last : Cursor}
    (walks : (Cursor.ofBytes bytes).Walks keys stop last) : Sees bytes keys stop := by
  have rounds := walks.length_le
  obtain ⟨pieces, here, more, whole, seen, ends⟩ := walks.exists_pieces
  have longest : LongestFront bytes pieces here.rest := ends.longestFront whole
  constructor
  case finished =>
    rw [ends.finished_iff]
    constructor
    · intro nothing
      refine ⟨pieces, ?_⟩
      rw [← longest.whole, nothing, List.append_nil]
    · rintro ⟨others, whole⟩
      exact (longest.eq_of_joined whole).1
  case unique =>
    intro pieces others whole also
    exact joined_injective (whole.trans also.symm)
  case complete =>
    intro others whole
    obtain ⟨nothing, rfl⟩ := longest.eq_of_joined whole
    obtain rfl := ends.finished_iff.mpr nothing
    cases ends
    rw [seen, List.append_nil]
  case rounds => exact rounds
  case stopped =>
    intro unfinished
    refine ⟨pieces, here.rest, longest, ?_⟩
    cases ends with
    | finished nothing => exact absurd rfl unfinished
    | badKey failed =>
      refine .inr ⟨⟨_, rfl⟩, fun key begins => ?_, seen.trans (List.append_nil _)⟩
      obtain ⟨next, read⟩ := Key.begins_iff.mp begins
      cases failed.symm.trans read
    | badValue read failed =>
      exact .inl ⟨_, _, rfl, Key.begins_iff.mpr ⟨_, read⟩, seen⟩

/-- Through any bytes there is one walk. It gets to the end exactly where the bytes are fields
one behind the other, and it sees the keys of these; otherwise it sees those of the longest
front that can be cut into fields, and the key behind it if there is one. However else a reader
of the bytes is used, it neither goes back nor leaves them. -/
theorem walk_sees_longest_front (bytes : List UInt8) :
    (∃ keys stop last, (Cursor.ofBytes bytes).Walks keys stop last ∧
      (∀ others why place, (Cursor.ofBytes bytes).Walks others why place →
        others = keys ∧ why = stop ∧ place = last) ∧
      Sees bytes keys stop) ∧
    Confined bytes := by
  have walks := (Cursor.ofBytes bytes).walks_scan
  refine ⟨⟨_, _, _, walks, ?_, walks.sees⟩, confined bytes⟩
  intro others why place walk
  exact walk.eq_scan

/-- Behind one field a group begins: its key is seen, and its value cannot be skipped. -/
theorem walk_sees_longest_front_of_group :
    ∃ pieces rest, LongestFront [8, 150, 1, 11, 255] pieces rest ∧
      pieces.map Piece.key = [⟨1, .varint⟩] ∧ Key.Begins ⟨1, .startGroup⟩ rest := by
  obtain ⟨⟨keys, stop, last, _, only, sees⟩, _⟩ :=
    walk_sees_longest_front [8, 150, 1, 11, 255]
  have walk : (Cursor.ofBytes [8, 150, 1, 11, 255]).Walks [⟨1, .varint⟩, ⟨1, .startGroup⟩]
      (.badValue ⟨1, .startGroup⟩ (.unsupportedWireType 1 3)) ⟨4, [255]⟩ :=
    .field ⟨⟨1, [150, 1, 11, 255]⟩, rfl, rfl⟩ (.ends (.badValue rfl rfl))
  obtain ⟨rfl, rfl, rfl⟩ := only _ _ _ walk
  obtain ⟨pieces, rest, longest, ⟨key, failure, stopped, begins, seen⟩ | ⟨⟨_, stopped⟩, _⟩⟩ :=
    sees.stopped (by simp)
  · cases stopped
    have front : [⟨1, .varint⟩] ++ [⟨1, .startGroup⟩] = pieces.map Piece.key ++ [_] := seen
    exact ⟨pieces, rest, longest, (List.append_cancel_right front).symm, begins⟩
  · cases stopped

end KeyRelay.Wire
