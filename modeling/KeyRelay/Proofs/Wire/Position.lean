import KeyRelay.Proofs.Wire.Form

/-! # Where a reader stands

A reader may be asked for keys, numbers, contents and skips in any order, again after a
failure too. Each step leaves it where it was or further on in the same message, and names
no place beyond the end of the message; so does every run of such steps. -/
set_option autoImplicit false

namespace KeyRelay.Wire

/-- The place in the input that an error names, if it names one. -/
def DecodeError.offset? : DecodeError → Option Nat
  | .truncated offset => some offset
  | .varintOverflow offset => some offset
  | .invalidFieldNumber offset => some offset
  | _ => none

theorem Varint.suffix_of_read {limit : Nat} {bytes rest : List UInt8}
    (found : read limit bytes = .overlong rest) : rest <:+ bytes := by
  induction limit generalizing bytes with
  | zero =>
    rw [read, Reading.overlong.injEq] at found
    subst found
    exact List.suffix_refl bytes
  | succ more ih =>
    cases bytes with
    | nil => simp [read] at found
    | cons byte tail =>
      rw [read] at found
      split at found
      next => simp at found
      next =>
        split at found
        next => simp at found
        next => simp at found
        next call =>
          rw [Reading.overlong.injEq] at found
          subst found
          exact (ih call).trans (List.suffix_cons byte tail)

namespace Cursor

/-- The other stands at the same place of the same message or further on. -/
def Precedes (cursor next : Cursor) : Prop :=
  ∃ front, cursor.rest = front ++ next.rest ∧ next.offset = cursor.offset + front.length

theorem Precedes.refl (cursor : Cursor) : cursor.Precedes cursor :=
  ⟨[], rfl, rfl⟩

theorem Precedes.trans {first second third : Cursor} (earlier : first.Precedes second)
    (later : second.Precedes third) : first.Precedes third := by
  obtain ⟨front, joined, place⟩ := earlier
  obtain ⟨more, behind, further⟩ := later
  refine ⟨front ++ more, ?_, ?_⟩
  · rw [joined, behind, List.append_assoc]
  · rw [further, place, List.length_append, Nat.add_assoc]

theorem Precedes.offset_le {cursor next : Cursor} (precedes : cursor.Precedes next) :
    cursor.offset ≤ next.offset := by
  obtain ⟨front, _, place⟩ := precedes
  omega

theorem Precedes.limit_eq {cursor next : Cursor} (precedes : cursor.Precedes next) :
    next.limit = cursor.limit := by
  obtain ⟨front, joined, place⟩ := precedes
  rw [limit, limit, joined, place, List.length_append, Nat.add_assoc]

theorem offset_le_limit (cursor : Cursor) : cursor.offset ≤ cursor.limit :=
  Nat.le_add_right _ _

theorem limit_ofBytes (bytes : List UInt8) : (ofBytes bytes).limit = bytes.length :=
  Nat.zero_add _

theorem precedes_moveTo {cursor : Cursor} {rest : List UInt8} (suffix : rest <:+ cursor.rest) :
    cursor.Precedes (cursor.moveTo rest) := by
  obtain ⟨front, joined⟩ := suffix
  refine ⟨front, joined.symm, ?_⟩
  rw [moveTo, ← joined, List.length_append, Nat.add_sub_cancel]

/-- A reading step, whether it fails or not, does not go back and does not leave the message,
nor does its error name a place outside of it. -/
structure Advances {α : Type} (cursor : Cursor) (read : Except DecodeError α × Cursor) :
    Prop where
  forward : cursor.Precedes read.2
  reported : ∀ failure offset, read.1 = .error failure → failure.offset? = some offset →
    offset ≤ cursor.limit

namespace Advances

variable {α β : Type} {cursor middle next : Cursor}

theorem ok {found : α} (forward : cursor.Precedes next) : cursor.Advances (.ok found, next) :=
  ⟨forward, fun _ _ failed => nomatch failed⟩

theorem error {failure : DecodeError} (forward : cursor.Precedes next)
    (reported : ∀ offset, failure.offset? = some offset → offset ≤ cursor.limit) :
    cursor.Advances ((.error failure : Except DecodeError α), next) := by
  refine ⟨forward, fun _ offset failed named => reported offset ?_⟩
  cases failed
  exact named

theorem map {read : Except DecodeError α × Cursor} (advances : cursor.Advances read)
    (wrap : α → β) : cursor.Advances (read.1.map wrap, read.2) := by
  obtain ⟨outcome, next⟩ := read
  cases outcome with
  | ok found => exact ok advances.forward
  | error failure => exact error advances.forward fun offset => advances.reported _ offset rfl

/-- A step from a place further on is one from here. -/
theorem from_earlier {read : Except DecodeError α × Cursor} (advances : middle.Advances read)
    (earlier : cursor.Precedes middle) : cursor.Advances read := by
  refine ⟨earlier.trans advances.forward, ?_⟩
  rw [← earlier.limit_eq]
  exact advances.reported

end Advances

theorem advances_varint (cursor : Cursor) : cursor.Advances cursor.varint := by
  unfold varint
  split
  next value rest call =>
    obtain ⟨front, joined, _⟩ := Varint.denotes_of_read call
    exact .ok (precedes_moveTo ⟨front, joined.symm⟩)
  next =>
    refine .error (precedes_moveTo List.nil_suffix) fun offset named => ?_
    exact (Option.some.inj named).ge
  next rest call =>
    refine .error (precedes_moveTo (Varint.suffix_of_read call)) fun offset named => ?_
    cases named
    exact cursor.offset_le_limit

theorem advances_take (cursor : Cursor) (count : Nat) : cursor.Advances (cursor.take count) := by
  unfold take
  split
  next enough =>
    refine .ok ⟨cursor.rest.take count, (List.take_append_drop count cursor.rest).symm, ?_⟩
    rw [List.length_take_of_le enough]
  next => exact .error (.refl cursor) fun offset named => (Option.some.inj named).ge

theorem advances_lengthDelimited (cursor : Cursor) :
    cursor.Advances cursor.lengthDelimited := by
  have announced := cursor.advances_varint
  unfold lengthDelimited
  split
  next length middle call =>
    rw [call] at announced
    exact (middle.advances_take length.toNat).from_earlier announced.forward
  next failure middle call =>
    rw [call] at announced
    exact .error announced.forward fun offset => announced.reported failure offset rfl

theorem offset_of_keyOf {offset place : Nat} {packed : UInt64} {failure : DecodeError}
    (failed : keyOf offset packed = .error failure) (named : failure.offset? = some place) :
    place = offset := by
  unfold keyOf at failed
  dsimp only at failed
  split at failed
  · cases failed
    exact (Option.some.inj named).symm
  · split at failed
    · cases failed
    · cases failed
      cases named

theorem advances_key (cursor : Cursor) : cursor.Advances cursor.key := by
  have packed := cursor.advances_varint
  unfold key
  split
  · exact .ok (.refl cursor)
  · split
    next value middle call =>
      rw [call] at packed
      have keyed : cursor.Advances (keyOf cursor.offset value, middle) := by
        refine ⟨packed.forward, fun failure place failed named => ?_⟩
        rw [offset_of_keyOf failed named]
        exact cursor.offset_le_limit
      exact keyed.map some
    next failure middle call =>
      rw [call] at packed
      exact .error packed.forward fun offset => packed.reported failure offset rfl

theorem advances_value (cursor : Cursor) (key : Key) : cursor.Advances (cursor.value key) := by
  unfold value
  split
  · exact cursor.advances_varint.map _
  · exact (cursor.advances_take 8).map _
  · exact cursor.advances_lengthDelimited.map _
  · exact (cursor.advances_take 4).map _
  -- A group is refused where it stands, and the error names no place.
  · exact .error (.refl cursor) fun _ named => nomatch named
  · exact .error (.refl cursor) fun _ named => nomatch named

end Cursor

/-- What a reader can be asked for. A skip is told which key to skip the value of; that need
not be one that was read. -/
inductive Call
  | key
  | varint
  | lengthDelimited
  | skip (found : Key)
  deriving DecidableEq, Repr

/-- Whether the reader does what it is asked for, and where it stands then. -/
def Call.perform (cursor : Cursor) : Call → Except DecodeError Unit × Cursor
  | .key => (cursor.key.1.map fun _ => (), cursor.key.2)
  | .varint => (cursor.varint.1.map fun _ => (), cursor.varint.2)
  | .lengthDelimited => (cursor.lengthDelimited.1.map fun _ => (), cursor.lengthDelimited.2)
  | .skip found => cursor.skip found

namespace Cursor

/-- Where a reader stands when it has been asked for all of these, one after the other. A
failure does not end the run. -/
def after (cursor : Cursor) (calls : List Call) : Cursor :=
  calls.foldl (fun here call => (call.perform here).2) cursor

theorem advances_perform (cursor : Cursor) (call : Call) :
    cursor.Advances (call.perform cursor) := by
  cases call with
  | key => exact cursor.advances_key.map _
  | varint => exact cursor.advances_varint.map _
  | lengthDelimited => exact cursor.advances_lengthDelimited.map _
  | skip found => exact (cursor.advances_value found).map _

theorem precedes_after (cursor : Cursor) (calls : List Call) :
    cursor.Precedes (cursor.after calls) := by
  induction calls generalizing cursor with
  | nil => exact .refl cursor
  | cons call calls ih => exact (cursor.advances_perform call).forward.trans (ih _)

theorem after_append (cursor : Cursor) (calls more : List Call) :
    cursor.after (calls ++ more) = (cursor.after calls).after more :=
  List.foldl_append

end Cursor

/-- Every run of calls on a reader of these bytes, failures included: it never goes back, it
stays within the bytes and in front of those behind its place, and no call reports a place
beyond them. -/
structure Confined (bytes : List UInt8) : Prop where
  forward : ∀ calls more, ((Cursor.ofBytes bytes).after calls).offset ≤
    ((Cursor.ofBytes bytes).after (calls ++ more)).offset
  within : ∀ calls, ((Cursor.ofBytes bytes).after calls).offset ≤ bytes.length
  ahead : ∀ calls, ((Cursor.ofBytes bytes).after calls).rest =
    bytes.drop ((Cursor.ofBytes bytes).after calls).offset
  reported : ∀ calls (call : Call) failure offset,
    (call.perform ((Cursor.ofBytes bytes).after calls)).1 = .error failure →
      failure.offset? = some offset → offset ≤ bytes.length

theorem confined (bytes : List UInt8) : Confined bytes := by
  have reached := (Cursor.ofBytes bytes).precedes_after
  have limit : ∀ calls, ((Cursor.ofBytes bytes).after calls).limit = bytes.length := fun calls =>
    (reached calls).limit_eq.trans (Cursor.limit_ofBytes bytes)
  constructor
  · intro calls more
    rw [Cursor.after_append]
    exact (Cursor.precedes_after _ more).offset_le
  · intro calls
    rw [← limit calls]
    exact Cursor.offset_le_limit _
  · intro calls
    obtain ⟨front, joined, place⟩ := reached calls
    have whole : bytes = front ++ ((Cursor.ofBytes bytes).after calls).rest := joined
    rw [place, Cursor.ofBytes, Nat.zero_add]
    conv_rhs => rw [whole, List.drop_left]
    rfl
  · intro calls call failure offset failed named
    rw [← limit calls]
    exact (Cursor.advances_perform _ call).reported failure offset failed named

end KeyRelay.Wire
