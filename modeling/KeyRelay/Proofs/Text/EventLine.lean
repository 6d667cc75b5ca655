import KeyRelay.Proofs.Text.Blank
import KeyRelay.Proofs.Text.Decimal
import KeyRelay.Text.EventLine

/-! # Event lines are unambiguous

Each column of an event line can be told from the text behind it: numbers by the first
character that is no digit, fixed columns by their width, key codes by the closing bracket.
So a line is read column by column, and what it shows is all that two events with one line
have in common: the profile of an endpoint and the empty slots of a key array are not shown. -/
set_option autoImplicit false

namespace KeyRelay

/-- The same kind of event, with the same value for everything its line shows. -/
inductive Event.ShowsAlike : Event → Event → Prop
  | kscan (event : KscanEvent) : ShowsAlike (.kscan event) (.kscan event)
  | keyboard {left right : KeyboardReport}
    (transport : left.endpoint.transport = right.endpoint.transport)
    (modifiers : left.modifiers = right.modifiers)
    (keys : left.keys.toList.filter (· ≠ 0) = right.keys.toList.filter (· ≠ 0)) :
    ShowsAlike (.keyboard left) (.keyboard right)
  | consumer {left right : ConsumerReport}
    (transport : left.endpoint.transport = right.endpoint.transport)
    (keys : left.keys.toList.filter (· ≠ 0) = right.keys.toList.filter (· ≠ 0)) :
    ShowsAlike (.consumer left) (.consumer right)
  | mouse {left right : MouseReport}
    (transport : left.endpoint.transport = right.endpoint.transport)
    (buttons : left.buttons = right.buttons) (dx : left.dx = right.dx) (dy : left.dy = right.dy)
    (scrollX : left.scrollX = right.scrollX) (scrollY : left.scrollY = right.scrollY) :
    ShowsAlike (.mouse left) (.mouse right)

namespace Text

/-! ## Columns -/

/-- A column at the front of a text is told from what is behind it. -/
def Delimited {α : Type} (column : α → List Char) : Prop :=
  ∀ left right restLeft restRight, column left ++ restLeft = column right ++ restRight →
    left = right ∧ restLeft = restRight

/-- It is told as long as the text does not go on with a digit. -/
def DelimitedDigits {α : Type} (column : α → List Char) : Prop :=
  ∀ left right restLeft restRight, Stops isDigit restLeft → Stops isDigit restRight →
    column left ++ restLeft = column right ++ restRight → left = right ∧ restLeft = restRight

theorem delimited_of_width {α : Type} {column : α → List Char} (width : Nat)
    (wide : ∀ value, (column value).length = width) (injective : Function.Injective column) :
    Delimited column := by
  intro left right restLeft restRight same
  obtain ⟨columns, rests⟩ := List.append_inj same ((wide left).trans (wide right).symm)
  exact ⟨injective columns, rests⟩

theorem delimited_stateColumn : Delimited stateColumn := by
  apply delimited_of_width 7
  · decide
  · intro left right same
    cases left <;> cases right <;> first | rfl | exact absurd same (by decide)

theorem delimited_transport :
    Delimited fun transport : Transport => padEnd 15 transport.name.toList := by
  apply delimited_of_width 15
  · intro transport
    cases transport <;> rfl
  · intro left right same
    cases left <;> cases right <;> first | rfl | exact absurd same (by decide)

theorem delimitedDigits_decimal : DelimitedDigits decimal := by
  intro left right restLeft restRight stopsLeft stopsRight same
  have digits : ∀ value, ∀ c ∈ decimal value, isDigit c = true := fun _ _ =>
    isDigit_of_mem_decimal
  obtain ⟨columns, rests⟩ := run_append_inj (digits left) stopsLeft (digits right) stopsRight same
  exact ⟨decimal_injective columns, rests⟩

/-- The padding of a number is no part of another number. -/
theorem delimitedDigits_padEnd (width : Nat) :
    DelimitedDigits fun value => padEnd width (decimal value) := by
  intro left right restLeft restRight stopsLeft stopsRight same
  have padded : ∀ {rest : List Char} (count : Nat), Stops isDigit rest →
      Stops isDigit (List.replicate count ' ' ++ rest) := by
    intro rest count stops
    cases count with
    | zero => exact stops
    | succ count => exact stops_cons (by decide)
  simp only [padEnd, List.append_assoc] at same
  obtain ⟨values, rests⟩ :=
    delimitedDigits_decimal left right _ _ (padded _ stopsLeft) (padded _ stopsRight) same
  subst values
  exact ⟨rfl, List.append_cancel_left rests⟩

theorem decimal_append_ne_minus (value : Nat) (rest behind : List Char) :
    decimal value ++ rest ≠ '-' :: behind := by
  intro same
  obtain ⟨c, more, digits⟩ := List.exists_cons_of_ne_nil (decimal_ne_nil value)
  have digit : isDigit c = true := isDigit_of_mem_decimal (digits ▸ List.mem_cons_self)
  rw [digits, List.cons_append, List.cons.injEq] at same
  rw [same.1] at digit
  exact absurd digit (by decide)

theorem delimitedDigits_signedDecimal : DelimitedDigits signedDecimal := by
  intro left right restLeft restRight stopsLeft stopsRight same
  cases left with
  | ofNat left =>
    cases right with
    | ofNat right =>
      obtain ⟨values, rests⟩ := delimitedDigits_decimal _ _ _ _ stopsLeft stopsRight same
      exact ⟨congrArg Int.ofNat values, rests⟩
    | negSucc right => exact absurd same (decimal_append_ne_minus left _ _)
  | negSucc left =>
    cases right with
    | ofNat right => exact absurd same.symm (decimal_append_ne_minus right _ _)
    | negSucc right =>
      have digits := (List.cons.inj same).2
      obtain ⟨values, rests⟩ := delimitedDigits_decimal _ _ _ _ stopsLeft stopsRight digits
      exact ⟨congrArg Int.negSucc (Nat.succ.inj values), rests⟩

/-- A column in front of a title, which begins with a blank. -/
theorem DelimitedDigits.titled {α : Type} {column : α → List Char}
    (delimited : DelimitedDigits column) {title : List Char} (blank : title.head? = some ' ')
    {left right : α} {restLeft restRight : List Char}
    (same : column left ++ (title ++ restLeft) = column right ++ (title ++ restRight)) :
    left = right ∧ restLeft = restRight := by
  have stops : ∀ rest, Stops isDigit (title ++ rest) := by
    intro rest c head
    rw [List.head?_append, blank, Option.some_or, Option.some.injEq] at head
    exact head ▸ (by decide)
  obtain ⟨values, rests⟩ := delimited _ _ _ _ (stops restLeft) (stops restRight) same
  exact ⟨values, List.append_cancel_left rests⟩

/-! ## Key codes -/

theorem hexDigit_inj {left right : Nat} (leftSmall : left < 16) (rightSmall : right < 16)
    (same : hexDigit left = hexDigit right) : left = right := by
  have all : ∀ a b : Fin 16, hexDigit a = hexDigit b → a = b := by decide
  exact congrArg Fin.val (all ⟨left, leftSmall⟩ ⟨right, rightSmall⟩ same)

theorem hexLiteral_injective : Function.Injective hexLiteral := by
  intro left right same
  simp only [hexLiteral, hexByte, List.cons.injEq, true_and, and_true] at same
  obtain ⟨high, low⟩ := same
  have leftSmall := left.toNat_lt
  have rightSmall := right.toNat_lt
  have highSame := hexDigit_inj (by omega) (by omega) high
  have lowSame := hexDigit_inj (Nat.mod_lt _ (by decide)) (Nat.mod_lt _ (by decide)) low
  apply UInt8.toNat_inj.mp
  omega

theorem delimited_hexLiteral : Delimited hexLiteral :=
  delimited_of_width 4 (fun _ => rfl) hexLiteral_injective

/-- The codes behind the first, each with a comma in front of it. -/
def furtherCodes (codes : List UInt8) : List Char :=
  codes.flatMap fun code => ", ".toList ++ hexLiteral code

theorem joinCodes_cons (first : UInt8) (codes : List UInt8) :
    joinCodes ((first :: codes).map hexLiteral) = hexLiteral first ++ furtherCodes codes := by
  induction codes generalizing first with
  | nil => rfl
  | cons next codes ih =>
    have further : furtherCodes (next :: codes) =
        ", ".toList ++ (hexLiteral next ++ furtherCodes codes) := by
      rw [furtherCodes, List.flatMap_cons, List.append_assoc, furtherCodes]
    rw [further, ← ih next]
    exact List.append_assoc _ _ _

theorem furtherCodes_injective : Function.Injective furtherCodes := by
  intro left
  induction left with
  | nil =>
    intro right same
    cases right with
    | nil => rfl
    | cons code codes => cases same
  | cons first left ih =>
    intro right same
    cases right with
    | nil => cases same
    | cons second right =>
      simp only [furtherCodes, List.flatMap_cons, List.append_assoc] at same
      obtain ⟨codes, rests⟩ := delimited_hexLiteral _ _ _ _ (List.append_cancel_left same)
      rw [codes, ih rests]

/-- What is shown of a key array are the codes in it that are not zero. -/
theorem heldKeys_eq_iff {left right : List UInt8} :
    heldKeys left = heldKeys right ↔ left.filter (· ≠ 0) = right.filter (· ≠ 0) := by
  have dash : ∀ {codes : List UInt8}, codes.filter (· ≠ 0) = [] → heldKeys codes = ['-'] := by
    intro codes filtered
    rw [heldKeys, filtered]
  have listed : ∀ {codes : List UInt8} {first : UInt8} {held : List UInt8},
      codes.filter (· ≠ 0) = first :: held →
        heldKeys codes = hexLiteral first ++ furtherCodes held := by
    intro codes first held filtered
    rw [heldKeys, filtered]
    exact joinCodes_cons first held
  have dashAlone : ∀ (first : UInt8) (held : List UInt8),
      hexLiteral first ++ furtherCodes held ≠ ['-'] := nofun
  constructor
  · intro same
    cases heldLeft : left.filter (· ≠ 0) with
    | nil =>
      cases heldRight : right.filter (· ≠ 0) with
      | nil => rfl
      | cons second right =>
        rw [dash heldLeft, listed heldRight] at same
        exact absurd same.symm (dashAlone second right)
    | cons first left =>
      cases heldRight : right.filter (· ≠ 0) with
      | nil =>
        rw [listed heldLeft, dash heldRight] at same
        exact absurd same (dashAlone first left)
      | cons second right =>
        rw [listed heldLeft, listed heldRight] at same
        obtain ⟨codes, rests⟩ := delimited_hexLiteral _ _ _ _ same
        rw [codes, furtherCodes_injective rests]
  · intro same
    rw [heldKeys, heldKeys, same]

/-! ## Lines -/

theorem kind_of_eventLine {left right : Event} (same : eventLine left = eventLine right) :
    left.kind = right.kind := by
  cases left <;> cases right <;> first
    | rfl
    | simp [eventLine_kscan, eventLine_keyboard, eventLine_consumer, eventLine_mouse] at same

theorem kscan_of_eventLine {left right : KscanEvent}
    (same : eventLine (.kscan left) = eventLine (.kscan right)) : left = right := by
  simp only [eventLine_kscan, List.append_assoc] at same
  obtain ⟨pressed, same⟩ := delimited_stateColumn _ _ _ _ (List.append_cancel_left same)
  obtain ⟨position, same⟩ :=
    (delimitedDigits_padEnd 4).titled rfl (List.append_cancel_left same)
  obtain ⟨source, same⟩ := delimitedDigits_decimal.titled rfl same
  have timestamp := decimal_injective (List.append_cancel_right same)
  obtain ⟨leftSource, leftPosition, leftPressed, leftTimestamp⟩ := left
  obtain ⟨rightSource, rightPosition, rightPressed, rightTimestamp⟩ := right
  congr
  · exact UInt32.toNat_inj.mp source
  · exact UInt32.toNat_inj.mp position
  · exact UInt64.toNat_inj.mp timestamp

theorem keyboard_of_eventLine {left right : KeyboardReport}
    (same : eventLine (.keyboard left) = eventLine (.keyboard right)) :
    Event.ShowsAlike (.keyboard left) (.keyboard right) := by
  simp only [eventLine_keyboard, transportColumn, List.append_assoc] at same
  obtain ⟨transport, same⟩ := delimited_transport _ _ _ _ (List.append_cancel_left same)
  obtain ⟨modifiers, same⟩ := delimited_hexLiteral _ _ _ _ (List.append_cancel_left same)
  have keys := List.append_cancel_right (List.append_cancel_left same)
  exact .keyboard transport modifiers (heldKeys_eq_iff.mp keys)

theorem consumer_of_eventLine {left right : ConsumerReport}
    (same : eventLine (.consumer left) = eventLine (.consumer right)) :
    Event.ShowsAlike (.consumer left) (.consumer right) := by
  simp only [eventLine_consumer, transportColumn, List.append_assoc] at same
  obtain ⟨transport, same⟩ := delimited_transport _ _ _ _ (List.append_cancel_left same)
  have keys := List.append_cancel_right (List.append_cancel_left same)
  exact .consumer transport (heldKeys_eq_iff.mp keys)

theorem mouse_of_eventLine {left right : MouseReport}
    (same : eventLine (.mouse left) = eventLine (.mouse right)) :
    Event.ShowsAlike (.mouse left) (.mouse right) := by
  simp only [eventLine_mouse, transportColumn, List.append_assoc] at same
  obtain ⟨transport, same⟩ := delimited_transport _ _ _ _ (List.append_cancel_left same)
  obtain ⟨buttons, same⟩ := delimitedDigits_decimal.titled rfl (List.append_cancel_left same)
  obtain ⟨dx, same⟩ := delimitedDigits_signedDecimal.titled rfl same
  obtain ⟨dy, same⟩ := delimitedDigits_signedDecimal.titled rfl same
  obtain ⟨scrollX, same⟩ := delimitedDigits_signedDecimal.titled rfl same
  have scrollY := (delimitedDigits_signedDecimal _ _ [] [] stops_nil stops_nil (by simpa)).1
  exact .mouse transport (UInt32.toNat_inj.mp buttons) (Int32.toInt_inj.mp dx)
    (Int32.toInt_inj.mp dy) (Int32.toInt_inj.mp scrollX) (Int32.toInt_inj.mp scrollY)

theorem eventLine_of_showsAlike {left right : Event} (alike : left.ShowsAlike right) :
    eventLine left = eventLine right := by
  cases alike with
  | kscan => rfl
  | keyboard transport modifiers keys =>
    rw [eventLine_keyboard, eventLine_keyboard, transportColumn, transportColumn, transport,
      modifiers, heldKeys_eq_iff.mpr keys]
  | consumer transport keys =>
    rw [eventLine_consumer, eventLine_consumer, transportColumn, transportColumn, transport,
      heldKeys_eq_iff.mpr keys]
  | mouse transport buttons dx dy scrollX scrollY =>
    rw [eventLine_mouse, eventLine_mouse, transportColumn, transportColumn, transport, buttons,
      dx, dy, scrollX, scrollY]

end Text

namespace Event

open Text

/-- Two events have one line if and only if they are of one kind and agree in everything that
the line shows, which is everything but the profiles of their endpoints and the empty slots
of their key arrays. -/
theorem line_tells_what_is_shown (left right : Event) :
    left.line = right.line ↔ left.ShowsAlike right := by
  constructor
  · intro same
    have chars : eventLine left = eventLine right := String.ofList_injective same
    have sameKind := kind_of_eventLine chars
    cases left with
    | kscan left =>
      cases right with
      | kscan right => exact kscan_of_eventLine chars ▸ .kscan left
      | _ => simp [kind] at sameKind
    | keyboard left =>
      cases right with
      | keyboard right => exact keyboard_of_eventLine chars
      | _ => simp [kind] at sameKind
    | consumer left =>
      cases right with
      | consumer right => exact consumer_of_eventLine chars
      | _ => simp [kind] at sameKind
    | mouse left =>
      cases right with
      | mouse right => exact mouse_of_eventLine chars
      | _ => simp [kind] at sameKind
  · intro alike
    rw [line, line, eventLine_of_showsAlike alike]

end Event

end KeyRelay
