import KeyRelay.Proofs.Text.Blank
import KeyRelay.Proofs.Text.Decimal
import KeyRelay.Text.Descriptor

/-! # The profile that a descriptor names

The number in a descriptor is what its digits denote, however many there are, held to the range
of a signed 32-bit value. The digits are gathered with a magnitude that stops at one above that
range, which is never seen: once there it stays there, and with either sign it is held to the
same bound as the exact number. -/
set_option autoImplicit false

namespace KeyRelay.Text

inductive Sign
  | none
  | plus
  | minus
  deriving DecidableEq, Repr

namespace Sign

def text : Sign → List Char
  | .none => []
  | .plus => ['+']
  | .minus => ['-']

def apply : Sign → Nat → Int
  | .none, magnitude | .plus, magnitude => magnitude
  | .minus, magnitude => -magnitude

/-- The characters that a sign is made of. -/
def isSign (c : Char) : Bool :=
  c = '+' || c = '-'

end Sign

/-- A text as it is read for a number at its start: white space, a sign and digits, each of them
as far as it goes, and any rest. -/
structure NumberAtFront (text blanks : List Char) (sign : Sign) (digits rest : List Char) :
    Prop where
  joined : text = blanks ++ (sign.text ++ (digits ++ rest))
  blank : AllBlank blanks
  solid : Stops isBlank (sign.text ++ (digits ++ rest))
  unsigned : sign = .none → Stops Sign.isSign (digits ++ rest)
  digit : ∀ c ∈ digits, isDigit c = true
  ended : Stops isDigit rest

/-- A number held to the range of a signed 32-bit value. -/
def clampInt32 (value : Int) : Int :=
  max (-0x80000000) (min value 0x7FFFFFFF)

/-- A text that has a sign in front, or stops before one. -/
theorem exists_sign (text : List Char) :
    ∃ (sign : Sign) (rest : List Char), text = sign.text ++ rest ∧
      (sign = .none → Stops Sign.isSign rest) := by
  cases text with
  | nil => exact ⟨.none, [], rfl, fun _ => stops_nil⟩
  | cons c rest =>
    by_cases plus : c = '+'
    · exact ⟨.plus, rest, by rw [plus]; rfl, nofun⟩
    · by_cases minus : c = '-'
      · exact ⟨.minus, rest, by rw [minus]; rfl, nofun⟩
      · exact ⟨.none, c :: rest, rfl, fun _ => stops_cons (by simp [Sign.isSign, plus, minus])⟩

theorem exists_numberAtFront (text : List Char) :
    ∃ blanks sign digits rest, NumberAtFront text blanks sign digits rest := by
  obtain ⟨blanks, whole, blank⟩ := exists_trimStart text
  obtain ⟨sign, unsigned, cut, unsignedStops⟩ := exists_sign (trimStart text)
  refine ⟨blanks, sign, unsigned.takeWhile isDigit, unsigned.dropWhile isDigit, ?_, blank, ?_, ?_,
    fun c member => List.mem_takeWhile_imp member, stops_dropWhile isDigit unsigned⟩
  · rw [List.takeWhile_append_dropWhile, ← cut]
    exact whole
  · rw [List.takeWhile_append_dropWhile, ← cut]
    exact stops_dropWhile isBlank text
  · rw [List.takeWhile_append_dropWhile]
    exact unsignedStops

theorem splitSign_text {sign : Sign} {rest : List Char}
    (unsigned : sign = .none → Stops Sign.isSign rest) :
    splitSign (sign.text ++ rest) = (sign == .minus, rest) := by
  cases sign with
  | plus => rfl
  | minus => rfl
  | none =>
    cases rest with
    | nil => rfl
    | cons c rest =>
      have out : Sign.isSign c = false := unsigned rfl c rfl
      simp only [Sign.isSign, Bool.or_eq_false_iff, decide_eq_false_iff_not] at out
      rw [Sign.text, List.nil_append, splitSign]
      · rfl
      · rintro _ minus
        exact out.2 (List.cons.inj minus).1
      · rintro _ plus
        exact out.1 (List.cons.inj plus).1

/-- A magnitude that is held to its bound at every digit is the exact one, held to it once. -/
theorem foldl_saturatingDigit (digits : List Char) (before : Nat) :
    digits.foldl saturatingDigit (min before 0x80000000) =
      min (digits.foldl (fun value c => value * 10 + digitValue c) before) 0x80000000 := by
  induction digits generalizing before with
  | nil => rfl
  | cons c rest ih =>
    have absorbed : saturatingDigit (min before 0x80000000) c =
        min (before * 10 + digitValue c) 0x80000000 := by
      rw [saturatingDigit]
      omega
    rw [List.foldl_cons, List.foldl_cons, absorbed, ih]

/-- The bound is beyond both ends of the range, so the number that is held to the range is the
same with it as without. -/
theorem clampInt32_saturated (sign : Sign) (digits : List Char) :
    clampInt32 (sign.apply (digits.foldl saturatingDigit 0)) =
      clampInt32 (sign.apply (placeValue digits)) := by
  have saturated : digits.foldl saturatingDigit 0 = min (placeValue digits) 0x80000000 := by
    rw [← digitsValue_eq_placeValue]
    exact foldl_saturatingDigit digits 0
  rw [saturated]
  cases sign with
  | none | plus | minus =>
    simp only [clampInt32, Sign.apply]
    omega

theorem NumberAtFront.leadingInt32_eq {text blanks : List Char} {sign : Sign}
    {digits rest : List Char} (front : NumberAtFront text blanks sign digits rest) :
    leadingInt32 text = Int32.ofInt (clampInt32 (sign.apply (placeValue digits))) := by
  have trimmed : trimStart text = sign.text ++ (digits ++ rest) := by
    rw [front.joined]
    exact dropWhile_run front.blank front.solid
  have bounded : digits.foldl saturatingDigit 0 ≤ 0x80000000 := by
    rw [show digits.foldl saturatingDigit 0 = _ from foldl_saturatingDigit digits 0]
    exact Nat.min_le_right _ _
  rw [leadingInt32, trimmed, splitSign_text front.unsigned]
  simp only [takeWhile_run front.digit front.ended]
  rw [← clampInt32_saturated]
  congr 1
  -- A magnitude within the bound is not below the range with either sign.
  cases sign with
  | none | plus | minus =>
    simp only [clampInt32, Sign.apply, beq_iff_eq, reduceCtorEq, if_false, if_true]
    omega

/-- The unsigned reading of a signed number is its two's complement. -/
theorem toNat_toUInt32_ofInt (value : Int) :
    ((Int32.ofInt value).toUInt32.toNat : Int) = value % 2 ^ 32 := by
  have bits : (Int32.ofInt value).toUInt32.toNat = (BitVec.ofInt 32 value).toNat := rfl
  rw [bits, BitVec.toNat_ofInt]
  exact Int.toNat_of_nonneg (Int.emod_nonneg value (by decide))

/-- The digits of a number have nothing in front of them and nothing behind. -/
theorem numberAtFront_decimal (value : Nat) :
    NumberAtFront (decimal value) [] .none (decimal value) [] where
  joined := (List.append_nil _).symm
  blank := by simp [AllBlank]
  solid := by
    intro c head
    have member := List.mem_of_head? head
    rw [Sign.text, List.nil_append, List.append_nil] at member
    exact not_isBlank_of_isDigit (isDigit_of_mem_decimal member)
  unsigned := by
    intro _ c head
    have member := List.mem_of_head? head
    rw [List.append_nil] at member
    have range := toNat_of_isDigit (isDigit_of_mem_decimal member)
    simp only [Sign.isSign, Bool.or_eq_false_iff, decide_eq_false_iff_not]
    constructor
    · rintro rfl
      exact absurd range.1 (by decide)
    · rintro rfl
      exact absurd range.1 (by decide)
  digit := fun _ member => isDigit_of_mem_decimal member
  ended := stops_nil

end KeyRelay.Text

namespace KeyRelay.Endpoint

open Text

theorem ofDescriptorChars_ble {text blanks : List Char} {sign : Sign} {digits rest : List Char}
    (front : NumberAtFront text blanks sign digits rest) :
    ∃ profile : UInt32, ofDescriptorChars ('B' :: 'L' :: 'E' :: ':' :: text) = ⟨.ble, profile⟩ ∧
      (profile.toNat : Int) = clampInt32 (sign.apply (placeValue digits)) % 2 ^ 32 := by
  refine ⟨_, rfl, ?_⟩
  rw [front.leadingInt32_eq, toNat_toUInt32_ofInt]

theorem ofDescriptorChars_other {text : List Char} (wired : ¬ ['U', 'S', 'B'] <+: text)
    (wireless : ¬ ['B', 'L', 'E', ':'] <+: text) : ofDescriptorChars text = ⟨.none, 0⟩ := by
  unfold ofDescriptorChars
  split
  next rest => exact absurd ⟨rest, rfl⟩ wired
  next rest => exact absurd ⟨rest, rfl⟩ wireless
  next => rfl

/-- A descriptor names the wired transport by how it begins, or a profile by the number behind
its colon, or nothing. The number is the exact one held to its range, in two's complement, and
holding it at every digit makes no difference. Every profile up to the bound has its decimal
form. -/
theorem descriptor_names_clamped_profile :
    (∀ descriptor : String,
      (['U', 'S', 'B'] <+: descriptor.toList → ofDescriptor descriptor = ⟨.usb, 0⟩) ∧
      (∀ text, descriptor.toList = ['B', 'L', 'E', ':'] ++ text →
        (∃ blanks sign digits rest, NumberAtFront text blanks sign digits rest) ∧
        ∀ blanks sign digits rest, NumberAtFront text blanks sign digits rest →
          ∃ profile : UInt32, ofDescriptor descriptor = ⟨.ble, profile⟩ ∧
            (profile.toNat : Int) = clampInt32 (sign.apply (placeValue digits)) % 2 ^ 32) ∧
      (¬ ['U', 'S', 'B'] <+: descriptor.toList → ¬ ['B', 'L', 'E', ':'] <+: descriptor.toList →
        ofDescriptor descriptor = ⟨.none, 0⟩)) ∧
    (∀ (sign : Sign) (digits : List Char),
      clampInt32 (sign.apply (digits.foldl saturatingDigit 0)) =
        clampInt32 (sign.apply (placeValue digits))) ∧
    ∀ index : Nat, index < 2 ^ 31 →
      ofDescriptor ("BLE:" ++ toString index) = ⟨.ble, UInt32.ofNat index⟩ := by
  refine ⟨?_, clampInt32_saturated, ?_⟩
  · intro descriptor
    refine ⟨?_, ?_, ofDescriptorChars_other⟩
    · rintro ⟨rest, wired⟩
      rw [ofDescriptor, ← wired]
      rfl
    · intro text wireless
      refine ⟨exists_numberAtFront text, ?_⟩
      intro blanks sign digits rest front
      rw [ofDescriptor, wireless]
      exact ofDescriptorChars_ble front
  · intro index small
    have written : ("BLE:" ++ toString index).toList =
        'B' :: 'L' :: 'E' :: ':' :: decimal index := by
      rw [String.toList_append, Nat.toString_eq_repr, Nat.toList_repr]
      rfl
    obtain ⟨profile, named, value⟩ := ofDescriptorChars_ble (numberAtFront_decimal index)
    rw [ofDescriptor, written, named, ← UInt32.ofNat_toNat (x := profile)]
    rw [placeValue_decimal, Sign.apply, clampInt32] at value
    congr 2
    omega

/-- White space of two kinds, a sign, and more digits than fit into any word. -/
theorem descriptor_names_clamped_profile_lowest :
    NumberAtFront "\t\u3000-09999999999 5".toList "\t\u3000".toList .minus
      "09999999999".toList " 5".toList ∧
    ofDescriptor "BLE:\t\u3000-09999999999 5" = ⟨.ble, 0x80000000⟩ ∧
    ofDescriptor "USB:7" = ⟨.usb, 0⟩ ∧ ofDescriptor "ble:1" = ⟨.none, 0⟩ ∧
    ofDescriptor ("BLE:" ++ toString 2147483647) = ⟨.ble, 0x7FFFFFFF⟩ := by
  have front : NumberAtFront "\t\u3000-09999999999 5".toList "\t\u3000".toList .minus
      "09999999999".toList " 5".toList :=
    ⟨rfl, by decide, stops_cons rfl, nofun, List.all_eq_true.mp rfl, stops_cons rfl⟩
  obtain ⟨descriptors, _, decimals⟩ := descriptor_names_clamped_profile
  obtain ⟨_, wireless, _⟩ := descriptors "BLE:\t\u3000-09999999999 5"
  obtain ⟨profile, named, value⟩ := (wireless _ (by decide)).2 _ _ _ _ front
  have lowest : profile = 0x80000000 := by
    rw [← UInt32.toNat_inj, ← Nat.cast_inj (R := Int), value]
    decide
  rw [lowest] at named
  exact ⟨front, named, (descriptors "USB:7").1 (by decide),
    (descriptors "ble:1").2.2 (by decide) (by decide), decimals 2147483647 (by decide)⟩

end KeyRelay.Endpoint
