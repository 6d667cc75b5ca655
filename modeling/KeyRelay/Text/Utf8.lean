/-! # UTF-8 text in bytes

Bytes that are not UTF-8 have no text. For display each longest piece that could
still have begun a character is shown as one replacement character. -/
set_option autoImplicit false

namespace KeyRelay.Text

def utf8Bytes (text : String) : List UInt8 :=
  text.toByteArray.data.toList

def utf8Text? (bytes : List UInt8) : Option String :=
  String.fromUTF8? ⟨bytes.toArray⟩

theorem utf8Text?_utf8Bytes (text : String) : utf8Text? (utf8Bytes text) = some text := by
  have same : (⟨text.toByteArray.data.toList.toArray⟩ : ByteArray) = text.toByteArray := by
    simp
  simp only [utf8Text?, utf8Bytes, same, String.fromUTF8?]
  rw [dif_pos text.isValidUTF8]
  rfl

def isContinuation (byte : UInt8) : Bool :=
  0x80 ≤ byte && byte ≤ 0xBF

/-- The bytes that may follow the first byte of a character of several bytes,
and how many more continuation bytes there are behind it. -/
def secondByte? (first : UInt8) : Option (UInt8 × UInt8 × Nat) :=
  if 0xC2 ≤ first && first ≤ 0xDF then some (0x80, 0xBF, 0)
  else if first = 0xE0 then some (0xA0, 0xBF, 1)
  else if first = 0xED then some (0x80, 0x9F, 1)
  else if 0xE1 ≤ first && first ≤ 0xEF then some (0x80, 0xBF, 1)
  else if first = 0xF0 then some (0x90, 0xBF, 2)
  else if 0xF1 ≤ first && first ≤ 0xF3 then some (0x80, 0xBF, 2)
  else if first = 0xF4 then some (0x80, 0x8F, 2)
  else none

/-- How many bytes behind the first one belong to the same piece, and whether
the piece is a whole character. -/
def pieceTail (first : UInt8) (rest : List UInt8) : Nat × Bool :=
  if first < 0x80 then (0, true)
  else
    match secondByte? first, rest with
    | some (low, high, more), second :: others =>
      if low ≤ second && second ≤ high then
        let present := ((others.take more).takeWhile isContinuation).length
        (1 + present, present == more)
      else (0, false)
    | _, _ => (0, false)

def codePoint : List UInt8 → Nat
  | [] => 0
  | [only] => only.toNat
  | first :: rest =>
    let lead := match rest.length with
      | 1 => first.toNat % 32
      | 2 => first.toNat % 16
      | _ => first.toNat % 8
    rest.foldl (fun value byte => value * 64 + byte.toNat % 64) lead

/-- The text for display. The first argument bounds the number of pieces. -/
def lossyChars : Nat → List UInt8 → List Char
  | 0, _ => []
  | _ + 1, [] => []
  | more + 1, first :: rest =>
    let (count, whole) := pieceTail first rest
    let shown := if whole then Char.ofNat (codePoint (first :: rest.take count)) else '\uFFFD'
    shown :: lossyChars more (rest.drop count)

def lossyText (bytes : List UInt8) : String :=
  String.ofList (lossyChars bytes.length bytes)

end KeyRelay.Text
