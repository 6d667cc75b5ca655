import KeyRelay.Text.Utf8

/-! # Paths

A path is a byte string. Two paths are the same if they agree in their
components: repeated and trailing slashes do not count, nor does a dot, except
one that begins a relative path. Two dots are a component like any other. -/
set_option autoImplicit false

namespace KeyRelay

structure Path where
  bytes : List UInt8
  deriving DecidableEq, Repr

namespace Path

def slash : UInt8 := 0x2F

def dot : List UInt8 := [0x2E]

def dotDot : List UInt8 := [0x2E, 0x2E]

def ofString (text : String) : Path :=
  ⟨Text.utf8Bytes text⟩

def text? (path : Path) : Option String :=
  Text.utf8Text? path.bytes

/-- The path as it is shown, also if it is not UTF-8. -/
def display (path : Path) : String :=
  Text.lossyText path.bytes

def split : List UInt8 → List (List UInt8)
  | [] => [[]]
  | byte :: rest =>
    if byte = slash then [] :: split rest
    else
      match split rest with
      | piece :: others => (byte :: piece) :: others
      | [] => [[byte]]

def segments (path : Path) : List (List UInt8) :=
  split path.bytes

def isAbsolute (path : Path) : Bool :=
  path.bytes.head? == some slash

def isFiller (piece : List UInt8) : Bool :=
  piece == [] || piece == dot

/-- The path that leads to the last component, without the slashes and dots at
its end. The empty path and the root have no last component. -/
def parent? (path : Path) : Option Path :=
  match path.segments with
  | [] => none
  | first :: rest =>
    match rest.reverse.dropWhile isFiller with
    | [] => if first = [] then none else some ⟨[]⟩
    | _ :: before =>
      let kept := (before.dropWhile isFiller).reverse
      some ⟨if first = [] ∧ kept = [] then [slash] else [slash].intercalate (first :: kept)⟩

structure Components where
  absolute : Bool
  leadingDot : Bool
  names : List (List UInt8)
  deriving DecidableEq, Repr

def components (path : Path) : Components where
  absolute := path.isAbsolute
  leadingDot := path.segments.head? == some dot
  names := path.segments.filter fun piece => !isFiller piece

def Same (left right : Path) : Prop :=
  left.components = right.components

instance (left right : Path) : Decidable (Same left right) :=
  inferInstanceAs (Decidable (left.components = right.components))

end Path

end KeyRelay
