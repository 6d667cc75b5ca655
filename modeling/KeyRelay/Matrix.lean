import KeyRelay.Message.Command

/-! # The key matrix

A switch is addressed by its row and column or by a linear position, which
counts along the rows. Rows are not bounds-checked: the matrix that receives
the key decides about a cell it does not have. -/
set_option autoImplicit false

namespace KeyRelay

structure Geometry where
  rows : UInt32
  columns : UInt32
  deriving DecidableEq, Repr

/-- A linear position in a matrix without columns. -/
structure Unresolvable where
  position : UInt32
  deriving DecidableEq, Repr

def Unresolvable.text (failure : Unresolvable) : String :=
  s!"linear position {failure.position} cannot be resolved: matrix has 0 columns"

def Geometry.resolvePosition (geometry : Geometry) (position : UInt32) :
    Except Unresolvable Coordinate :=
  if geometry.columns = 0 then .error ⟨position⟩
  else .ok ⟨position / geometry.columns, position % geometry.columns⟩

def KeyAddress.resolve (address : KeyAddress) (geometry : Geometry) :
    Except Unresolvable Coordinate :=
  match address with
  | .coordinate place => .ok place
  | .position index => geometry.resolvePosition index

/-- The linear position of a cell, or the largest number when the position is beyond it. -/
def Geometry.flatten (geometry : Geometry) (place : Coordinate) : UInt32 :=
  let position := place.row.toNat * geometry.columns.toNat + place.col.toNat
  if position < UInt32.size then UInt32.ofNat position else UInt32.ofNat (UInt32.size - 1)

end KeyRelay
