import KeyRelay.Matrix

/-! # Cells and linear positions

Resolving a position and making it linear again gives the position: the
product and the sum stay below the largest number, since they are the
position. -/
set_option autoImplicit false

namespace KeyRelay

theorem Geometry.resolvePosition_linear {geometry : Geometry} (columns : geometry.columns ≠ 0)
    (position : UInt32) :
    ∃ place, geometry.resolvePosition position = .ok place ∧
      place.row.toNat * geometry.columns.toNat + place.col.toNat = position.toNat := by
  refine ⟨⟨position / geometry.columns, position % geometry.columns⟩, ?_, ?_⟩
  · rw [resolvePosition, if_neg columns]
  · rw [UInt32.toNat_div, UInt32.toNat_mod]
    exact Nat.div_add_mod' position.toNat geometry.columns.toNat

theorem Geometry.flatten_eq (geometry : Geometry) (place : Coordinate) :
    geometry.flatten place = UInt32.ofNat
      (min (place.row.toNat * geometry.columns.toNat + place.col.toNat) (UInt32.size - 1)) := by
  have size : UInt32.size = 4294967296 := rfl
  simp only [flatten]
  split
  next below => rw [Nat.min_eq_left (by omega)]
  next beyond => rw [Nat.min_eq_right (by omega)]

/-- The position that a key of this address has for the observers, if it has one. -/
def KeyAddress.linear? (geometry : Geometry) : KeyAddress → Option UInt32
  | .position index => if geometry.columns = 0 then none else some index
  | .coordinate place => some (UInt32.ofNat
      (min (place.row.toNat * geometry.columns.toNat + place.col.toNat) (UInt32.size - 1)))

theorem KeyAddress.linear?_eq (geometry : Geometry) (address : KeyAddress) :
    address.linear? geometry = (address.resolve geometry).toOption.map geometry.flatten := by
  cases address with
  | coordinate place =>
    rw [linear?, resolve, ← geometry.flatten_eq place]
    rfl
  | position index =>
    by_cases columns : geometry.columns = 0
    · simp [linear?, resolve, Geometry.resolvePosition, columns, Except.toOption]
    · obtain ⟨place, resolved, linear⟩ := Geometry.resolvePosition_linear columns index
      have bound : index.toNat < UInt32.size := index.toNat_lt
      have below : min index.toNat (UInt32.size - 1) = index.toNat :=
        Nat.min_eq_left (by omega)
      have same : geometry.flatten place = index := by
        rw [geometry.flatten_eq, linear, below, UInt32.ofNat_toNat]
      rw [linear?, if_neg columns, resolve, resolved]
      simp [Except.toOption, same]

end KeyRelay
