import KeyRelay.Proofs.Files.Tree
import Mathlib.Data.List.Basic

/-! # Spellings of a path

A path is its pieces with slashes between them. Cleaning it up leaves out the pieces that are
empty or a dot; what is left are its names, and whether it begins at the root. Paths that are
the same have one clean form, but a dot at the very front tells paths of one clean form apart.
All of them lead to one place. -/
set_option autoImplicit false

namespace KeyRelay.Path

/-! ## Pieces -/

theorem split_eq_splitOn (bytes : List UInt8) : split bytes = bytes.splitOn slash := by
  induction bytes with
  | nil => rfl
  | cons byte bytes ih =>
    rw [split, ih, List.splitOn, List.splitOn, List.splitOnP_cons_eq_if_modifyHead]
    by_cases here : byte = slash
    · rw [if_pos here, if_pos (beq_iff_eq.mpr here)]
    · rw [if_neg here, if_neg (by simpa using here)]
      cases pieces : List.splitOnP (· == slash) bytes with
      | nil => exact absurd pieces (List.splitOnP_ne_nil _ bytes)
      | cons piece others => rfl

theorem split_ne_nil (bytes : List UInt8) : split bytes ≠ [] := by
  rw [split_eq_splitOn]
  exact List.splitOn_ne_nil slash bytes

theorem intercalate_segments (path : Path) : [slash].intercalate path.segments = path.bytes := by
  rw [segments, split_eq_splitOn, List.intercalate_splitOn]

theorem slash_notMem_of_mem_split {bytes piece : List UInt8} (member : piece ∈ split bytes) :
    slash ∉ piece := by
  induction bytes generalizing piece with
  | nil =>
    rw [List.mem_singleton.mp member]
    exact List.not_mem_nil
  | cons byte bytes ih =>
    rw [split] at member
    split at member
    next =>
      rcases List.mem_cons.mp member with rfl | other
      · exact List.not_mem_nil
      · exact ih other
    next here =>
      cases pieces : split bytes with
      | nil => exact absurd pieces (split_ne_nil bytes)
      | cons first others =>
        rw [pieces] at member ih
        rcases List.mem_cons.mp member with rfl | other
        · intro found
          rcases List.mem_cons.mp found with same | inside
          · exact here same.symm
          · exact ih List.mem_cons_self inside
        · exact ih (List.mem_cons_of_mem first other)

theorem split_intercalate {pieces : List (List UInt8)} (filled : pieces ≠ [])
    (whole : ∀ piece ∈ pieces, slash ∉ piece) : split ([slash].intercalate pieces) = pieces := by
  rw [split_eq_splitOn, List.splitOn_intercalate slash whole filled]

/-! ## Names -/

/-- A piece that is kept when a path is cleaned up. -/
def IsName (piece : List UInt8) : Prop :=
  piece ≠ [] ∧ slash ∉ piece

theorem isName_of_mem_names {path : Path} {piece : List UInt8}
    (member : piece ∈ path.components.names) : IsName piece := by
  obtain ⟨present, kept⟩ := List.mem_filter.mp member
  refine ⟨?_, slash_notMem_of_mem_split present⟩
  rintro rfl
  exact absurd kept (by decide)

/-- Joined names do not begin with a slash. -/
theorem head?_intercalate_ne {names : List (List UInt8)} (each : ∀ name ∈ names, IsName name) :
    ([slash].intercalate names).head? ≠ some slash := by
  cases names with
  | nil => exact nofun
  | cons name others =>
    obtain ⟨filled, whole⟩ := each name List.mem_cons_self
    obtain ⟨byte, rest, rfl⟩ := List.exists_cons_of_ne_nil filled
    have front : ([slash].intercalate ((byte :: rest) :: others)).head? = some byte := by
      cases others with
      | nil => rw [List.intercalate_singleton, List.head?_cons]
      | cons next others => rw [List.intercalate_cons_cons]; rfl
    rw [front]
    intro same
    exact whole (Option.some.inj same ▸ List.mem_cons_self)

theorem intercalate_ne_nil {name : List UInt8} (filled : name ≠ []) (others : List (List UInt8)) :
    [slash].intercalate (name :: others) ≠ [] := by
  cases others with
  | nil => rwa [List.intercalate_singleton]
  | cons next others =>
    rw [List.intercalate_cons_cons]
    simp

theorem intercalate_inj {left right : List (List UInt8)} (leftNames : ∀ name ∈ left, IsName name)
    (rightNames : ∀ name ∈ right, IsName name)
    (same : [slash].intercalate left = [slash].intercalate right) : left = right := by
  cases left with
  | nil =>
    cases right with
    | nil => rfl
    | cons name others =>
      exact absurd same.symm (intercalate_ne_nil (rightNames name List.mem_cons_self).1 others)
  | cons first left =>
    cases right with
    | nil => exact absurd same (intercalate_ne_nil (leftNames first List.mem_cons_self).1 left)
    | cons second right =>
      rw [← split_intercalate (List.cons_ne_nil first left) fun name member =>
        (leftNames name member).2, same, split_intercalate (List.cons_ne_nil second right)
        fun name member => (rightNames name member).2]

/-! ## Clean forms -/

/-- The path without its dots, and without the slashes that are repeated or at its end. -/
def cleaned (path : Path) : Path :=
  ⟨(if path.isAbsolute then [slash] else []) ++ [slash].intercalate path.components.names⟩

theorem cleaned_eq_iff {left right : Path} :
    left.cleaned = right.cleaned ↔
      left.isAbsolute = right.isAbsolute ∧ left.components.names = right.components.names := by
  have leftNames : ∀ name ∈ left.components.names, IsName name := fun _ => isName_of_mem_names
  have rightNames : ∀ name ∈ right.components.names, IsName name := fun _ => isName_of_mem_names
  constructor
  · intro same
    have bytes := congrArg Path.bytes same
    simp only [cleaned] at bytes
    cases leftRoot : left.isAbsolute with
    | false =>
      cases rightRoot : right.isAbsolute with
      | false =>
        simp only [leftRoot, rightRoot] at bytes
        exact ⟨rfl, intercalate_inj leftNames rightNames bytes⟩
      | true =>
        simp only [leftRoot, rightRoot] at bytes
        exact absurd (congrArg List.head? bytes) (head?_intercalate_ne leftNames)
    | true =>
      cases rightRoot : right.isAbsolute with
      | false =>
        simp only [leftRoot, rightRoot] at bytes
        exact absurd (congrArg List.head? bytes.symm) (head?_intercalate_ne rightNames)
      | true =>
        simp only [leftRoot, rightRoot] at bytes
        exact ⟨rfl, intercalate_inj leftNames rightNames (List.append_cancel_left bytes)⟩
  · rintro ⟨root, names⟩
    rw [cleaned, cleaned, root, names]

/-- The first component is a dot. -/
def BeginsWithDot (path : Path) : Prop :=
  path.bytes = dot ∨ ∃ rest, path.bytes = dot ++ slash :: rest

theorem beginsWithDot_iff {path : Path} :
    path.BeginsWithDot ↔ path.components.leadingDot = true := by
  have leading : path.components.leadingDot = true ↔ path.segments.head? = some dot := beq_iff_eq
  rw [leading]
  constructor
  · rintro (alone | ⟨rest, front⟩)
    · rw [segments, alone]
      rfl
    · rw [segments, front]
      rfl
  · intro head
    obtain ⟨others, pieces⟩ := List.head?_eq_some_iff.mp head
    rw [BeginsWithDot, ← intercalate_segments, pieces]
    cases others with
    | nil => exact .inl List.intercalate_singleton
    | cons next others =>
      refine .inr ⟨[slash].intercalate (next :: others), ?_⟩
      rw [List.intercalate_cons_cons, List.append_assoc, List.singleton_append]

theorem same_iff {left right : Path} :
    Same left right ↔
      left.cleaned = right.cleaned ∧ (left.BeginsWithDot ↔ right.BeginsWithDot) := by
  have fields : Same left right ↔ left.isAbsolute = right.isAbsolute ∧
      left.components.leadingDot = right.components.leadingDot ∧
      left.components.names = right.components.names := by
    simp only [Same, components, Components.mk.injEq]
  rw [fields, cleaned_eq_iff, beginsWithDot_iff, beginsWithDot_iff, Bool.coe_iff_coe]
  tauto

end KeyRelay.Path

namespace KeyRelay.FileTree

/-! ## Places -/

/-- What is not a name changes nothing on the way. -/
theorem walk_names {tree : FileTree} {place found : Place} {pieces : List (List UInt8)}
    (leads : tree.walk place pieces = .ok found) :
    tree.walk place (pieces.filter fun piece => !Path.isFiller piece) = .ok found := by
  induction pieces generalizing place with
  | nil => exact leads
  | cons piece pieces ih =>
    obtain ⟨directory, next, entered, onward⟩ := walk_cons_eq_ok_iff.mp leads
    by_cases filler : Path.isFiller piece = true
    · rw [enter?, if_pos filler] at entered
      cases entered
      rw [List.filter_cons_of_neg (by simp [filler])]
      exact ih onward
    · rw [List.filter_cons_of_pos (by simp [filler])]
      exact walk_cons_eq_ok_iff.mpr ⟨directory, next, entered, ih onward⟩

/-- Paths of one clean form lead to one place. -/
theorem place_of_cleaned {tree : FileTree} {left right : Path} {first second : Place}
    (same : left.cleaned = right.cleaned) (leftLeads : tree.resolve left = .ok first)
    (rightLeads : tree.resolve right = .ok second) : first = second := by
  obtain ⟨root, names⟩ := Path.cleaned_eq_iff.mp same
  have origin : tree.start left = tree.start right := by rw [start, start, root]
  have leftWalk : tree.walk (tree.start left) left.components.names = .ok first :=
    walk_names (resolve_eq_ok_iff.mp leftLeads).2.2
  have rightWalk : tree.walk (tree.start right) right.components.names = .ok second :=
    walk_names (resolve_eq_ok_iff.mp rightLeads).2.2
  rw [origin, names, rightWalk] at leftWalk
  exact (Except.ok.inj leftWalk).symm

end KeyRelay.FileTree
