import KeyRelay.Files.Directories

/-! # Files are read as they were written

A path leads to the same place as long as the directories on its way stay. Writing a
file changes no directory, so the path it was written to leads to it afterwards.
Creating directories adds them where nothing was: every file that could be read can still
be, with the same content, and no other comes about. -/
set_option autoImplicit false

namespace KeyRelay.FileTree

/-! ## Looking up -/

theorem lookup_store_self {place : Place} (below : place ≠ []) (tree : FileTree) (entry : Entry) :
    (tree.store place entry).lookup place = some entry := by
  have named : place.isEmpty = false := by simpa using below
  simp [lookup, store, named]

theorem lookup_store_other {place other : Place} (apart : other ≠ place) (tree : FileTree)
    (entry : Entry) : (tree.store place entry).lookup other = tree.lookup other := by
  have kept : ((tree.remove place).entries.find? fun stored => stored.1 == other) =
      tree.entries.find? fun stored => stored.1 == other := by
    rw [remove, List.find?_filter]
    congr 1
    funext stored
    by_cases same : stored.1 = other
    · simp [same, apart]
    · simp [same]
  simp only [lookup, store, List.find?_cons, beq_eq_false_iff_ne.mpr apart.symm, kept]

/-- The root is a directory. -/
theorem ne_nil_of_lookup {tree : FileTree} {place : Place}
    (other : tree.lookup place ≠ some .directory) : place ≠ [] := by
  rintro rfl
  exact other rfl

/-! ## Following paths -/

/-- Where a piece of a path leads from a directory. -/
def enter? (place : Place) (piece : List UInt8) : Option Place :=
  if Path.isFiller piece then some place
  else if piece = Path.dotDot then some place.dropLast
  else if maxName < piece.length then none
  else some (place ++ [piece])

theorem walk_cons_eq_ok_iff {tree : FileTree} {place found : Place} {piece : List UInt8}
    {pieces : List (List UInt8)} :
    tree.walk place (piece :: pieces) = .ok found ↔ tree.lookup place = some .directory ∧
      ∃ next, enter? place piece = some next ∧ tree.walk next pieces = .ok found := by
  rw [walk]
  split
  next missing => simp [missing]
  next directory =>
    rw [directory, enter?]
    split
    next => simp
    next =>
    split
    next => simp
    next =>
    split
    next => simp
    next => simp
  next other entry present =>
    refine iff_of_false nofun fun ⟨directory, _⟩ => ?_
    rw [directory] at present
    exact entry (Option.some.inj present).symm

theorem resolve_eq_ok_iff {tree : FileTree} {path : Path} {place : Place} :
    tree.resolve path = .ok place ↔ path.bytes ≠ [] ∧ path.bytes.length < pathBound ∧
      tree.walk (tree.start path) path.segments = .ok place := by
  rw [resolve, follow]
  split
  next empty => simp [List.isEmpty_iff.mp empty]
  next filled =>
    rw [List.isEmpty_iff] at filled
    split
    next long => simp [Nat.not_lt.mpr long]
    next short => simp [filled, Nat.lt_of_not_le short]

/-- Every directory of the first tree is one of the second. -/
structure KeepsDirectories (before after : FileTree) : Prop where
  working : after.working = before.working
  directory : ∀ place, before.lookup place = some .directory →
    after.lookup place = some .directory

theorem KeepsDirectories.walk {before after : FileTree} (keeps : KeepsDirectories before after)
    {place found : Place} {pieces : List (List UInt8)}
    (leads : before.walk place pieces = .ok found) : after.walk place pieces = .ok found := by
  induction pieces generalizing place with
  | nil => exact leads
  | cons piece pieces ih =>
    obtain ⟨directory, next, entered, onward⟩ := walk_cons_eq_ok_iff.mp leads
    exact walk_cons_eq_ok_iff.mpr ⟨keeps.directory place directory, next, entered, ih onward⟩

theorem KeepsDirectories.resolve {before after : FileTree} (keeps : KeepsDirectories before after)
    {path : Path} {found : Place} (leads : before.resolve path = .ok found) :
    after.resolve path = .ok found := by
  have origin : after.start path = before.start path := by rw [start, start, keeps.working]
  obtain ⟨filled, short, walked⟩ := resolve_eq_ok_iff.mp leads
  exact resolve_eq_ok_iff.mpr ⟨filled, short, origin ▸ keeps.walk walked⟩

/-- Only what is no directory may be replaced. -/
theorem keepsDirectories_store {tree : FileTree} {place : Place}
    (other : tree.lookup place ≠ some .directory) (entry : Entry) :
    KeepsDirectories tree (tree.store place entry) where
  working := rfl
  directory := by
    intro kept directory
    have apart : kept ≠ place := by
      rintro rfl
      exact other directory
    rw [lookup_store_other apart, directory]

/-- A file is written to the place that the path leads to, in place of a file or of nothing. -/
theorem write_eq_ok_iff {tree written : FileTree} {path : Path} {content : List UInt8} :
    tree.write path content = .ok written ↔ path.bytes.getLast? ≠ some Path.slash ∧
      ∃ place, tree.resolve path = .ok place ∧
        (tree.lookup place = none ∨ ∃ old, tree.lookup place = some (.file old)) ∧
        written = tree.store place (.file content) := by
  rw [write]
  split
  next atEnd =>
    refine iff_of_false ?_ fun ⟨named, _⟩ => named atEnd
    cases tree.follow path (frontPieces path ++ [Path.dot]) with
    | error failure => exact nofun
    | ok place => exact nofun
  next named =>
    cases resolved : tree.resolve path with
    | error failure => simp [bind, Except.bind]
    | ok place =>
      simp only [bind, Except.bind]
      split
      next found => simp [found]
      next found => simp [found]
      next old found => simp [found, named, eq_comm]
      next found => simp [found, named, eq_comm]

theorem ne_directory_of_writable {tree : FileTree} {place : Place}
    (writable : tree.lookup place = none ∨ ∃ old, tree.lookup place = some (.file old)) :
    tree.lookup place ≠ some .directory := by
  rcases writable with free | ⟨old, found⟩
  · rw [free]
    exact nofun
  · rw [found]
    exact nofun

/-- A file that was written is read with what was written to it. -/
theorem read_write {tree written : FileTree} {path : Path} {content : List UInt8}
    (success : tree.write path content = .ok written) : written.read path = .ok content := by
  obtain ⟨-, place, resolved, writable, rfl⟩ := write_eq_ok_iff.mp success
  have other := ne_directory_of_writable writable
  have again := (keepsDirectories_store other (.file content)).resolve resolved
  rw [read, again]
  simp only [bind, Except.bind, lookup_store_self (ne_nil_of_lookup other)]

/-! ## Adding entries -/

/-- Every entry of the first tree is one of the second. -/
structure Extends (before after : FileTree) : Prop where
  working : after.working = before.working
  entry : ∀ place entry, before.lookup place = some entry → after.lookup place = some entry

namespace Extends

theorem refl (tree : FileTree) : Extends tree tree :=
  ⟨rfl, fun _ _ found => found⟩

theorem trans {first second third : FileTree} (former : Extends first second)
    (latter : Extends second third) : Extends first third :=
  ⟨latter.working.trans former.working,
    fun place entry found => latter.entry place entry (former.entry place entry found)⟩

theorem store {tree : FileTree} {place : Place} (free : tree.lookup place = none) (entry : Entry) :
    Extends tree (tree.store place entry) where
  working := rfl
  entry := by
    intro kept found present
    have apart : kept ≠ place := by
      rintro rfl
      rw [free] at present
      cases present
    rw [lookup_store_other apart, present]

theorem read {before after : FileTree} (grows : Extends before after) {path : Path}
    {content : List UInt8} (present : before.read path = .ok content) :
    after.read path = .ok content := by
  have keeps : KeepsDirectories before after :=
    ⟨grows.working, fun place => grows.entry place .directory⟩
  rw [FileTree.read] at present ⊢
  cases resolved : before.resolve path with
  | error failure => rw [resolved] at present; cases present
  | ok place =>
    rw [resolved] at present
    rw [keeps.resolve resolved]
    simp only [bind, Except.bind] at present ⊢
    split at present
    next => cases present
    next content found => rw [grows.entry place _ found]; exact present
    next => cases present
    next => cases present

end Extends

/-- Directories are added where nothing was, one after the other. -/
inductive AddsDirectories (before : FileTree) : FileTree → Prop
  | refl : AddsDirectories before before
  | add {tree : FileTree} {place : Place} (earlier : AddsDirectories before tree)
    (free : tree.lookup place = none) : AddsDirectories before (tree.store place .directory)

namespace AddsDirectories

theorem trans {first second third : FileTree} (former : AddsDirectories first second)
    (latter : AddsDirectories second third) : AddsDirectories first third := by
  induction latter with
  | refl => exact former
  | add _ free ih => exact ih.add free

theorem grows {before after : FileTree} (adds : AddsDirectories before after) :
    Extends before after := by
  induction adds with
  | refl => exact .refl before
  | add _ free ih => exact ih.trans (.store free .directory)

theorem file_iff {before after : FileTree} (adds : AddsDirectories before after) (place : Place)
    (content : List UInt8) :
    after.lookup place = some (.file content) ↔ before.lookup place = some (.file content) := by
  induction adds with
  | refl => rfl
  | @add tree added _ free ih =>
    rw [← ih]
    by_cases here : place = added
    · subst here
      have other : tree.lookup place ≠ some .directory := by
        rw [free]
        exact nofun
      rw [lookup_store_self (ne_nil_of_lookup other), free]
      exact iff_of_false nofun nofun
    · rw [lookup_store_other here]

theorem createMissing (tree : FileTree) (place : Place) (pieces : List (List UInt8)) :
    AddsDirectories tree (tree.createMissing place pieces).2 := by
  induction pieces generalizing tree place with
  | nil => exact .refl
  | cons piece pieces ih =>
    rw [FileTree.createMissing]
    split
    next => exact ih tree place
    next =>
    split
    next => exact ih tree place.dropLast
    next =>
    split
    next => exact .refl
    next =>
    dsimp only
    split
    next => exact ih tree (place ++ [piece])
    next => exact .refl
    next free => exact (AddsDirectories.refl.add free).trans (ih _ (place ++ [piece]))

theorem ensureDirectory {tree made : FileTree} {path : Path}
    (success : tree.ensureDirectory path = .ok made) : AddsDirectories tree made := by
  rw [FileTree.ensureDirectory] at success
  cases resolved : tree.resolve path with
  | error failure => rw [resolved] at success; cases success
  | ok place =>
    rw [resolved] at success
    simp only [bind, Except.bind] at success
    split at success
    next => cases success; exact .refl
    next => cases success
    next free => cases success; exact AddsDirectories.refl.add free

theorem createDirectories (tree : FileTree) (path : Path) :
    AddsDirectories tree (tree.createDirectories path).2 := by
  rw [FileTree.createDirectories]
  split
  next => exact .refl
  next =>
  split
  next made success => exact ensureDirectory success
  next => exact createMissing tree (tree.start path) path.segments
  next => exact .refl

end AddsDirectories

end KeyRelay.FileTree
