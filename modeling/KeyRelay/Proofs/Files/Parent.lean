import KeyRelay.Proofs.Files.Spelling

/-! # The directory of a file

The pieces of a path begin with the pieces of its directory. So a path that leads anywhere
goes through its directory, and creating that directory changes nothing. A file that was
written can be written again, and with the same content it stays as it is. -/
set_option autoImplicit false

namespace KeyRelay

namespace Path

theorem intercalate_append {front behind : List (List UInt8)} (filled : front ≠ [])
    (more : behind ≠ []) :
    [slash].intercalate (front ++ behind) =
      [slash].intercalate front ++ slash :: [slash].intercalate behind := by
  obtain ⟨next, others, rfl⟩ := List.exists_cons_of_ne_nil more
  induction front with
  | nil => exact absurd rfl filled
  | cons piece front ih =>
    cases front with
    | nil =>
      rw [List.singleton_append, List.intercalate_cons_cons, List.intercalate_singleton,
        List.append_assoc, List.singleton_append]
    | cons second front =>
      have inner := ih (List.cons_ne_nil second front)
      simp only [List.cons_append, List.intercalate_cons_cons, List.append_assoc] at inner ⊢
      rw [inner]

/-- Whatever is dropped from the end, up to the last name and then in front of it, what is kept
is a front. -/
theorem cut_at_name {pieces before : List (List UInt8)} {last : List UInt8}
    (named : pieces.reverse.dropWhile isFiller = last :: before) :
    ∃ behind, behind ≠ [] ∧ pieces = (before.dropWhile isFiller).reverse ++ behind := by
  obtain ⟨fillers, atEnd⟩ : last :: before <:+ pieces.reverse :=
    named ▸ List.dropWhile_suffix isFiller
  obtain ⟨others, inFront⟩ : before.dropWhile isFiller <:+ before :=
    List.dropWhile_suffix isFiller
  refine ⟨others.reverse ++ last :: fillers.reverse, by simp, ?_⟩
  calc pieces = (fillers ++ last :: before).reverse := by rw [atEnd, List.reverse_reverse]
    _ = before.reverse ++ last :: fillers.reverse := by simp
    _ = (others ++ before.dropWhile isFiller).reverse ++ last :: fillers.reverse := by rw [inFront]
    _ = (before.dropWhile isFiller).reverse ++ (others.reverse ++ last :: fillers.reverse) := by
      rw [List.reverse_append, List.append_assoc]

/-- The directory of a path is the empty path, the root, or a path whose pieces stand in front
of other pieces in the path. -/
theorem parent?_cases {path directory : Path} (parent : path.parent? = some directory) :
    directory.bytes = [] ∨ directory.bytes = [slash] ∨
      directory.bytes ≠ [] ∧
        ∃ behind, behind ≠ [] ∧ path.segments = directory.segments ++ behind := by
  rw [parent?] at parent
  split at parent
  next => cases parent
  next first rest pieces =>
    split at parent
    next =>
      split at parent
      next => cases parent
      next => cases parent; exact .inl rfl
    next last before named =>
      obtain ⟨behind, more, cut⟩ := cut_at_name named
      cases parent
      by_cases root : first = [] ∧ (before.dropWhile isFiller).reverse = []
      · exact .inr (.inl (if_pos root))
      have whole : path.segments = first :: (before.dropWhile isFiller).reverse ++ behind := by
        rw [pieces, List.cons_append, ← cut]
      have kept : split ([slash].intercalate (first :: (before.dropWhile isFiller).reverse)) =
          first :: (before.dropWhile isFiller).reverse := by
        refine split_intercalate (List.cons_ne_nil _ _) fun piece member => ?_
        have present : piece ∈ path.segments := whole ▸ List.mem_append_left behind member
        exact slash_notMem_of_mem_split present
      simp only [if_neg root]
      refine .inr (.inr ⟨?_, behind, more, ?_⟩)
      · intro empty
        rw [empty, split] at kept
        obtain ⟨noFirst, noOthers⟩ := List.cons.inj kept
        exact root ⟨noFirst.symm, noOthers.symm⟩
      · rw [whole, segments, kept]

/-- Pieces in front are bytes in front, up to a slash. -/
theorem bytes_of_segments {path front : Path} {behind : List (List UInt8)} (more : behind ≠ [])
    (cut : path.segments = front.segments ++ behind) :
    path.bytes = front.bytes ++ slash :: [slash].intercalate behind := by
  have filled : front.segments ≠ [] := split_ne_nil front.bytes
  rw [← intercalate_segments path, cut, intercalate_append filled more, intercalate_segments]

end Path

namespace FileTree

/-- What has something behind it on the way leads to a directory. -/
theorem walk_front {tree : FileTree} {place found : Place} {front behind : List (List UInt8)}
    (more : behind ≠ []) (leads : tree.walk place (front ++ behind) = .ok found) :
    ∃ above, tree.walk place front = .ok above ∧ tree.lookup above = some .directory := by
  induction front generalizing place with
  | nil =>
    obtain ⟨piece, others, rfl⟩ := List.exists_cons_of_ne_nil more
    exact ⟨place, rfl, (walk_cons_eq_ok_iff.mp leads).1⟩
  | cons piece front ih =>
    obtain ⟨directory, next, entered, onward⟩ := walk_cons_eq_ok_iff.mp leads
    obtain ⟨above, reached, present⟩ := ih onward
    exact ⟨above, walk_cons_eq_ok_iff.mpr ⟨directory, next, entered, reached⟩, present⟩

/-- A path leads through its directory. -/
theorem resolve_parent? {tree : FileTree} {path directory : Path} {place : Place}
    (parent : path.parent? = some directory) (leads : tree.resolve path = .ok place) :
    directory.bytes = [] ∨
      ∃ above, tree.resolve directory = .ok above ∧ tree.lookup above = some .directory := by
  rcases Path.parent?_cases parent with empty | root | ⟨filled, behind, more, cut⟩
  · exact .inl empty
  · obtain rfl : directory = ⟨[Path.slash]⟩ := congrArg Path.mk root
    exact .inr ⟨[], rfl, rfl⟩
  · right
    have whole := Path.bytes_of_segments more cut
    have origin : tree.start path = tree.start directory := by
      obtain ⟨byte, others, bytes⟩ := List.exists_cons_of_ne_nil filled
      rw [start, start, Path.isAbsolute, Path.isAbsolute, whole, bytes]
      rfl
    obtain ⟨-, short, walked⟩ := resolve_eq_ok_iff.mp leads
    rw [origin, cut] at walked
    rw [whole, List.length_append] at short
    obtain ⟨above, reached, present⟩ := walk_front more walked
    exact ⟨above, resolve_eq_ok_iff.mpr ⟨filled, by omega, reached⟩, present⟩

/-- A directory that is there is not created again. -/
theorem createDirectories_of_directory {tree : FileTree} {path : Path} {place : Place}
    (leads : tree.resolve path = .ok place) (present : tree.lookup place = some .directory) :
    tree.createDirectories path = (.ok (), tree) := by
  have kept : tree.ensureDirectory path = .ok tree := by
    rw [ensureDirectory, leads]
    simp only [bind, Except.bind, present]
  rw [createDirectories]
  split
  next => rfl
  next => rw [kept]

/-- The directory of a path that leads anywhere is there. -/
theorem createDirectories_parent? {tree : FileTree} {path directory : Path} {place : Place}
    (parent : path.parent? = some directory) (leads : tree.resolve path = .ok place) :
    tree.createDirectories directory = (.ok (), tree) := by
  rcases resolve_parent? parent leads with empty | ⟨above, reached, present⟩
  · rw [createDirectories, empty]
    rfl
  · exact createDirectories_of_directory reached present

/-! ## Writing again -/

theorem store_store (tree : FileTree) (place : Place) (entry : Entry) :
    (tree.store place entry).store place entry = tree.store place entry := by
  simp [store, remove]

/-- A file that was written leads somewhere afterwards, and is the same when it is written
again. -/
theorem write_again {tree written : FileTree} {path : Path} {content : List UInt8}
    (success : tree.write path content = .ok written) :
    (∃ place, written.resolve path = .ok place) ∧ written.write path content = .ok written := by
  obtain ⟨named, place, resolved, writable, rfl⟩ := write_eq_ok_iff.mp success
  have other := ne_directory_of_writable writable
  have again := (keepsDirectories_store other (.file content)).resolve resolved
  refine ⟨⟨place, again⟩, write_eq_ok_iff.mpr ⟨named, place, again, .inr ⟨content, ?_⟩, ?_⟩⟩
  · exact lookup_store_self (ne_nil_of_lookup other) tree (.file content)
  · rw [store_store]

end FileTree

end KeyRelay
