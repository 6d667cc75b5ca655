import KeyRelay.Files.Tree

/-! # Creating directories

A directory is tried first under its whole path, as it stands. Only if nothing is
found there are the directories on the way created, from the first on. So a
file on the way is an obstacle of one kind if the path leads to it at once, and
of another if something in front of it had to be created. What was created
stays when a later one fails. -/
set_option autoImplicit false

namespace KeyRelay.FileTree

def ensureDirectory (tree : FileTree) (path : Path) : Except FileFailure FileTree := do
  let place ← tree.resolve path
  match tree.lookup place with
  | some .directory => .ok tree
  | some _ => .error .alreadyExists
  | none => .ok (tree.store place .directory)

/-- Follows pieces and creates the directories that are missing. -/
def createMissing (tree : FileTree) (place : Place) :
    List (List UInt8) → Except FileFailure Unit × FileTree
  | [] => (.ok (), tree)
  | piece :: rest =>
    if Path.isFiller piece then tree.createMissing place rest
    else if piece = Path.dotDot then tree.createMissing place.dropLast rest
    else if maxName < piece.length then (.error .nameTooLong, tree)
    else
      let next := place ++ [piece]
      match tree.lookup next with
      | some .directory => tree.createMissing next rest
      | some _ => (.error .alreadyExists, tree)
      | none => (tree.store next .directory).createMissing next rest

/-- Creates a directory and those on the way to it. Gives the files as they are
afterwards, also when one could not be created. -/
def createDirectories (tree : FileTree) (path : Path) : Except FileFailure Unit × FileTree :=
  if path.bytes.isEmpty then (.ok (), tree)
  else
    match tree.ensureDirectory path with
    | .ok made => (.ok (), made)
    | .error .notFound => tree.createMissing (tree.start path) path.segments
    | .error failure => (.error failure, tree)

end KeyRelay.FileTree
