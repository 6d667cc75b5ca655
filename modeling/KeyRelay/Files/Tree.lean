import KeyRelay.Files.Path
import KeyRelay.Stream.Failure

/-! # A tree of files

Directories, files and sockets under a root, with a working directory from which
relative paths start. A place is the list of names that leads to an entry from
the root, with no dots in it. Failures have the texts of the system. -/
set_option autoImplicit false

namespace KeyRelay

inductive Entry
  | directory
  | file (content : List UInt8)
  | socket
  deriving DecidableEq, Repr

abbrev Place := List (List UInt8)

structure FileTree where
  working : Place := []
  entries : List (Place × Entry) := []
  deriving DecidableEq, Repr

inductive FileFailure
  | notFound
  | notADirectory
  | isADirectory
  | alreadyExists
  | addressInUse
  | connectionRefused
  | nameTooLong
  | pathTooLong
  | noSuchDevice
  | notText
  deriving DecidableEq, Repr

namespace FileFailure

def kind : FileFailure → FailureKind
  | .notFound => .notFound
  | .notADirectory => .notADirectory
  | .isADirectory => .isADirectory
  | .alreadyExists => .alreadyExists
  | .addressInUse => .addrInUse
  | .connectionRefused => .connectionRefused
  | .nameTooLong => .other
  | .pathTooLong => .invalidInput
  | .noSuchDevice => .other
  | .notText => .invalidData

def text : FileFailure → String
  | .notFound => "No such file or directory (os error 2)"
  | .notADirectory => "Not a directory (os error 20)"
  | .isADirectory => "Is a directory (os error 21)"
  | .alreadyExists => "File exists (os error 17)"
  | .addressInUse => "Address already in use (os error 98)"
  | .connectionRefused => "Connection refused (os error 111)"
  | .nameTooLong => "File name too long (os error 36)"
  | .pathTooLong => "path must be shorter than SUN_LEN"
  | .noSuchDevice => "No such device or address (os error 6)"
  | .notText => "stream did not contain valid UTF-8"

def streamFailure (failure : FileFailure) : StreamFailure :=
  ⟨failure.kind, some failure.text⟩

end FileFailure

namespace FileTree

def maxName : Nat := 255

/-- Every path that leads anywhere is shorter than this. -/
def pathBound : Nat := 4096

/-- A socket path is shorter than this. -/
def socketPathBound : Nat := 108

def lookup (tree : FileTree) (place : Place) : Option Entry :=
  if place.isEmpty then some .directory
  else (tree.entries.find? fun entry => entry.1 == place).map (·.2)

def remove (tree : FileTree) (place : Place) : FileTree :=
  { tree with entries := tree.entries.filter fun entry => entry.1 != place }

def store (tree : FileTree) (place : Place) (entry : Entry) : FileTree :=
  { tree with entries := (place, entry) :: (tree.remove place).entries }

/-- Follows the pieces of a path. All but the last have to lead to directories;
the last need not exist. An empty piece behind the last name stands for a dot. -/
def walk (tree : FileTree) (place : Place) : List (List UInt8) → Except FileFailure Place
  | [] => .ok place
  | piece :: rest =>
    match tree.lookup place with
    | none => .error .notFound
    | some .directory =>
      if Path.isFiller piece then tree.walk place rest
      else if piece = Path.dotDot then tree.walk place.dropLast rest
      else if maxName < piece.length then .error .nameTooLong
      else tree.walk (place ++ [piece]) rest
    | some _ => .error .notADirectory

/-- The place that a path starts from. -/
def start (tree : FileTree) (path : Path) : Place :=
  if path.isAbsolute then [] else tree.working

/-- Follows pieces of a path from its start. The empty path leads nowhere. -/
def follow (tree : FileTree) (path : Path) (pieces : List (List UInt8)) :
    Except FileFailure Place :=
  if path.bytes.isEmpty then .error .notFound
  else if pathBound ≤ path.bytes.length then .error .nameTooLong
  else tree.walk (tree.start path) pieces

def resolve (tree : FileTree) (path : Path) : Except FileFailure Place :=
  tree.follow path path.segments

def read (tree : FileTree) (path : Path) : Except FileFailure (List UInt8) := do
  let place ← tree.resolve path
  match tree.lookup place with
  | none => .error .notFound
  | some (.file content) => .ok content
  | some .directory => .error .isADirectory
  | some .socket => .error .noSuchDevice

/-- The pieces in front of the last, slashes at the end aside. -/
def frontPieces (path : Path) : List (List UInt8) :=
  ((path.segments.reverse.dropWhile List.isEmpty).drop 1).reverse

/-- Writes a file, new or in place of an old one. A path with a slash at its
end never names a file, once what is in front of its last piece is there. -/
def write (tree : FileTree) (path : Path) (content : List UInt8) :
    Except FileFailure FileTree :=
  if path.bytes.getLast? = some Path.slash then
    (tree.follow path (frontPieces path ++ [Path.dot])).bind fun _ => .error .isADirectory
  else do
    let place ← tree.resolve path
    match tree.lookup place with
    | some .directory => .error .isADirectory
    | some .socket => .error .noSuchDevice
    | some (.file _) | none => .ok (tree.store place (.file content))

def removeFile (tree : FileTree) (path : Path) : Except FileFailure FileTree := do
  let place ← tree.resolve path
  match tree.lookup place with
  | none => .error .notFound
  | some .directory => .error .isADirectory
  | some _ => .ok (tree.remove place)

def bindSocket (tree : FileTree) (path : Path) : Except FileFailure FileTree :=
  if socketPathBound ≤ path.bytes.length then .error .pathTooLong
  else do
    let place ← tree.resolve path
    match tree.lookup place with
    | some _ => .error .addressInUse
    | none => .ok (tree.store place .socket)

def connect (tree : FileTree) (path : Path) : Except FileFailure Unit :=
  if socketPathBound ≤ path.bytes.length then .error .pathTooLong
  else do
    let place ← tree.resolve path
    match tree.lookup place with
    | none => .error .notFound
    | some .socket => .ok ()
    | some _ => .error .connectionRefused

end FileTree

end KeyRelay
