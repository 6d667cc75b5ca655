import KeyRelay.Files.Tree

/-! # Listening sockets

A server listens at a path where an earlier run may have left its socket file,
so whatever file is there is removed first. -/
set_option autoImplicit false

namespace KeyRelay

inductive ListenError
  | staleSocket (path : Path) (cause : FileFailure)
  | bindFailed (path : Path) (cause : FileFailure)
  deriving DecidableEq, Repr

namespace ListenError

def cause : ListenError → FileFailure
  | .staleSocket _ cause => cause
  | .bindFailed _ cause => cause

def text : ListenError → String
  | .staleSocket path cause => s!"failed to remove stale socket {path.display}: {cause.text}"
  | .bindFailed path cause => s!"failed to bind {path.display}: {cause.text}"

end ListenError

def FileTree.listen (tree : FileTree) (path : Path) : Except ListenError FileTree :=
  let cleared : Except ListenError FileTree :=
    match tree.removeFile path with
    | .ok cleared => .ok cleared
    | .error .notFound => .ok tree
    | .error cause => .error (.staleSocket path cause)
  match cleared with
  | .error failure => .error failure
  | .ok cleared =>
    match cleared.bindSocket path with
    | .ok bound => .ok bound
    | .error cause => .error (.bindFailed path cause)

def FileTree.unlisten (tree : FileTree) (path : Path) : FileTree :=
  match tree.removeFile path with
  | .ok removed => removed
  | .error _ => tree

def FileTree.holds (tree : FileTree) (path : Path) : Bool :=
  match tree.resolve path with
  | .ok place => (tree.lookup place).isSome
  | .error _ => false

end KeyRelay
