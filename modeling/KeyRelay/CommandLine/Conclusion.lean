import KeyRelay.CommandLine.Arguments

/-! # How a program ends

A program ends well, with a report of what failed, or with a complaint about
its command line. A report names what was being done and then the causes, each
the reason of the one before. A single cause stands alone, several are
numbered, and the later lines of a cause are indented under its first. -/
set_option autoImplicit false

namespace KeyRelay.CommandLine

structure Report where
  doing : String
  causes : List String := []
  deriving DecidableEq, Repr

namespace Report

def indentRest (margin : String) (text : String) : List Char :=
  text.toList.flatMap fun c => if c = '\n' then '\n' :: margin.toList else [c]

def numbered : Nat → List String → List Char
  | _, [] => []
  | index, cause :: rest =>
    let number := (toString index).toList
    '\n' :: List.replicate (5 - number.length) ' ' ++ number ++ [':', ' '] ++
      indentRest "       " cause ++ numbered (index + 1) rest

def causesText : List String → List Char
  | [] => []
  | [cause] => "\n\nCaused by:\n    ".toList ++ indentRest "    " cause
  | causes => "\n\nCaused by:".toList ++ numbered 0 causes

def text (report : Report) : String :=
  "Error: " ++ report.doing ++ String.ofList (causesText report.causes)

end Report

inductive Ending
  | success
  | failure (report : Report)
  | misuse (cause : Misuse)
  deriving DecidableEq, Repr

def Ending.status : Ending → Nat
  | .success => 0
  | .failure _ => 1
  | .misuse _ => 2

/-- What a program printed, and how it ended. -/
structure Conclusion where
  printed : String
  ending : Ending
  deriving DecidableEq, Repr

def lines (texts : List String) : String :=
  texts.foldr (fun line rest => line ++ "\n" ++ rest) ""

end KeyRelay.CommandLine
