import SmellLint.Catalogue
import SmellLint.Imports

/-!
# Smells

A rule looks at a part of a program and at what is known about the program, and reports findings.
What is known (`Facts`) may be incomplete: a rule that needs a fact that is not given fails.
-/

namespace SmellLint.Smell

open Syntax (Node)

/-- What is known about a program and the function that is looked at. -/
structure Facts where
  libraries : Option LibraryMap := none
  /-- Texts of lines by number; the last one given for a number counts. -/
  lines : List (Nat × String) := []
  names : Option (List String) := none
  frameVariables : Given (List String) := .absent
  frameMethods : Given Frames.Methods := .absent
  modelMethods : Given (List Cell) := .absent
deriving Inhabited

/-- One place where a rule finds its smell. -/
structure Finding where
  line : Nat
  info : String
deriving DecidableEq

/-- A rule for one smell. -/
structure Rule where
  /-- The name of the rule in messages about it. -/
  id : String
  smell : String
  description : String
  detect : Node → Facts → Except Fault (List Finding)

namespace Facts

def requireLibraries (f : Facts) : Except Fault LibraryMap :=
  match f.libraries with
  | some m => .ok m
  | none => .error (.missingKey "libraries")

/-- The name under which `library` is used, if it is imported; the libraries have to be given. -/
def aliasOf (f : Facts) (library : String) : Except Fault (Option String) := do
  return (← f.requireLibraries).nameOf? library

def requireVariables (f : Facts) : Except Fault (List String) :=
  match f.names with
  | some vs => .ok vs
  | none => .error (.missingKey "variables")

def lineText (f : Facts) (line : Nat) : String :=
  (f.lines.reverse.lookup line).getD "<Code not available>"

/-- Whether the variable `name` is known to hold a data frame. -/
def isFrame (f : Facts) (name : String) : Except Fault Bool :=
  match f.frameVariables with
  | .absent => .ok false
  | .nothing => .error .nothingToSearch
  | .value vs => .ok (vs.contains name)

def isFrameMethod (f : Facts) (name : String) : Except Fault Bool :=
  match f.frameMethods with
  | .absent => .ok false
  | .nothing => .error .nothingToSearch
  | .value ms => ms.search name

end Facts

def findAll (test : Node → Except Fault (Option Finding)) : List Node → Except Fault (List Finding)
  | [] => .ok []
  | n :: r => do
    let here ← test n
    let rest ← findAll test r
    return here.toList ++ rest

/-- The findings of a rule that applies only to programs that import `library`; `detect` gets the
name under which the library is used. -/
def whenImported (library : String) (facts : Facts)
    (detect : String → Except Fault (List Finding)) : Except Fault (List Finding) := do
  match ← facts.aliasOf library with
  | none => return []
  | some a => detect a

theorem whenImported_eq {library name : String} {facts : Facts} {libraries : LibraryMap}
    (hlibraries : facts.libraries = some libraries) (hname : libraries.nameOf? library = some name)
    (detect : String → Except Fault (List Finding)) :
    whenImported library facts detect = detect name := by
  have halias : facts.aliasOf library = .ok (libraries.nameOf? library) := by
    unfold Facts.aliasOf Facts.requireLibraries
    rw [hlibraries]
    rfl
  unfold whenImported
  rw [halias, hname]
  rfl

/-- The names of the keyword arguments of a call that are spelled out. -/
def keywordNames (keywords : List Node) : List String :=
  keywords.filterMap fun
    | .keyword _ arg _ => arg
    | _ => none

end SmellLint.Smell
