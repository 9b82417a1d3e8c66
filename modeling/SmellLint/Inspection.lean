import SmellLint.Smell.Checker
import SmellLint.Syntax.Grammar.Statement

/-!
# Inspecting a file

A file is read, and every plain function in it is checked by all rules.  Facts about functions are
kept by the name of the function, so of several functions with one name the last one in the order of
the walk provides the facts for all of them.
-/

namespace SmellLint.Inspection

open Syntax (Node)

/-- What an inspection gives: the messages it prints, and its rows or the fault that ended it. -/
structure Outcome where
  messages : List String
  result : Except Fault (List Row)

def nodeLines (lines : List String) (tree : Node) : Except Fault (List (Nat × String)) :=
  let texts := lines.toArray
  (tree.walk.filterMap Node.line?).mapM fun line =>
    match texts[line - 1]? with
    | some text => .ok (line, text)
    | none => .error .indexOutOfRange

/-- What is known about a function: the names it binds and the data frames among them. -/
structure FunctionFacts where
  names : List String := []
  frames : List String := []

/-- What is known about `f` from its own text. -/
def FunctionFacts.ofFunction (catalogue : Catalogue) (libraries : LibraryMap) (f : Node) :
    Except Fault FunctionFacts := do
  let frames ← Frames.names catalogue.frameMethods (libraries.get? "pandas") f
  return ⟨(Bindings.definitions f).keys, frames⟩

/-- What is known about each function of `tree`, by its name. -/
def functionFacts (catalogue : Catalogue) (libraries : LibraryMap) (tree : Node) :
    Except Fault (Keyed FunctionFacts) :=
  tree.functionDefs.foldlM (fun known f => do
    let own ← FunctionFacts.ofFunction catalogue libraries f
    return known.insert f.functionName own) .empty

/-- The facts that the rules see for a function, of which `known` is known. -/
def facts (catalogue : Catalogue) (libraries : LibraryMap) (lines : List (Nat × String))
    (known : FunctionFacts) : Smell.Facts :=
  { libraries := some libraries
    lines := lines
    names := some known.names
    frameVariables := .value known.frames
    frameMethods := .value catalogue.frameMethods
    modelMethods := .value catalogue.modelMethods }

/-- Checks every plain function of `tree`. -/
def ofTree (catalogue : Catalogue) (filename source : String) (tree : Node) : Outcome :=
  let libraries := LibraryMap.ofTree tree
  let failed (messages : List String) (e : Fault) : Outcome :=
    ⟨messages ++ [s!"Unexpected error while analyzing file '{filename}': {e.message}"], .error e⟩
  match functionFacts catalogue libraries tree with
  | .error e => failed [] e
  | .ok known =>
    match tree.functionDefs, nodeLines (Text.displayLines source) tree with
    | [], _ => ⟨[], .ok []⟩
    | f :: _, .error e =>
      let name := f.functionName
      failed [s!"Error processing function '{name}' in file '{filename}': {e.message}"] e
    | functions, .ok lines =>
      let reports := functions.map fun f =>
        let own := (known.get? f.functionName).getD {}
        Smell.check filename f.functionName f (facts catalogue libraries lines own)
      ⟨reports.flatMap Prod.snd, .ok (reports.flatMap Prod.fst)⟩

def ofSource (catalogue : Catalogue) (filename source : String) : Outcome :=
  match Node.ofSource? source with
  | none =>
    ⟨[s!"Syntax error in file '{filename}': {Fault.invalidSyntax.message}"],
      .error (.inFile filename .invalidSyntax)⟩
  | some tree => ofTree catalogue filename source tree

/-- Inspects a file; `content` is what reading it as text gave. -/
def ofFile (catalogue : Catalogue) (filename : String) (content : Except Fault String) : Outcome :=
  match content with
  | .ok source => ofSource catalogue filename source
  | .error e =>
    if e.isFileNotFound then
      ⟨[s!"Error: File '{filename}' not found. {e.message}"], .error (.inFile filename e)⟩
    else ⟨[s!"Unexpected error while analyzing file '{filename}': {e.message}"], .error e⟩

end SmellLint.Inspection
