import SmellLint.Project.Files
import SmellLint.Syntax.Grammar.Statement
import SmellLint.Syntax.Walk
import SmellLint.Workspace.Stored

/-!
# Collecting functions

Functions that have to do with machine learning are collected from the files of repositories.  A
file counts if it imports one of the libraries, or calls something that only they have.  A plain
function counts if its own text uses a library and names something typical of machine learning.
-/

namespace SmellLint

open Syntax (Node)

structure FoundFunction where
  name : String
  code : String
  path : String
deriving Inhabited, DecidableEq

namespace FoundFunction

def toJson (f : FoundFunction) : Json :=
  .obj [("function_name", .str f.name), ("code", .str f.code), ("file_path", .str f.path)]

instance : ToJson FoundFunction := ⟨toJson⟩

end FoundFunction

namespace Functions

def usualLibraries : List String := ["pandas", "numpy", "torch", "tensorflow", "sklearn"]

/-! ## Files -/

/-- The libraries that a statement imports. -/
def importedBy : Node → List String
  | .importStmt _ names =>
    names.filterMap fun
      | .alias _ name _ => some name
      | _ => none
  | .importFrom _ (some library) _ _ => if library.isEmpty then [] else [library]
  | _ => []

/-- Calls that only programs for machine learning have. -/
def typicalCalls : List String :=
  ["tf.function", "torch.nn.module", "keras.layers", "sklearn.metrics"]

/-- Whether a node calls an operation that only programs for machine learning have. -/
def isTypicalCall : Node → Bool
  | .call _ (.attribute _ (.name _ id) attr) _ _ => typicalCalls.contains (id ++ "." ++ attr)
  | _ => false

/-- Whether `tree` has to do with machine learning. -/
def isRelevant (libraries : List String) (tree : Node) : Bool :=
  let imported := tree.walk.flatMap importedBy
  libraries.any (fun library => imported.any fun name => Text.contains name library) ||
    tree.walk.any isTypicalCall

/-- Whether the file at `path` has to do with machine learning; one that cannot be read as a program
has not. -/
def isRelevantFile (libraries : List String) (path : String) : Run Bool := do
  match ← Run.outcome (Run.readText path) with
  | .error _ => return false
  | .ok source =>
    if Text.isBlankText source then return false
    return (Node.ofSource? source).any (isRelevant libraries)

/-! ## Functions -/

/-- Names that are typical of machine learning. -/
def keywords : List String :=
  ["fit", "predict", "transform", "train", "evaluate", "model", "loss", "optimizer", "dataset",
   "dataloader", "backpropagation", "gradient", "epoch", "Sequential", "nn.Module", "optim",
   "sklearn", "metrics", "layers", "cross_val_score"]

/-- The name that a node brings up: of a call the operation that is called. -/
def namedBy? : Node → Option String
  | .call _ (.name _ id) _ _ => some id
  | .call _ (.attribute _ _ attr) _ _ => some attr
  | .call .. => none
  | .name _ id => some id
  | .attribute _ _ attr => some attr
  | _ => none

/-- Whether `code` names one of the `keywords`. -/
def hasKeyword (code : String) : Bool :=
  (Node.ofSource? code).any fun tree =>
    tree.walk.any fun n => (namedBy? n).any keywords.contains

/-- The name on which a node calls or takes something. -/
def usedBy? : Node → Option String
  | .call _ (.attribute _ (.name _ id) _) _ _ => some id
  | .call _ (.name _ id) _ _ => some id
  | .call .. => none
  | .attribute _ (.name _ id) _ => some id
  | _ => none

/-- What local names were imported from. -/
abbrev Aliases := Keyed (Option String)

def libraryNames (libraries : List String) (aliases : Aliases) : List String :=
  libraries ++ aliases.values.filterMap id

def usesLibrary (libraries : List String) (aliases : Aliases) (code : String) : Bool :=
  (Node.ofSource? code).any fun tree =>
    tree.walk.any fun n => (usedBy? n).any (libraryNames libraries aliases).contains

/-- Notes the local name of an imported one. -/
def noteAlias (origin : String → Option String) (aliases : Aliases) : Node → Aliases
  | .alias _ name asName =>
    let localName := match asName with
      | some s => s
      | none => name
    aliases.insert localName (origin name)
  | _ => aliases

def noteImports (aliases : Aliases) : Node → Aliases
  | .importStmt _ names => names.foldl (noteAlias some) aliases
  | .importFrom _ library names _ => names.foldl (noteAlias fun _ => library) aliases
  | _ => aliases

/-- The functions found so far, and the imports met so far. -/
structure Progress where
  aliases : Aliases := .empty
  found : List FoundFunction := []

def visit (libraries : List String) (path source : String) (p : Progress) (n : Node) : Progress :=
  let aliases := noteImports p.aliases n
  match n with
  | .functionDef span false name .. =>
    let code := span.cut source
    if usesLibrary libraries aliases code && hasKeyword code then
      { aliases, found := p.found ++ [{ name, code, path }] }
    else { p with aliases }
  | _ => { p with aliases }

/-- The functions of `tree` that have to do with machine learning.  A function sees the imports that
come before it in the order of the walk. -/
def ofTree (libraries : List String) (path source : String) (tree : Node) : List FoundFunction :=
  (tree.walk.foldl (visit libraries path source) {}).found

/-- The functions of a file that have to do with machine learning; a file that cannot be read as a
program has none.  `decode` finds out how the bytes of a file spell a text. -/
def ofFile (libraries : List String) (path : String)
    (decode : Content → Except Fault String := Content.rawText) : Run (List FoundFunction) := do
  match ← Run.outcome (Run.readWith decode path) with
  | .error _ => return []
  | .ok source =>
    match Node.ofSource? source with
    | none => return []
    | some tree => return ofTree libraries path source tree

/-! ## Repositories -/

def programFiles (folder : String) : Run (List String) := do
  return (← Project.filesBelow folder).filter Project.isSource

/-- The functions below `folder` that have to do with machine learning. -/
def below (libraries : List String) (folder : String)
    (decode : Content → Except Fault String := Content.rawText) : Run (List FoundFunction) := do
  let files ← (← programFiles folder).filterM (isRelevantFile libraries)
  return (← files.mapM fun path => ofFile libraries path decode).flatten

/-- What is kept of a stored function. -/
def storedForm (j : Json) : Except Fault Json := do
  let name ← j.member "function_name"
  let code ← j.member "code"
  let path ← j.member "file_path"
  return .obj [("function_name", name), ("code", code), ("file_path", path)]

def save (path : String) (functions : Json) : Run Unit := do
  let items ← Run.lift (do (← functions.each).mapM storedForm)
  Run.writeJson path (.arr items)

end Functions
end SmellLint
