import SmellLint.Project.Analysis
import SmellLint.Service.Checked

/-!
# Analyses

## Placing a graph

A graph is made of files at temporary places.  Before it is sent, its paths are replaced: by the way
from the folder that was analyzed, or by the name that the file had where it came from.
-/

namespace SmellLint.Service

open Run Path

/-- How paths are shown. -/
structure Placement where
  /-- The working directory. -/
  cwd : String
  /-- The folder that paths are shown from; an empty one stands for none. -/
  root : String
  /-- The name that files get; an empty one stands for none. -/
  name : String

namespace Placement

/-- Whether `path` lies in the folder, by its text. -/
def covers (p : Placement) (path : String) : Bool :=
  !p.root.isEmpty && (Text.dropStart? p.root.toList path.toList).isSome

def shown (p : Placement) (path : String) : String :=
  if p.covers path then
    let way := (relative? p.cwd path p.root).getD path
    if !p.name.isEmpty && way == baseName path then p.name else way
  else path

def showPath (p : Placement) (members : List (String × Json)) : List (String × Json) :=
  match members.lookup "file_path" with
  | some (.str path) =>
    if p.covers path then Json.setMember members "file_path" (.str (p.shown path)) else members
  | _ => members

def moduleName (name : String) : String := Text.replaceAll name ".py" ""

/-- Shows a function; a given name is also the name of its module and package. -/
def showNode (p : Placement) : Json → Json
  | .obj members =>
    let members := p.showPath members
    if p.name.isEmpty then .obj members
    else
      let own := moduleName p.name
      .obj ([("file_path", p.name), ("package", own), ("module", own)].foldl
        (fun ms (k, v) => Json.setMember ms k (.str v)) members)
  | j => j

def mapMember (key : String) (f : Json → Json) : Json → Json
  | .obj members => .obj (members.map fun (k, v) => if k = key then (k, f v) else (k, v))
  | j => j

/-- Applies `f` to the items of an array. -/
def mapItems (f : Json → Json) : Json → Json
  | .arr items => .arr (items.map f)
  | j => j

def showSite (p : Placement) : Json → Json
  | .obj members => .obj (p.showPath members)
  | j => j

def showGraph (p : Placement) (graph : Json) : Json :=
  let graph := mapMember "nodes" (mapItems p.showNode) graph
  mapMember "edges" (mapItems (mapMember "call_sites" (mapItems p.showSite))) graph

end Placement

/-!
## Analysis on request

Programs that come with a request are written to temporary files and inspected there.  A snippet
gives its smells; with a call graph, a snippet, a file or a whole folder can be analyzed.
-/

/-- A smell in an answer. -/
structure SmellRecord where
  functionName : String
  line : Nat
  smell : String
  description : String
  info : String
  file : Option String := none
  filename : Option String := none

namespace SmellRecord

def ofRow (r : Row) : SmellRecord :=
  { functionName := r.functionName, line := r.line, smell := r.smell
    description := r.description, info := r.info }

def toJson (s : SmellRecord) : Json :=
  .obj [("function_name", .str s.functionName), ("line", .int s.line), ("smell_name", .str s.smell),
    ("description", .str s.description), ("additional_info", .str s.info),
    ("file", Json.ofString? s.file), ("filename", Json.ofString? s.filename)]

end SmellRecord

/-- The inspection that requests are answered with. -/
def analyzer : Analyzer := { output := "output" }

/-- A temporary file with a program.  Without a program there is nothing to write, but the name of
the file is used up. -/
def programFile : Option String → Run String
  | some code => tempTextFile ".py" code
  | none => do
    let _ ← tempTextFile ".py" ""
    throw .nothingToWrite

/-! ### Snippets -/

/-- What the analysis of a snippet gives. -/
inductive SnippetReport where
  | smells (found : List SmellRecord)
  | nothingFound
  | failed (message : String)

namespace SnippetReport

/-- Whether the analysis went through. -/
def success : SnippetReport → Bool
  | .failed _ => false
  | _ => true

def response : SnippetReport → Json
  | .smells found => .arr (found.map SmellRecord.toJson)
  | .nothingFound => .str "Static analysis returned no data"
  | .failed message => .str message

end SnippetReport

instance : ToJson SnippetReport where
  toJson r := .obj [("success", .bool r.success), ("response", r.response)]

def analyzeSnippet (code : Option String) : Run SnippetReport := do
  let work : Run SnippetReport := do
    let path ← programFile code
    let rows ← analyzer.inspect path
    if rows.isEmpty then return .nothingFound
    remove path
    return .smells (rows.map SmellRecord.ofRow)
  match ← outcome work with
  | .ok report => return report
  | .error e => return .failed e.message

/-! ### Programs with their call graphs -/

/-- The smells of the program `code`; one that cannot be analyzed has none. -/
def smellsOf (code : Option String) : Run (List SmellRecord) := do
  let work : Run (List SmellRecord) := do
    let path ← programFile code
    let rows ← analyzer.inspect path
    remove path
    return rows.map SmellRecord.ofRow
  match ← outcome work with
  | .ok found => return found
  | .error e =>
    print s!"Smell detection error: {e.message}"
    return []

/-- Smells and a call graph. -/
structure GraphReport where
  smells : List SmellRecord
  graph : Option Json

def GraphReport.toJson (r : GraphReport) : Json :=
  .obj [("success", .bool true), ("response", .arr (r.smells.map SmellRecord.toJson)),
    ("call_graph", r.graph.getD .null)]

instance : ToJson GraphReport := ⟨GraphReport.toJson⟩

/-- The call graph of the files `paths` below `root`; without files there is none.  An empty `root`
stands for the folder that the first file lies in. -/
def graphOf (root : String) (paths : List String) (name : String) : Run (Option Json) := do
  match paths with
  | [] => return none
  | first :: _ =>
    let root := if root.isEmpty then dirName first else root
    let graph ← CallGraph.empty.loadFiles root paths
    let placement : Placement := ⟨(← get).cwd, root, name⟩
    return some (placement.showGraph graph.toJson)

/-- Analyzes the file `path` of `root`: its smells are marked with the way to it. -/
def smellsInFolder (root path : String) : Run (List SmellRecord) := do
  let found ← smellsOf (some (← readText path))
  let way := relative? (← get).cwd path root
  return found.map fun s => { s with file := way }

/-- The program `name` of the folder at `way` below `root`, with its smells. -/
def programIn (root : String) (way : List String) (name : String) :
    Run (String × List SmellRecord) := do
  let path := joinAll root (way ++ [name])
  return (path, ← smellsInFolder root path)

/-- The programs in a folder and below it, each with its smells.  A folder is looked into when it is
come to, so that what is written on the way can still be met.  The fuel bounds the number of folders
on the way. -/
def programsBelow (root : String) : Nat → List String → Run (List (String × List SmellRecord))
  | 0, _ => return []
  | fuel + 1, way => do
    match ← dirAt? (joinAll root way) with
    | some place =>
      let tree := (← get).tree
      let names := (tree.fileNames place).filter (endsWith · ".py")
      let programs ← names.mapM (programIn root way)
      let below ← (tree.dirNames place).mapM fun name => programsBelow root fuel (way ++ [name])
      return programs ++ below.flatten
    | none => return []

def analyzeFolder (root : String) : Run GraphReport := do
  let programs ← programsBelow root ((← get).tree.entries.length + 1) []
  return ⟨programs.flatMap Prod.snd, ← graphOf root (programs.map Prod.fst) ""⟩

/-- Analyzes the program `code`, which lies at `path` and was called `name` where it came from. -/
def analyzeFile (code : Option String) (path name : String) : Run GraphReport := do
  let smells ← smellsOf code
  return ⟨smells, ← graphOf (dirName path) [path] name⟩

def analyzeSnippetGraph (code : Option String) : Run GraphReport := do
  let smells ← smellsOf code
  match ← outcome (programFile code) with
  | .error e =>
    print s!"Error creating temp file for snippet graph: {e.message}"
    return ⟨smells, none⟩
  | .ok path =>
    let graph ← graphOf (dirName path) [path] ""
    remove path
    return ⟨smells, graph⟩

/-! ### Requests -/

structure SnippetRequest where
  code : String
  withGraph : Bool

def SnippetRequest.read : Reader SnippetRequest :=
  recordValue fun members =>
    Checked.app
      ((required members "code_snippet" textValue).map SnippetRequest.mk)
      (optional members "include_call_graph" false flagValue)

def detectSmells (request : SnippetRequest) : Run Json := do
  let report ← analyzeSnippet (some request.code)
  return .obj [("success", .bool report.success), ("smells", report.response)]

/-- What an uploaded file holds. -/
inductive UploadContent where
  | plain (content : Content)
  | archive (members : List (String × Content))

/-- An uploaded file. -/
structure Upload where
  name : String
  content : UploadContent

def Upload.stored (u : Upload) : Content :=
  match u.content with
  | .plain c => c
  | .archive _ => .text ""

/-- Unpacks `members` into `root`.  Names that would lead out of `root` are left out of the way, and
a null character ends the way. -/
def unpack (root : String) (members : List (String × Content)) : Run Unit :=
  members.forM fun (way, content) => do
    let name := String.ofList (way.toList.takeWhile (· != '\x00'))
    let names := (Text.splitOn '/' name).filter fun n => !(["", ".", ".."].contains n)
    let target := joinAll root names
    if !(← exists? (dirName target)) then makeNewDirs (dirName target)
    if endsWith name "/" then
      if !(← isDir target) then makeDir target
    else writeContent target content

def graphAnswer (success : Bool) (smells : Option (List SmellRecord)) (graph : Option Json) :
    Json :=
  .obj [("success", .bool success),
    ("smells", match smells with
      | some found => .arr (found.map SmellRecord.toJson)
      | none => .null),
    ("call_graph", graph.getD .null)]

def mapNodePaths (f : String → String) (graph : Json) : Json :=
  Placement.mapMember "nodes" (Placement.mapItems
    (Placement.mapMember "file_path" fun j => .str (f (j.str?.getD "")))) graph

def detectInArchive (u : Upload) : Run Json := do
  let root ← tempPath ""
  makeDir root
  let work : Run Json := do
    match u.content with
    | .plain _ => throw .notAnArchive
    | .archive members =>
      unpack root members
      let report ← analyzeFolder root
      return graphAnswer true (some report.smells) report.graph
  andFinally work (remove root)

/-- Analyzes the program `u`, which is stored at `path`. -/
def detectInFile (u : Upload) (path : String) : Run Json := do
  let code ← readText path
  let report ← analyzeFile (some code) path u.name
  let smells := report.smells.map fun s => { s with file := some u.name, filename := some u.name }
  let shown (p : String) : String := if p == path then u.name else baseName p
  return graphAnswer true (some smells) (report.graph.map (mapNodePaths shown))

def detectInUpload (u : Upload) : Run Json := do
  let path ← tempFile (suffix u.name) u.stored
  let work := if endsWith u.name ".zip" then detectInArchive u else detectInFile u path
  andFinally work (remove path)

/-- Answers a request for smells with a call graph: of `file`, or else of a `snippet` that is not
empty. -/
def detectCallGraph (file : Option Upload) (snippet : Option String) : Run Json := do
  match file, snippet.filter (!·.isEmpty) with
  | some u, _ => detectInUpload u
  | none, some code =>
    let report ← analyzeSnippetGraph (some code)
    return graphAnswer true (some report.smells)
      (report.graph.map (mapNodePaths fun _ => "snippet.py"))
  | none, none => return graphAnswer false none none

end SmellLint.Service
