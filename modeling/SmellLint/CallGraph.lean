import SmellLint.Json.Encode
import SmellLint.Syntax.Grammar.Statement
import SmellLint.Syntax.Walk
import SmellLint.Workspace.Basic

/-!
# Call graphs

The functions of some files, and the calls between them.  A function is known by the dotted way to
it: the module, the definitions around it, and its name.  The first function with a way is the one
that counts.
-/

namespace SmellLint.CallGraph

open Syntax (Node)

/-- A file that is scanned; `tree?` is `none` if it cannot be read as a program. -/
structure SourceFile where
  path : String
  module : String
  package : String
  lines : List String
  tree? : Option Node

/-- A function of the graph. -/
structure Function where
  id : String
  name : String
  module : String
  package : String
  isMethod : Bool
  path : String
  startLine : Nat
  endLine : Nat
  source : String

/-- A place where a function is called. -/
structure CallSite where
  path : String
  line : Nat
  snippet : String

/-- The calls from one definition to a function. -/
structure Edge where
  source : String
  target : String
  sites : List CallSite

end CallGraph

/-- A call graph: its functions by their ways, its edges, and the functions that bare names stand
for. -/
structure CallGraph where
  functions : Keyed CallGraph.Function := .empty
  edges : List CallGraph.Edge := []
  definitions : Keyed String := .empty

namespace CallGraph

open Syntax (Node)

def empty : CallGraph := {}

/-! ## Files -/

/-- The module and package of the file at `path`, seen from the `root` of its project. -/
def moduleInfo (cwd root path : String) : String × String :=
  let relative := (Path.relative? cwd path root).getD (Path.baseName path)
  let module := Text.replaceAll (Path.splitExtension relative).1 "/" "."
  (module, (Text.splitOn '.' module).headD "")

/-- The text of `line`, trimmed; nothing if there is no such line. -/
def lineSnippet (lines : List String) (line : Int) : String :=
  if 1 ≤ line then Text.trim (lines.getD (line.toNat - 1) "") else ""

def sourceSegment (lines : List String) (first last : Int) : String :=
  if 1 ≤ first && first ≤ last && last ≤ lines.length then
    String.join ((lines.drop (first.toNat - 1)).take (last.toNat + 1 - first.toNat))
  else "Source not available"

/-- A file with the text it holds, if it could be read. -/
def SourceFile.ofText? (cwd root path : String) (text? : Option String) : SourceFile :=
  let (module, package) := moduleInfo cwd root path
  { path, module, package
    lines := Text.linesKeepingEnds (text?.getD "")
    tree? := text?.bind Node.ofSource? }

/-! ## Definitions -/

def scopeNames (scope : List Node) : List String := scope.filterMap Node.definedName?

def way (module : String) (names : List String) : String := ".".intercalate (module :: names)

def function? (file : SourceFile) (scope : List Node) (n : Node) : Option Function :=
  match n with
  | .functionDef span _ name .. =>
    some {
      id := way file.module (scopeNames scope ++ [name])
      name, module := file.module, package := file.package
      isMethod := scope.getLast?.any fun
        | .classDef .. => true
        | _ => false
      path := file.path
      startLine := span.start.line
      endLine := span.stop.line
      source := sourceSegment file.lines span.start.line span.stop.line }
  | _ => none

def SourceFile.functions (file : SourceFile) : List Function :=
  match file.tree? with
  | some tree =>
    (tree.withScopes (fun _ => true) []).filterMap fun (scope, n) => function? file scope n
  | none => []

/-- Adds a function; one that is there stays, but the name now stands for the new one. -/
def addFunction (g : CallGraph) (f : Function) : CallGraph :=
  { g with
    functions := g.functions.alter f.id fun old => old.getD f
    definitions := (g.definitions.insert f.name f.id).insert f.id f.id }

def addDefinitions (g : CallGraph) (file : SourceFile) : CallGraph :=
  file.functions.foldl addFunction g

/-! ## Calls -/

def endsIn (id names : String) : Bool := Path.endsWith id ("." ++ names)

/-- The function that the call of `name` in `module` means. -/
def resolveName (g : CallGraph) (module name : String) : Option String :=
  let here := way module [name]
  if g.functions.contains here then some here
  else
    match g.definitions.get? name with
    | some id => some id
    | none => g.functions.keys.find? fun id => endsIn id name || endsIn id (name ++ ".__init__")

def resolveAttribute (g : CallGraph) (module : String) (scope : List String) (value : Node)
    (attr : String) : Option String :=
  let own := module ++ "." ++ ".".intercalate scope.dropLast ++ "." ++ attr
  if value.nameId? == some "self" && g.functions.contains own then some own
  else
    match g.functions.keys.filter (endsIn · attr) with
    | [id] => some id
    | _ =>
      match value.nameId? with
      | some base => g.functions.keys.find? fun id => Path.endsWith id (base ++ "." ++ attr)
      | none => none

def resolveTarget (g : CallGraph) (module : String) (scope : List String) (func : Node) :
    Option String :=
  match func with
  | .name _ id => g.resolveName module id
  | .attribute _ value attr => g.resolveAttribute module scope value attr
  | _ => none

/-- Adds `site` to the edge from `source` to `target`, which may be new. -/
def addSite (source target : String) (site : CallSite) : List Edge → List Edge
  | [] => [⟨source, target, [site]⟩]
  | e :: r =>
    if e.source = source && e.target = target then { e with sites := e.sites ++ [site] } :: r
    else e :: addSite source target site r

def isCall : Node → Bool
  | .call .. => true
  | _ => false

/-- The outermost calls of a file that lie in a definition, with the names of the definitions around
them. -/
def SourceFile.calls (file : SourceFile) : List (List String × Node) :=
  match file.tree? with
  | some tree =>
    (tree.withScopes (fun n => !isCall n) []).filterMap fun (scope, n) =>
      if isCall n && !scope.isEmpty then some (scopeNames scope, n) else none
  | none => []

def addCall (g : CallGraph) (file : SourceFile) (scope : List String) (n : Node) : CallGraph :=
  match n with
  | .call _ func _ _ =>
    match g.resolveTarget file.module scope func with
    | some target =>
      if g.functions.contains target then
        let site := ⟨file.path, n.line, lineSnippet file.lines n.line⟩
        { g with edges := addSite (way file.module scope) target site g.edges }
      else g
    | none => g
  | _ => g

def addCalls (g : CallGraph) (file : SourceFile) : CallGraph :=
  file.calls.foldl (fun g (scope, n) => g.addCall file scope n) g

def addFiles (g : CallGraph) (files : List SourceFile) : CallGraph :=
  files.foldl addCalls (files.foldl addDefinitions g)

def ofFiles (files : List SourceFile) : CallGraph := empty.addFiles files

/-! ## Output -/

def Function.kind (f : Function) : String := if f.isMethod then "method" else "function"

def Function.toJson (f : Function) : Json :=
  .obj [("id", .str f.id), ("name", .str f.name), ("module", .str f.module),
    ("package", .str f.package), ("type", .str f.kind), ("file_path", .str f.path),
    ("start_line", .int f.startLine), ("end_line", .int f.endLine), ("source_code", .str f.source)]

def CallSite.toJson (s : CallSite) : Json :=
  .obj [("file_path", .str s.path), ("line", .int s.line), ("snippet", .str s.snippet)]

def Edge.toJson (e : Edge) : Json :=
  .obj [("source", .str e.source), ("target", .str e.target),
    ("call_sites", .arr (e.sites.map CallSite.toJson))]

def toJson (g : CallGraph) : Json :=
  .obj [("nodes", .arr (g.functions.values.map Function.toJson)),
    ("edges", .arr (g.edges.map Edge.toJson))]

instance : ToJson CallGraph := ⟨toJson⟩

def Function.dotLine (f : Function) : String :=
  s!"    \"{f.id}\" [label=\"{f.name}\\n({f.kind})\"];"

/-- The line for an edge in a drawing; several call sites are counted. -/
def Edge.dotLine (e : Edge) : String :=
  let count := e.sites.length
  let label := if 1 < count then s!" [label=\"{count}\"]" else ""
  s!"    \"{e.source}\" -> \"{e.target}\"{label};"

/-- The text of a drawing of the graph. -/
def dot (g : CallGraph) : String :=
  "\n".intercalate (["digraph CallGraph \x7b", "    node [shape=box];"] ++
    g.functions.values.map Function.dotLine ++ g.edges.map Edge.dotLine ++ ["\x7d"])

def isEmpty (g : CallGraph) : Bool := g.functions.isEmpty && g.edges.isEmpty

end CallGraph
end SmellLint

/-!
## Call graphs of files

The graph of files in a workspace.  Files that cannot be read add nothing.
-/

namespace SmellLint.CallGraph

def SourceFile.load (root path : String) : Run SourceFile := do
  let text ← Run.outcome (Run.readText path)
  return .ofText? (← get).cwd root path text.toOption

def loadFiles (g : CallGraph) (root : String) (paths : List String) : Run CallGraph := do
  return g.addFiles (← paths.mapM (SourceFile.load root))

end SmellLint.CallGraph
