import SmellLint.CallGraph
import SmellLint.Inspection
import SmellLint.Project.Files

/-!
# Analyzing projects

One project, or all projects of a folder, are inspected file by file.  A file that is missing or is
no program is noted and left out; any other failure ends the project it happens in.
-/

namespace SmellLint

open Run Path

def Row.columnNames : List String :=
  ["filename", "function_name", "smell_name", "line", "description", "additional_info"]

def Row.fields (r : Row) : List String :=
  [r.filename, r.functionName, r.smell, toString r.line, r.description, r.info]

def Row.records (rows : List Row) : List String :=
  Csv.recordText Row.columnNames :: rows.map fun r => Csv.recordText r.fields

def Row.toCsv (rows : List Row) : String := String.join (Row.records rows)

/-- An analysis with its output folder. -/
structure Analyzer where
  output : String
  catalogue : Catalogue := .shipped

namespace Analyzer

def clean (a : Analyzer) (listing : List String → List String := id) : Run Unit := do
  let _ ← Project.cleanDirectory a.output Project.outputFolder listing

def start (output : String) (listing : List String → List String := id) : Run Analyzer := do
  let a : Analyzer := { output }
  a.clean listing
  return a

def inspect (a : Analyzer) (path : String) : Run (List Row) := do
  let content ← outcome (readText (absolute (← get).cwd path))
  let outcome := Inspection.ofFile a.catalogue path content
  printAll outcome.messages
  lift outcome.result

def errorPath (a : Analyzer) : String := join a.output "error.txt"

def failureRecord (path : String) (e : Fault) : String := s!"Error in file {path}: {e.message}\n"

def noteFailure (a : Analyzer) (path : String) (e : Fault) : Run Unit := do
  makeDirs a.output
  appendText a.errorPath (failureRecord path e)
  print s!"Error analyzing file: {path} - {e.message}"

/-- Inspects one file with `inspect`; a file that is missing or is no program has no rows. -/
def inspectNoted (a : Analyzer) (path : String) : Run (List Row) := do
  match ← outcome (a.inspect path) with
  | .ok rows =>
    if !rows.isEmpty then print s!"Found {rows.length} code smells in file: {path}"
    return rows
  | .error (.inFile file cause) =>
    a.noteFailure path (.inFile file cause)
    return []
  | .error e => throw e

def inspectAll (a : Analyzer) (paths : List String) : Run (List Row) := do
  return (← paths.mapM a.inspectNoted).flatten

/-- The path of the table of all rows. -/
def overviewPath (a : Analyzer) : String := join a.output "overview.csv"

/-- Saves `rows` at `overviewPath`, if there are any. -/
def saveOverview (a : Analyzer) (rows : List Row) : Run Unit := do
  if rows.isEmpty then print "No results to save for overview.csv"
  else
    makeDirs a.output
    writeTexts a.overviewPath (Row.records rows)
    print s!"Results saved to {a.overviewPath}"

/-- Reports the end of the analysis of the project at `path`. -/
def reportProject (path : String) (rows : List Row) : Run Nat := do
  let name := baseName (normalize path)
  print s!"Finished analysis for project: {name}"
  print s!"Total code smells found in project '{name}': {rows.length}\n"
  return rows.length

def analyzeProject (a : Analyzer) (path : String) : Run Nat := do
  print s!"Starting analysis for project: {Path.baseName (Path.normalize path)}"
  let files ← Project.sourceFiles path
  if files.isEmpty then throw (.noSourceFiles path)
  let rows ← a.inspectAll files
  a.saveOverview rows
  reportProject path rows

/-- Inspects the project `name` of `base`, saves its rows and gives their number. -/
def analyzeMember (a : Analyzer) (base name : String) : Run Nat := do
  let rows ← a.inspectAll (← Project.sourceFiles (join base name))
  if !rows.isEmpty then
    let details := join a.output "project_details"
    makeDirs details
    let target := join details s!"{name}_results.csv"
    writeTexts target (Row.records rows)
    print s!"Detailed results saved to {target}"
  return rows.length

def logPath (base : String) : String := join base "execution_log.txt"

/-- Whether the entry `name` of `base` is a project. -/
def isMember (base name : String) : Run Bool := do
  if name == "output" || name == "execution_log.txt" then return false
  isDir (join base name)

/-- Reports that the project `name` could not be analyzed. -/
def reportFailure (name : String) (e : Fault) : Run Unit :=
  print s!"Error analyzing project '{name}': {e.message}\n"

/-- Does `work` on the project `name`, adds the project to the log and gives the number of its
smells; a project that fails has none and is not logged. -/
def conclude (name : String) (work : Run Nat) (log : Run Unit) : Run Nat := do
  match ← outcome work with
  | .error e =>
    reportFailure name e
    return 0
  | .ok count =>
    match ← outcome log with
    | .ok () => return count
    | .error e =>
      reportFailure name e
      return count

def analyzeInTurn (a : Analyzer) (base name : String) : Run Nat := do
  print s!"Analyzing project '{name}' sequentially..."
  let work : Run Nat := do
    let count ← a.analyzeMember base name
    print s!"Project '{name}' analyzed successfully.Code smells found: {count}\n"
    return count
  conclude name work (Project.Log.append (logPath base) name)

/-- Makes `base` if it is missing. -/
def ensureBase (base : String) : Run Unit := do
  if !(← exists? base) then makeNewDirs base

/-- Prepares the log for `analyzeSequential` and gives the project that was logged last; an analysis
that does not `resume` starts a new log. -/
def prepareLog (base : String) (resume : Bool) : Run String := do
  ensureBase base
  if resume then Project.Log.last (logPath base)
  else
    Project.Log.start (logPath base)
    return ""

/-- The turn of the entry `name` of `base`, which gives the number of smells.  If the analysis is to
`resume`, the entries up to `last` are left out. -/
def takeTurn (a : Analyzer) (base : String) (resume : Bool) (last name : String) : Run Nat := do
  if resume && name ≤ last then return 0
  if ← isMember base name then a.analyzeInTurn base name else return 0

/-- The text that tells how many smells all projects have. -/
def totalText (counts : List Nat) : String :=
  s!"Total code smells found in all projects: {counts.foldr (· + ·) 0}\n"

/-- Reports the end of an analysis of all projects. -/
def reportTotal (kind : String) (counts : List Nat) : Run Unit := do
  print s!"{kind} execution completed in {(← get).elapsed} seconds."
  print (totalText counts)

/-- Analyzes the projects of `base` one after the other.  `listing` is the order in which the
entries of `base` are listed. -/
def analyzeSequential (a : Analyzer) (base : String) (resume : Bool)
    (listing : List String → List String := id) : Run Unit := do
  let last ← prepareLog base resume
  let counts ← (listing (← listDir base)).mapM (a.takeTurn base resume last)
  reportTotal "Sequential" counts

/-- Prepares the log for `analyzeParallel`; a log that is there is kept. -/
def keepLog (base : String) : Run Unit := do
  ensureBase base
  if !(← exists? (logPath base)) then Project.Log.start (logPath base)

def analyzeBeside (a : Analyzer) (base name : String) : Run Nat := do
  if !(← isMember base name) then return 0
  print s!"Analyzing project '{name}' in parallel..."
  conclude name (a.analyzeMember base name) (Project.Log.appendLocked (logPath base) name)

/-- Analyzes the projects of `base` beside each other.  `schedule` is the order in which the entries
of `base` come to their end. -/
def analyzeParallel (a : Analyzer) (base : String) (workers : Int)
    (schedule : List String → List String := id) : Run Unit := do
  keepLog base
  if workers ≤ 0 then throw .noWorkers
  let counts ← (schedule (← listDir base)).mapM (a.analyzeBeside base)
  reportTotal "Parallel" counts

/-- Joins the results of all projects. -/
def mergeAll (a : Analyzer) : Run Unit :=
  Project.mergeResults (join a.output "project_details") a.output

def saveCallGraph (a : Analyzer) (path : String) : Run Unit := do
  print s!"Generating call graph for project: {path}"
  let graph ← CallGraph.empty.loadFiles path (← Project.sourceFiles path)
  let target := join a.output "call_graph.json"
  makeDirs a.output
  writeText target (graph.toJson.pretty 0)
  print s!"Call graph saved to {target}"
  let drawing := join a.output "call_graph.dot"
  writeText drawing graph.dot
  print s!"Call graph DOT saved to {drawing}"

end Analyzer
end SmellLint
