import SmellLint.Table.Join
import SmellLint.Workspace.Basic

/-!
# Files of projects

Which files of a project are analyzed, how an output folder is emptied, and how the tables of
several projects become one.
-/

namespace SmellLint.Project

/-- Takes away a file or a directory, with everything below it. -/
def removeEntry (path : String) : Run Unit := do
  -- a tree has no links, which would be taken away as files are
  if ← Run.isFile path then Run.remove path
  else if ← Run.isDir path then Run.remove path

/-- Takes away an entry of a folder with `removeEntry`, or reports why it stays. -/
def clearEntry (path : String) : Run Unit := do
  match ← Run.outcome (removeEntry path) with
  | .ok () => return ()
  | .error e => Run.print s!"Failed to delete {path}. Reason: {e.message}"

/-- Empties `folder` below `path`, or makes it.  `listing` is the order in which the entries of the
folder are listed. -/
def cleanDirectory (path : String) (folder : String)
    (listing : List String → List String := id) : Run String := do
  let target := Path.join path folder
  if ← Run.exists? target then
    (listing (← Run.listDir target)).forM fun name => clearEntry (Path.join target name)
  else Run.makeNewDirs target
  return target

def outputFolder : String := "output"

/-- Directories that are left out of an analysis. -/
def isSkippedDir (name : String) : Bool := name == "venv" || name == "lib"

def isSource (name : String) : Bool := Path.endsWith name ".py"

/-- The files that are analyzed for `path`: `path` itself if it is such a file, else all of them
below it. -/
def sourceFiles (path : String) : Run (List String) := do
  if isSource path && (← Run.isFile path) then return [path]
  let visits ← Run.visits path fun name => !isSkippedDir name
  let cwd := (← get).cwd
  return visits.flatMap fun v =>
    (v.files.filter isSource).map fun name =>
      Path.absolute cwd (Path.joinAll path (v.way ++ [name]))

def filesBelow (path : String) : Run (List String) := do
  return (← Run.visits path fun _ => true).flatMap fun v =>
    v.files.map fun name => Path.joinAll path (v.way ++ [name])

/-- Reads a table; what cannot be read or has no rows is reported and left out. -/
def readResults (path : String) : Run (Option Table) := do
  let table : Run Table := do Run.lift (Table.read (← Run.readRawText path))
  match ← Run.outcome table with
  | .ok t =>
    if t.height = 0 then
      Run.print s!"Skipping empty CSV: {path}"
      return none
    else return some t
  | .error e =>
    Run.print s!"Failed to read {path}: {e.message}"
    return none

/-- Saves `tables` as one table below `output`, if there are any. -/
def saveMerged (output : String) (tables : List Table) : Run Unit := do
  if tables.isEmpty then Run.print "No valid CSV files found to merge."
  else
    Run.makeDirs output
    Run.writeText (Path.join output "overview.csv") (Table.concat tables).toCsv
    Run.print s!"Merged results saved to {output}/overview.csv"

/-- Joins all tables below `path` into one below `output`. -/
def mergeResults (path output : String) : Run Unit := do
  Run.print s!"Looking for CSV files in directory: {path}"
  let paths := (← filesBelow path).filter (Path.endsWith · ".csv")
  saveMerged output ((← paths.mapM readResults).filterMap id)

end SmellLint.Project

/-!
## Execution logs

A log has one line for each project that has been analyzed.
-/

namespace SmellLint.Project.Log

def start (path : String) : Run Unit := do
  Run.writeText path ""
  Run.print s!"Execution log initialized: {path}"

def append (path name : String) : Run Unit := do
  Run.appendText path (name ++ "\n")
  Run.print s!"Appended to log: {name}"

/-- Adds the project `name` while others may be adding theirs. -/
def appendLocked (path name : String) : Run Unit := do
  Run.appendText path (name ++ "\n")
  Run.print s!"Thread-safe appended to log: {name}"

def lastLine (text : String) : String :=
  ((Text.linesKeepingEnds text).getLast?.map Text.trim).getD ""

/-- The project that was added last; none if there is no log. -/
def last (path : String) : Run String := do
  match ← Run.outcome (Run.readText path) with
  | .ok text => return lastLine text
  | .error e => if e.isFileNotFound then return "" else throw e

end SmellLint.Project.Log
