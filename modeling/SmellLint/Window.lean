import SmellLint.CommandLine.Analyze

/-!
# The window

A window in which folders are chosen and an analysis is started.  Whatever an analysis prints goes
to a text box that cannot be edited.
-/

namespace SmellLint

/-- What an analysis is asked to do from the window. -/
structure WindowRequest where
  input : String
  output : String
  walkers : Int
  parallel : Bool
  resume : Bool
  multiple : Bool

namespace WindowRequest

/-- Carries out a request.  `schedule` is the order in which projects that are analyzed beside each
other come to their end. -/
def perform (r : WindowRequest) (schedule : List String → List String := id) : Run Unit := do
  let a ← Analyzer.start r.output
  if !r.resume then a.clean
  if r.multiple then
    Run.print "Analyzing project(s)..."
    if r.parallel then a.analyzeParallel r.input r.walkers schedule
    else a.analyzeSequential r.input r.resume
    a.mergeAll
  else
    let total ← a.analyzeProject r.input
    Run.print s!"Analysis completed. Total code smells found: {total}"

/-- Describes a request and carries it out; a failure is only reported. -/
def run (r : WindowRequest) (schedule : List String → List String := id) : Run Unit := do
  Run.print s!"Input Path: {r.input}"
  Run.print s!"Output Path: {r.output}"
  Run.print s!"Number of Walkers: {r.walkers}"
  let parallel := CommandLine.Request.flagText (some r.parallel)
  Run.print s!"Parallel Execution: {parallel}"
  let resume := CommandLine.Request.flagText (some r.resume)
  Run.print s!"Resume Execution: {resume}"
  let multiple := CommandLine.Request.flagText (some r.multiple)
  Run.print s!"Analyze multiple projects: {multiple}"
  match ← Run.outcome (r.perform schedule) with
  | .ok () => return ()
  | .error e => Run.print s!"An error occurred during analysis: {e.message}"

end WindowRequest

/-- The state of the window. -/
structure Window where
  input : Option String := none
  output : Option String := none
  walkers : String := "1"
  parallel : Bool := false
  resume : Bool := false
  multiple : Bool := false

namespace Window

/-- What a label shows while nothing is chosen. -/
def noPath : String := "No path selected"

def labelText (path? : Option String) : String := path?.getD noPath

/-- A chosen folder; choosing nothing keeps `old`. -/
def choose (old : Option String) (path : String) : Option String :=
  if path.isEmpty then old else some path

/-- Starts an analysis if both folders are chosen. -/
def run (w : Window) : Run Unit := do
  let input := labelText w.input
  let output := labelText w.output
  if input == noPath || output == noPath then
    Run.print "Error: Please select valid input and output paths."
  else
    match Text.readInt w.walkers with
    | .error fault => throw (.ofIntegerFault w.walkers fault)
    | .ok walkers =>
      ({ input, output, walkers, parallel := w.parallel, resume := w.resume,
         multiple := w.multiple } : WindowRequest).run

/-- What happens to the text box when `text` is shown: it is made editable for as long as it takes
to add `text`, and scrolled to its end. -/
def showEvents (text : String) : List String :=
  ["state normal", s!"insert end {Text.quoted text}", "state disabled", "see end"]

def keyPress : String := "break"

end Window
end SmellLint
