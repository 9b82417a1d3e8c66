import SmellLint.CommandLine.Options
import SmellLint.Project.Analysis

/-!
# The analysis command

What the command line of the analysis may ask for, and how it is carried out.
-/

namespace SmellLint.CommandLine

open Run

/-- What an analysis is asked to do.  A caller may leave things out; this shows when they are
needed. -/
structure Request where
  input : Given String
  output : Given String
  parallel : Given Bool
  resume : Given Bool
  maxWalkers : Given Int
  multiple : Given Bool
  callgraph : Given Bool

namespace Request

/-- A value of a request, which must not be left out. -/
def require {α : Type} (name : String) (g : Given α) : Run (Option α) :=
  match g with
  | .absent => throw (.missingArgument name)
  | .nothing => return none
  | .value a => return some a

def flagText : Option Bool → String
  | some true => "True"
  | some false => "False"
  | none => "None"

/-- Refuses a request that cannot be carried out. -/
def validate (r : Request) : Run Unit := do
  if (← require "input" r.input).isNone then
    print "Error: Please specify both input and output folders."
    throw (.exit 1)
  if (← require "parallel" r.parallel) == some true then
    match ← require "max_walkers" r.maxWalkers with
    | some n => if n ≤ 0 then throw .noWalkers
    | none => throw (.notComparable "<=" "NoneType" "int")

def describe (r : Request) : Run Unit := do
  print "Starting analysis with the following configuration:"
  let input := (← require "input" r.input).getD "None"
  print s!"Input folder: {input}"
  let output := (← require "output" r.output).getD "None"
  print s!"Output folder: {output}"
  let parallel := flagText (← require "parallel" r.parallel)
  print s!"Parallel execution: {parallel}"
  let resume := flagText (← require "resume" r.resume)
  print s!"Resume execution: {resume}"
  let walkers := ((← require "max_walkers" r.maxWalkers).map toString).getD "None"
  print s!"Max Walkers: {walkers}"
  let multiple := flagText (← require "multiple" r.multiple)
  print s!"Analyze multiple projects: {multiple}"

/-- The analysis of a request; its output folder is emptied. -/
def start (r : Request) : Run Analyzer := do
  match ← require "output" r.output with
  | some output => Analyzer.start output
  | none => throw (.notAPath "NoneType")

/-- The analysis of `input` that `r` asks for. -/
def analyze (r : Request) (a : Analyzer) (input : String) (multiple resume : Bool)
    (schedule : List String → List String := id) : Run Unit := do
  if multiple then
    if (← require "parallel" r.parallel).getD false then
      a.analyzeParallel input ((← require "max_walkers" r.maxWalkers).getD 0) schedule
    else a.analyzeSequential input resume
  else
    let total ← a.analyzeProject input
    print s!"Analysis completed. Total code smells found: {total}"

/-- What follows the analysis: the call graph and the joined tables. -/
def finish (r : Request) (a : Analyzer) (input : String) (multiple : Bool) : Run Unit := do
  if (← require "callgraph" r.callgraph).getD false then
    if multiple then
      print "Call Graph generation is not supported for multiple projects mode yet."
    else a.saveCallGraph input
  if multiple then a.mergeAll
  print "Analysis results saved successfully."

/-- Carries out a request.  `schedule` is the order in which projects that are analyzed beside each
other come to their end. -/
def execute (r : Request) (a : Analyzer) (schedule : List String → List String := id) :
    Run Unit := do
  r.validate
  r.describe
  let input := (← require "input" r.input).getD ""
  let multiple := (← require "multiple" r.multiple).getD false
  let resume := (← require "resume" r.resume).getD false
  if !resume then a.clean
  r.analyze a input multiple resume schedule
  r.finish a input multiple

/-- Prepares and carries out a request. -/
def run (r : Request) (schedule : List String → List String := id) : Run Unit := do
  let a ← r.start
  r.execute a schedule

end Request

/-- The analysis command under the name `program`. -/
def analyzeCommand (program : String) : Command where
  program := program
  description := "Code Smile: AI-specific code smells detector for Python projects."
  options := [
    ⟨"input", .text, true, "Path to the input folder"⟩,
    ⟨"output", .text, true, "Path to the output folder"⟩,
    ⟨"max_walkers", .int, false, "Number of workers for parallel execution (default: 5)"⟩,
    ⟨"parallel", .flag, false, "Enable parallel execution (default: False)"⟩,
    ⟨"resume", .flag, false, "Resume previous execution (default: False)"⟩,
    ⟨"multiple", .flag, false, "Analyze multiple projects (default: False)"⟩,
    ⟨"callgraph", .flag, false,
      "Generate call graph for the analyzed project (default: False)"⟩]

def Request.ofValues (given : Keyed Value) : Request where
  input := .value (textValue given "input")
  output := .value (textValue given "output")
  parallel := .value (isSet given "parallel")
  resume := .value (isSet given "resume")
  maxWalkers := .value (intValue given "max_walkers" 5)
  multiple := .value (isSet given "multiple")
  callgraph := .value (isSet given "callgraph")

/-- Runs the analysis command with `args`. -/
def runAnalyze (program : String) (args : List String) : Run Unit := do
  let command := analyzeCommand program
  match command.parse args with
  | .values given =>
    print "Starting Code Smile analysis..."
    (Request.ofValues given).run
  | outcome =>
    if let .help := outcome then printAll command.helpLines
    print "Error: Missing required arguments or invalid input.\n"
    printAll command.helpLines
    throw (.exit 1)

end SmellLint.CommandLine
