import SmellLint.Dataset.Sample
import SmellLint.Listing
import SmellLint.Project.Analysis
import SmellLint.Workspace.Stored

/-!
# Labelling functions

The functions of a dataset get the labels of the smells that an inspection of their files finds.
Each file is inspected once.  Functions without smells and functions with smells are stored apart.
-/

namespace SmellLint

/-- A labelling with its output folder, the files inspected so far, and the samples so far. -/
structure Labelling where
  output : String
  inspected : Keyed (List Row) := .empty
  clean : List (Sample String) := []
  smelly : List (Sample String) := []

namespace Labelling

def start (output : String) : Run Labelling := do
  Run.makeDirs output
  return { output }

/-- The rows of `function`.  A list of functions is compared with the rows one by one. -/
def rowsOfFunction (rows : List Row) (function : Json) : Except Fault (List Row) :=
  let isOf (r : Row) (j : Json) : Bool := some r.functionName == j.str?
  match function with
  | .arr names =>
    if rows.length = names.length then
      .ok (((rows.zip names).filter fun (r, name) => isOf r name).map Prod.fst)
    else .error (.unequalLengths rows.length names.length)
  | j => .ok (rows.filter fun r => isOf r j)

def labelsOf (rows : List Row) : List String :=
  match (rows.map Row.smell).eraseDups with
  | [] => [Label.clean]
  | names => names.map Label.readable

/-- The rows of the file at `path`; none if it cannot be inspected.  A file is inspected again only
if that failed. -/
def rowsOf (l : Labelling) (path : Atom) : Run (Labelling × Option (List Row)) := do
  match path with
  | .text path =>
    match l.inspected.get? path with
    | some rows => return (l, some rows)
    | none =>
      let analyzer : Analyzer := { output := l.output }
      match ← Run.outcome (analyzer.inspect path) with
      | .error _ => return (l, none)
      | .ok rows => return ({ l with inspected := l.inspected.insert path rows }, some rows)
  | _ => return (l, none)

/-- The sample that the stored function `entry` becomes, by the `rows` of its file. -/
def sampleOf (entry : Json) (rows : List Row) : Except Fault (Sample String) := do
  let own ← rowsOfFunction rows (← entry.member "function_name")
  let code ← entry.member "code"
  return { code, labels := labelsOf own }

/-- Labels one function; there is no sample if its file cannot be inspected. -/
def label (l : Labelling) (entry : Json) :
    Run (Labelling × Except Fault (Option (Sample String))) := do
  match entry.member "file_path" >>= Atom.ofJson with
  | .error e => return (l, .error e)
  | .ok path =>
    match ← l.rowsOf path with
    | (l, none) => return (l, .ok none)
    | (l, some rows) => return (l, (sampleOf entry rows).map some)

/-- Labels functions in turn up to the first fault; the files inspected until then stay known. -/
def labelUntilFault (l : Labelling) :
    List Json → Run (Labelling × Except Fault (List (Option (Sample String))))
  | [] => return (l, .ok [])
  | entry :: rest => do
    match ← l.label entry with
    | (l, .error e) => return (l, .error e)
    | (l, .ok sample) =>
      let (l, others) ← l.labelUntilFault rest
      return (l, others.map (sample :: ·))

def labelEach (l : Labelling) :
    List Json → Run (Labelling × List (Except Fault (Option (Sample String))))
  | [] => return (l, [])
  | entry :: rest => do
    let (l, first) ← l.label entry
    let (l, others) ← l.labelEach rest
    return (l, first :: others)

def add (l : Labelling) (s : Sample String) : Labelling :=
  if s.labels.contains Label.clean then { l with clean := l.clean ++ [s] }
  else { l with smelly := l.smelly ++ [s] }

/-- Adds what came of the functions.  A function that could not be labelled is left out, but it has
to say what it is. -/
def addAll (l : Labelling) :
    List (Json × Except Fault (Option (Sample String))) → Labelling × Except Fault Unit
  | [] => (l, .ok ())
  | (_, .ok (some s)) :: rest => (l.add s).addAll rest
  | (_, .ok none) :: rest => l.addAll rest
  | (entry, .error _) :: rest =>
    match (do let _ ← entry.member "function_name"; entry.member "file_path") with
    | .ok _ => l.addAll rest
    | .error e => (l, .error e)

def save (l : Labelling) : Run Unit := do
  Run.writeJson (Path.join l.output "clean_functions.json") (Sample.listToJson l.clean)
  Run.writeJson (Path.join l.output "smelly_functions.json") (Sample.listToJson l.smelly)

/-- Labels all functions of `dataset` and stores the samples; work is shared among `workers`. -/
def run (l : Labelling) (dataset : String) (workers : Int) :
    Run (Labelling × Except Fault Unit) := do
  let loaded : Run (List Json) := do
    let entries ← Run.readJson dataset
    if workers ≤ 0 then throw .noWorkers
    Run.lift entries.each
  match ← Run.outcome loaded with
  | .error e => return (l, .error e)
  | .ok entries =>
    let (l, outcomes) ← l.labelEach entries
    match l.addAll (entries.zip outcomes) with
    | (l, .error e) => return (l, .error e)
    | (l, .ok ()) => return (l, ← Run.outcome l.save)

end Labelling
end SmellLint
