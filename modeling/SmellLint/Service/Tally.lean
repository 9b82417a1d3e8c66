import SmellLint.Service.Checked
import SmellLint.Table.Join

/-!
# Counting smells on request

A request lists projects, each with its files and its smells.  Smells and files of a project are
taken in pairs, as far as both lists go, and the pairs are counted by the name of the smell.
-/

namespace SmellLint.Service

/-! ## Requests -/

/-- A smell of a project. -/
structure ReportedSmell where
  functionName : String
  line : Int
  smell : String
  description : String
  info : String

/-- A file of a project. -/
structure ReportedFile where
  name : String
  size : Int
  kind : String
  path : String

/-- A project with its files and smells. -/
structure ReportedProject where
  name : String
  files : List ReportedFile
  message : String
  result : String
  smells : List ReportedSmell

def ReportedSmell.read : Reader ReportedSmell :=
  recordValue fun ms =>
    let c := (required ms "function_name" textValue).map ReportedSmell.mk
    let c := Checked.app c (required ms "line" integerValue)
    let c := Checked.app c (required ms "smell_name" textValue)
    let c := Checked.app c (required ms "description" textValue)
    Checked.app c (required ms "additional_info" textValue)

def ReportedFile.read : Reader ReportedFile :=
  recordValue fun ms =>
    let c := (required ms "name" textValue).map ReportedFile.mk
    let c := Checked.app c (required ms "size" integerValue)
    let c := Checked.app c (required ms "type" textValue)
    Checked.app c (required ms "path" textValue)

/-- Reads what is known about a project; its name comes from elsewhere. -/
def ReportedProject.readData : Reader (String → ReportedProject) :=
  recordValue fun ms =>
    let c := (required ms "files" (listValue ReportedFile.read)).map
      fun files message result smells name => ReportedProject.mk name files message result smells
    let c := Checked.app c (required ms "message" textValue)
    let c := Checked.app c (required ms "result" textValue)
    Checked.app c (required ms "smells" (listValue ReportedSmell.read))

def ReportedProject.read : Reader ReportedProject :=
  recordValue fun ms =>
    let c := (required ms "name" textValue).map fun name data => data name
    Checked.app c (required ms "data" readData)

def readReportRequest : Reader (List ReportedProject) :=
  recordValue fun ms => required ms "projects" (listValue ReportedProject.read)

/-! ## Answers -/

/-- The pairs of `smells` and `files` of a project; a smell may be missing, and then the pair is
left out. -/
def smellPairs (smells : List (Option Cell)) (files : List Cell) : List (Cell × Cell) :=
  (smells.zip files).filterMap fun (s, f) => s.map (·, f)

/-- How often each smell occurs, if there are any pairs at all. -/
def tally (projects : List (List (Option Cell) × List Cell)) : Option (List (Cell × Nat)) :=
  let pairs := projects.flatMap fun (smells, files) => smellPairs smells files
  if pairs.isEmpty then none else some (Table.countGroups pairs)

def tallyJson (name : Cell → Json) (count : Nat → Json) (counts : Option (List (Cell × Nat))) :
    Json :=
  .obj (counts.toList.map fun cs => ("all_projects_combined",
    .arr (cs.map fun (key, n) => .obj [("smell_name", name key), ("filename", count n)])))

/-- The counts for the projects of a request. -/
def tallyProjects (projects : List ReportedProject) : Option (List (Cell × Nat)) :=
  tally (projects.map fun p =>
    (p.smells.map fun s => some (.text s.smell), p.files.map fun f => .text f.name))

/-- Answers a request for a report; counts are written as texts. -/
def reportAnswer (projects : List ReportedProject) : Json :=
  .obj [("report_data", tallyJson (fun c => .str (c.text?.getD "")) (fun n => .str (toString n))
    (tallyProjects projects))]

end SmellLint.Service
