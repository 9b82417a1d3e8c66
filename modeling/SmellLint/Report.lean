import SmellLint.Text.Case
import SmellLint.CommandLine.Options
import SmellLint.Table.Join

/-!
# Workbooks and reports

## Workbooks

Workbooks of sheets with titles.  Titles differ in more than upper and lower case: a title that is
taken gets a number.  Writing to a sheet that is there replaces its first rows.  A sheet takes no
control characters other than tabulators and line ends.
-/

namespace SmellLint

open Run

/-- A sheet: its title and its rows. -/
abbrev Sheet := String × List (List Cell)

abbrev Workbook := List Sheet

namespace Workbook

/-- Whether a title may not hold `c`. -/
def isForbidden (c : Char) : Bool := "\\*?:/[]".toList.contains c

/-- The digits that follow the occurrences of `title` in a text, which are looked for without regard
to case; a comma behind the digits belongs to the occurrence. -/
def digitsAfter (title : List Char) : Nat → List Char → List (List Char)
  | 0, _ => []
  | fuel + 1, cs =>
    match Text.dropStartFolded? title cs with
    | some rest =>
      let digits := rest.takeWhile Text.isDecimalDigit
      let rest := rest.drop digits.length
      digits :: digitsAfter title fuel (if rest.head? = some ',' then rest.drop 1 else rest)
    | none =>
      match cs with
      | [] => []
      | _ :: r => digitsAfter title fuel r

/-- A title that is not among `titles`: `title` itself, or `title` with the next number. -/
def freeTitle (titles : List String) (title : String) : String :=
  let wanted := Text.lower title
  if titles.any fun t => Text.lower t == wanted then
    let all := (",".intercalate titles).toList
    let found := digitsAfter title.toList (all.length + 1) all
    if found.isEmpty then title
    else s!"{title}{(found.map Text.decimalValue).foldl max 0 + 1}"
  else title

def defaultTitle : String := "Sheet"

def refuses : Cell → Bool
  | .text s => s.toList.any fun c => c.toNat < 0x20 && c != '\t' && c != '\n' && c != '\r'
  | _ => false

def width (rows : List (List Cell)) : Nat := (rows.map List.length).foldl max 0

/-- The column and the row of the first cell that is refused, column by column. -/
def refused? (rows : List (List Cell)) : Option (Nat × Nat) :=
  (List.range (width rows)).findSome? fun j =>
    (rows.findIdx? fun row => row[j]?.any refuses).map (j, ·)

def overlay : List (List Cell) → List (List Cell) → List (List Cell)
  | row :: rows, old :: olds => (row ++ old.drop row.length) :: overlay rows olds
  | rows, [] => rows
  | [], olds => olds

/-- What is written of `rows` before a cell that is refused.  The headings come first, and then
cells column by column. -/
def rowsBefore (column row : Nat) (rows : List (List Cell)) : List (List Cell) :=
  rows.take 1 ++ (rows.zipIdx.drop 1).map fun (cells, i) =>
    cells.take (if i < row then column + 1 else column)

/-- Rows of one width, without empty ones at the end. -/
def evenRows (rows : List (List Cell)) : List (List Cell) :=
  let rows := (rows.reverse.dropWhile List.isEmpty).reverse
  rows.map fun row => row ++ List.replicate (width rows - row.length) .missing

/-- Writes `rows` over the `old` ones of a sheet, up to a cell that is refused. -/
def writeRows (rows old : List (List Cell)) : List (List Cell) × Except Fault Unit :=
  match refused? rows with
  | none => (overlay rows old, .ok ())
  | some (column, row) =>
    (evenRows (overlay (rowsBefore column row rows) old), .error .forbiddenCell)

/-- Writes `rows` to the sheet with `title`, which may be new.  If `title` is not allowed, the new
sheet stays without rows. -/
def write (book : Workbook) (title : String) (rows : List (List Cell)) :
    Workbook × Except Fault Unit :=
  if book.any fun s => s.1 == title then
    (book.map fun (t, old) => if t == title then (t, (writeRows rows old).1) else (t, old),
      (writeRows rows []).2)
  else
    let titles := book.map Prod.fst
    let first := freeTitle titles defaultTitle
    match title.toList.find? isForbidden with
    | some c => (book ++ [(first, [])], .error (.forbiddenTitle c))
    | none =>
      let final := if title == first then title else freeTitle (titles ++ [first]) title
      (book ++ [(final, (writeRows rows []).1)], (writeRows rows []).2)

/-- Writes sheets to `book` in turn, up to the first that cannot be written. -/
def writeAll (book : Workbook) : List Sheet → Workbook × Except Fault Unit
  | [] => (book, .ok ())
  | (title, rows) :: r =>
    match book.write title rows with
    | (book, .ok ()) => writeAll book r
    | (book, .error e) => (book, .error e)

end Workbook

/-!
## Reports

Reports on the results of an analysis: how often each smell occurs, how many smells each project
has, both together in a workbook, and a chart.  A project is the directory that a file lies in.
-/

/-- Where results are read from and reports are saved to. -/
structure Report where
  input : String
  output : String

namespace Report

def findTables (r : Report) : Run (List String) := do
  let direct := Path.baseName r.input == "project_details" && (← isDir r.input)
  let folder := if direct then r.input else Path.join r.input "project_details"
  if !direct && !(← isDir folder) then throw (.noProjectDetails r.input)
  let names := (← listDir folder).filter (Path.endsWith · ".csv")
  if names.isEmpty then throw (.noTables folder)
  return names.map (Path.join folder)

def load (paths : List String) : Run Table := do
  let tables ← paths.mapM fun path => do
    print s!"Loading file: {path}"
    lift (Table.read (← readRawText path))
  if tables.isEmpty then throw .nothingToJoin
  return Table.concat tables

def projectName (path : String) : String :=
  let name := Path.baseName (Path.dirName path)
  if name.isEmpty then "root" else name

def projectCell : Cell → Except Fault Cell
  | .text path => .ok (.text (projectName path))
  | c => .error (.notAPath c.kindName)

def withProjects (t : Table) : Except Fault Table := do
  let files ← t.requireColumn "filename"
  return t.setColumn ⟨"project_name", .object, ← files.cells.mapM projectCell⟩

def countsText (headings : List String) (counts : List (Cell × Nat)) : String :=
  String.join (Csv.recordText headings ::
    counts.map fun (key, n) => Csv.recordText [key.written, toString n])

def smellHeadings : List String := ["smell_name", "occurrences"]

def projectHeadings : List String := ["project_name", "total_smells"]

def smellCounts (t : Table) : Except Fault (List (Cell × Nat)) := t.countBy "smell_name" "filename"

/-- How many smells each project of `t` has. -/
def projectCounts (t : Table) : Except Fault (List (Cell × Nat)) :=
  t.countBy "project_name" "smell_name"

def saveSmells (r : Report) (t : Table) : Run Unit := do
  let counts ← lift (smellCounts t)
  writeText (Path.join r.output "general_overview.csv") (countsText smellHeadings counts)
  print "General smell report saved to 'general_overview.csv'."

/-- Saves the `projectCounts` of `t`, which has its projects already. -/
def saveProjects (r : Report) (t : Table) : Run Unit := do
  let counts ← lift (projectCounts t)
  let target := Path.join r.output "project_overview.csv"
  writeText target (countsText projectHeadings counts)
  print s!"Project-specific report saved to '{target}'."

/-- A number as a sheet keeps it: with 16 digits, and as a whole number if it is one. -/
def sheetNumber (negative : Bool) (num den : Nat) : Cell :=
  if num = 0 then .int 0
  else
    let lead := Decimal.floorLogTen num den
    let (n, d) := Decimal.scaleTen num den (15 - lead)
    let digits := Decimal.roundHalfEven n d
    let (top, bottom) := Decimal.scaleTen digits 1 (lead - 15)
    let signed (n : Nat) : Int := if negative then -n else n
    if top % bottom = 0 && top / bottom < Nat.pow 10 16 then .int (signed (top / bottom))
    else
      let x := Decimal.nearestFloat digits (lead - 15)
      .float (if negative then -x else x)

/-- The longest text that a cell of a sheet can hold. -/
def cellLength : Nat := 32767

/-- A cell as a sheet keeps it: texts have one spelling of line ends, and infinite numbers are
texts. -/
def sheetCell : Cell → Cell
  | .text s => .text (Text.unifyNewlines (String.ofList (s.toList.take cellLength)))
  | .int n => sheetNumber (n < 0) n.natAbs 1
  | .float x =>
    match Decimal.Double.ofFloat x with
    | .finite negative b =>
      let (num, den) := b.quotient (4 * b.mantissa)
      sheetNumber negative num den
    | .zero _ => .int 0
    | .infinite negative => .text (if negative then "-inf" else "inf")
    | .nan => .missing
  | c => c

def countRows (headings : List String) (counts : List (Cell × Nat)) : List (List Cell) :=
  headings.map .text :: counts.map fun (key, n) => [sheetCell key, .int n]

def rowsOfProject (t : Table) (project : Cell) : Table :=
  match t.column? "project_name" with
  | some c => t.keepRows (c.cells.map project.sameKey)
  | none => t

/-- The longest part of a project's name that becomes the title of its sheet. -/
def titleLength : Nat := 30

def sheetTitle : Cell → String
  | .text name => String.ofList (name.toList.take titleLength)
  | c => c.written

def summarySheets (t : Table) : Except Fault (List Sheet) := do
  let smells ← smellCounts t
  let projects ← projectCounts t
  let details ← projects.mapM fun (project, _) => do
    let counts ← smellCounts (rowsOfProject t project)
    return (sheetTitle project, countRows smellHeadings counts)
  return [("General Overview", countRows smellHeadings smells),
    ("Project Overview", countRows projectHeadings projects)] ++ details

/-- Saves a summary of `t`, which has its projects already, as a workbook.  The sheets before one
that cannot be written are saved too. -/
def saveSummary (r : Report) (t : Table) : Run Unit := do
  let sheets ← lift (summarySheets t)
  let target := Path.join r.output "summary_report.xlsx"
  let (book, outcome) := Workbook.writeAll [] sheets
  writeContent target (.workbook book)
  lift outcome
  print s!"Summary report saved to '{target}'."

/-- Saves a chart of how often each smell of `t` occurs. -/
def saveChart (r : Report) (t : Table) : Run Unit := do
  if (← lift (smellCounts t)).isEmpty then throw .emptyChart
  writeContent (Path.join r.output "smell_report_chart.png") .image
  print "Bar chart saved to 'smell_report_chart.png'."

def menu : Run String := do
  printAll ["Select which reports to generate:", "1. General Smell Report",
    "2. Project-Specific Report", "3. Both Reports", "4. Plot Report", "5. Summary .xlsx Report",
    "6. Exit"]
  ask "Enter your choice: "

def make (r : Report) : Run Unit := do
  let t ← load (← r.findTables)
  match ← menu with
  | "1" => r.saveSmells t
  | "2" => r.saveProjects (← lift (withProjects t))
  | "3" =>
    r.saveSmells t
    r.saveProjects (← lift (withProjects t))
  | "4" => r.saveChart t
  | "5" => r.saveSummary (← lift (withProjects t))
  | "6" => print "Exiting..."
  | _ => print "Invalid choice. Exiting."

/-- Makes the reports that are asked for; a failure is only reported. -/
def run (r : Report) : Run Unit := do
  match ← outcome r.make with
  | .ok () => return ()
  | .error e => print s!"An error occurred: {e.message}"

def command (program : String) : CommandLine.Command where
  program := program
  description := "Generate reports for code smell analysis."
  options := [
    ⟨"input", .text, true, "Path to the input directory or file."⟩,
    ⟨"output", .text, true, "Directory to save the reports."⟩]

def runCommand (program : String) (args : List String) : Run Unit := do
  let given ← (command program).parseOrExit args
  let input := CommandLine.textValue given "input"
  let output := CommandLine.textValue given "output"
  if !(← isDir input) then
    print s!"Error: Input path '{input}' is not a valid directory."
    throw (.exit 1)
  if !(← isDir output) then makeDirs output
  (Report.mk input output).run

end Report
end SmellLint
