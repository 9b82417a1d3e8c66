import SmellLint.Project.Analysis
import SmellLint.Workspace.Stored

/-!
# Grids and judged datasets

## Grids

Numbers in rows of one length.  Numbers that do not stand in rows are rows without columns.
-/

namespace SmellLint

/-- Numbers in rows. -/
structure Grid where
  rows : List (List Float)
  /-- Whether the numbers stand in rows. -/
  hasColumns : Bool
deriving Inhabited

namespace Grid

def width (g : Grid) : Nat := (g.rows.headD []).length

def map (f : Float → Float) (g : Grid) : Grid := { g with rows := g.rows.map (·.map f) }

/-- Reads a grid; its rows have to be of one length. -/
def ofJson (j : Json) : Except Fault Grid :=
  let rows := j.items.map fun row => row.items.filterMap Json.float?
  let hasColumns := j.items.any fun row => row matches .arr _
  let first := (rows.headD []).length
  if rows.all fun row => row.length = first then .ok { rows, hasColumns }
  else .error (.unevenGrid rows.length)

end Grid
end SmellLint

/-!
## Judging a dataset

Entries of a dataset whose code is no program are taken out, and the code of the others is compared
pair by pair.  Before code is read as a program, its comments and its texts in triple quotes are
taken out.
-/

namespace SmellLint.Similarity

/-! ### Code of entries -/

/-- The blocks of code in a text: after a blank, up to the end of the block.  `fuel` bounds the
number of blocks. -/
def codeBlocks : Nat → List Char → List (List Char)
  | 0, _ => []
  | fuel + 1, cs =>
    match Text.splitAtFirst? "```python".toList cs with
    | none => []
    | some (_, rest) =>
      match rest with
      | c :: r =>
        if Text.isBlank c then
          match Text.splitAtFirst? "```".toList (r.dropWhile Text.isBlank) with
          | some (body, rest) => body :: codeBlocks fuel rest
          | none => []
        else codeBlocks fuel rest
      | [] => []

/-- Takes out what stands between a hash sign and the end of its line; `inRemark` tells that a hash
sign came before. -/
def withoutRemarks (inRemark : Bool) : List Char → List Char
  | [] => []
  | c :: r =>
    if c = '\n' then c :: withoutRemarks false r
    else if inRemark || c = '#' then withoutRemarks true r
    else c :: withoutRemarks false r

/-- Takes out what stands between two `mark`s, and the marks.  `fuel` bounds the number of pairs. -/
def withoutMarked (mark : List Char) : Nat → List Char → List Char
  | 0, cs => cs
  | fuel + 1, cs =>
    match Text.splitAtFirst? mark cs with
    | none => cs
    | some (before, rest) =>
      match Text.splitAtFirst? mark rest with
      | none => cs
      | some (_, after) => before ++ withoutMarked mark fuel after

/-- The code of an entry as it is judged: its blocks of code, or all of it if it has none, without
comments, texts in triple quotes and blank lines. -/
def judgedCode (text : String) : String :=
  let cs := text.toList
  let code := match codeBlocks cs.length cs with
    | [] => cs
    | first :: rest => first ++ (rest.map ('\n' :: ·)).flatten
  let code := withoutRemarks false code
  let code := withoutMarked "'''".toList code.length code
  let code := withoutMarked "\"\"\"".toList code.length code
  "\n".intercalate ((Text.displayLines (String.ofList code)).filter fun line =>
    !Text.isBlankText line)

/-! ### Entries that are programs -/

/-- A dataset that is judged, and where the results go. -/
structure Judgement where
  dataset : Json
  output : String

namespace Judgement

/-- The directory for code that is being judged. -/
def tempDir : String := "temp_files"

def start (dataset output : String) : Run Judgement := do
  let entries ← Run.readJson dataset
  Run.makeDirs tempDir
  return { dataset := entries, output }

def isProgram (j : Judgement) (code : String) : Run Bool := do
  let path := Path.join tempDir "temp_code.py"
  Run.writeText path (judgedCode code)
  let analyzer : Analyzer := { output := j.output }
  match ← Run.outcome (analyzer.inspect path) with
  | .ok _ =>
    Run.remove path
    return true
  | .error e =>
    Run.remove path
    match e with
    | .inFile _ .invalidSyntax => return false
    | e => throw e

/-- Adds `entry` to those of `parts` that are programs or to the others. -/
def sortEntry (j : Judgement) (parts : List Json × List Json) (entry : Json) :
    Run (List Json × List Json) := do
  let code ← Run.lift (do (← entry.member "code").text)
  if ← j.isProgram code then return (parts.1 ++ [entry], parts.2)
  else return (parts.1, parts.2 ++ [entry])

/-- The entries that are programs, and the others. -/
def split (j : Judgement) : Run (List Json × List Json) := do
  (← Run.lift j.dataset.each).foldlM j.sortEntry ([], [])

end Judgement

/-! ### Comparing entries -/

def cell? (grid : Grid) (i j : Nat) : Option Float := grid.rows[i]?.bind fun row => row[j]?

/-- All pairs of different entries, the smaller index first. -/
def allPairs (count : Nat) : List (Nat × Nat) :=
  (List.range count).flatMap fun i => (List.range' (i + 1) (count - (i + 1))).map fun j => (i, j)

/-- Whether `grid` has a cell for each pair.  The cell that is missing first is the one of the first
entry and the entry after the last column. -/
def checkPairs (grid : Grid) : Except Fault Unit :=
  let column := max 1 grid.width
  if column < grid.rows.length then .error (.columnOutOfRange column grid.width) else .ok ()

def similarPairs (grid : Grid) (threshold : Float) : Except Fault (List (Nat × Nat)) := do
  if !grid.hasColumns && 1 < grid.rows.length then throw .noGrid
  checkPairs grid
  return (allPairs grid.rows.length).filter fun (i, j) =>
    (cell? grid i j).any fun x => threshold < x

/-- The similarities of all pairs of different entries. -/
def pairValues (grid : Grid) : Except Fault (List Float) := do
  if !grid.hasColumns then throw .noGrid
  checkPairs grid
  return (allPairs grid.rows.length).filterMap fun (i, j) => cell? grid i j

/-- How similarities are distributed. -/
structure Distribution where
  mean : Float
  median : Float
  deviation : Float
  greatest : Float
  least : Float

namespace Distribution

def ofValues (values : List Float) : Except Fault Distribution :=
  match Decimal.greatest? values, Decimal.least? values with
  | some greatest, some least =>
    return { mean := Decimal.mean values, median := Decimal.median values,
             deviation := Decimal.deviation values, greatest, least }
  | _, _ => .error (.noExtreme "maximum")

/-- The numbers of a distribution, by name. -/
def entries (d : Distribution) : List (String × Float) :=
  [("mean", d.mean), ("median", d.median), ("std_dev", d.deviation), ("max", d.greatest),
   ("min", d.least)]

def toJson (d : Distribution) : Json := .obj (d.entries.map fun (k, x) => (k, .float x))

def text (d : Distribution) : String :=
  let members := d.entries.map fun (k, x) => s!"{Text.quoted k}: {Decimal.floatText x}"
  "\x7b" ++ ", ".intercalate members ++ "\x7d"

end Distribution

def clamp (x : Float) : Float := if x < 0.0 then 0.0 else if 1.0 < x then 1.0 else x

def percentage (part whole : Float) : Float := part / whole * 100.0

/-- The threshold above which code counts as similar. -/
def usualThreshold : Float := 0.8

namespace Judgement

/-- The similarities of entries, as they are found outside. -/
def compare (entries : List Json) : Run Grid := do
  let corpus ← Run.lift (entries.mapM fun e => e.member "code")
  Run.call "fit_transform" [("corpus", .value (.arr corpus))]
  let grid ← Run.lift (Grid.ofJson (← get).outside.similarities)
  return grid.map clamp

def resultPath (j : Judgement) (name : String) : String := Path.join j.output name

/-- Judges a dataset and stores the results. -/
def run (j : Judgement) : Run Unit := do
  let (valid, invalid) ← j.split
  Run.writeJson (j.resultPath "invalid_entries.json") (.arr invalid)
  let count := valid.length + invalid.length
  let excluded :=
    if count = 0 then 0.0 else percentage (Float.ofNat invalid.length) (Float.ofNat count)
  Run.print "Percentuale di blocchi esclusi per errore di sintassi:"
  Run.print s!"            {Decimal.fixed 2 excluded}%"
  Run.writeJson (j.resultPath "valid_entries.json") (.arr valid)
  Run.print "Calcolo della similarità tra i blocchi di codice..."
  let grid ← compare valid
  let similar ← Run.lift (similarPairs grid usualThreshold)
  let values ← Run.lift (pairValues grid)
  let distribution ← Run.lift (Distribution.ofValues values)
  let pairCount := valid.length * (valid.length - 1) / 2
  let share :=
    if pairCount = 0 then 0.0 else percentage (Float.ofNat similar.length) (Float.ofNat pairCount)
  Run.print s!"Numero di coppie possibili: {Decimal.floatText (Float.ofNat pairCount)}"
  Run.print s!"Numero di coppie simili: {similar.length}"
  Run.print "Percentuale di coppie simili rispetto al totale"
  Run.print s!"              delle coppie possibili: {Decimal.fixed 2 share}%"
  Run.print s!"Statistiche della distribuzione: {distribution.text}"
  Run.writeJson (j.resultPath "similarity_results.json") (.obj
    [("similar_blocks", .arr (similar.map fun (a, b) => .arr [.int a, .int b])),
     ("percentage_similar", if pairCount = 0 then .int 0 else .float share),
     ("distribution_stats", distribution.toJson),
     ("similarity_distribution", .arr (values.map .float))])
  let chart := j.resultPath "similarity_distribution.png"
  Run.writeContent chart .image
  Run.print s!"Istogramma salvato in: {chart}"

end Judgement
end SmellLint.Similarity
