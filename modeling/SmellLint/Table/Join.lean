import SmellLint.Table.Basic
import SmellLint.Json.Encode

/-!
# Operations on tables

## Joining tables

Tables are joined below each other: the result has every column of any of them, in the order in
which they first appear, and a cell is missing where its table has no such column.

A table keeps columns of one kind together in a block.  Columns that follow each other in the
result, and that share a block in every table, are joined at once; what a table gives to such a
group is a unit.  A unit without values, because the table lacks the columns, has no rows, or has
nothing but missing cells there, has no say in the kind of the result.
-/

namespace SmellLint

namespace ColumnKind

def isNumber : ColumnKind → Bool
  | .int | .unsigned | .float => true
  | _ => false

def holdsMissing : ColumnKind → Bool
  | .float | .object => true
  | _ => false

/-- The least kind that two kinds can be turned into; truth values count as numbers. -/
def join : ColumnKind → ColumnKind → ColumnKind
  | .object, _ | _, .object => .object
  | .bool, k | k, .bool => k
  | .int, .int => .int
  | .unsigned, .unsigned => .unsigned
  | _, _ => .float

def joinAll : List ColumnKind → ColumnKind
  | [] => .object
  | k :: r => r.foldl join k

/-- The kind that `kinds` have in common: truth values have none with numbers. -/
def common (kinds : List ColumnKind) : ColumnKind :=
  if kinds.contains .bool && kinds.any isNumber then .object else joinAll kinds

def withMissing : ColumnKind → ColumnKind
  | .int | .unsigned => .float
  | .bool => .object
  | k => k

def convert (kind : ColumnKind) (c : Cell) : Cell :=
  match kind, c with
  | .float, .int n => .float (Table.intToFloat n)
  | .float, .bool b => .float (if b then 1.0 else 0.0)
  | .int, .bool b | .unsigned, .bool b => .int (if b then 1 else 0)
  | _, c => c

end ColumnKind

namespace Table

/-! ### Blocks -/

/-- Where `t` has the column `name`: its kind, and its place among the columns of the kind. -/
def slot? (t : Table) (name : String) : Option (ColumnKind × Nat) :=
  (t.column? name).map fun c =>
    (c.kind, ((t.columns.takeWhile fun d => d.name != name).filter fun d => d.kind = c.kind).length)

/-- Whether numbers follow each other at one distance. -/
def evenlySpaced : List Int → Bool
  | a :: b :: c :: r => b - a == c - b && evenlySpaced (b :: c :: r)
  | _ => true

/-- Runs of places of one kind, or of places that the table lacks. -/
def slotRuns : List (Option (ColumnKind × Nat)) → List (List (Option (ColumnKind × Nat)))
  | [] => []
  | s :: r =>
    match slotRuns r with
    | (s' :: run) :: runs =>
      if s.map Prod.fst = s'.map Prod.fst then (s :: s' :: run) :: runs
      else [s] :: (s' :: run) :: runs
    | runs => [s] :: runs

/-- For each place of `run` whether it shares a block with the place before it: a run stays together
if its places are evenly spaced. -/
def runLinks (run : List (Option (ColumnKind × Nat))) : List Bool :=
  let together := evenlySpaced (run.filterMap fun s => s.map fun p => (p.2 : Int))
  run.mapIdx fun i _ => i != 0 && together

/-- For each of `names` whether `t` has that column in one block with the one before it.  A table
with just these columns keeps its blocks as they are. -/
def links (names : List String) (t : Table) : List Bool :=
  let runs := slotRuns (names.map t.slot?)
  if names == t.names then runs.flatMap fun run => run.mapIdx fun i _ => i != 0
  else runs.flatMap runLinks

/-- Names in groups that are joined at once: a name with the flag stays with the one before it. -/
def groupNames : List (String × Bool) → List (List String)
  | [] => []
  | (name, _) :: r =>
    match r, groupNames r with
    | (_, true) :: _, group :: groups => (name :: group) :: groups
    | _, groups => [name] :: groups

/-- The columns of the result in groups. -/
def joinGroups (names : List String) (tables : List Table) : List (List String) :=
  let together := tables.foldl (fun flags t => flags.zipWith (· && ·) (links names t))
    (names.map fun _ => true)
  groupNames (names.zip together)

/-! ### Units -/

/-- What a table gives to a group of columns: the kind of its columns, if it has them, and their
cells. -/
structure JoinUnit where
  kind : Option ColumnKind
  cells : List (List Cell)

namespace JoinUnit

def ofTable (group : List String) (t : Table) : JoinUnit :=
  ⟨group.head?.bind fun name => (t.column? name).map (·.kind), group.map fun name =>
      match t.column? name with
      | some c => c.cells
      | none => List.replicate t.height .missing⟩

/-- Whether `u` has no say in the kind. -/
def isVoid (u : JoinUnit) : Bool :=
  match u.kind with
  | none => true
  | some kind => kind.holdsMissing && u.cells.all fun cs => cs.all Cell.isMissing

/-- Whether `units` can be put below each other without a look at what they have in common: all are
texts, or all are numbers or truth values of which the first is of the widest kind. -/
def areUniform (units : List JoinUnit) : Bool :=
  match units.head?.bind (·.kind) with
  | none => false
  | some first =>
    units.all fun u =>
      match u.kind with
      | none => false
      | some kind =>
        !u.isVoid && (kind == .object) == (first == .object) &&
          (kind = first || kind = .int || kind = .unsigned || kind = .bool)

def targetKind (units : List JoinUnit) : ColumnKind :=
  let kinds := units.map (·.kind)
  match kinds with
  | some k :: r =>
    if r.all (· = some k) then k else target units
  | _ => target units
where
  /-- The kind that the units with a say have in common; missing columns have to fit in. -/
  target (units : List JoinUnit) : ColumnKind :=
    let present := units.filterMap (·.kind)
    let voices := (units.filter fun u => !u.isVoid).filterMap (·.kind)
    let kind := ColumnKind.common (if voices.isEmpty then present else voices)
    if present.length < units.length then kind.withMissing else kind

/-- The kind that `u` is turned into before units are joined. -/
def arrayKind (target : ColumnKind) (u : JoinUnit) : ColumnKind :=
  match u.kind with
  | none => target
  | some kind => if target.holdsMissing && u.isVoid then target else kind

/-- The kind of the joined columns, and the kind that their cells are converted to.  Numbers that
truth values have become stand in a column of texts. -/
def joinedKinds (units : List JoinUnit) : ColumnKind × ColumnKind :=
  if areUniform units then
    let kind := ColumnKind.joinAll (units.filterMap (·.kind))
    (kind, kind)
  else
    let kinds := units.map (arrayKind (targetKind units))
    let kind := ColumnKind.joinAll kinds
    (if kinds.contains .bool && kind.isNumber then .object else kind, kind)

end JoinUnit

def joinedColumns (tables : List Table) (group : List String) : List Column :=
  let units := tables.map (JoinUnit.ofTable group)
  let (kind, shape) := JoinUnit.joinedKinds units
  group.mapIdx fun i name =>
    ⟨name, kind, units.flatMap fun u => (u.cells.getD i []).map shape.convert⟩

/-- Tables below each other; a single table stays as it is. -/
def concat (tables : List Table) : Table :=
  match tables with
  | [t] => t
  | _ =>
    let names := (tables.flatMap Table.names).eraseDups
    ⟨(joinGroups names tables).flatMap (joinedColumns tables),
      (tables.map (·.height)).foldr (· + ·) 0⟩

end Table

/-!
## Writing tables

A table as comma-separated text: numbers with the fewest digits that read back, truth values as
words, and nothing for a missing cell.
-/

def Cell.written : Cell → String
  | .text s => s
  | .int n => toString n
  | .float x => if x.isNaN then "" else Decimal.floatText x
  | .bool b => if b then "True" else "False"
  | .missing => ""

namespace Table

def rows (t : Table) : List (List Cell) :=
  (List.range t.height).map fun i => t.columns.map fun c => c.cells.getD i .missing

def toCsv (t : Table) : String :=
  String.join (Csv.recordText t.names :: t.rows.map fun r => Csv.recordText (r.map Cell.written))

end Table

/-!
## Grouping rows

Rows are grouped by the cells of one column, and the cells of another column that are there are
counted for each group.  Groups come in the order of their keys, numbers before texts; rows without
a key are left out.
-/

namespace Cell

def number? : Cell → Option Float
  | .int n => some (Table.intToFloat n)
  | .float x => some x
  | .bool b => some (if b then 1.0 else 0.0)
  | _ => none

def sameKey (a b : Cell) : Bool :=
  match a, b with
  | .text s, .text t => s == t
  | .int m, .int n => m == n
  | a, b =>
    match a.number?, b.number? with
    | some x, some y => x == y
    | _, _ => false

def keyLe (a b : Cell) : Bool :=
  match a, b with
  | .text s, .text t => s ≤ t
  | .int m, .int n => m ≤ n
  | a, b =>
    match a.number?, b.number? with
    | some x, some y => x ≤ y
    | some _, none => true
    | none, _ => false

end Cell

namespace Table

def addToGroup (key : Cell) (n : Nat) : List (Cell × Nat) → List (Cell × Nat)
  | [] => [(key, n)]
  | (k, m) :: r => if k.sameKey key then (k, m + n) :: r else (k, m) :: addToGroup key n r

/-- The groups of `rows`, in the order of their keys, each with the number of cells that are there.
-/
def countGroups (rows : List (Cell × Cell)) : List (Cell × Nat) :=
  let groups := rows.foldl (fun groups (key, cell) =>
    if key.isMissing then groups
    else addToGroup key (if cell.isMissing then 0 else 1) groups) []
  groups.mergeSort fun a b => a.1.keyLe b.1

/-- Groups by the column `key` and counts the column `counted`; both have to be there. -/
def countBy (t : Table) (key counted : String) : Except Fault (List (Cell × Nat)) := do
  let keys ← t.requireColumn key
  match t.column? counted with
  | some c => return countGroups (keys.cells.zip c.cells)
  | none => throw (.columnNotFound counted)

/-- Gives `t` the column `c`, in place of one with the same name. -/
def setColumn (t : Table) (c : Column) : Table :=
  if (t.column? c.name).isSome then
    { t with columns := t.columns.map fun d => if d.name == c.name then c else d }
  else { t with columns := t.columns ++ [c] }

end Table

/-!
## Records

A table is made of records of values, and its records are shown by the names of the columns.  As for
a column that is read from text, the kind of a column is the narrowest one that all of its values
have.
-/

namespace Cell

def int? : Cell → Option Int
  | .int n => some n
  | _ => none

def isNumber : Cell → Bool
  | .int _ | .float _ => true
  | _ => false

/-- Whether a cell holds a truth value. -/
def isBool : Cell → Bool
  | .bool _ => true
  | _ => false

def isGiven : Cell → Bool
  | .missing => false
  | _ => true

end Cell

namespace ColumnKind

/-- The kind of a column of whole numbers; those that do not fit into 64 bits are kept as they
are. -/
def ofInts (ns : List Int) : ColumnKind :=
  let half : Int := Table.halfRange
  if ns.all fun n => -half ≤ n && n < half then .int
  else if ns.all fun n => 0 ≤ n && n < 2 * half then .unsigned
  else .object

def ofCells (cells : List Cell) : ColumnKind :=
  let given := cells.filter Cell.isGiven
  if given.isEmpty then .object
  else if given.all Cell.isBool then
    if given.length = cells.length then .bool else .object
  else if given.all Cell.isNumber then
    match cells.mapM Cell.int? with
    | some ns => .ofInts ns
    | none => .float
  else .object

end ColumnKind

def Column.ofCells (name : String) (cells : List Cell) : Column :=
  let kind := ColumnKind.ofCells cells
  ⟨name, kind, cells.map kind.convert⟩

/-- The cell `i` of a column as it is shown; a value that was never there is none. -/
def Column.shown (c : Column) (i : Nat) : Json :=
  match c.kind, c.cells.getD i .missing with
  | .object, .missing => .null
  | _, cell => toJson cell

namespace Table

def ofRecords (names : List String) (records : List (List Cell)) : Table :=
  ⟨names.mapIdx fun i name => .ofCells name (records.map fun r => r.getD i .missing),
    records.length⟩

def records (t : Table) : List Json :=
  (List.range t.height).map fun i => .obj (t.columns.map fun c => (c.name, c.shown i))

end Table
end SmellLint
