import SmellLint.Table.Cell
import SmellLint.Table.Csv

/-!
# Tables

Tables of named columns.  A column that is read from text gets the narrowest kind that all of its
cells have: whole numbers, numbers, truth values, or texts.  A missing cell turns whole numbers into
numbers and truth values into texts.  The first cell that is no whole number of 64 bits decides how
the others are looked at.
-/

namespace SmellLint

/-- What the cells of a column have in common; `unsigned` are whole numbers that need 64 bits
without a sign. -/
inductive ColumnKind where
  | int
  | unsigned
  | float
  | bool
  | object
deriving DecidableEq, Inhabited

/-- A column of a table. -/
structure Column where
  name : String
  kind : ColumnKind
  cells : List Cell
deriving Inhabited

/-- A table; all columns have `height` cells. -/
structure Table where
  columns : List Column
  height : Nat
deriving Inhabited

namespace Table

def missingTexts : List String :=
  ["", "#N/A", "#N/A N/A", "#NA", "-1.#IND", "-1.#QNAN", "-NaN", "-nan", "1.#IND", "1.#QNAN",
   "<NA>", "N/A", "NA", "NULL", "NaN", "None", "n/a", "nan", "null"]

def isMissingText (s : String) : Bool := missingTexts.contains s

/-! ## Reading cells -/

/-- `s` as a truth value, without regard to case. -/
def readBool? (s : String) : Option Bool :=
  if s.toLower == "true" then some true
  else if s.toLower == "false" then some false
  else none

def readAll {α : Type} (read : String → Option α) (texts : List String) :
    Option (List (Option α)) :=
  texts.mapM fun s => if isMissingText s then some none else (read s).map some

/-- Reads every one of `texts` that is not missing as a whole number with a sign. -/
def readWords (texts : List String) : Except WordFault (List (Option Int)) :=
  texts.mapM fun s => if isMissingText s then .ok none else (readWord s).map some

/-- Reads every text that is not missing as a whole number without a sign: its value, or `none` if
it has a minus sign. -/
def readUnsignedAll (texts : List String) : Except WordFault (List (Option (Option Nat))) :=
  texts.mapM fun s => if isMissingText s then .ok none else (readUnsigned s).map some

/-- Texts as they stand, with those missing that stand for a missing value. -/
def textColumn (name : String) (texts : List String) : Column :=
  ⟨name, .object, texts.map fun s => if isMissingText s then .missing else .text s⟩

/-- Whole numbers as a column; with missing ones among them they are numbers, and the least number
of 64 bits is then missing too. -/
def wordColumn (name : String) (ns : List (Option Int)) : Column :=
  if ns.any Option.isNone then
    ⟨name, .float, ns.map fun
      | some n => if n = -(halfRange : Int) then .missing else .float (intToFloat n)
      | none => .missing⟩
  else ⟨name, .int, ns.filterMap fun n => n.map .int⟩

/-- `texts` as numbers or as truth values, if they are all of one kind. -/
def numberColumn (name : String) (texts : List String) : Column :=
  match readAll readFloat? texts with
  | some xs =>
    ⟨name, .float, xs.map fun
      | some x => .float x
      | none => .missing⟩
  | none =>
    match readAll readBool? texts with
    | some bs =>
      ⟨name, if bs.any Option.isNone then .object else .bool, bs.map fun
        | some b => .bool b
        | none => .missing⟩
    | none => textColumn name texts

/-- A column of `texts` of which one is a whole number that needs more than 64 bits with a sign.
Without signs the numbers may fit; a great number beside a negative or a missing one leaves every
text as it stands. -/
def largeColumn (name : String) (texts : List String) : Column :=
  match readUnsignedAll texts with
  | .error .noNumber => numberColumn name texts
  | .error .tooLarge => textColumn name texts
  | .ok ns =>
    let isLarge := ns.any fun
      | some (some n) => halfRange ≤ n
      | _ => false
    if isLarge && ns.any fun n => n.join.isNone then ⟨name, .object, texts.map .text⟩
    else if ns.any (· == some none) then textColumn name texts
    else ⟨name, .unsigned, ns.filterMap fun n => n.join.map fun n => .int n⟩

def columnOfTexts (name : String) (texts : List String) : Column :=
  if texts.isEmpty then ⟨name, .object, []⟩
  else
    match readWords texts with
    | .ok ns => wordColumn name ns
    | .error .noNumber => numberColumn name texts
    | .error .tooLarge => largeColumn name texts

/-! ## Reading tables -/

/-- Pads records to the `width` of the record before, and refuses one that is wider; the first
record after the header sets the width. -/
def evenRecords (width : Nat) : List Csv.Record → Except Fault (List (List String))
  | [] => .ok []
  | r :: rest =>
    if width < r.fields.length then .error (.unevenRecord width r.line r.fields.length)
    else do
      let more ← evenRecords width rest
      return (r.fields ++ List.replicate (width - r.fields.length) "") :: more

/-- The header and the data of a text: names of columns, and rows without the leading cells that the
header does not name. -/
def readRows (text : String) : Except Fault (List String × List (List String)) := do
  match ← Csv.records text with
  | [] => throw .noColumns
  | header :: data =>
    let names := distinctHeader header.fields
    match data with
    | [] => return (names, [])
    | first :: _ =>
      let width := max header.fields.length first.fields.length
      let rows ← evenRecords width data
      return (names, rows.map (·.drop (width - header.fields.length)))

def columnTexts (rows : List (List String)) (i : Nat) : List String := rows.map (·.getD i "")

def read (text : String) : Except Fault Table := do
  let (names, rows) ← readRows text
  return ⟨names.mapIdx fun i n => columnOfTexts n (columnTexts rows i), rows.length⟩

/-! ## Columns and rows -/

def names (t : Table) : List String := t.columns.map (·.name)

def column? (t : Table) (name : String) : Option Column := t.columns.find? (·.name == name)

def requireColumn (t : Table) (name : String) : Except Fault Column :=
  match t.column? name with
  | some c => .ok c
  | none => .error (.missingKey name)

def keepRows (t : Table) (flags : List Bool) : Table :=
  ⟨t.columns.map fun c => { c with
      cells := (c.cells.zip flags).filterMap fun (cell, keep) => if keep then some cell else none },
    flags.count true⟩

/-- Whether a cell is greater than `n`; texts cannot be compared. -/
def cellGreater (n : Int) : Cell → Except Fault Bool
  | .int m => .ok (n < m)
  | .float x => .ok (intToFloat n < x)
  | .bool b => .ok (n < if b then 1 else 0)
  | .missing => .ok false
  | .text _ => .error (.notComparable ">" "str" "int")

def cellLess (n : Int) : Cell → Except Fault Bool
  | .int m => .ok (m < n)
  | .float x => .ok (x < intToFloat n)
  | .bool b => .ok ((if b then 1 else 0) < n)
  | .missing => .ok false
  | .text _ => .error (.notComparable "<" "str" "int")

def Column.greater (c : Column) (n : Int) : Except Fault (List Bool) := c.cells.mapM (cellGreater n)

end Table
end SmellLint
