import SmellLint.Smell.Tensor
import SmellLint.Smell.Frame
import SmellLint.Smell.Model
import SmellLint.Table.Join

/-!
# Checking all rules

All rules in their fixed order.  A rule that fails gives no rows and one message; the others are not
affected by it.  Rows are also added to a table that is there before (`checkInto`).
-/

namespace SmellLint

open Syntax (Node)

/-- A finding as it is reported. -/
structure Row where
  filename : String
  functionName : String
  smell : String
  line : Nat
  description : String
  info : String
deriving DecidableEq, Inhabited

instance : ToJson Row where
  toJson r := .obj [("filename", .str r.filename), ("function_name", .str r.functionName),
    ("smell_name", .str r.smell), ("line", .int r.line), ("description", .str r.description),
    ("additional_info", .str r.info)]

def Row.cell (r : Row) : String → Cell
  | "filename" => .text r.filename
  | "function_name" => .text r.functionName
  | "smell_name" => .text r.smell
  | "line" => .int r.line
  | "description" => .text r.description
  | "additional_info" => .text r.info
  | _ => .missing

def Row.kind (name : String) : ColumnKind := if name = "line" then .int else .object

def Row.table (names : List String) (r : Row) : Table :=
  ⟨names.map fun name => ⟨name, Row.kind name, [r.cell name]⟩, 1⟩

/-- Adds `r` at the end of `t`; a table without rows takes the kinds of the row. -/
def Table.addRow (t : Table) (r : Row) : Table :=
  if t.height = 0 then r.table t.names else .concat [t, r.table t.names]

namespace Smell

/-- All rules, in the order in which they are checked. -/
def rules : List Rule :=
  [chainIndexing, frameConversion, gradients, matrixProduct, forwardCalls, tensorArray,
   broadcasting, columnTypes, deterministicAlgorithms, emptyColumn, hyperparameters, inPlace,
   memoryNotFreed, mergeParameters, nanComparison, unnecessaryIteration]

def rule? (id : String) : Option Rule := rules.find? (·.id == id)

def Rule.row (r : Rule) (filename functionName : String) (f : Finding) : Row :=
  ⟨filename, functionName, r.smell, f.line, r.description, f.info⟩

/-- The rows and messages of one rule. -/
def Rule.report (r : Rule) (filename functionName : String) (n : Node) (facts : Facts) :
    List Row × List String :=
  match r.detect n facts with
  | .ok findings => (findings.map (r.row filename functionName), [])
  | .error e =>
    ([], [s!"Error in rule checker '{r.id}' for function '{functionName}' " ++
      s!"in file '{filename}': {e.message}"])

/-- The rows and messages of all rules. -/
def check (filename functionName : String) (n : Node) (facts : Facts) : List Row × List String :=
  let reports := rules.map fun r => r.report filename functionName n facts
  (reports.flatMap Prod.fst, reports.flatMap Prod.snd)

/-- Adds the rows of rules to a table, one rule after the other, and gives their messages. -/
def checkInto (filename functionName : String) (n : Node) (facts : Facts) :
    List Rule → Table → Table × List String
  | [], t => (t, [])
  | r :: rs, t =>
    let (rows, messages) := r.report filename functionName n facts
    let (t, more) := checkInto filename functionName n facts rs (rows.foldl Table.addRow t)
    (t, messages ++ more)

end Smell
end SmellLint
