import SmellLint.Catalogue
import SmellLint.Table.Basic
import SmellLint.Workspace.Basic

/-!
# Lists of models and tensor operations

The lists that tell which methods make models, which operations work on several tensors, and which
methods give data frames.  Each is read from a table with fixed column names.
-/

namespace SmellLint

abbrev ModelList := Keyed (List Cell)

namespace ModelList

def ofTable (t : Table) : ModelList := ⟨t.columns.map fun c => (c.name, c.cells)⟩

def load (path : String) : Run ModelList := do
  if !(← Run.exists? path) then throw (.noModelFile path)
  let t ← Run.lift (Table.read (← Run.readRawText path))
  if (t.column? "method").isNone || (t.column? "library").isNone then throw (.noModelColumns path)
  return ofTable t

/-- Reads the list of tensor operations and keeps those that take more than one tensor. -/
def loadTensorOperations (path : String) : Run ModelList := do
  if !(← Run.exists? path) then throw (.noTensorFile path)
  let t ← Run.lift (Table.read (← Run.readRawText path))
  match t.column? "number_of_tensors_input" with
  | none => throw (.noTensorColumn path)
  | some c => return ofTable (t.keepRows (← Run.lift (Table.Column.greater c 1)))

def methods (list? : Option ModelList) : Except Fault (List Cell) :=
  match list? with
  | none => .error .modelsNotLoaded
  | some list =>
    if list.isEmpty then .error .modelsNotLoaded
    else
      match list.get? "method" with
      | some ms => .ok ms
      | none => .error .noMethodColumn

def requireColumn (list : ModelList) (name : String) : Except Fault (List Cell) :=
  match list.get? name with
  | some cells => .ok cells
  | none => .error (.missingKey name)

def hasModel (list? : Option ModelList) (model : String) (libraries : List String) :
    Except Fault Bool :=
  match list? with
  | none => .error .modelsNotLoaded
  | some list =>
    if list.isEmpty then .error .modelsNotLoaded
    else do
      let owners ← list.requireColumn "library"
      let methods ← list.requireColumn "method"
      return (owners.zip methods).any fun (owner, method) =>
        owner.text?.any libraries.contains && method.text? == some model

end ModelList

namespace Catalogue

/-- The methods in the `method` column of a table. -/
def frameMethodsOfText (text : String) : Except Fault Frames.Methods := do
  let (names, rows) ← Table.readRows text
  match names.idxOf? "method" with
  | none => throw (.missingKey "method")
  | some i => return (Table.columnTexts rows i).map fun s =>
      if Table.isMissingText s then none else some s

def loadFrameMethods (path : String) : Run Frames.Methods := do
  Run.lift (frameMethodsOfText (← Run.readRawText path))

/-- Reads a catalogue from its three tables; what has no path is taken from `Catalogue.shipped`. -/
def load (framePath? modelPath? tensorPath? : Option String) : Run Catalogue := do
  let frames ← match framePath? with
    | some path => loadFrameMethods path
    | none => pure shipped.frameMethods
  let models ← match modelPath? with
    | some path => Run.lift (ModelList.methods (some (← ModelList.load path)))
    | none => pure shipped.modelMethods
  if let some path := tensorPath? then
    let _ ← ModelList.loadTensorOperations path
  return ⟨frames, models⟩

end Catalogue
end SmellLint
