import SmellLint.Smell.Basic

/-!
# Smells of arrays and tensors

## Smells of array code

Rules for programs that import `numpy`.
-/

namespace SmellLint.Smell

open Syntax (Node)

/-! ### Products of matrices -/

def isList : Node → Bool
  | .list .. => true
  | _ => false

/-- Whether an argument may be a matrix: a variable, or a list of lists. -/
def isMatrixArgument : Node → Bool
  | .list _ items => items.all isList
  | .name .. => true
  | _ => false

/-- Whether a node multiplies matrices by `dot`. -/
def isMatrixDot (numpy : String) : Node → Bool
  | .call _ (.attribute _ (.name _ base) "dot") args _ =>
    base == numpy && 2 ≤ args.length && args.any isMatrixArgument
  | _ => false

def matrixProduct : Rule where
  id := "MatrixMultiplicationAPIMisused"
  smell := "matrix_multiplication_api_misused"
  description := "Using `dot()` for matrix multiplication is discouraged. Use `np.matmul` instead."
  detect n facts := whenImported "numpy" facts fun numpy =>
    .ok ((n.walk.filter (isMatrixDot numpy)).map fun m =>
      ⟨m.line, "Detected misuse of `dot()` for matrix multiplication. " ++
        s!"Consider using `np.matmul` instead. Code: {facts.lineText m.line}"⟩)

/-! ### Comparisons with NaN -/

def isNaN (numpy : String) : Node → Bool
  | .attribute _ (.name _ base) attr => attr == "nan" && base == numpy
  | .name _ id => id == "nan"
  | _ => false

def comparesNaN (numpy : String) : Node → Bool
  | .compare _ left _ comparators => isNaN numpy left || comparators.any (isNaN numpy)
  | _ => false

def nanComparison : Rule where
  id := "NanEquivalenceComparisonMisusedSmell"
  smell := "nan_equivalence_comparison_misused"
  description := "Direct equivalence comparisons with NaN should be avoided. " ++
    "Use functions like np.isnan() instead."
  detect n facts := whenImported "numpy" facts fun numpy =>
    .ok ((n.walk.filter (comparesNaN numpy)).map fun m =>
      ⟨m.line, "Direct equivalence comparison with NaN detected. Use np.isnan() instead."⟩)

/-!
## Smells of tensor code

Rules for programs that import `tensorflow`.
-/

/-- Whether an expression calls `function` of the library under its name. -/
def callsFunction (library function : String) : Node → Bool
  | .call _ (.attribute _ (.name _ base) attr) _ _ => attr == function && base == library
  | _ => false

/-! ### Growing constants -/

def constantTensors (tensorflow : String) (n : Node) : List String :=
  n.walk.flatMap fun
    | .assign _ targets value =>
      if callsFunction tensorflow "constant" value then targets.filterMap Node.nameId? else []
    | _ => []

/-- The name of a tensor in a list: a variable or a called function. -/
def listedTensor? : Node → Option String
  | .name _ id => some id
  | .call _ (.name _ id) _ _ => some id
  | _ => none

def joinedTensors : Node → List String
  | .call _ _ args _ => args.flatMap fun
    | .name _ id => [id]
    | .list _ items => items.filterMap listedTensor?
    | _ => []
  | _ => []

/-- Whether a node assigns the result of joining one of `constants` with others. -/
def growsOneOf (tensorflow : String) (constants : List String) : Node → Bool
  | .assign _ _ value =>
    callsFunction tensorflow "concat" value && (joinedTensors value).any constants.contains
  | _ => false

/-- A constant tensor that is joined with others inside a loop. -/
def tensorArray : Rule where
  id := "TensorArrayNotUsedSmell"
  smell := "tensor_array_not_used"
  description := "If `tf.constant()` is used to initialize an array and modified in a loop, it " ++
    "may cause errors. Consider using `tf.TensorArray`for dynamically growing arrays."
  detect n facts := whenImported "tensorflow" facts fun tensorflow =>
    let constants := constantTensors tensorflow n
    .ok (n.walkWays.filterMap fun (way, m) =>
      if growsOneOf tensorflow constants m && n.inLoop way then
        some ⟨m.line, "Using `tf.TensorArray` is better for dynamically growing arrays."⟩
      else none)

/-! ### Tiling -/

def tiledVariables (tensorflow : String) (n : Node) : List String :=
  n.walk.filterMap fun
    | .assign _ (.name _ id :: _) value =>
      if callsFunction tensorflow "tile" value then some id else none
    | _ => none

/-- The name under which a tiling inside an expression is recognised. -/
def inlineTileName : String := "tf"

/-- Whether an expression is one of the variables `tiled`. -/
def isTiled (tiled : List String) : Node → Bool
  | .name _ id => tiled.contains id
  | _ => false

/-- The operand that is shown for an operation: the left one if it is a variable, or else the right
one. -/
def shownOperand : Node → Node → String
  | .name _ id, _ => id
  | _, .name _ id => id
  | _, _ => ""

def tiledRemark (shown : String) : String :=
  s!"Variable '{shown}' involves unnecessary tiling. Consider using broadcasting instead."

/-- What is said about a tiling inside an expression. -/
def inlineTileRemark : String :=
  "Inline use of `tf.tile` detected. Consider using broadcasting instead."

/-- What is said about an operation on tiled tensors. -/
def tiledOperand? (tiled : List String) : Node → Option String
  | .binOp _ left _ right =>
    if isTiled tiled left || isTiled tiled right then
      some (tiledRemark (shownOperand left right))
    else if callsFunction inlineTileName "tile" left ||
        callsFunction inlineTileName "tile" right then
      some inlineTileRemark
    else none
  | _ => none

/-- An operation on tensors that are tiled although they could be broadcast. -/
def broadcasting : Rule where
  id := "BroadcastingFeatureNotUsedSmell"
  smell := "Broadcasting_Feature_Not_Used"
  description := "Using broadcasting in TensorFlow is preferred over tiling arrays " ++
    "unnecessarily. Broadcasting allows arithmetic between arrays of different shapes, saving " ++
    "memory and computation time."
  detect n facts := whenImported "tensorflow" facts fun tensorflow =>
    let tiled := tiledVariables tensorflow n
    .ok (n.walk.filterMap fun m => (tiledOperand? tiled m).map (⟨m.line, ·⟩))

/-! ### Memory -/

/-- Whether an expression is `base` with the given attributes, outermost first. -/
def isAttributePath (base : String) : List String → Node → Bool
  | [], .name _ id => id == base
  | a :: r, .attribute _ value attr => attr == a && isAttributePath base r value
  | _, _ => false

/-- Whether a node calls the path of `attributes`, innermost first, of `base`. -/
def isNestedCall (base : String) (attributes : List String) : Node → Bool
  | .call _ func _ _ => isAttributePath base attributes.reverse func
  | _ => false

/-- Whether `loop` defines a model and does not free memory. -/
def leaksModels (tensorflow : String) (loop : Node) : Bool :=
  let calls (attributes : List String) : Bool :=
    loop.walk.any (isNestedCall tensorflow attributes)
  (calls ["keras", "Sequential"] || calls ["keras", "Model"]) &&
    !calls ["keras", "backend", "clear_session"]

/-- A loop that defines models and does not free memory. -/
def memoryNotFreed : Rule where
  id := "MemoryNotFreedSmell"
  smell := "memory_not_freed"
  description := "Memory not freed after model definition in loops may lead to memory leakage. " ++
    "Consider using tf.keras.backend.clear_session() to free memory explicitly."
  detect n facts := whenImported "tensorflow" facts fun tensorflow =>
    .ok (((n.walk.filter Node.isLoop).filter (leaksModels tensorflow)).map fun loop =>
      ⟨loop.line, "Memory not freed after model definition in loop. " ++
        "Consider using tf.keras.backend.clear_session()."⟩)

end SmellLint.Smell
