import SmellLint.Smell.Basic

/-!
# Smells of training code

Rules for programs that use `torch`.
-/

namespace SmellLint.Smell

open Syntax (Node)

/-! ## Gradients -/

/-- A call of a method on a variable: the variable and the method. -/
def variableCall? : Node → Option (String × String)
  | .call _ (.attribute _ (.name _ id) attr) _ _ => some (id, attr)
  | _ => none

/-- The lines on which a loop calls `backward` on a known variable before any call of `zero_grad` on
one, in the order of the walk. -/
def unclearedLines (names : List String) : Bool → List Node → List Nat
  | _, [] => []
  | cleared, n :: r =>
    match variableCall? n with
    | some (id, attr) =>
      let cleared := cleared || (attr == "zero_grad" && names.contains id)
      if attr == "backward" && names.contains id && !cleared then
        n.line :: unclearedLines names cleared r
      else unclearedLines names cleared r
    | none => unclearedLines names cleared r

/-- A loop that propagates gradients without clearing them first. -/
def gradients : Rule where
  id := "GradientsNotClearedSmell"
  smell := "gradients_not_cleared_before_backward_propagation"
  description := "radients must be cleared using `zero_grad()` before calling `backward()`."
  detect n facts := whenImported "torch" facts fun _ => do
    let names ← facts.requireVariables
    return (n.walk.filter Node.isLoop).flatMap fun loop =>
      (unclearedLines names false loop.walk).map fun line =>
        ⟨line, s!"`zero_grad()` not called before `backward()` in loop. " ++
          s!"Code: {facts.lineText line}"⟩

/-! ## Direct calls of `forward` -/

/-- The name that a chain of attributes starts with. -/
def baseName? : Node → Option String
  | .name _ id => some id
  | .attribute _ value _ => baseName? value
  | _ => none

/-- What is said about a direct call of `forward`. -/
def forwardCall? (names : List String) : Node → Option String
  | .call _ (.attribute _ base "forward") _ _ =>
    match baseName? base with
    | some id =>
      if id == "self" || names.contains id then
        some (s!"Direct call to `{id}.forward()` detected. " ++
          "Use the model instance directly instead.")
      else none
    | none => none
  | _ => none

def forwardCalls : Rule where
  id := "PyTorchCallMethodMisusedSmell"
  smell := "pytorch_call_method_misused"
  description := "Direct calls to `forward` in PyTorch models are discouraged. " ++
    "Use the model instance directly instead."
  detect n facts := whenImported "torch" facts fun _ => do
    let names ← facts.requireVariables
    return n.walk.filterMap fun m => (forwardCall? names m).map (⟨m.line, ·⟩)

/-! ## Determinism -/

/-- The full names of the function that asks for deterministic algorithms. -/
def deterministicNames : List String :=
  ["torch.use_deterministic_algorithms", "use_deterministic_algorithms"]

/-- What is said about a call that asks for deterministic algorithms. -/
def deterministicCall? (libraries : LibraryMap) : Node → Option String
  | .call _ func [.constant _ (.bool true)] _ =>
    let name := libraries.fullName func
    if deterministicNames.contains name then
      some s!"Using `{name}(True)` detected.Avoid for performance."
    else none
  | _ => none

def deterministicAlgorithms : Rule where
  id := "DeterministicAlgorithmOptionSmell"
  smell := "deterministic_algorithm_option_not_used"
  description :=
    "Using `torch.use_deterministic_algorithms(True)` can cause performance issues. " ++
    "Avoid using this option unlessdeterminism is strictly required."
  detect n facts :=
    let libraries := facts.libraries.getD .empty
    .ok (n.walk.filterMap fun m => (deterministicCall? libraries m).map (⟨m.line, ·⟩))

/-!
## Models without parameters

A model of the catalogue that is made without any argument.
-/

/-- The name of a model in the catalogue, without call brackets. -/
def modelName : Cell → Except Fault String
  | .text s => .ok (Text.replaceAll s "()" "")
  | c => .error (.noOperation c.kindName "replace")

def lastComponent (name : String) : String := ((Text.splitOn '.' name).getLast?).getD ""

/-- The full name of one of `models` that is made without arguments. -/
def bareModel? (libraries : LibraryMap) (models : List String) : Node → Option String
  | .call _ func [] [] =>
    let name := libraries.fullName func
    if models.contains (lastComponent name) then some name else none
  | _ => none

/-- A model that is made without any argument. -/
def hyperparameters : Rule where
  id := "HyperparametersNotExplicitlySetSmell"
  smell := "hyperparameters_not_explicitly_set"
  description := "Hyperparameters should be explicitly set when defining models to ensure " ++
    "clarity and reproducibility."
  detect n facts :=
    match facts.libraries with
    | none => .ok []
    | some libraries =>
      if libraries.isEmpty then .ok []
      else do
        let models ← match facts.modelMethods with
          | .absent => pure []
          | .nothing => throw .nothingToIterate
          | .value cells => cells.mapM modelName
        return n.walk.filterMap fun m => (bareModel? libraries models m).map fun name =>
          ⟨m.line, s!"Hyperparameters not explicitly set for model '{name}'. " ++
            "Consider defining key hyperparameters for clarity."⟩

end SmellLint.Smell
