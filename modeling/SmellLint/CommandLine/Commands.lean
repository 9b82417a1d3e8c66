import SmellLint.Dataset.Balance
import SmellLint.Dataset.Injection
import SmellLint.Dataset.Labelling
import SmellLint.Dataset.Similarity
import SmellLint.Repository
import SmellLint.Training.Evaluation
import SmellLint.Training.Trainer
import SmellLint.CommandLine.Analyze
import SmellLint.Report

/-!
# Commands

## The commands that prepare datasets

A dataset is prepared in five steps: repositories are searched for, functions are collected from
them, the functions are labelled, smells are put into clean functions, and balanced datasets are
built.  One command runs chosen steps; most steps are also commands of their own.
-/

namespace SmellLint.CommandLine

open Run

/-! ### Places -/

def rawFolder : String := "datasets/raw"

def functionsPath : String := "datasets/function_extracted.json"

def labelledFolder : String := "datasets/output_analysis"

/-- Where smells are put into functions. -/
def injectionPaths : Injection.Paths where
  input := Path.join labelledFolder "clean_functions.json"
  checkpoint := Path.join labelledFolder "checkpoint.json"
  output := Path.join labelledFolder "injected_functions.json"

/-- Where balanced datasets are built. -/
def balancePaths : Balance.Paths where
  clean := Path.join labelledFolder "clean_functions.json"
  smelly := Path.join labelledFolder "smelly_functions.json"
  injected := Path.join labelledFolder "injected_functions.json"
  output := "datasets/unified_balanced_dataset.json"

/-! ### Steps -/

def topics : List String :=
  ["machine-learning", "deep-learning", "data-science", "pandas", "tensorflow", "sklearn", "torch",
   "transformers"]

def searchRepositories : Run Unit := do
  let search ← Search.start rawFolder (Path.join rawFolder "processed_repos.json")
  let options : Search.Options :=
    { limit := 20, stars := ">=100", pushed := ">2023-06-01", download := true }
  let (_, outcome) ← search.run options topics
  lift outcome

/-- Refuses to go on without access to the search for repositories. -/
def requireToken : Run Unit := do
  match (← get).outside.token with
  | none | some "" => throw .noToken
  | some _ => return ()

def collectFunctions : Run Unit := do
  let functions ← Functions.below Functions.usualLibraries rawFolder
  Functions.save functionsPath (.arr (functions.map FoundFunction.toJson))

def runCollectFunctions : Run Unit := do
  collectFunctions
  print "Dataset created and saved as function_extracted.json."

def labelFunctions : Run Unit := do
  let (_, outcome) ← (← Labelling.start labelledFolder).run functionsPath 16
  lift outcome

/-- How long an answer of a model may take, in seconds. -/
def answerTimeout : Float := 1800.0

/-- Puts smells into clean functions. -/
def injectSmells : Run Unit :=
  Injection.process injectionPaths (Injection.localModel Injection.usualModelName) 1 answerTimeout

def buildBalanced (limit : Int) : Run Unit := do
  Balance.buildFull balancePaths { clean := 14000, perLabel := 700, injected := 12000 }
  Balance.buildInjectedOnly balancePaths limit limit

/-- Builds the balanced datasets with many samples. -/
def runBuildBalanced : Run Unit := buildBalanced 12000

/-- Judges a dataset of functions into which smells were put. -/
def judgeDataset : Run Unit := do
  (← Similarity.Judgement.start "datasets/injected.json" "C:/Users/Xzeni/Desktop/results").run

/-- The steps, by the names of their options, with what they do. -/
def steps : List (Opt × Run Unit) :=
  [(⟨"step1", .flag, false, "Run step 1: Download repositories from GitHub."⟩,
      do requireToken; searchRepositories),
   (⟨"step2", .flag, false, "Run step 2: Extract functions from repositories."⟩, collectFunctions),
   (⟨"step3", .flag, false, "Run step 3: Analyze functions for code smells."⟩, labelFunctions),
   (⟨"step4", .flag, false, "Run step 4: Inject code smells into clean functions."⟩, injectSmells),
   (⟨"step5", .flag, false, "Run step 5: Build unified and balanced datasets."⟩,
      buildBalanced 10000)]

/-- The command that runs chosen `steps`, under the name `program`. -/
def prepareCommand (program : String) : Command where
  program := program
  description := "Run selective steps of the tool."
  options := steps.map Prod.fst

/-- Runs the chosen `steps` in their order. -/
def runPrepare (program : String) (args : List String) : Run Unit := do
  let command := prepareCommand program
  let given ← command.parseOrExit args
  steps.forM fun (opt, step) => if isSet given opt.name then step else pure ()

/-!
## The commands that train and validate a model

A model is trained either on a mix of found and made samples, or on made samples only; then it is
validated.
-/

/-- What a training works on, and what it is called in messages. -/
structure TrainingPlan where
  kind : String
  numberFormat : Json
  input : String
  train : String
  validation : String
  split : Bool
  output : String
  epochs : Quantity

namespace TrainingPlan

/-- Training on a mix of found and made samples. -/
def mixed : TrainingPlan where
  kind := "mixed"
  numberFormat := .null
  input := "datasets/unified_balanced_dataset.json"
  train := "datasets/train_dataset.json"
  validation := "datasets/val_dataset.json"
  split := true
  output := "finetuning/outputs/mixed"
  epochs := .whole 3

def synthetic : TrainingPlan where
  kind := "synthetic"
  numberFormat := .str "None"
  input := "datasets/injected_only_balanced_dataset.json"
  train := "datasets/synthetic_train_dataset.json"
  validation := "datasets/synthetic_val_dataset.json"
  split := false
  output := "finetuning/outputs/synthetic"
  epochs := .real 2.5

def maxLength : Json := .int 2048

def adaptedParts : Json :=
  .ofStrings ["q_proj", "k_proj", "v_proj", "o_proj", "gate_proj", "up_proj", "down_proj"]

def run (p : TrainingPlan) : Run Unit := do
  print s!"Loading the model for {p.kind} data..."
  let trainer : Trainer :=
    { name := .str "unsloth/Qwen2.5-Coder-3B-Instruct", maxLength, numberFormat := p.numberFormat,
      inFourBits := .bool true }
  let trainer ← trainer.load
  let trainer ← trainer.adapt
    { rank := .int 16, targets := adaptedParts, alpha := .int 16, dropout := .int 0 }
  let trainer ← trainer.useTemplate Trainer.usualTemplate
  print s!"Processing the {p.kind} dataset..."
  let data : TrainingData :=
    { input := p.input, train := p.train, validation := p.validation, split := p.split }
  let (dataset, _) ← data.load
  print s!"Formatting the {p.kind} dataset for training..."
  let dataset ← TrainingData.formatted dataset
  print s!"Configuring the training for {p.kind} data..."
  let training : Training :=
    { model := trainer.model, tokenizer := trainer.tokenizer, dataset, maxLength,
      output := p.output, epochs := p.epochs, batch := .whole 8, accumulation := .whole 2 }
  let _ ← training.configure { rate := .float 0.0002, decay := .float 0.01, seed := .int 42 }
  print s!"Starting training on {p.kind} data..."
  training.train .null

end TrainingPlan

def trainCommand (program : String) : Command where
  program := program
  description := "Train a model on mixed or synthetic data."
  options :=
    [⟨"mode", .choice ["mixed", "synthetic"], true,
      "Specify the training mode: 'mixed'  for mixed data or 'synthetic' for synthetic data."⟩]

def runTrain (program : String) (args : List String) : Run Unit := do
  let given ← (trainCommand program).parseOrExit args
  if textValue given "mode" == "mixed" then TrainingPlan.mixed.run else TrainingPlan.synthetic.run

/-- Validates the model that was trained on made samples. -/
def runValidate : Run Unit := do
  let trainer : Trainer :=
    { name := .str TrainingPlan.synthetic.output, maxLength := TrainingPlan.maxLength,
      numberFormat := .null, inFourBits := .bool true }
  let trainer ← trainer.load
  call "for_inference" [("model", .ofHandle? trainer.model)]
  let dataset ← readJson TrainingPlan.synthetic.validation
  let labels ← Evaluation.askAll (Evaluation.responder Evaluation.usualDevice) Label.known dataset
  let share ← Evaluation.report labels
  print s!"Accuracy: {Decimal.fixed 4 share}"
  print "Classification Report:"
  print "None"

/-!
## The commands of the program

Everything that can be started from a command line, by name.
-/

/-- What a command does, given the name by which it was called and its arguments. -/
abbrev Action := String → List String → Run Unit

def commands : List (String × Action) :=
  [("analyze", runAnalyze), ("report", Report.runCommand), ("prepare", runPrepare),
   ("search", fun _ _ => searchRepositories), ("collect", fun _ _ => runCollectFunctions),
   ("label", fun _ _ => labelFunctions), ("inject", fun _ _ => injectSmells),
   ("balance", fun _ _ => runBuildBalanced), ("judge", fun _ _ => judgeDataset),
   ("train", runTrain), ("validate", fun _ _ => runValidate)]

def command? (name : String) : Option Action := commands.lookup name

end SmellLint.CommandLine
