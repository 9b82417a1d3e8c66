import SmellLint.Training.Datasets

/-!
# Training

## Training schedules

How many steps a training has, and over how many of them it warms up.  Numbers may be whole or not;
whole numbers are exact, and a calculation with a number that is not whole gives such a number.
-/

namespace SmellLint

open Run

/-- A number that is whole, or one that need not be. -/
inductive Quantity where
  | whole (n : Int)
  | real (x : Float)
deriving Inhabited

namespace Quantity

def toJson : Quantity → Json
  | .whole n => .int n
  | .real x => .float x

/-- Reads a stored quantity; a truth value counts as one or zero, and what is no number as zero. -/
def ofJson : Json → Quantity
  | .int n => .whole n
  | .float x => .real x
  | .bool true => .whole 1
  | _ => .whole 0

/-- A whole number as one that need not be. -/
def floatOf (n : Int) : Except Fault Float :=
  let x := Decimal.nearestFloat n.natAbs 0
  if x.isInf then .error .tooLarge else .ok (if n < 0 then -x else x)

/-- A quantity as a number that need not be whole. -/
def toFloat : Quantity → Except Fault Float
  | .whole n => floatOf n
  | .real x => .ok x

def mul (a b : Quantity) : Except Fault Quantity :=
  match a, b with
  | .whole n, .whole m => .ok (.whole (n * m))
  | a, b => return .real ((← a.toFloat) * (← b.toFloat))

/-- A finite number as a whole number times a power of two. -/
def parts? (x : Float) : Option (Int × Int) :=
  match Decimal.Double.ofFloat x with
  | .nan => none
  | .infinite _ => none
  | .zero _ => some (0, 0)
  | .finite negative b => some (if negative then -(b.mantissa : Int) else b.mantissa, b.exponent)

/-- What is left of `x` after as many whole `y` as fit into it, with the sign of `x`.  Both numbers
are whole multiples of a power of two, and so is the result, which is exact. -/
def remainder (x y : Float) : Float :=
  match parts? x, parts? y with
  | some (m, e), some (n, f) =>
    let least := min e f
    let m := m * Nat.pow 2 (e - least).toNat
    let n := n * Nat.pow 2 (f - least).toNat
    (Float.ofInt (m.tmod n)).scaleB least
  | some _, none => if y.isNaN then y else x
  | none, _ => 0.0 / 0.0

/-- The quotient of `x` and `y`, rounded down: the `remainder` is taken away first, and the quotient
is then moved to the nearest whole number. -/
def floorQuotient (x y : Float) : Except Fault Float :=
  if y == 0.0 then .error (.divisionByZero false)
  else
    let rest := remainder x y
    let quotient := (x - rest) / y
    let quotient := if rest != 0.0 && (y < 0.0) != (rest < 0.0) then quotient - 1.0 else quotient
    let below := quotient.floor
    .ok (if quotient - below > 0.5 then below + 1.0 else below)

/-- The quotient of `a` and `b`, rounded down. -/
def floorDiv (a b : Quantity) : Except Fault Quantity :=
  match a, b with
  | .whole n, .whole m => if m = 0 then .error (.divisionByZero true) else .ok (.whole (n.fdiv m))
  | a, b => return .real (← floorQuotient (← a.toFloat) (← b.toFloat))

def truncate : Quantity → Except Fault Int
  | .whole n => .ok n
  | .real x =>
    match (Decimal.Double.ofFloat x).truncated? with
    | some n => .ok n
    | none => .error (.notFinite x.isNaN)

end Quantity

/-- Over how many steps a training warms up: a `share` of all steps, but at least one. -/
def warmupSteps (length epochs batch share : Quantity) : Except Fault Int := do
  let total ← (← length.mul epochs).floorDiv batch
  return max 1 (← (← total.mul share).truncate)

/-!
## Training a model

A model is loaded, made adaptable and given a format for conversations; then a training is set up
and carried out, and what was trained is stored.  The work itself is done by the toolkit.
-/

/-- A model to be trained, with its tokenizer once they are loaded. -/
structure Trainer where
  name : Json
  maxLength : Json
  numberFormat : Json
  inFourBits : Json
  model : Option Handle := none
  tokenizer : Option Handle := none

namespace Trainer

/-- Loads the model and its tokenizer. -/
def load (t : Trainer) : Run Trainer := do
  call "from_pretrained"
    [("model_name", .value t.name), ("max_seq_length", .value t.maxLength),
     ("dtype", .value t.numberFormat), ("load_in_4bit", .value t.inFourBits)]
  return { t with model := some .model, tokenizer := some .tokenizer }

/-- How a model is made adaptable. -/
structure Adaptation where
  rank : Json
  targets : Json
  alpha : Json
  dropout : Json
  bias : Json := .str "none"
  checkpointing : Json := .str "unsloth"
  seed : Json := .int 3407
  stabilized : Json := .bool false
  quantization : Json := .null

/-- The adaptation that arguments describe, some by their position and others by name; those left
out have their usual values. -/
def Adaptation.ofArguments (args : List Json) (named : Keyed Json) : Adaptation :=
  let arg (position : Nat) (name : String) (usual : Json) : Json :=
    ((args[position]?).or (named.get? name)).getD usual
  let usual : Adaptation := { rank := .null, targets := .null, alpha := .null, dropout := .null }
  { rank := arg 0 "r" usual.rank
    targets := arg 1 "target_modules" usual.targets
    alpha := arg 2 "lora_alpha" usual.alpha
    dropout := arg 3 "lora_dropout" usual.dropout
    bias := arg 4 "bias" usual.bias
    checkpointing := arg 5 "use_gradient_checkpointing" usual.checkpointing
    seed := arg 6 "random_state" usual.seed
    stabilized := arg 7 "use_rslora" usual.stabilized
    quantization := arg 8 "loftq_config" usual.quantization }

def adapt (t : Trainer) (a : Adaptation) : Run Trainer := do
  call "get_peft_model"
    [("model", .ofHandle? t.model), ("r", .value a.rank), ("target_modules", .value a.targets),
     ("lora_alpha", .value a.alpha), ("lora_dropout", .value a.dropout), ("bias", .value a.bias),
     ("use_gradient_checkpointing", .value a.checkpointing), ("random_state", .value a.seed),
     ("use_rslora", .value a.stabilized), ("loftq_config", .value a.quantization)]
  return { t with model := some .adaptedModel }

def usualTemplate : String := "qwen-2.5"

/-- Gives the tokenizer the format `template` for conversations. -/
def useTemplate (t : Trainer) (template : String) : Run Trainer := do
  match t.tokenizer with
  | none => throw .tokenizerNotLoaded
  | some current =>
    call "get_chat_template"
      [("tokenizer", .handle current), ("chat_template", .value (.str template))]
    print s!"Chat template '{template}' applied to the tokenizer."
    return { t with tokenizer := some .chatTokenizer }

end Trainer

/-- A training: what is trained on what, and where the result goes. -/
structure Training where
  model : Option Handle
  tokenizer : Option Handle
  dataset : Json
  maxLength : Json
  output : String
  epochs : Quantity
  batch : Quantity
  accumulation : Quantity

namespace Training

/-- How fast and how steadily a training learns. -/
structure Pace where
  rate : Json
  decay : Json
  seed : Json

/-- The share of the steps over which a training warms up. -/
def warmupShare : Float := 0.05

/-- Sets up a training and gives its `warmupSteps`. -/
def configure (t : Training) (pace : Pace) : Run Int := do
  let batch ← lift (t.batch.mul t.accumulation)
  let length := Quantity.whole (TrainingData.rowCount t.dataset)
  let warmup ← lift (warmupSteps length t.epochs batch (.real warmupShare))
  let short := (← get).outside.hasShortFloats
  call "DataCollatorForSeq2Seq" [("tokenizer", .ofHandle? t.tokenizer)]
  call "TrainingArguments"
    [("per_device_train_batch_size", .value t.batch.toJson),
     ("gradient_accumulation_steps", .value t.accumulation.toJson),
     ("warmup_steps", .value (.int warmup)), ("num_train_epochs", .value t.epochs.toJson),
     ("learning_rate", .value pace.rate), ("fp16", .value (.bool !short)),
     ("bf16", .value (.bool short)), ("logging_steps", .value (.int 1)),
     ("eval_strategy", .value (.str "no")), ("save_steps", .value (.int 100)),
     ("save_total_limit", .value (.int 3)), ("optim", .value (.str "adamw_8bit")),
     ("weight_decay", .value pace.decay), ("lr_scheduler_type", .value (.str "linear")),
     ("seed", .value pace.seed), ("output_dir", .value (.str "finetuning/checkpoints")),
     ("report_to", .value (.str "none"))]
  call "SFTTrainer"
    [("model", .ofHandle? t.model), ("tokenizer", .ofHandle? t.tokenizer),
     ("train_dataset", .dataset t.dataset), ("dataset_text_field", .value (.str "text")),
     ("max_seq_length", .value t.maxLength), ("data_collator", .handle .collator),
     ("dataset_num_proc", .value (.int 2)), ("packing", .value (.bool false)),
     ("args", .handle .arguments)]
  call "train_on_responses_only"
    [("trainer", .handle .trainer), ("instruction_part", .value (.str "<|im_start|>user\n")),
     ("response_part", .value (.str "<|im_start|>assistant\n"))]
  return warmup

/-- Something of the toolkit that has to be there to be stored. -/
def storable (h : Option Handle) : Run Handle := do
  match h with
  | some h => return h
  | none => throw (.noOperation "NoneType" "save_pretrained")

/-- Stores `h` under the output path. -/
def store (t : Training) (what : String) (h : Option Handle) : Run Unit := do
  let _ ← storable h
  call s!"{what}.save_pretrained" [("path", .value (.str t.output))]

/-- Carries out a training, from `checkpoint` if there is one, and stores what was trained. -/
def train (t : Training) (checkpoint : Json) : Run Unit := do
  print "Starting training..."
  print checkpoint.shown
  call "train"
    (if checkpoint.isNull then [] else [("resume_from_checkpoint", .value checkpoint)])
  print "Training completed. Stats: stats"
  t.store "model" t.model
  t.store "tokenizer" t.tokenizer
  print s!"Model and tokenizer saved to {t.output}"
  let exported := t.output ++ "_gguf"
  call "model.save_pretrained_gguf"
    [("path", .value (.str exported)), ("tokenizer", .ofHandle? t.tokenizer),
     ("quantization_method", .value (.str "q8_0"))]
  if (← get).outside.makesExportDir then makeDirs exported
  print s!"Model saved in GGUF format at {t.output}"
  let description := exported ++ "/Modelfile"
  writeText description "FROM model\n"
  print s!"Model saved for Ollama at {description}"

end Training
end SmellLint
