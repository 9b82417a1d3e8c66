import SmellLint.Training.Datasets

/-!
# Evaluating a model

A model is asked about conversations, and the labels it gives are compared with the true ones.  Only
the labels that occur among the true ones count: a sample is right if it has exactly those of them
that it should have.
-/

namespace SmellLint.Evaluation

open Run

/-! ## Asking -/

/-- A model that answers messages with a list of texts. -/
abbrev Responder := Json → Run Json

/-- A model of the toolkit on `device`. -/
def responder (device : String) : Responder := fun messages => do
  call "apply_chat_template"
    [("messages", .value messages), ("tokenize", .value (.bool true)),
     ("add_generation_prompt", .value (.bool true)), ("return_tensors", .value (.str "pt"))]
  call "to" [("device", .value (.str device))]
  call "model.generate"
    [("input_ids", .handle .inputs), ("max_new_tokens", .value (.int 128)),
     ("use_cache", .value (.bool true)), ("temperature", .value (.float 1.5)),
     ("min_p", .value (.float 0.1))]
  call "batch_decode"
    [("outputs", .handle .outputs), ("skip_special_tokens", .value (.bool true))]
  nextReply

def usualDevice : String := "cuda"

/-- The true and the predicted labels of samples. -/
structure Labels where
  expected : List (List String) := []
  predicted : List (List String) := []

def noted (r : Conversation.Reading) : Run (List String) := do
  printAll r.notes
  return r.labels

def ask (model : Responder) (known : List String) (soFar : Labels) (conversation : Json) :
    Run Labels := do
  let expected ← noted (← lift (Conversation.trueLabels conversation))
  let answers ← model (.arr (← lift (Conversation.userMessages conversation)))
  let predicted ←
    if answers.isTrue then
      noted (← lift (do return Conversation.predictedLabels known (← (← answers.item 0).text)))
    else pure []
  return { expected := soFar.expected ++ [expected], predicted := soFar.predicted ++ [predicted] }

def askAll (model : Responder) (known : List String) (dataset : Json) : Run Labels := do
  let conversations ← lift (do (← dataset.member "conversations").each)
  conversations.foldlM (ask model known) {}

/-! ## Comparing -/

/-- The labels that count: those that occur in `expected`. -/
def counted (expected : List (List String)) : List String := expected.flatten.eraseDups

/-- Which of `labels` a sample with the labels `own` has. -/
def row (labels own : List String) : List Bool := labels.map own.contains

def extents (rows : List (List Bool)) (width : Nat) : List Nat :=
  if rows.isEmpty then [0] else [rows.length, width]

/-- Pairs the rows of `xs` and `ys`.  A grid of one row pairs that row with all rows of the other,
and where one of them has no rows, what is left to compare is empty in every row. -/
def paired (width : Nat) (xs ys : List (List Bool)) : Except Fault (List (List Bool × List Bool)) :=
  let mismatch := Fault.unequalShapes (extents xs width) (extents ys width)
  match xs, ys with
  | [], [] => .error .noRows
  | [], ys => .ok (ys.map fun _ => ([], []))
  | xs, [] => if width ≤ 1 then .ok (xs.map fun _ => ([], [])) else .error mismatch
  | [x], ys => .ok (ys.map fun y => (x, y))
  | xs, [y] => .ok (xs.map fun x => (x, y))
  | xs, ys => if xs.length = ys.length then .ok (xs.zip ys) else .error mismatch

/-- How many samples are right, and how many there are. -/
def hits (l : Labels) : Except Fault (Nat × Nat) := do
  let labels := counted l.expected
  let pairs ← paired labels.length (l.expected.map (row labels)) (l.predicted.map (row labels))
  return (pairs.countP fun (x, y) => x == y, pairs.length)

/-- The share of samples that are right. -/
def accuracy (l : Labels) : Except Fault Float := do
  let (right, all) ← hits l
  return Float.ofNat right / Float.ofNat all

/-- Which of `samples` have `label`, as ones and zeros. -/
def column (label : String) (samples : List (List String)) : Json :=
  .arr (samples.map fun own => .int (if own.contains label then 1 else 0))

/-- The `accuracy`; a report on each label is made outside. -/
def report (l : Labels) : Run Float := do
  let share ← lift (accuracy l)
  let labels := (counted l.expected).mergeSort fun a b => a ≤ b
  let columns := labels.map fun label =>
    Json.arr [.str label, column label l.expected, column label l.predicted]
  call "classification_report"
    [("columns", .value (.arr columns)), ("zero_division", .value (.int 0))]
  return share

end SmellLint.Evaluation
