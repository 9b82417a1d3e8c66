import SmellLint.Dataset.Sample
import SmellLint.Dataset.SmellGuide
import SmellLint.Workspace.Stored

/-!
# Putting smells into functions

A language model is asked to put some smells, drawn at random, into a clean function.  A whole
dataset is worked on function by function.  After each function it is stored which functions are
done and what came of them, so that the work can be taken up again.
-/

namespace SmellLint.Injection

open Run

/-! ## Asking a model -/

/-- A language model: what it answers to a question. -/
abbrev Model := String → Run Json

def anyModel : Model := fun _ => nextReply

def usualModelName : String := "qwen2.5-coder:14b"

def localModel (name : String) : Model := fun question => do
  call "ollama.generate"
    [("model", .value (.str name)), ("prompt_chars", .value (.int question.length))]
  nextReply

def details (smell : String) : Except Fault String :=
  match SmellGuide.find? smell with
  | none => .error (.missingKey smell)
  | some g =>
    .ok (s!"- {smell}:\n  Description: {g.description}\n  Example: {g.illustration}\n" ++
      s!"  Definition: {g.definition}\n  Rationale: {g.rationale}")

def question (code : String) (smells : List String) : Except Fault String := do
  let told := "\n\n".intercalate (← smells.mapM details)
  return "You are a code generation assistant specializing in introducing " ++
    "intentional flaws (\"code smells\") into Python code. " ++
    "Below is a clean Python method:\n\n" ++
    code ++ "\n\n" ++
    "Task:\n" ++
    "1. Modify the function above to introduce the following code smells:\n" ++
    told ++ "\n\n" ++
    "2. Ensure the function remains functional but reflects the specified flaws.\n" ++
    "3. Do not create any new methods or functions. " ++
    "All modifications must be made within the given function.\n" ++
    "4. Do not add any imports or modify the import statements.\n" ++
    "5. Return only the modified function code.\n" ++
    "Instructions:\n" ++
    "- Inject the specified code smells directly into the function.\n" ++
    "- Take precise inspiration from the provided examples of code smells to ensure their " ++
    "characteristics are accurately reflected. " ++
    "If integrating a code smell into the given function is not possible, " ++
    "append a new snippet (even if out of context) showcasing the code smell, " ++
    "ensuring it aligns closely with the examples provided.\n" ++
    "- Do not include any additional comments, explanations, or external dependencies.\n"

def smellNames : List String := SmellGuide.names

def drawSmells (draw : Draw String) (count : Int) : Except Fault (List String) :=
  draw.sample count smellNames

/-- What is left of a text when nine characters in front and three at the end are taken away,
without blanks around it. -/
def withoutFence (cs : List Char) : List Char := Text.trimChars ((cs.take (cs.length - 3)).drop 9)

/-- The code of `answer`: what stands in its fence if all of it is in one. -/
def codeOfAnswer (answer : String) : String :=
  let cs := answer.toList
  let opens := (Text.dropStart? "```python".toList cs).isSome
  let closes := (Text.dropStart? "```".toList cs.reverse).isSome
  if opens && closes then String.ofList (withoutFence cs) else answer

/-- What a model makes of a function. -/
structure Reply where
  code : String
  smells : List String

def Reply.sample (r : Reply) : Sample String := { code := .str r.code, labels := r.smells }

/-- Asks `model` to put at most `limit` smells into `code`; `draw` picks the smells. -/
def inject (model : Model) (limit : Int) (code : String) (draw : Draw String := .first) :
    Run Reply := do
  let count ← drawNumber 1 limit
  let smells ← lift (drawSmells draw count)
  let answer ← model (← lift (question code smells))
  return { code := codeOfAnswer (← lift (answer.textFor "startswith")), smells }

/-! ## A whole dataset -/

/-- The sample that the stored function `entry` becomes.  An answer that starts with the name of the
language loses its fence. -/
def sampleOf (model : Model) (limit : Int) (entry : Json) (draw : Draw String := .first) :
    Run (Sample String) := do
  let code ← lift (entry.member "code")
  let reply ← inject model limit code.shown draw
  let cs := reply.code.toList
  if (Text.dropStart? "python".toList cs).isSome then
    return { reply with code := String.ofList (withoutFence cs) : Reply }.sample
  return reply.sample

/-- The sample that `entry` becomes by `sampleOf`, unless something goes wrong. -/
def sampleOf? (model : Model) (limit : Int) (entry : Json) (draw : Draw String := .first) :
    Run (Option (Sample String)) := do
  return (← outcome (sampleOf model limit entry draw)).toOption

/-- How far the work on a dataset has come: which functions are done and what came of them. -/
structure Progress where
  processed : List Atom
  results : List Json
deriving Inhabited

namespace Progress

def isDone (p : Progress) (index : Nat) : Bool := p.processed.any (Atom.same (.int index))

/-- Adds `n` to values in order. -/
def insertSorted (n : Int) : List Atom → List Atom
  | [] => [.int n]
  | a :: r =>
    if a.same (.int n) then a :: r
    else if a.atMost (.int n) then a :: insertSorted n r
    else .int n :: a :: r

/-- Notes that the function `index` is done and what came of it. -/
def note (p : Progress) (index : Nat) (result : Option (Sample String)) : Progress where
  processed := insertSorted index p.processed
  results := p.results ++ (result.map Sample.toJson).toList

end Progress

/-- What is stored on the way. -/
inductive Save where
  | checkpoint (processed : List Atom)
  | results (items : List Json)

/-- Works on functions in turn, those apart that are done, and has `save` store how far it has come
after each: first which functions are done, then what came of them. -/
def work {m : Type → Type} [Monad m] (answer : Json → m (Option (Sample String)))
    (save : Save → m Unit) (p : Progress) : List (Json × Nat) → m Progress
  | [] => pure p
  | (entry, index) :: rest =>
    if p.isDone index then work answer save p rest
    else do
      let result ← answer entry
      let p := p.note index result
      save (.checkpoint p.processed)
      save (.results p.results)
      work answer save p rest

/-- Where a dataset is stored, and where the work on it is. -/
structure Paths where
  input : String
  checkpoint : String
  output : String

def checkpointJson (processed : List Json) : Json := .obj [("processed", .arr processed)]

/-- The value that a file holds, or `default` if there is no file or it holds no value. -/
def readOr (path : String) (default : Json) : Run Json := do
  if !(← exists? path) then return default
  match ← outcome (readJson path) with
  | .ok j => return j
  | .error (.malformed _) => return default
  | .error e => throw e

namespace Paths

/-- The stored checkpoint and the stored results. -/
def load (p : Paths) : Run (Json × Json) := do
  let checkpoint ← readOr p.checkpoint (checkpointJson [])
  let results ← readOr p.output (.arr [])
  return (checkpoint, results)

def saveCheckpoint (p : Paths) (processed : List Json) : Run Unit :=
  writeJson p.checkpoint (checkpointJson processed)

def saveResults (p : Paths) (results : Json) : Run Unit := writeJson p.output results

def save (p : Paths) : Save → Run Unit
  | .checkpoint processed => p.saveCheckpoint (processed.map Atom.toJson)
  | .results items => p.saveResults (.arr items)

end Paths

def inTime (timeout : Float) (answer : Run (Option (Sample String))) :
    Run (Option (Sample String)) := do
  let result ← answer
  if (← get).outside.isLate && timeout < 0.1 then return none
  return result

/-- Works on functions from where an earlier run has come to.  If its `results` are no list, they
are stored as they are, and nothing can be added to them. -/
def resume (paths : Paths) (answer : Json → Run (Option (Sample String))) (processed : List Atom)
    (results : Json) (entries : List (Json × Nat)) : Run Progress :=
  match results with
  | .arr items => work answer paths.save { processed, results := items } entries
  | j =>
    let refuse (entry : Json) : Run (Option (Sample String)) := do
      if (← answer entry).isSome then throw (.noOperation j.kindName "append")
      return none
    let save : Save → Run Unit
      | .checkpoint processed => paths.save (.checkpoint processed)
      | .results _ => paths.saveResults j
    work refuse save { processed, results := [] } entries

/-- Works on a stored dataset from where an earlier run has come to. -/
def process (paths : Paths) (model : Model) (limit : Int) (timeout : Float)
    (draw : Draw String := .first) : Run Unit := do
  let dataset ← readJson paths.input
  let _ ← lift dataset.length
  let (checkpoint, results) ← paths.load
  let processed ← lift (do Atom.setOf (← checkpoint.member "processed"))
  let entries ← lift dataset.each
  modifyOutside fun o => { o with isLate := false }
  let answer := fun entry => inTime timeout (sampleOf? model limit entry draw)
  let _ ← resume paths answer (Atom.sort processed) results entries.zipIdx

end SmellLint.Injection
