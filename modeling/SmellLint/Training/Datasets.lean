import SmellLint.Listing
import SmellLint.Workspace.Stored

/-!
# Conversations and datasets

## Conversations

A sample becomes a conversation in which a user shows code and an assistant lists its smells.  The
list can be read again from an answer of a model (`predictedLabels`) and from a stored conversation
(`trueLabels`).
-/

namespace SmellLint

open Run

/-- What one side says. -/
structure Message where
  role : String
  content : String
deriving Inhabited, DecidableEq

def Message.toJson (m : Message) : Json := .obj [("role", .str m.role), ("content", .str m.content)]

namespace Conversation

/-- The conversation about a piece of code with a list of labels, given as texts. -/
def messages (code listing : String) : List Message :=
  [⟨"system", "You are an assistant trained to detect code smells in Python code."⟩,
   ⟨"user", s!"Here is the code:\n{code}\nIdentify the code smells."⟩,
   ⟨"assistant", listing⟩]

/-- The conversation about `code` with `labels`. -/
def ofLabels (code : String) (labels : List String) : List Message :=
  messages code (Listing.render labels)

def toJson (ms : List Message) : Json := .arr (ms.map Message.toJson)

/-- The conversation about the stored `sample`. -/
def ofSample (sample : Json) : Except Fault Json := do
  let code ← sample.member "code"
  let listing ← (← sample.member "labels").joined "\n- "
  return toJson (messages code.shown (Listing.heading ++ "\n- " ++ listing))

/-! ### Reading lists of smells -/

/-- Labels that were read, and what is to be printed about it. -/
structure Reading where
  notes : List String
  labels : List String

def predictedLabels (known : List String) (answer : String) : Reading :=
  match Listing.after? answer with
  | none => ⟨["No 'The code smells are:' section found in response."], []⟩
  | some rest =>
    let names := Listing.itemNames rest
    ⟨(names.filter fun n => !known.contains n).map fun n => s!"Unrecognized label: {n}",
      (names.filter known.contains).eraseDups⟩

def listedLabels (content : String) : Reading :=
  match Listing.after? content with
  | none => ⟨[s!"No valid smells found in: {content}"], []⟩
  | some rest => ⟨[], ((Listing.items rest).map Text.trim).eraseDups⟩

def thirdContent (conversation : Json) : Except Fault Json := do
  (← conversation.item 2).member "content"

/-- The labels that the assistant lists in a stored conversation, each once.  That its message or
the content of it is missing is only noted. -/
def trueLabels (conversation : Json) : Except Fault Reading :=
  match thirdContent conversation with
  | .ok content => return listedLabels (← content.text)
  | .error e =>
    if e.kind = .noKey || e.kind = .outOfRange then
      .ok ⟨[s!"Error extracting labels: {e.message}"], []⟩
    else .error e

def userMessages (conversation : Json) : Except Fault (List Json) := do
  (← conversation.each).filterM fun m => return (← m.member "role").str? == some "user"

end Conversation

/-!
## Datasets for training

Samples become conversations, of which most are for training and the others for validation.  A
dataset is kept by its columns.
-/

/-- Where samples come from, and where the datasets for training and validation are stored. -/
structure TrainingData where
  input : String
  train : String
  validation : String
  /-- Whether the validation samples are split off, or taken from other files. -/
  split : Bool := true

namespace TrainingData

/-- A dataset with one column of conversations. -/
def ofConversations (conversations : List Json) : Json :=
  .obj [("conversations", .arr conversations)]

def conversationsOf (samples : Json) : Except Fault (List Json) := do
  (← samples.each).mapM Conversation.ofSample

/-- How many of some conversations are for validation: a fifth. -/
def validationCount (count : Nat) : Nat := count / 5

/-- Splits conversations into those for training and those for validation. -/
def splitOff (conversations : List Json) : List Json × List Json :=
  let count := conversations.length - validationCount conversations.length
  (conversations.take count, conversations.drop count)

def save (d : TrainingData) (train validation : Json) : Run Unit := do
  writeJsonLine d.train train
  writeJsonLine d.validation validation

def loadStored (d : TrainingData) : Run (Json × Json) := do
  let train ← readJson d.train
  let validation ← readJson d.validation
  return (train, validation)

def loadSplit (d : TrainingData) : Run (Json × Json) := do
  let conversations ← lift (conversationsOf (← readJson d.input))
  call "train_test_split"
    [("test_size", .value (.float 0.2)), ("shuffle", .value (.bool true)),
     ("seed", .value (.int 3407))]
  let (train, validation) := splitOff conversations
  d.save (ofConversations train) (ofConversations validation)
  return (ofConversations train, ofConversations validation)

/-- The file with rare samples for validation. -/
def nicheSource : String := "datasets/smelly_niche.json"

/-- The file with other samples for validation. -/
def functionSource : String := "datasets/output_analysis/smelly_functions.json"

/-- The datasets when the samples for validation come from other files. -/
def loadApart (d : TrainingData) : Run (Json × Json) := do
  let train ← lift (conversationsOf (← readJson d.input))
  let niche ← readJson nicheSource
  let functions ← readJson functionSource
  let validation ← lift (do conversationsOf (← niche.plus functions))
  d.save (ofConversations train) (ofConversations validation)
  return (ofConversations train, ofConversations validation)

def load (d : TrainingData) : Run (Json × Json) := do
  if !d.split then d.loadApart
  else if (← exists? d.train) && (← exists? d.validation) then d.loadStored
  else d.loadSplit

/-! ### Formatting -/

def textOf (conversation : Json) : Except Fault String := do
  let pieces ← (← conversation.each).mapM fun m => do
    let role ← m.member "role"
    let content ← m.member "content"
    return s!"[{role.shown}]{content.shown}"
  return String.join pieces

/-- A conversation as one text, as the toolkit puts it. -/
def format (conversation : Json) : Run Json := do
  call "apply_chat_template"
    [("messages", .value conversation), ("tokenize", .value (.bool false)),
     ("add_generation_prompt", .value (.bool false))]
  return .str (← lift (textOf conversation))

/-- `dataset` with a column of the texts of its conversations. -/
def formatted (dataset : Json) : Run Json := do
  call "map" [("batched", .value (.bool true))]
  let conversations ← lift (do (← dataset.member "conversations").each)
  let texts ← conversations.mapM format
  return .obj (Json.setMember dataset.members "text" (.arr texts))

/-- The number of rows of `dataset`: that of its first column. -/
def rowCount (dataset : Json) : Nat :=
  match dataset.members with
  | (_, column) :: _ => column.items.length
  | [] => 0

end TrainingData
end SmellLint
