import SmellLint.Dataset.Sample
import SmellLint.Listing
import SmellLint.Workspace.Stored

/-!
# Balanced datasets

A dataset for training is put together from clean functions, functions with smells, and functions
into which smells were put.  For each label a number of samples is drawn, each label on its own, so
that a sample with several labels can be drawn several times.
-/

namespace SmellLint.Balance

open Run

/-! ## Code in replies -/

def blockStart : List Char := "```python".toList

def blockEnd : List Char := "```".toList

/-- The first block of code: after its first line, up to its end. -/
def firstBlock? (cs : List Char) : Option (List Char) := do
  let (_, rest) ← Text.splitAtFirst? (blockStart ++ ['\n']) cs
  let (body, _) ← Text.splitAtFirst? blockEnd rest
  return body

/-- The code of `reply`: its `firstBlock?`, or else `reply` without the start of a block. -/
def codeOf (reply : String) : String :=
  let cs := reply.toList
  let body := match firstBlock? cs with
    | some body => body
    | none => (Text.dropStart? blockStart cs).getD cs
  String.ofList (Text.trimChars body)

def withoutComments (code : String) : String :=
  "\n".intercalate ((Text.displayLines code).filter fun line =>
    (Text.trim line).toList.head? != some '#')

/-! ## Samples -/

/-- The label of a name; what is no name stands for itself. -/
def readableLabel : Atom → Atom
  | .text name => .text (Label.readable name)
  | a => a

def readableLabels (names : Json) : Except Fault (List Atom) := do
  return (← (← names.each).mapM Atom.ofJson).map readableLabel

def smellySample (j : Json) : Except Fault (Sample Atom) := do
  let code ← j.member "code"
  let labels ← readableLabels (← j.member "labels")
  return { code, labels }

def smellySamples (items : Json) : Except Fault (List (Sample Atom)) := do
  (← items.each).mapM smellySample

/-- A stored function into which smells were put. -/
def injectedSample (j : Json) : Except Fault (Sample Atom) := do
  let code ← (← j.member "code").text
  let labels ← Atom.setOf (← j.member "labels")
  return { code := .str (withoutComments (codeOf code)), labels := labels.map readableLabel }

/-- Some of the functions into which smells were put, at most `limit` of them. -/
def injectedSamples (draw : Draw Json) (limit : Int) (items : Json) :
    Except Fault (List (Sample Atom)) := do
  let count ← items.length
  (← draw.sample (min limit count) (← items.sequence)).mapM injectedSample

/-! ## Balancing -/

variable {α : Type}

/-- Adds `s` to the group of `label`, which may be new. -/
def addTo (label : Atom) (s : α) : List (Atom × List α) → List (Atom × List α)
  | [] => [(label, [s])]
  | (l, group) :: r =>
    if l.same label then (l, group ++ [s]) :: r else (l, group) :: addTo label s r

def addSample (groups : List (Atom × List α)) (s : α × List Atom) : List (Atom × List α) :=
  s.2.foldl (fun groups label => addTo label s.1 groups) groups

/-- `samples` by label, in the order in which the labels are met; a sample stands once for each time
it carries the label. -/
def byLabel (samples : List (α × List Atom)) : List (Atom × List α) := samples.foldl addSample []

def balance (draw : Draw α) (perLabel : Int) (samples : List (α × List Atom)) :
    Except Fault (List α) := do
  return (← (byLabel samples).mapM fun (_, group) => draw.atMost perLabel group).flatten

def labelled (s : Sample Atom) : Sample Atom × List Atom := (s, s.labels)

/-- Balances stored samples of two kinds. -/
def balanceStored (draw : Draw Json) (perLabel : Int) (smelly injected : Json) :
    Except Fault (List Json) := do
  let samples ← (← (← smelly.plus injected).each).mapM fun j => return (j, ← Sample.labelsOf j)
  balance draw perLabel samples

/-- How often each label occurs, in the order in which the labels are met. -/
def labelCounts (samples : List (Sample Atom)) : List (Atom × Nat) :=
  (byLabel (samples.map labelled)).map fun (label, group) => (label, group.length)

/-! ## Datasets -/

/-- Where the parts of a dataset are stored, and where the dataset goes. -/
structure Paths where
  clean : String
  smelly : String
  injected : String
  output : String

/-- How many samples are wanted.  All clean functions are kept, whatever number is wanted. -/
structure Targets where
  clean : Int
  perLabel : Int
  injected : Int

/-- How samples are drawn, and the order in which a dataset is stored. -/
structure Chance where
  entries : Draw Json := .first
  samples : Draw (Sample Atom) := .first
  shuffle : List Json → List Json := id

/-- The parts of a balanced dataset. -/
structure Parts where
  clean : List Json
  smelly : List (Sample Atom)
  injected : List (Sample Atom)
  balanced : List (Sample Atom)

def Parts.all (p : Parts) : List Json := p.clean ++ p.balanced.map Sample.toJson

/-- Puts `samples` behind the stored functions `clean`, which have to be a list. -/
def extend (clean : Json) (samples : List (Sample Atom)) : Except Fault (List Json) := do
  return (← clean.plus (Sample.listToJson samples)).items

/-- Puts a dataset together from stored functions. -/
def compose (chance : Chance) (targets : Targets) (clean smelly injected : Json) :
    Except Fault Parts := do
  let smelly ← smellySamples smelly
  let injected ← injectedSamples chance.entries targets.injected injected
  let balanced ← balance chance.samples targets.perLabel ((smelly ++ injected).map labelled)
  let _ ← extend clean balanced
  return { clean := clean.items, smelly, injected, balanced }

/-- What is printed about a dataset. -/
def Parts.statistics (p : Parts) : List String :=
  ["Dataset statistics for full dataset:",
   s!"  Total samples: {p.all.length}",
   s!"  Clean samples: {p.clean.length}",
   s!"  Smelly samples: {p.smelly.length}",
   s!"  Injected samples: {p.injected.length}",
   "  Smell occurrences:"] ++
    (labelCounts p.balanced).map fun (label, count) => s!"    {label.shown}: {count}"

/-- Builds with `compose` and stores a dataset from clean functions, functions with smells and
functions into which smells were put. -/
def buildFull (paths : Paths) (targets : Targets) (chance : Chance := {}) : Run Unit := do
  let clean ← readJson paths.clean
  let smelly ← readJson paths.smelly
  let injected ← readJson paths.injected
  let parts ← lift (compose chance targets clean smelly injected)
  writeJson paths.output (.arr (chance.shuffle parts.all))
  printAll (parts.statistics ++ [s!"Full dataset saved to {paths.output}"])

/-- Builds and stores a dataset from clean functions and functions into which smells were put. -/
def buildInjectedOnly (paths : Paths) (cleanLimit injectedLimit : Int) (chance : Chance := {}) :
    Run Unit := do
  let clean ← readJson paths.clean
  let injected ← readJson paths.injected
  let clean ← lift (clean.upTo cleanLimit)
  let injected ← lift (injectedSamples chance.entries injectedLimit injected)
  let all ← lift (extend clean injected)
  let output := Text.replaceAll paths.output "unified" "injected_only"
  writeJson output (.arr (chance.shuffle all))
  printAll
    ["Dataset statistics for injected-only dataset:",
     s!"  Total samples: {all.length}",
     s!"  Clean samples: {clean.items.length}",
     s!"  Injected samples: {injected.length}",
     s!"Injected-only dataset saved to {output}"]

end SmellLint.Balance
