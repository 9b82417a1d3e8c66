import SmellLint.Workspace.Tree

/-!
# Workspaces

## What lies outside a workspace

Work on data and models uses things that the program itself does not contain: language models and
the toolkit that trains them, a search for repositories, and a shell.  `Outside` holds what they
answer and a record of everything they were asked.
-/

namespace SmellLint

/-- Things that the toolkit for models hands out. -/
inductive Handle where
  | model
  | adaptedModel
  | tokenizer
  | chatTokenizer
  | inputs
  | outputs
  | trainer
  | arguments
  | collator
deriving Inhabited, DecidableEq

/-- What a call is given. -/
inductive Argument where
  | value (j : Json)
  | handle (h : Handle)
  | dataset (columns : Json)
deriving Inhabited

def Handle.name : Handle → String
  | .model => "model"
  | .adaptedModel => "lora model"
  | .tokenizer => "tokenizer"
  | .chatTokenizer => "chat tokenizer"
  | .inputs => "inputs"
  | .outputs => "outputs"
  | .trainer => "trainer"
  | .arguments => "arguments"
  | .collator => "collator"

def Argument.toJson : Argument → Json
  | .value j => j
  | .handle h => .str ("<" ++ h.name ++ ">")
  | .dataset columns => .obj [("dataset", columns)]

def Argument.ofHandle? : Option Handle → Argument
  | some h => .handle h
  | none => .value .null

/-- A call of the toolkit, with its arguments by name. -/
structure Call where
  name : String
  arguments : List (String × Argument)
deriving Inhabited

/-- How a call is shown: its name and its arguments. -/
def Call.toJson (c : Call) : Json :=
  .arr [.str c.name, .obj (c.arguments.map fun (k, a) => (k, a.toJson))]

/-- What a language model answers. -/
inductive Answer where
  | failure
  /-- One text, or a list of them. -/
  | value (j : Json)
  /-- A text that comes after a tenth of a second. -/
  | slow (s : String)
deriving Inhabited

/-- A repository that can be searched for. -/
structure Repository where
  name : String
  files : List (String × Entry)
  /-- Whether it cannot be copied. -/
  broken : Bool
deriving Inhabited

/-- What lies outside a workspace. -/
structure Outside where
  /-- The calls so far, the last one first. -/
  calls : List Call := []
  /-- What models will answer. -/
  answers : List Answer := []
  /-- Whether an answer came late, so that later ones have to wait for it. -/
  isLate : Bool := false
  /-- Whether the machine has the shorter number format that trains better. -/
  hasShortFloats : Bool := false
  makesExportDir : Bool := true
  /-- How similar pieces of code are. -/
  similarities : Json := .arr []
  /-- The number that is drawn at random; the greatest one if none is set. -/
  drawn : Option Int := none
  /-- The commands given to the shell, the last one first. -/
  commands : List String := []
  repositories : List Repository := []
  /-- The searches for repositories, the last one first. -/
  queries : List String := []
  /-- What gives access to the search for repositories. -/
  token : Option String := none
deriving Inhabited

/-!
## The workspace of a run

What a run of the program reads and changes: a tree of files with a working directory, the text it
prints, and the lines it is given to read.  A `Run` may fail; what it did before stays done.
-/

/-- The surroundings of a run. -/
structure Workspace where
  tree : Tree := .empty
  cwd : String := "/"
  /-- Printed texts, the last one first. -/
  printed : List String := []
  /-- Lines still to be read. -/
  input : List String := []
  /-- The directory for temporary files. -/
  tempDir : String := "/tmp"
  /-- How many temporary names have been given out. -/
  tempCount : Nat := 0
  /-- What is shown for the time that something took. -/
  elapsed : String := "T"
  outside : Outside := {}
deriving Inhabited

/-- Something that happens in a workspace and may fail. -/
abbrev Run := ExceptT Fault (StateM Workspace)

namespace Workspace

def place (w : Workspace) : Place := Path.names w.cwd

def console (w : Workspace) : String := String.join w.printed.reverse

def consoleLines (w : Workspace) : List String := Text.printedLines w.console

end Workspace

namespace Run

variable {α : Type}

def exec (r : Run α) (w : Workspace) : Except Fault α × Workspace := (ExceptT.run r).run w

def outcome (r : Run α) : Run (Except Fault α) := ExceptT.mk do
  let result ← ExceptT.run r
  return .ok result

def lift (e : Except Fault α) : Run α := ExceptT.mk (return e)

def write (text : String) : Run Unit := modify fun w => { w with printed := text :: w.printed }

def print (line : String) : Run Unit := write (line ++ "\n")

def printAll (lines : List String) : Run Unit := lines.forM print

/-- Prints `question` and reads a line. -/
def ask (question : String) : Run String := do
  write question
  match (← get).input with
  | [] => throw .endOfInput
  | line :: rest =>
    modify fun w => { w with input := rest }
    return line

def resolve (path : String) : Run Place := do
  let w ← get
  lift (w.tree.resolve w.place path)

def find (path : String) : Run (Place × Entry) := do
  let w ← get
  lift (w.tree.find w.place path)

/-- What `path` leads to, if it leads anywhere. -/
def find? (path : String) : Run (Option (Place × Entry)) := do
  let w ← get
  return (w.tree.find w.place path).toOption

def exists? (path : String) : Run Bool := return (← find? path).isSome

def isDir (path : String) : Run Bool := return (← find? path).any fun e => e.2.isDir

def isFile (path : String) : Run Bool := return (← find? path).any fun e => !e.2.isDir

def readContent (path : String) : Run Content := do
  match (← find path).2 with
  | .dir => throw (.isADirectory path)
  | .file c => return c

/-- The text that `decode` reads in a file. -/
def readWith (decode : Content → Except Fault String) (path : String) : Run String := do
  lift (decode (← readContent path))

/-- The text of the file at `path`, with one spelling of line ends. -/
def readText (path : String) : Run String := readWith Content.readText path

def readRawText (path : String) : Run String := readWith Content.rawText path

/-- Writes `c` to `path`, whatever was there. -/
def writeContent (path : String) (c : Content) : Run Unit := do
  let p ← resolve path
  let w ← get
  if w.tree.isDir p || ((w.tree.lookup p).isNone && Path.endsWith path "/") then
    throw (.isADirectory path)
  else set { w with tree := w.tree.insert p (.file c) }

/-- Writes `text` to `path`, whatever was there.  A text that cannot be written as bytes leaves the
file empty. -/
def writeText (path text : String) : Run Unit := do
  match Text.Utf8.encodeFault? text with
  | none => writeContent path (.text text)
  | some fault =>
    writeContent path (.text "")
    throw (.unencodable fault)

/-- Writes `texts` one after the other to `path`, whatever was there.  The first that cannot be
written as bytes ends this. -/
def writeTexts (path : String) (texts : List String) : Run Unit := do
  writeText path (String.join (Text.Utf8.writable texts))
  match texts.findSome? Text.Utf8.encodeFault? with
  | none => return ()
  | some fault => throw (.unencodable fault)

/-- Adds `text` at the end of a file, which may be new. -/
def appendText (path text : String) : Run Unit := do
  match ← find? path with
  | some (_, .file c) =>
    match Text.Utf8.encodeFault? text with
    | none => writeContent path (c.append text)
    | some fault => throw (.unencodable fault)
  | _ => writeText path text

/-- The names in the directory at `path`, in order. -/
def listDir (path : String) : Run (List String) := do
  match ← find path with
  | (p, .dir) => return ((← get).tree.children p).map Prod.fst
  | (_, .file _) => throw (.notADirectory path)

def makeDir (path : String) : Run Unit := do
  let w ← get
  let p ← lift (w.tree.lead w.place path)
  if (w.tree.lookup p).isSome then throw (.fileExists path)
  else set { w with tree := w.tree.insert p .dir }

/-- Makes a directory where nothing is. -/
def makeMissingDir (path : String) : Run Unit := do
  if !(← exists? path) then makeDir path

/-- Whether a path is a missing directory followed by `.`, which is made by making that directory.
-/
def endsInMissingDir (path : String) : Run Bool := do
  match (Path.heads path).getLast? with
  | some head => return Path.lastName path == "." && !(← exists? head)
  | none => return false

/-- Makes a directory and those on the way to it; fails if there is something at `path`. -/
def makeNewDirs (path : String) : Run Unit := do
  let isMade ← endsInMissingDir path
  (Path.heads path).forM makeMissingDir
  if !isMade then makeDir path

/-- Makes one directory unless it is there. -/
def ensureDir (path : String) : Run Unit := do
  if !(← isDir path) then makeDir path

/-- Makes a directory and those on the way to it, where they are missing. -/
def makeDirs (path : String) : Run Unit := do
  (Path.heads path).forM makeMissingDir
  ensureDir path

/-- Takes away what is at `path`, with everything below it. -/
def remove (path : String) : Run Unit := do
  let (p, _) ← find path
  modify fun w => { w with tree := w.tree.erase p }

/-- `n` in decimal digits, at least eight of them. -/
def eightDigits (n : Nat) : String :=
  let digits := Nat.toDigits 10 n
  String.ofList (List.replicate (8 - digits.length) '0' ++ digits)

def tempPathAt (dir suffix : String) (n : Nat) : String :=
  Path.join dir ("tmp" ++ eightDigits n ++ suffix)

/-- A path for temporary use that has not been given out before and where nothing is. -/
def tempPath (suffix : String) : Run String := do
  let w ← get
  -- one of more numbers than there are entries is free
  let numbers := (List.range (w.tree.entries.length + 1)).map (w.tempCount + ·)
  let isFree (n : Nat) : Bool :=
    (w.tree.lookup (Path.names (tempPathAt w.tempDir suffix n))).isNone
  let n := (numbers.find? isFree).getD w.tempCount
  set { w with tempCount := n + 1 }
  return tempPathAt w.tempDir suffix n

def tempFile (suffix : String) (c : Content) : Run String := do
  let path ← tempPath suffix
  writeContent path c
  return path

def tempTextFile (suffix text : String) : Run String := do
  let path ← tempPath suffix
  writeText path text
  return path

/-- Does `r` and then `last`, whatever came of `r`. -/
def andFinally (r : Run α) (last : Run Unit) : Run α := do
  let result ← outcome r
  last
  lift result

/-- The place of the directory that `path` leads to, if it leads to one. -/
def dirAt? (path : String) : Run (Option Place) := do
  match ← outcome (find path) with
  | .ok (p, .dir) => return some p
  | .error e => if e.isRefusal then throw e else return none
  | _ => return none

/-- The directories below `path` and what is in them; none if `path` leads to no directory. -/
def visits (path : String) (enter : String → Bool) : Run (List Tree.Visit) := do
  match ← dirAt? path with
  | some p => return (← get).tree.visit enter p
  | none => return []

end Run
end SmellLint
