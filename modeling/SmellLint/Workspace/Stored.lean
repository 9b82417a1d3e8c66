import SmellLint.Json.Member
import SmellLint.Workspace.Basic

/-!
# Stored values and calls to the outside

JSON values in files, and what a run asks of the things outside its workspace.
-/

namespace SmellLint.Run

/-! ## Stored values -/

def readJson (path : String) : Run Json := do
  match Json.parse (← readText path) with
  | .ok j => return j
  | .error fault => throw (.ofReadFault fault)

/-- Stores `j` in a file, one item to a line. -/
def writeJson (path : String) (j : Json) : Run Unit := writeText path (j.pretty 0)

def writeJsonLine (path : String) (j : Json) : Run Unit := writeText path j.render

/-! ## The outside -/

/-- Changes the record of the outside. -/
def modifyOutside (f : Outside → Outside) : Run Unit :=
  modify fun w => { w with outside := f w.outside }

def call (name : String) (arguments : List (String × Argument)) : Run Unit :=
  modifyOutside fun o => { o with calls := ⟨name, arguments⟩ :: o.calls }

def nextReply : Run Json := do
  match (← get).outside.answers with
  | [] => throw .noReplyLeft
  | a :: rest =>
    modifyOutside fun o => { o with answers := rest }
    match a with
    | .failure => throw .modelFailed
    | .value j => return j
    | .slow s =>
      modifyOutside fun o => { o with isLate := true }
      return .str s

def shell (command : String) : Run Unit :=
  modifyOutside fun o => { o with commands := command :: o.commands }

def search (query : String) : Run (List Repository) := do
  modifyOutside fun o => { o with queries := query :: o.queries }
  return (← get).outside.repositories

/-- Copies `r` into the directory at `path`. -/
def copyRepository (r : Repository) (path : String) : Run Unit := do
  makeDirs path
  r.files.forM fun (name, entry) =>
    let target := Path.join path name
    match entry with
    | .dir => makeDirs target
    | .file content => do
      makeDirs (Path.dirName target)
      writeContent target content

/-- A number from `least` to `greatest`, drawn at random. -/
def drawNumber (least greatest : Int) : Run Int := do
  if greatest < least then throw (.emptyRange least greatest)
  return max least (min greatest ((← get).outside.drawn.getD greatest))

end SmellLint.Run

/-!
## What a workspace shows

The files below a directory by their names, and what a step of a run printed.
-/

namespace SmellLint

/-- How the content of a file is shown: texts as they stand, other bytes in hexadecimal. -/
def Content.toJson : Content → Json
  | .text s => .str s
  | .bytes bs => .obj [("hex", .str (Text.hexOfBytes bs))]
  | _ => .str "<binary>"

/-- The content that is shown in a way. -/
def Content.ofJson : Json → Content
  | .str s => .text s
  | j => .ofBytes (Text.bytesOfHex (j.textAt "hex").toList)

/-- What is at a place, by the way it is shown: nothing is shown for a directory. -/
def Entry.ofJson : Json → Entry
  | .null => .dir
  | j => .file (.ofJson j)

/-- Puts `entry` at `place`, with the directories on the way to it. -/
def Tree.insertBelow (t : Tree) (place : Place) (entry : Entry) : Tree :=
  match entry with
  | .dir => t.insertDirs place
  | .file c => t.insertFile place c

/-- The files and the empty directories below `place`, by the names that lead to them; the name of a
directory ends in a slash. -/
def Tree.below (t : Tree) (place : Place) : List (String × Entry) :=
  (t.visit (fun _ => true) place).flatMap fun v =>
    let name (n : String) : String := "/".intercalate (v.way ++ [n])
    let own := if v.dirs.isEmpty && v.files.isEmpty && !v.way.isEmpty then [(name "", .dir)] else []
    own ++ v.files.filterMap fun n => (t.lookup (place ++ v.way ++ [n])).map (name n, ·)

/-- Runs `r` and gives its outcome and the lines it printed; the workspace is left with nothing
printed. -/
def Run.captured {α : Type} (r : Run α) (w : Workspace) :
    Except Fault α × List String × Workspace :=
  let (e, w) := r.exec w
  (e, w.consoleLines, { w with printed := [] })

end SmellLint
