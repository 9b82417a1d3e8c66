import SmellLint.CommandLine.Commands

/-!
# The command line

The first argument names a command, and the others are its arguments.  The files below the working
directory, and those below paths among the arguments, are read into a workspace; the command runs
there, and what it printed and what it changed is carried out.
-/

namespace SmellLint

/-- Reads what is at `path`, with everything below it, into `t`. -/
partial def readTree (t : Tree) (path : String) : IO Tree := do
  let place := Path.names path
  let actual ← IO.FS.realPath path
  if ← actual.isDir then
    let entries ← actual.readDir
    entries.foldlM (fun t entry => readTree t (Path.join path entry.fileName)) (t.insertDirs place)
  else
    return t.insertFile place (.ofBytes (← IO.FS.readBinFile actual).toList)

def readTrees (paths : List String) : IO Tree :=
  paths.foldlM (fun (t : Tree) (path : String) => do
    if ← (← IO.FS.realPath path).pathExists then readTree t path else return t) Tree.empty

def writeEntry (place : Place) (entry : Entry) : IO Unit := do
  let path := "/" ++ "/".intercalate place
  match entry with
  | .dir => IO.FS.createDirAll path
  | .file c => IO.FS.writeBinFile path (ByteArray.mk c.toBytes.toArray)

/-- Removes what is at `place`, which holds a file or an empty directory. -/
def removeEntry (place : Place) (entry : Entry) : IO Unit := do
  let path := "/" ++ "/".intercalate place
  match entry with
  | .dir => IO.FS.removeDir path
  | .file _ => IO.FS.removeFile path

def sameOnDisk : Entry → Entry → Bool
  | .dir, .dir => true
  | .file a, .file b => a.toBytes == b.toBytes
  | _, _ => false

/-- Changes files and directories as a tree was changed: first what is gone is removed, the deepest
places first, and then what is new is written. -/
def writeChanges (before after : Tree) : IO Unit := do
  let gone := before.entries.filter fun (p, _) => (after.lookup p).isNone
  (gone.mergeSort fun a b => b.1.length ≤ a.1.length).forM fun (p, e) => removeEntry p e
  let new := after.entries.filter fun (p, e) => !((before.lookup p).any (sameOnDisk e))
  (new.mergeSort fun a b => a.1.length ≤ b.1.length).forM fun (p, e) => writeEntry p e

/-- All lines of the input. -/
partial def readLines (input : IO.FS.Stream) : IO (List String) := do
  let line ← input.getLine
  if line.isEmpty then return []
  let line := if Path.endsWith line "\n" then (line.dropEnd 1).toString else line
  return line :: (← readLines input)

def runCommand (name : String) (action : CommandLine.Action) (args : List String) : IO UInt32 := do
  let cwd := (← IO.currentDir).toString
  let tree ← readTrees (cwd :: (args.filter Path.isAbsolute))
  let input ← if name == "report" then readLines (← IO.getStdin) else pure []
  let outside : Outside := { token := ← IO.getEnv "GITHUB_TOKEN" }
  let (outcome, w) := (action name args).exec { tree, cwd, input, outside }
  IO.print w.console
  writeChanges tree w.tree
  match outcome with
  | .ok () => return 0
  | .error (.exit code) => return code.toUInt32
  | .error e =>
    IO.eprintln e.message
    return 1

end SmellLint

/-- Runs the command that the first argument names. -/
def main (args : List String) : IO UInt32 := do
  match args with
  | name :: rest =>
    match SmellLint.CommandLine.command? name with
    | some action => SmellLint.runCommand name action rest
    | none =>
      IO.eprintln s!"unknown command: {name}"
      return 2
  | [] =>
    let names := ", ".intercalate (SmellLint.CommandLine.commands.map Prod.fst)
    IO.eprintln s!"commands: {names}"
    return 2
