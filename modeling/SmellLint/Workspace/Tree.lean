import SmellLint.Fault
import SmellLint.Table.Cell

/-!
# Paths and trees

## Paths

Paths as texts: names between slashes.  Everything here works on the text alone and asks nothing of
a file system.
-/

namespace SmellLint.Path

def isAbsolute (path : String) : Bool := path.toList.head? == some '/'

/-- `path` below `base`; an absolute `path` stands for itself. -/
def join (base path : String) : String :=
  if isAbsolute path then path
  else if base.isEmpty || base.toList.getLast? == some '/' then base ++ path
  else base ++ "/" ++ path

def joinAll (base : String) (names : List String) : String := names.foldl join base

def baseChars (cs : List Char) : List Char := (cs.reverse.takeWhile (· != '/')).reverse

def baseName (path : String) : String := String.ofList (baseChars path.toList)

/-- What precedes the last slash, without the slashes at its end unless it has nothing else. -/
def dirName (path : String) : String :=
  let head := (path.toList.reverse.dropWhile (· != '/')).reverse
  if head.all (· == '/') then String.ofList head
  else String.ofList (head.reverse.dropWhile (· == '/')).reverse

/-- `path` cut before the last dot of its last name; dots that start a name do not count. -/
def splitExtension (path : String) : String × String :=
  let cs := path.toList
  let base := baseChars cs
  let body := base.dropWhile (· == '.')
  if body.contains '.' then
    let extension := '.' :: (body.reverse.takeWhile (· != '.')).reverse
    (String.ofList (cs.take (cs.length - extension.length)), String.ofList extension)
  else (path, "")

/-- The last dot of the last name of `path` and what follows it; a dot at either end of the name
does not count. -/
def suffix (path : String) : String :=
  let names := (Text.splitOn '/' path).filter fun n => n != "" && n != "."
  let cs := (names.getLast?.getD "").toList
  let after := (cs.reverse.takeWhile (· != '.')).reverse
  if !after.isEmpty && after.length + 1 < cs.length then String.ofList ('.' :: after) else ""

def endsWith (path suffix : String) : Bool :=
  (Text.dropStart? suffix.toList.reverse path.toList.reverse).isSome

/-- The names of a path, without empty ones and `.`; `..` takes the name before it away, where there
is one.  `names` are those before, in reverse. -/
def resolveNames (absolute : Bool) (names : List String) : List String → List String
  | [] => names.reverse
  | "" :: r => resolveNames absolute names r
  | "." :: r => resolveNames absolute names r
  | ".." :: r =>
    match names with
    | [] => if absolute then resolveNames absolute [] r else resolveNames absolute [".."] r
    | ".." :: _ => resolveNames absolute (".." :: names) r
    | _ :: before => resolveNames absolute before r
  | name :: r => resolveNames absolute (name :: names) r

/-- The slashes that `path` keeps in front: one, or exactly two. -/
def rootSlashes (path : String) : String :=
  let n := (path.toList.takeWhile (· == '/')).length
  if n = 0 then "" else if n = 2 then "//" else "/"

def normalize (path : String) : String :=
  let slashes := rootSlashes path
  let body := "/".intercalate (resolveNames (isAbsolute path) [] (Text.splitOn '/' path))
  if slashes.isEmpty && body.isEmpty then "." else slashes ++ body

/-- `path` from the root, given the working directory `cwd`. -/
def absolute (cwd path : String) : String := normalize (join cwd path)

def names (path : String) : List String := (Text.splitOn '/' path).filter (· != "")

def lastName (path : String) : String := (names path).getLast?.getD ""

/-- The paths to the names among parts of a path; `before` are the parts that come before them. -/
def waysFrom (before : List String) : List String → List String
  | [] => []
  | part :: r =>
    let ways := waysFrom (before ++ [part]) r
    if part.isEmpty then ways else "/".intercalate (before ++ [part]) :: ways

def heads (path : String) : List String := (waysFrom [] (Text.splitOn '/' path)).dropLast

/-- The names left of two lists after the part they share. -/
def dropShared : List String → List String → List String × List String
  | a :: as, b :: bs => if a = b then dropShared as bs else (a :: as, b :: bs)
  | as, bs => (as, bs)

/-- The way from the directory `start` to `path`; there is none to the empty path. -/
def relative? (cwd path start : String) : Option String :=
  if path.isEmpty then none
  else
    let (up, down) := dropShared (names (absolute cwd start)) (names (absolute cwd path))
    let way := up.map (fun _ => "..") ++ down
    some (if way.isEmpty then "." else "/".intercalate way)

/-- Whether `c` is half a pair that stands for no byte, so that no path can hold it. -/
def isStray (c : Char) : Bool := Text.isHalf c && !Text.isByteHalf c

/-- Why `path` is not even looked for: it cannot be written as bytes, or would end too early. -/
def refusal? (path : String) : Option Fault :=
  match Text.Utf8.faultIn? isStray path with
  | some fault => some (.unencodable fault)
  | none => if path.toList.contains '\x00' then some .nulInPath else none

def nameBytes (name : String) : Nat :=
  -- half a pair that stands for a byte is kept as a character of four
  name.utf8ByteSize - 3 * name.toList.countP Text.isByteHalf

end SmellLint.Path

/-!
## Trees of files

A tree of directories and files, kept as a list of places.  The root is always there; every other
place is a list of names from the root and holds a directory or a file.
-/

namespace SmellLint

/-- What a file holds. -/
inductive Content where
  | text (value : String)
  | bytes (value : List UInt8)
  | workbook (sheets : List (String × List (List Cell)))
  /-- A drawing. -/
  | image
deriving Inhabited, DecidableEq

namespace Content

/-- What a file with these `bytes` holds. -/
def ofBytes (bytes : List UInt8) : Content :=
  match Text.Utf8.decode bytes with
  | .ok s => .text s
  | .error _ => .bytes bytes

/-- The text of a file, as it stands. -/
def rawText : Content → Except Fault String
  | .text s => .ok s
  | .bytes bs => (Text.Utf8.decode bs).mapError Fault.undecodable
  | .workbook _ => .ok ""
  | .image => .ok ""

/-- The text of a file, with one spelling of line ends. -/
def readText (c : Content) : Except Fault String := c.rawText.map Text.unifyNewlines

def toBytes : Content → List UInt8
  | .text s => Text.Utf8.encode s
  | .bytes bs => bs
  | .workbook _ => []
  | .image => []

/-- A file with `text` added at its end. -/
def append (c : Content) (text : String) : Content :=
  match c with
  | .text s => .text (s ++ text)
  | c => .ofBytes (c.toBytes ++ Text.Utf8.encode text)

end Content

/-- A place in a tree: the names on the way from the root. -/
abbrev Place := List String

/-- What is at a place. -/
inductive Entry where
  | dir
  | file (content : Content)
deriving Inhabited, DecidableEq

def Entry.isDir : Entry → Bool
  | .dir => true
  | .file _ => false

/-- Directories and files by place. -/
structure Tree where
  entries : List (Place × Entry)
deriving Inhabited

namespace Tree

def empty : Tree := ⟨[]⟩

def lookup (t : Tree) (p : Place) : Option Entry :=
  if p.isEmpty then some .dir else t.entries.lookup p

def isDir (t : Tree) (p : Place) : Bool := (t.lookup p).any Entry.isDir

def isFile (t : Tree) (p : Place) : Bool := (t.lookup p).any fun e => !e.isDir

def insert (t : Tree) (p : Place) (e : Entry) : Tree := ⟨t.entries.filter (·.1 != p) ++ [(p, e)]⟩

def ancestors (p : Place) : List Place := (List.range p.length).map fun n => p.take (n + 1)

/-- Makes the directories on the way to `p` and at it, where nothing is. -/
def insertDirs (t : Tree) (p : Place) : Tree :=
  (ancestors p).foldl (fun t q => if (t.lookup q).isSome then t else t.insert q .dir) t

/-- Puts a file at `p`, with the directories on the way to it. -/
def insertFile (t : Tree) (p : Place) (c : Content) : Tree :=
  (t.insertDirs p.dropLast).insert p (.file c)

/-- Takes away `p` and everything below it. -/
def erase (t : Tree) (p : Place) : Tree := ⟨t.entries.filter fun e => !p.isPrefixOf e.1⟩

/-- The name of what is at `p`, if that lies directly in `dir`. -/
def childName? (dir p : Place) : Option String :=
  if p.length = dir.length + 1 && dir.isPrefixOf p then p.getLast? else none

/-- Puts `x` before the first entry with the same or a later name. -/
def insertChild (x : String × Entry) : List (String × Entry) → List (String × Entry)
  | [] => [x]
  | y :: l => if x.1 ≤ y.1 then x :: y :: l else y :: insertChild x l

/-- What lies directly in `dir`, in the order of the names. -/
def children (t : Tree) (dir : Place) : List (String × Entry) :=
  (t.entries.filterMap fun (p, e) => (childName? dir p).map (·, e)).foldr insertChild []

def dirNames (t : Tree) (dir : Place) : List String :=
  (t.children dir).filterMap fun (n, e) => if e.isDir then some n else none

def fileNames (t : Tree) (dir : Place) : List String :=
  (t.children dir).filterMap fun (n, e) => if e.isDir then none else some n

/-- A directory that is visited, as the names that lead to it from where the visit started, with the
names of its directories and files. -/
structure Visit where
  way : List String
  dirs : List String
  files : List String

/-- Visits a directory below `start` and, after it, those of its directories that `enter` accepts.
-/
def visitFrom (t : Tree) (enter : String → Bool) (start : Place) : Nat → List String → List Visit
  | 0, _ => []
  | fuel + 1, way =>
    let place := start ++ way
    let dirs := t.dirNames place
    ⟨way, dirs, t.fileNames place⟩ ::
      (dirs.filter enter).flatMap fun d => t.visitFrom enter start fuel (way ++ [d])

/-- The length of the longest way from the root. -/
def depth (t : Tree) : Nat := t.entries.foldr (fun e n => max e.1.length n) 0

/-- Visits `start` and everything below it, apart from directories that `enter` refuses. -/
def visit (t : Tree) (enter : String → Bool) (start : Place) : List Visit :=
  if t.isDir start then t.visitFrom enter start (t.depth + 1) [] else []

/-! ### Paths in a tree -/

def maxNameBytes : Nat := 255

/-- Follows names from `p`.  Every name but the last has to lead to a directory. -/
def follow (t : Tree) (path : String) (p : Place) : List String → Except Fault Place
  | [] => .ok p
  | name :: r =>
    if name.isEmpty || name == "." then
      match r, t.lookup p with
      | [], some (.file _) => .error (.notADirectory path)
      | _, _ => t.follow path p r
    else
      match t.lookup p with
      | some .dir =>
        if maxNameBytes < Path.nameBytes name then .error (.nameTooLong path)
        else t.follow path (if name == ".." then p.dropLast else p ++ [name]) r
      | some (.file _) => .error (.notADirectory path)
      | none => .error (.fileNotFound path)

/-- The place that the names of `path` lead to, where something may be or not. -/
def lead (t : Tree) (cwd : Place) (path : String) : Except Fault Place :=
  if path.isEmpty then .error (.fileNotFound path)
  else
    match Path.refusal? path with
    | some fault => .error fault
    | none => t.follow path (if Path.isAbsolute path then [] else cwd) (Path.names path)

/-- The place that `path` leads to, where something may be or not.  A slash at the end of `path`
wants no file there. -/
def resolve (t : Tree) (cwd : Place) (path : String) : Except Fault Place := do
  let p ← t.lead cwd path
  if Path.endsWith path "/" && t.isFile p then throw (.notADirectory path) else return p

def find (t : Tree) (cwd : Place) (path : String) : Except Fault (Place × Entry) := do
  let p ← t.resolve cwd path
  match t.lookup p with
  | some e => return (p, e)
  | none => throw (.fileNotFound path)

end Tree
end SmellLint
