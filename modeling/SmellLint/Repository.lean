import SmellLint.Dataset.Sample
import SmellLint.Dataset.Functions
import SmellLint.Text.Case

/-!
# Repositories

## Searching for repositories

Repositories are searched for by topic.  Those whose lists of needed packages name one of the
libraries are noted, and copied if that is wanted.
-/

namespace SmellLint

open Run

/-- A search: where copies go, where it is stored which repositories are done, and those that are.
-/
structure Search where
  output : String
  donePath : String
  libraries : List String := Functions.usualLibraries
  done : List Atom := []

/-- What is searched for in each topic. -/
structure Search.Options where
  limit : Int := 10
  stars : String := ">=50"
  pushed : String := ">2023-01-01"
  language : String := "Python"
  download : Bool := false

namespace Search

def start (output donePath : String) (libraries : List String := Functions.usualLibraries) :
    Run Search := do
  makeDirs output
  if !(← exists? donePath) then return { output, donePath, libraries }
  return { output, donePath, libraries, done := ← lift (Atom.setOf (← readJson donePath)) }

def save (s : Search) : Run Unit := writeJsonLine s.donePath (toJson s.done)

/-- The files that list the packages that a repository needs. -/
def packageLists : List String := ["requirements.txt", "setup.py", "pyproject.toml"]

def mentionsLibrary (s : Search) (text : String) : Bool :=
  s.libraries.any (Text.contains (Text.lower text))

/-- The text of a file with one spelling of line ends; bytes that are no text count as one character
each. -/
def looseText (content : Content) : String :=
  match content.readText with
  | .ok text => text
  | .error _ =>
    Text.unifyNewlines (String.ofList (content.toBytes.map fun b => Char.ofNat b.toNat))

/-- Whether the copy at `path` needs one of the libraries. -/
def isRelevantCopy (s : Search) (path : String) : Run Bool := do
  let files := (← Project.filesBelow path).filter fun f => packageLists.contains (Path.baseName f)
  files.anyM fun file => return s.mentionsLibrary (looseText (← readContent file))

/-- Whether `r` needs one of the libraries, by its files. -/
def isRelevant (s : Search) (r : Repository) : Except Fault Bool :=
  packageLists.anyM fun name =>
    match r.files.lookup name with
    | some (.file content) => return s.mentionsLibrary (← content.rawText)
    | _ => return false

/-- Copies `r`; the copy is kept only if it needs one of the libraries. -/
def download (s : Search) (r : Repository) : Run Bool := do
  let path := Path.join s.output (Text.replaceAll r.name "/" "_")
  if ← exists? path then return false
  if r.broken then return false
  copyRepository r path
  if ← s.isRelevantCopy path then return true
  remove path
  return false

/-- Looks at `r` if it is not done. -/
def visit (s : Search) (options : Options) (r : Repository) : Run Search := do
  if s.done.any (Atom.same (.text r.name)) then return s
  let relevant ← if options.download then s.download r else lift (s.isRelevant r)
  return if relevant then { s with done := s.done ++ [.text r.name] } else s

/-- Looks at repositories in turn.  All of them are looked at; the first fault is given. -/
def visitAll (s : Search) (options : Options) : List Repository → Run (Search × Option Fault)
  | [] => return (s, none)
  | r :: rest => do
    match ← outcome (s.visit options r) with
    | .ok s => s.visitAll options rest
    | .error e =>
      let (s, _) ← s.visitAll options rest
      return (s, some e)

/-- The words of a search for `topic`. -/
def query (options : Options) (topic : String) : String :=
  s!"language:{options.language} topic:{topic} stars:{options.stars} pushed:{options.pushed}"

def visitTopics (s : Search) (options : Options) : List String → Run (Search × Option Fault)
  | [] => return (s, none)
  | topic :: rest => do
    let found ← search (query options topic)
    match ← s.visitAll options (Json.firstItems options.limit found) with
    | (s, none) => s.visitTopics options rest
    | (s, some e) => return (s, some e)

/-- Searches for topics and stores which repositories are done. -/
def run (s : Search) (options : Options) (topics : List String) :
    Run (Search × Except Fault Unit) := do
  match ← s.visitTopics options topics with
  | (s, some e) => return (s, .error e)
  | (s, none) => return (s, ← outcome s.save)

end Search

/-!
## Copying repositories from a list

A table lists repositories.  Those that are worth it are chosen by what the table says about them,
and a copy of each is made in a folder of its own.
-/

/-- Where copies of repositories go, and the table that lists them. -/
structure Cloning where
  base : String
  list : String

namespace Cloning

def keepWhere (t : Table) (column : String) (test : Cell → Except Fault Bool) :
    Except Fault Table := do
  let c ← t.requireColumn column
  return t.keepRows (← c.cells.mapM test)

/-- The repositories of `t` that are projects for machine learning with more `stars` and `commits`
than these. -/
def chosen (stars commits : Int) (t : Table) : Except Fault Table := do
  let t ← keepWhere t "Engineered ML Project" fun c => .ok (c.text? == some "Y")
  let t ← keepWhere t "Stars" (Table.cellGreater stars)
  keepWhere t "Commits" (Table.cellGreater commits)

/-- The first ten repositories of `t` that are small. -/
def smallOnes (t : Table) : Except Fault Table := do
  let t ← keepWhere t "Lines of Code" (Table.cellLess 10000)
  return t.keepRows ((List.range t.height).map (· < 10))

def namesOf (t : Table) : Except Fault (List Cell) := return (← t.requireColumn "GitHub_Repo").cells

def table (c : Cloning) : Run Table := do lift (Table.read (← readRawText c.list))

def cloneOne (c : Cloning) (name : Cell) : Run Unit := do
  match name with
  | .text name =>
    let folder := Path.join c.base (Text.replaceAll name "/" "")
    let path := Path.absolute (← get).cwd folder
    if !(← exists? path) then makeDir path
    shell s!"git clone https://github.com/{name} {path}"
  | other => throw (.noOperation other.kindName "replace")

/-- Copies the repositories of `t`. -/
def cloneAll (c : Cloning) (t : Table) : Run Unit := do
  (← lift (namesOf t)).forM c.cloneOne

def usualStars : Int := 200

def usualCommits : Int := 100

/-- Copies the `smallOnes` among the chosen repositories. -/
def cloneSmallOnes (c : Cloning) : Run Unit := do
  let t ← c.table
  c.cloneAll (← lift (do smallOnes (← chosen usualStars usualCommits t)))

def cloneChosen (c : Cloning) : Run Unit := do
  let t ← c.table
  c.cloneAll (← lift (chosen usualStars usualCommits t))

def projects (c : Cloning) : String := Path.join c.base "projects"

/-- Has the folder of projects taken away. -/
def clean (c : Cloning) : Run Unit := do
  if ← exists? c.projects then shell s!"rm -r {c.projects}"

def setup (c : Cloning) : Run Unit := do
  if !(← exists? c.projects) then makeNewDirs c.projects

/-- Prepares the folder of projects and copies the chosen repositories. -/
def run (c : Cloning) : Run Unit := do
  c.clean
  c.setup
  c.cloneChosen

end Cloning
end SmellLint
