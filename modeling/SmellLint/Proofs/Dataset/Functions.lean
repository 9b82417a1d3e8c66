import SmellLint.Dataset.Functions
import SmellLint.Proofs.Workspace.Effects

/-!
# Functions that use libraries

The functions of a file are found in a walk over its tree, which notes on its way what is imported.
A function is found if its text, read by itself, uses a library and names something typical of
machine learning.  What counts as the name of a library is the name itself and what something was
imported from, but not the name that the import gives to it (`Functions.ofFile_of_source`).
-/

namespace SmellLint

open Syntax (Node)
open List Run

theorem Keyed.mem_values_ofList {α : Type} {entries : List (String × α)} {value : α} :
    value ∈ (ofList entries).values ↔
      ∃ key, (entries.filter (·.1 == key)).getLast? = some (key, value) := by
  constructor
  · intro h
    obtain ⟨⟨key, v⟩, hmem, rfl⟩ := mem_map.1 h
    have hget := get?_of_mem_entries (nodup_keys_ofList entries) hmem
    rw [get?_ofList] at hget
    obtain ⟨⟨k, v'⟩, hlast, rfl⟩ := Option.map_eq_some_iff.1 hget
    have hk := (mem_filter.1 (mem_of_getLast? hlast)).2
    exact ⟨key, (beq_iff_eq.1 hk : k = key) ▸ hlast⟩
  · rintro ⟨key, hlast⟩
    have hget : (ofList entries).get? key = some value := by
      rw [get?_ofList, hlast]
      rfl
    rw [get?, lookup_eq_some_iff] at hget
    obtain ⟨before, after, heq, -⟩ := hget
    exact mem_map.2 ⟨(key, value), heq ▸ mem_append_right before mem_cons_self, rfl⟩

namespace Functions

/-! ## Imports -/

/-- The local name of an imported one, with what it was imported from (`origin`). -/
def importedAs (origin : String → Option String) : Node → Option (String × Option String)
  | .alias _ name asName => some (asName.getD name, origin name)
  | _ => none

/-- What a statement imports. -/
def importsOf : Node → List (String × Option String)
  | .importStmt _ names => names.filterMap (importedAs some)
  | .importFrom _ library names _ => names.filterMap (importedAs fun _ => library)
  | _ => []

theorem foldl_noteAlias (origin : String → Option String) (aliases : Aliases) (names : List Node) :
    names.foldl (noteAlias origin) aliases
      = (names.filterMap (importedAs origin)).foldl (fun m e => m.insert e.1 e.2) aliases := by
  induction names generalizing aliases with
  | nil => rfl
  | cons n names ih =>
    rw [foldl_cons, ih]
    cases n with
    | «alias» span name asName => cases asName <;> rfl
    | _ => rfl

theorem foldl_noteImports (ns : List Node) :
    ns.foldl noteImports .empty = Keyed.ofList (ns.flatMap importsOf) := by
  have hstep : ∀ (aliases : Aliases) n,
      noteImports aliases n = (importsOf n).foldl (fun m e => m.insert e.1 e.2) aliases := by
    intro aliases n
    cases n with
    | importStmt _ names | importFrom _ _ names _ => exact foldl_noteAlias _ _ names
    | _ => rfl
  rw [Keyed.ofList, foldl_flatMap]
  exact congrArg (foldl · Keyed.empty ns) (funext fun aliases => funext (hstep aliases))

/-- A function that comes after the nodes `before` uses a library by `name`: that of a library, or
of what the local name was last imported from. -/
def IsLibraryName (libraries : List String) (before : List Node) (name : String) : Prop :=
  name ∈ libraries ∨ ∃ localName,
    ((before.flatMap importsOf).filter (·.1 == localName)).getLast? = some (localName, some name)

theorem mem_libraryNames {libraries : List String} {before : List Node} {name : String} :
    name ∈ libraryNames libraries (before.foldl noteImports .empty) ↔
      IsLibraryName libraries before name := by
  rw [libraryNames, foldl_noteImports, IsLibraryName]
  rw [← Keyed.mem_values_ofList]
  simp

/-! ## Functions -/

/-- `e` is the entry of the plain function `f`. -/
def IsEntryOf (path source : String) (f : Node) (e : FoundFunction) : Prop :=
  ∃ span params body decorators returns,
    f = .functionDef span false e.name params body decorators returns ∧
    e.code = span.cut source ∧ e.path = path

/-- `code`, read by itself as a program, names something with `P`. -/
def Mentions (namedIn : Node → Option String) (P : String → Prop) (code : String) : Prop :=
  ∃ program n name, Node.ofSource? code = some program ∧ n ∈ program.walk ∧
    namedIn n = some name ∧ P name

theorem mentions_iff {namedIn : Node → Option String} {names : List String} {code : String} :
    ((Node.ofSource? code).any fun tree => tree.walk.any fun n => (namedIn n).any names.contains)
      = true ↔ Mentions namedIn (· ∈ names) code := by
  simp only [Option.any_eq_true, any_eq_true, Mentions]
  grind

/-- `code` uses a library and names something typical of machine learning. -/
def Counts (libraries : List String) (before : List Node) (code : String) : Prop :=
  Mentions usedBy? (IsLibraryName libraries before) code ∧ Mentions namedBy? (· ∈ keywords) code

theorem counts_iff {libraries : List String} {before : List Node} {code : String} :
    (usesLibrary libraries (before.foldl noteImports .empty) code && hasKeyword code) = true ↔
      Counts libraries before code := by
  rw [Bool.and_eq_true, usesLibrary, hasKeyword, mentions_iff, mentions_iff,
    funext fun name => propext (@mem_libraryNames _ _ name)]
  rfl

variable {libraries : List String} {path source : String}

/-- What `visit` adds for `n` to the imports met and the functions found. -/
theorem visit_spec (libraries : List String) (path source : String) (p : Progress) (n : Node) :
    (visit libraries path source p n).aliases = noteImports p.aliases n ∧
      ∀ e, e ∈ (visit libraries path source p n).found ↔ e ∈ p.found ∨
        IsEntryOf path source n e ∧
          (usesLibrary libraries p.aliases e.code && hasKeyword e.code) = true := by
  have hother (hn : ∀ e, ¬ IsEntryOf path source n e) :
      ∀ e, e ∈ p.found ↔ e ∈ p.found ∨ IsEntryOf path source n e ∧
        (usesLibrary libraries p.aliases e.code && hasKeyword e.code) = true :=
    fun e => by simp [hn e]
  cases n with
  | functionDef span isAsync name params body decorators returns =>
    cases isAsync with
    | true => exact ⟨rfl, hother (by simp [IsEntryOf])⟩
    | false =>
      have hentry : ∀ e, IsEntryOf path source
          (.functionDef span false name params body decorators returns) e ↔
          e = ⟨name, span.cut source, path⟩ := by
        intro e
        cases e
        simp only [IsEntryOf]
        grind
      simp only [visit]
      split <;> grind [noteImports]
  | _ => exact ⟨rfl, hother (by simp [IsEntryOf])⟩

/-- A function is found if it uses a library by a name that the nodes before it in the walk bring
in, and names something typical. -/
theorem mem_found_foldl_visit (ns met : List Node) (p : Progress)
    (hp : p.aliases = met.foldl noteImports .empty) (e : FoundFunction) :
    e ∈ (ns.foldl (visit libraries path source) p).found ↔ e ∈ p.found ∨
      ∃ before f after, ns = before ++ f :: after ∧ IsEntryOf path source f e ∧
        Counts libraries (met ++ before) e.code := by
  induction ns generalizing met p with
  | nil => simp
  | cons n ns ih =>
    obtain ⟨haliases, hfound⟩ := visit_spec libraries path source p n
    rw [foldl_cons, ih (met ++ [n]) _ (by rw [haliases, hp, foldl_append]; rfl), hfound, hp,
      counts_iff, or_assoc]
    refine or_congr_right ⟨?_, ?_⟩
    · rintro (h | ⟨before, f, after, rfl, h⟩)
      · exact ⟨[], n, ns, rfl, by simpa using h⟩
      · exact ⟨n :: before, f, after, rfl, by simpa using h⟩
    · rintro ⟨before, f, after, heq, h⟩
      cases before with
      | nil =>
        cases heq
        exact .inl (by simpa using h)
      | cons m before =>
        cases heq
        exact .inr ⟨before, f, after, rfl, by simpa using h⟩

/-- `ofFile`, for a file that can be read as a program, however its bytes are decoded, finds the
functions whose text uses a library.  A local name counts if it is the name of a library, or of what
an import before the function took something from; the name that an import gives to a library does
not count as such. -/
theorem ofFile_of_source (libraries : List String) {w : Workspace} {path source : String}
    {tree : Node} {decode : Content → Except Fault String}
    (hread : (readWith decode path).exec w = (.ok source, w))
    (htree : Node.ofSource? source = some tree) :
    ∃ found, (ofFile libraries path decode).exec w = (.ok found, w) ∧
      (∀ e, e ∈ found ↔ ∃ before f after, tree.walk = before ++ f :: after ∧
        IsEntryOf path source f e ∧ Counts libraries before e.code) ∧
      ∀ library ∈ libraries, ∀ f ∈ tree.walk, ∀ e, IsEntryOf path source f e →
        Mentions usedBy? (· = library) e.code → Mentions namedBy? (· ∈ keywords) e.code →
        e ∈ found := by
  have hmem : ∀ e, e ∈ ofTree libraries path source tree ↔
      ∃ before f after, tree.walk = before ++ f :: after ∧ IsEntryOf path source f e ∧
        Counts libraries before e.code := by
    intro e
    rw [ofTree, mem_found_foldl_visit _ [] {} rfl]
    simp
  refine ⟨ofTree libraries path source tree, ?_, hmem, ?_⟩
  · rw [ofFile, exec_bind_ok _ (exec_outcome _ w), hread]
    simp only [htree]
    rfl
  · rintro library hlibrary f hf e he ⟨program, n, name, hprogram, hn, hname, rfl⟩ hkeyword
    obtain ⟨before, after, hsplit⟩ := append_of_mem hf
    exact (hmem e).2 ⟨before, f, after, hsplit, he,
      ⟨program, n, name, hprogram, hn, hname, .inl hlibrary⟩, hkeyword⟩

/-- A file whose first function uses a library by the name that the import gave it, and whose second
one uses it by its own name. -/
def renamedLibrary : Workspace where
  tree := ⟨[(["a.py"], .file (.text
    "import numpy as np\ndef f(x):\n  np.fit(x)\ndef g(x):\n  numpy.fit(x)"))]⟩

theorem ofFile_of_source_renamedLibrary : ∃ source tree found,
    (readRawText "a.py").exec renamedLibrary = (.ok source, renamedLibrary) ∧
      Node.ofSource? source = some tree ∧
      (ofFile ["numpy"] "a.py").exec renamedLibrary = (.ok found, renamedLibrary) ∧
      found.map (·.name) = ["g"] := by
  obtain ⟨source, hread⟩ : ∃ source,
      (readRawText "a.py").exec renamedLibrary = (.ok source, renamedLibrary) := ⟨_, rfl⟩
  have hparses : (Node.ofSource? source).isSome := by
    cases hread
    decide +kernel
  obtain ⟨tree, htree⟩ := Option.isSome_iff_exists.1 hparses
  obtain ⟨found, hfound, -⟩ := ofFile_of_source ["numpy"] hread htree
  have hnames : ((ofFile ["numpy"] "a.py").exec renamedLibrary).1.toOption.map (·.map (·.name))
      = some ["g"] := by
    decide +kernel
  rw [hfound] at hnames
  exact ⟨source, tree, found, hread, htree, hfound, Option.some.inj hnames⟩

end Functions
end SmellLint
