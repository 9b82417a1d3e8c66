import SmellLint.Proofs.CallGraph.Sound
import SmellLint.Proofs.Lists

/-!
# Functions and their places

## The places of files in a list

The passes over a list of files go through the programs in it file by file, and depth first in each.
A place is the number of a file in the list with a way in its program, and `places` lists them all
in the order in which they are met (`pairwise_places`).  What a pass collects is what it finds at
these places (`flatMap_at`).
-/

namespace SmellLint.CallGraph

open Syntax (Node)
open List SourceFile

/-- The file with this `number` among `paths` can be read as a program. -/
structure Listed (w : Workspace) (paths : List String) (number : Nat) (path text : String)
    (tree : Node) : Prop where
  path_eq : paths[number]? = some path
  read : (Run.readText path).exec w = (.ok text, w)
  parsed : Node.ofSource? text = some tree

variable {w : Workspace} {root : String} {paths : List String}

variable {number : Nat} {path text : String} {tree : Node} {α : Type}

theorem Listed.tree?_eq (h : Listed w paths number path text tree) (root : String) :
    (SourceFile.at w root path).tree? = some tree := by
  rw [SourceFile.at, h.read]
  exact h.parsed

theorem Listed.lines_eq (h : Listed w paths number path text tree) (root : String) :
    (SourceFile.at w root path).lines = Text.linesKeepingEnds text := by
  rw [SourceFile.at, h.read]
  rfl

theorem exists_listed (hpath : paths[number]? = some path)
    (htree : (SourceFile.at w root path).tree? = some tree) :
    ∃ raw, Listed w paths number path (Text.unifyNewlines raw) tree := by
  obtain ⟨raw, hread, hparsed, -⟩ := exists_of_tree? htree
  exact ⟨raw, hpath, hread, hparsed⟩

def SourceFile.ways (file : SourceFile) : List (List Nat) := (file.tree?.map Node.ways).getD []

/-- The places of the programs in `paths`, file by file and depth first in each. -/
def places (w : Workspace) (root : String) (paths : List String) : List (Nat × List Nat) :=
  paths.zipIdx.flatMap fun p => (SourceFile.at w root p.1).ways.map (p.2, ·)

/-- `p` comes before `q`: it is in an earlier file, or earlier in the same one.  A way comes before
those that it starts, and before those that leave it to the right. -/
def Before (p q : Nat × List Nat) : Prop := p.1 < q.1 ∨ p.1 = q.1 ∧ p.2 < q.2

theorem SourceFile.pairwise_ways (file : SourceFile) : file.ways.Pairwise (· < ·) := by
  rw [ways]
  cases file.tree? with
  | none => exact .nil
  | some tree => exact tree.pairwise_ways

/-- `places` are in the order in which they are met. -/
theorem pairwise_places (w : Workspace) (root : String) (paths : List String) :
    (places w root paths).Pairwise Before := by
  rw [places, pairwise_flatMap]
  constructor
  · intro p _
    exact pairwise_map.2 ((pairwise_ways _).imp fun h => .inr ⟨rfl, h⟩)
  · refine pairwise_iff_getElem.2 fun i j hi hj hij => ?_
    simp only [getElem_zipIdx, zero_add]
    intro p hp q hq
    obtain ⟨v, -, rfl⟩ := mem_map.1 hp
    obtain ⟨v', -, rfl⟩ := mem_map.1 hq
    exact .inl hij

theorem nodup_places (w : Workspace) (root : String) (paths : List String) :
    (places w root paths).Nodup := by
  refine (pairwise_places w root paths).imp fun {p q} h heq => ?_
  subst heq
  rcases h with h | ⟨-, h⟩
  · exact lt_irrefl _ h
  · exact lt_irrefl _ h

/-- `places` are those at which a program of `paths` has a node. -/
theorem mem_places {way : List Nat} :
    (number, way) ∈ places w root paths ↔ ∃ path tree, paths[number]? = some path ∧
      (SourceFile.at w root path).tree? = some tree ∧ (tree.at? way).isSome := by
  simp only [places, mem_flatMap, mem_map, Prod.mk.injEq, Prod.exists,
    mem_zipIdx_iff_getElem?, ways]
  constructor
  · rintro ⟨path, k, hpath, v, hv, rfl, rfl⟩
    cases htree : (SourceFile.at w root path).tree? with
    | none =>
      rw [htree] at hv
      cases hv
    | some tree =>
      rw [htree] at hv
      exact ⟨path, tree, hpath, htree, Node.mem_ways.1 hv⟩
  · rintro ⟨path, tree, hpath, htree, hway⟩
    refine ⟨path, number, hpath, way, ?_, rfl, rfl⟩
    rw [htree]
    exact Node.mem_ways.2 hway

/-- What the pass `find` finds at `place`. -/
def foundAt {α : Type} (find : SourceFile → Node → List Nat → Option α) (w : Workspace)
    (root : String) (paths : List String) (place : Nat × List Nat) : Option α :=
  paths[place.1]?.bind fun path =>
    (SourceFile.at w root path).tree?.bind fun tree => find (.at w root path) tree place.2

theorem foundAt_eq_some {find : SourceFile → Node → List Nat → Option α} {place : Nat × List Nat}
    {a : α} :
    foundAt find w root paths place = some a ↔ ∃ path tree, paths[place.1]? = some path ∧
      (SourceFile.at w root path).tree? = some tree ∧
      find (.at w root path) tree place.2 = some a := by
  simp only [foundAt, Option.bind_eq_some_iff]
  constructor
  · rintro ⟨path, hpath, tree, htree, ha⟩
    exact ⟨path, tree, hpath, htree, ha⟩
  · rintro ⟨path, tree, hpath, htree, ha⟩
    exact ⟨path, hpath, tree, htree, ha⟩

theorem Listed.foundAt_eq (h : Listed w paths number path text tree)
    (find : SourceFile → Node → List Nat → Option α) (way : List Nat) :
    foundAt find w root paths (number, way) = find (.at w root path) tree way := by
  simp [foundAt, h.path_eq, h.tree?_eq]

/-- A pass that goes through each file depth first goes through the `places`. -/
theorem flatMap_at {collect : SourceFile → List α} {find : SourceFile → Node → List Nat → Option α}
    (h : ∀ file, collect file =
      (file.tree?.map fun tree => tree.ways.filterMap (find file tree)).getD []) (w : Workspace)
    (root : String) (paths : List String) :
    (paths.map (SourceFile.at w root)).flatMap collect
      = (places w root paths).filterMap (foundAt find w root paths) := by
  have hfile : ∀ p ∈ paths.zipIdx,
      ((SourceFile.at w root p.1).ways.map (p.2, ·)).filterMap (foundAt find w root paths)
        = collect (.at w root p.1) := by
    intro p hp
    rw [filterMap_map, h, ways]
    cases htree : (SourceFile.at w root p.1).tree? with
    | none => rfl
    | some tree =>
      refine filterMap_congr fun way _ => ?_
      simp [foundAt, mem_zipIdx_iff_getElem?.1 hp, htree]
  rw [places, filterMap_flatMap, flatMap_congr hfile, flatMap_map]
  conv_lhs => rw [← zipIdx_map_fst 0 paths, flatMap_map]

end SmellLint.CallGraph

/-!
## The functions of a call graph

The graph of files has one function for each way to a definition in them, and it is the first one
in the order of the places (`loadFiles_functions`).  `get?_foldl` says this of the pass over the
functions of the files, and `exists_first_of_find?` moves it to the places of the files.
-/

namespace SmellLint

open Keyed Syntax.Node

def Syntax.Node.isClass : Node → Bool
  | .classDef .. => true
  | _ => false

namespace CallGraph

open Syntax (Node)

/-! ### The first function of each way -/

theorem get?_foldl (g : CallGraph) (fs : List Function) (id : String) :
    (fs.foldl addFunction g).functions.get? id
      = (g.functions.get? id).or (fs.find? fun f => f.id = id) := by
  induction fs generalizing g with
  | nil => rw [List.foldl_nil, List.find?_nil, Option.or_none]
  | cons f fs ih =>
    rw [List.foldl_cons, ih, addFunction, get?_alter]
    by_cases h : id = f.id
    · subst h
      rw [if_pos rfl, List.find?_cons_of_pos (by simp)]
      cases g.functions.get? f.id <;> rfl
    · rw [if_neg h, List.find?_cons_of_neg (by simpa using Ne.symm h)]

theorem nodup_keys_foldl {g : CallGraph} (h : g.functions.keys.Nodup) (fs : List Function) :
    (fs.foldl addFunction g).functions.keys.Nodup := by
  induction fs generalizing g with
  | nil => exact h
  | cons f fs ih => exact ih (nodup_keys_alter h _ _)

/-- The functions of `g` are `fs`, added in turn. -/
structure Collects (fs : List Function) (g : CallGraph) : Prop where
  nodup : (g.functions.values.map Function.id).Nodup
  get?_eq : ∀ id, g.functions.get? id = fs.find? fun f => f.id = id
  /-- A function is kept if it is the first one with its way. -/
  mem_values : ∀ {f : Function},
    f ∈ g.functions.values ↔ fs.find? (fun f' => f'.id = f.id) = some f

theorem collects_foldl (fs : List Function) : Collects fs (fs.foldl addFunction empty) := by
  have hget : ∀ id, (fs.foldl addFunction empty).functions.get? id
      = fs.find? fun f => f.id = id := get?_foldl empty fs
  have hfiled : (fs.foldl addFunction empty).IsFiled := isFiled_foldl (by rintro id f ⟨⟩) fs
  have hnodup : (fs.foldl addFunction empty).functions.keys.Nodup :=
    nodup_keys_foldl (show empty.functions.keys.Nodup from List.nodup_nil) fs
  generalize fs.foldl addFunction empty = g at *
  have hkey : ∀ e ∈ g.functions.entries, (Function.id ∘ Prod.snd) e = e.1 := fun e he =>
    hfiled (get?_of_mem_entries hnodup he)
  constructor
  case nodup =>
    rw [values, List.map_map, List.map_congr_left hkey]
    exact hnodup
  case get?_eq => exact hget
  case mem_values =>
    intro f
    rw [← hget]
    refine ⟨fun hf => ?_, mem_values_of_get?⟩
    obtain ⟨e, he, rfl⟩ := List.mem_map.1 hf
    have hid : e.2.id = e.1 := hkey e he
    rw [hid]
    exact get?_of_mem_entries hnodup he

variable {id : String}

theorem Collects.contains_iff {fs : List Function} {g : CallGraph} (h : Collects fs g) :
    g.functions.contains id = true ↔ ∃ f ∈ g.functions.values, f.id = id := by
  rw [contains, h.get?_eq]
  constructor
  · intro hsome
    obtain ⟨f, hf⟩ := Option.isSome_iff_exists.1 hsome
    have hid : f.id = id := by simpa using List.find?_some hf
    exact ⟨f, h.mem_values.2 (hid ▸ hf), hid⟩
  · rintro ⟨f, hf, rfl⟩
    rw [h.mem_values.1 hf]
    rfl

theorem Collects.mem_map_id {fs : List Function} {g : CallGraph} (h : Collects fs g) :
    id ∈ g.functions.values.map Function.id ↔ ∃ f ∈ fs, f.id = id := by
  rw [List.mem_map, ← h.contains_iff, contains, h.get?_eq, List.find?_isSome]
  simp

/-! ### Definitions -/

/-- The function that is defined at `way`, if one is. -/
def functionAt? (file : SourceFile) (tree : Node) (way : List Nat) : Option Function :=
  (tree.met? (fun _ => true) [] way).bind fun p => function? file p.1 p.2

theorem functions_eq (file : SourceFile) : file.functions
      = (file.tree?.map fun tree => tree.ways.filterMap (functionAt? file tree)).getD [] := by
  rw [SourceFile.functions]
  cases file.tree? with
  | none => rfl
  | some tree =>
    dsimp only
    rw [withScopes_eq_ways, List.filterMap_filterMap]
    rfl

theorem scopeNames_concat (scope : List Node) (d : Node) :
    scopeNames (scope ++ [d]) = scopeNames scope ++ d.definedName?.toList := by
  rw [scopeNames, scopeNames]
  cases h : d.definedName? <;> simp [h]

variable {f : Function}

theorem functionAt?_eq_some {file : SourceFile} {tree : Node} {way : List Nat} :
    functionAt? file tree way = some f ↔
      ∃ d, tree.at? way = some d ∧ function? file (tree.definitionsAround way) d = some f := by
  rw [functionAt?, met?, if_pos (tree.isReached_of_forall way)]
  cases tree.at? way with
  | none => simp
  | some d => simp

/-- A function is defined at `place` of `paths`, and `id` is the way to it: the module of the file,
the names of the definitions around it, and its own name. -/
def Defines (w : Workspace) (root : String) (paths : List String) (place : Nat × List Nat)
    (id : String) : Prop :=
  ∃ path text tree d, Listed w paths place.1 path text tree ∧ tree.at? place.2 = some d ∧
    d.isFunction = true ∧
    id = way (moduleInfo w.cwd root path).1 (scopeNames (tree.definitionsAround place.2 ++ [d]))

/-- `f` describes the definition at a place of a program. -/
structure Function.Describes (f : Function) (w : Workspace) (root path text : String)
    (tree : Node) (place : List Nat) : Prop where
  definition : ∃ span isAsync params body decorators returns,
    tree.at? place = some (.functionDef span isAsync f.name params body decorators returns) ∧
    f.startLine = span.start.line ∧ f.endLine = span.stop.line
  id_eq : f.id = way (moduleInfo w.cwd root path).1
    (scopeNames (tree.definitionsAround place) ++ [f.name])
  module_eq : f.module = (moduleInfo w.cwd root path).1
  package_eq : f.package = (moduleInfo w.cwd root path).2
  path_eq : f.path = path
  /-- It is a method exactly if the innermost definition around it is a class. -/
  kind_eq : f.kind =
    if (tree.definitionsAround place).getLast?.any isClass then "method" else "function"
  lines : 1 ≤ f.startLine ∧ f.startLine ≤ f.endLine ∧
    f.endLine ≤ (Text.linesKeepingEnds text).length
  source_eq : f.source = String.join
    (((Text.linesKeepingEnds text).drop (f.startLine - 1)).take (f.endLine + 1 - f.startLine))

theorem SourceFile.package_at (w : Workspace) (root path : String) :
    (SourceFile.at w root path).package = (moduleInfo w.cwd root path).2 := by
  rw [SourceFile.at, ofText?]

theorem sourceSegment_of_le {lines : List String} {first last : Nat} (hfirst : 1 ≤ first)
    (hle : first ≤ last) (hlast : last ≤ lines.length) :
    sourceSegment lines first last
      = String.join ((lines.drop (first - 1)).take (last + 1 - first)) := by
  have hcond : (1 ≤ (first : Int) && (first : Int) ≤ last && (last : Int) ≤ lines.length)
      = true := by
    simp only [Bool.and_eq_true, decide_eq_true_eq]
    omega
  rw [sourceSegment, if_pos hcond, Int.toNat_natCast, Int.toNat_natCast]

theorem kind_of_function? {file : SourceFile} {scope : List Node} {d : Node}
    (h : function? file scope d = some f) :
    f.kind = if scope.getLast?.any isClass then "method" else "function" := by
  cases d with
  | functionDef =>
    cases h
    rfl
  | _ => cases h

/-- What `functionAt?` gives describes the definition there. -/
theorem describes_of_functionAt? {w : Workspace} {root : String} {paths : List String}
    {number : Nat} {path text : String} {tree : Node} {place : List Nat}
    (h : Listed w paths number path text tree)
    (hf : functionAt? (.at w root path) tree place = some f) :
    f.Describes w root path text tree place := by
  obtain ⟨d, hd, hf⟩ := functionAt?_eq_some.1 hf
  obtain ⟨raw, rfl⟩ := Run.exists_of_readText h.read
  have hwithin := within_of_mem_preorder h.parsed (mem_preorder_of_at? hd)
  have hmodule : (SourceFile.at w root path).module = (moduleInfo w.cwd root path).1 := rfl
  have hpackage := SourceFile.package_at w root path
  have hpath : (SourceFile.at w root path).path = path := rfl
  have htext := h.lines_eq root
  have hkind := kind_of_function? hf
  generalize SourceFile.at w root path = file at *
  cases d with
  | functionDef span isAsync name params body decorators returns =>
    cases hf
    have hlines : 1 ≤ span.start.line ∧ span.start.line ≤ span.stop.line ∧
        span.stop.line ≤ (Text.linesKeepingEnds (Text.unifyNewlines raw)).length := by
      cases hwithin with
      | mk hstart hstop _ => exact ⟨(hstart span rfl).1, (hstop rfl span rfl).1⟩
    constructor
    case definition => exact ⟨span, isAsync, params, body, decorators, returns, hd, rfl, rfl⟩
    case id_eq => exact hmodule ▸ rfl
    case module_eq => exact hmodule
    case package_eq => exact hpackage
    case path_eq => exact hpath
    case kind_eq => exact hkind
    case lines => exact hlines
    case source_eq =>
      rw [← htext] at hlines ⊢
      exact sourceSegment_of_le hlines.1 hlines.2.1 hlines.2.2
  | _ => cases hf

variable {w : Workspace} {root : String} {paths : List String}

/-- `place` defines a function if `functionAt?` finds one there. -/
theorem defines_iff {place : Nat × List Nat} : Defines w root paths place id ↔
      ∃ f, foundAt functionAt? w root paths place = some f ∧ f.id = id := by
  simp only [foundAt_eq_some, functionAt?_eq_some]
  constructor
  · rintro ⟨path, text, tree, d, hlisted, hd, hfunction, rfl⟩
    cases d with
    | functionDef =>
      refine ⟨_, ⟨path, tree, hlisted.path_eq, hlisted.tree?_eq root, _, hd, rfl⟩, ?_⟩
      rw [scopeNames_concat]
      rfl
    | _ => cases hfunction
  · rintro ⟨f, ⟨path, tree, hpath, htree, d, hd, hf⟩, rfl⟩
    obtain ⟨raw, hlisted⟩ := exists_listed hpath htree
    cases d with
    | functionDef =>
      refine ⟨path, _, tree, _, hlisted, hd, rfl, ?_⟩
      cases hf
      rw [scopeNames_concat]
      rfl
    | _ => cases hf

theorem mem_places_of_functionAt? {place : Nat × List Nat}
    (h : foundAt functionAt? w root paths place = some f) : place ∈ places w root paths := by
  obtain ⟨path, tree, hpath, htree, hf⟩ := foundAt_eq_some.1 h
  obtain ⟨d, hd, -⟩ := functionAt?_eq_some.1 hf
  exact mem_places.2 ⟨path, tree, hpath, htree, Option.isSome_of_mem hd⟩

/-- The graph of `paths` has the functions that are found at their `places`, and the links of their
calls as its edges. -/
theorem exists_known (root : String) (paths : List String) (w : Workspace) :
    ∃ known, Collects ((places w root paths).filterMap (foundAt functionAt? w root paths)) known ∧
      (empty.loadFiles root paths).exec w = (.ok { known with
        edges := ((paths.map (SourceFile.at w root)).flatMap fun file =>
          file.links known).foldl addLink [] }, w) := by
  rw [exec_loadFiles, addFiles_eq, ← flatMap_at functions_eq]
  exact ⟨_, collects_foldl _, rfl⟩

theorem Collects.mem_map_id_iff_defines {known : CallGraph}
    (h : Collects ((places w root paths).filterMap (foundAt functionAt? w root paths)) known) :
    id ∈ known.functions.values.map Function.id ↔ ∃ place, Defines w root paths place id := by
  simp only [h.mem_map_id, defines_iff, List.mem_filterMap]
  constructor
  · rintro ⟨f, ⟨place, -, hfound⟩, hid⟩
    exact ⟨place, f, hfound, hid⟩
  · rintro ⟨place, f, hfound, hid⟩
    exact ⟨f, ⟨place, mem_places_of_functionAt? hfound, hfound⟩, hid⟩

/-- The functions of the graph that `loadFiles` makes of `paths`: there is one for each way to a
definition of a function in one of the files that are programs, and it describes the first such
definition. -/
theorem loadFiles_functions (root : String) (paths : List String) (w : Workspace) :
    ∃ g, (empty.loadFiles root paths).exec w = (.ok g, w) ∧
      (g.functions.values.map Function.id).Nodup ∧
      (∀ id, id ∈ g.functions.values.map Function.id ↔ ∃ place, Defines w root paths place id) ∧
      ∀ f ∈ g.functions.values, ∃ number path text tree way,
        Listed w paths number path text tree ∧ f.Describes w root path text tree way ∧
        ∀ place, Defines w root paths place f.id →
          place = (number, way) ∨ Before (number, way) place := by
  obtain ⟨known, hcollects, hexec⟩ := exists_known root paths w
  refine ⟨_, hexec, hcollects.nodup, fun id => hcollects.mem_map_id_iff_defines, fun f hf => ?_⟩
  obtain ⟨⟨number, way⟩, hfound, hfirst⟩ :=
    exists_first_of_find? (pairwise_places w root paths) (hcollects.mem_values.1 hf)
  obtain ⟨path, tree, hpath, htree, hat⟩ := foundAt_eq_some.1 hfound
  obtain ⟨raw, hlisted⟩ := exists_listed hpath htree
  refine ⟨number, path, _, tree, way, hlisted, describes_of_functionAt? hlisted hat, ?_⟩
  intro place hplace
  obtain ⟨f', hfound', hid⟩ := defines_iff.1 hplace
  exact hfirst place (mem_places_of_functionAt? hfound') f' hfound' (decide_eq_true hid)

end CallGraph
end SmellLint
