import SmellLint.Proofs.CallGraph.Functions

/-!
# Which calls are recorded

A call that lies in a definition and means a function of the graph makes one site of an edge, if no
other call lies around it.  A call inside another one, as an argument or as what is called, makes
none (`loadFiles_records`): the pass that looks for calls does not go on below a call.

The target of an edge is always a function of the graph.  Its source is the innermost definition
around the calls, which may be a class, and classes are no functions of the graph: the ends of all
edges are functions exactly if each class that calls are recorded in shares its way with a function
(`loadFiles_ends`).
-/

namespace SmellLint.CallGraph

open Syntax (Node)
open List Option

/-! ## Records -/

/-- A call that has been recorded: where it is, and the link that it makes. -/
structure Record where
  place : Nat × List Nat
  link : Link

/-- The records of the links that are `found` at `places`. -/
def records (found : Nat × List Nat → Option Link) (places : List (Nat × List Nat)) : List Record :=
  places.filterMap fun place => (found place).map (Record.mk place)

theorem map_link_records (found : Nat × List Nat → Option Link) (places : List (Nat × List Nat)) :
    (records found places).map Record.link = places.filterMap found := by
  rw [records, map_filterMap]
  refine filterMap_congr fun place _ => ?_
  cases found place <;> rfl

variable {places : List (Nat × List Nat)} {found : Nat × List Nat → Option Link}

theorem mem_records
    {r : Record} : r ∈ records found places ↔ r.place ∈ places ∧ found r.place = some r.link := by
  simp only [records, mem_filterMap, map_eq_some_iff]
  constructor
  · rintro ⟨place, hplace, l, hl, rfl⟩
    exact ⟨hplace, hl⟩
  · rintro ⟨hplace, hl⟩
    exact ⟨r.place, hplace, r.link, hl, rfl⟩

theorem pairwise_records {R : Nat × List Nat → Nat × List Nat → Prop} (h : places.Pairwise R)
    (found : Nat × List Nat → Option Link) :
    (records found places).Pairwise fun r s => R r.place s.place := by
  rw [records, pairwise_filterMap]
  refine h.imp fun hR r hr s hs => ?_
  obtain ⟨_, -, rfl⟩ := map_eq_some_iff.1 hr
  obtain ⟨_, -, rfl⟩ := map_eq_some_iff.1 hs
  exact hR

/-- A `place` that comes once has the record of what is found at it. -/
theorem filter_records (hnodup : places.Nodup) {place : Nat × List Nat} (hplace : place ∈ places) :
    (records found places).filter (fun r => r.place = place)
      = ((found place).map (Record.mk place)).toList := by
  induction places with
  | nil => cases hplace
  | cons p places ih =>
    obtain ⟨hp, hnodup⟩ := nodup_cons.1 hnodup
    have hcons : records found (p :: places)
        = ((found p).map (Record.mk p)).toList ++ records found places := by
      rw [records, filterMap_cons]
      cases found p <;> rfl
    rw [hcons, filter_append]
    rcases mem_cons.1 hplace with rfl | hplace
    · have hrest : (records found places).filter (fun r => r.place = place) = [] := by
        refine filter_eq_nil_iff.2 fun r hr heq => hp ?_
        rw [← of_decide_eq_true heq]
        exact (mem_records.1 hr).1
      rw [hrest]
      cases found place <;> simp
    · have hne : p ≠ place := fun heq => hp (heq ▸ hplace)
      rw [ih hnodup hplace]
      cases found p <;> simp [hne]

/-! ## Calls -/

/-- The call at `way` makes the link `l`: it lies in a definition and means a function of `g`. -/
structure Links (g : CallGraph) (module path text : String) (tree : Node) (way : List Nat)
    (l : Link) : Prop where
  inside : tree.definitionsAround way ≠ []
  source_eq : l.ends.1 = CallGraph.way module (scopeNames (tree.definitionsAround way))
  target_mem : ∃ f ∈ g.functions.values, f.id = l.ends.2
  call : ∃ span func args keywords, tree.at? way = some (.call span func args keywords) ∧
    g.resolveTarget module (scopeNames (tree.definitionsAround way)) func = some l.ends.2 ∧
    l.site = ⟨path, span.start.line, lineSnippet (Text.linesKeepingEnds text) span.start.line⟩

/-- Another call lies around the place at `way`. -/
def isInCall (tree : Node) (way : List Nat) : Bool := (tree.around way).dropLast.any isCall

/-- In `f(g())` the call of `g` lies in that of `f`. -/
example (s : Syntax.Span) :
    let tree : Node := .call s (.name s "f") [.call s (.name s "g") [] []] []
    isInCall tree [] = false ∧ isInCall tree [1] = true := ⟨rfl, rfl⟩

theorem isReached_eq_not_isInCall (tree : Node) (way : List Nat) :
    tree.isReached (fun n => !isCall n) way = !isInCall tree way := by
  rw [Node.isReached, isInCall, not_any_eq_all_not]

/-- The link of the call at `way`, if it makes one and no call lies around it. -/
def linkAt? (g : CallGraph) (file : SourceFile) (tree : Node) (way : List Nat) : Option Link :=
  (tree.met? (fun n => !isCall n) [] way).bind fun p =>
    if isCall p.2 && !p.1.isEmpty then g.link? file (scopeNames p.1) p.2 else none

theorem links_eq (g : CallGraph) (file : SourceFile) : file.links g
      = (file.tree?.map fun tree => tree.ways.filterMap (g.linkAt? file tree)).getD [] := by
  rw [SourceFile.links, SourceFile.calls]
  cases file.tree? with
  | none => rfl
  | some tree =>
    dsimp only
    rw [Node.withScopes_eq_ways, filterMap_filterMap, filterMap_filterMap]
    refine filterMap_congr fun way _ => ?_
    rw [linkAt?]
    cases tree.met? _ [] way with
    | none => rfl
    | some p =>
      simp only [bind_some]
      split <;> rfl

variable {g : CallGraph} {w : Workspace} {root : String} {paths : List String} {number : Nat}
  {path text : String} {tree : Node} {way : List Nat} {l : Link}

/-- `linkAt?` gives the link that the call at `way` makes, unless another call lies around it. -/
theorem linkAt?_eq_some
    (hg : ∀ {id}, g.functions.contains id = true ↔ ∃ f ∈ g.functions.values, f.id = id)
    (h : Listed w paths number path text tree) :
    g.linkAt? (.at w root path) tree way = some l ↔
      isInCall tree way = false ∧ g.Links (moduleInfo w.cwd root path).1 path text tree way l := by
  have hmodule : (SourceFile.at w root path).module = (moduleInfo w.cwd root path).1 := rfl
  have hpath : (SourceFile.at w root path).path = path := rfl
  have htext := h.lines_eq root
  rw [← hmodule, linkAt?, Node.met?, isReached_eq_not_isInCall]
  cases isInCall tree way with
  | true => simp
  | false =>
    simp only [Bool.not_false, if_true, true_and, nil_append]
    constructor
    · intro hl
      obtain ⟨p, hp, hl⟩ := bind_eq_some_iff.1 hl
      obtain ⟨n, hn, rfl⟩ := map_eq_some_iff.1 hp
      rw [ite_none_right_eq_some, Bool.and_eq_true] at hl
      obtain ⟨⟨-, hinside⟩, hl⟩ := hl
      cases n with
      | call span func args keywords =>
        obtain ⟨target, htarget, rfl⟩ := map_eq_some_iff.1 hl
        rw [target?, filter_eq_some_iff] at htarget
        refine ⟨by simpa using hinside, rfl, hg.1 htarget.2, ?_⟩
        exact ⟨span, func, args, keywords, hn, htarget.1, by rw [htext]; rfl⟩
      | _ => cases hl
    · intro hl
      obtain ⟨span, func, args, keywords, hn, htarget, hsite⟩ := hl.call
      rw [hn, map_some, bind_some, if_pos (by simpa [isCall] using hl.inside), link?,
        target?, htarget, filter_some_pos (hg.2 hl.target_mem)]
      rw [← hl.source_eq, htext]
      exact congrArg (fun site => some _) hsite.symm

/-- Which links calls make does not hang on the `edges`. -/
theorem links_withEdges (edges : List Edge) {module : String} :
    { g with edges }.Links module path text tree way l ↔ g.Links module path text tree way l :=
  ⟨fun h => ⟨h.inside, h.source_eq, h.target_mem, h.call⟩,
    fun h => ⟨h.inside, h.source_eq, h.target_mem, h.call⟩⟩

/-- The graph that `loadFiles` makes of `paths` gathers the links of the calls that have been
recorded. A call that makes a link has one record if no other call lies around it, and none
otherwise. -/
theorem loadFiles_records (root : String) (paths : List String) (w : Workspace) :
    ∃ (g : CallGraph) (recorded : List Record), (empty.loadFiles root paths).exec w = (.ok g, w) ∧
      Gathers (recorded.map Record.link) g.edges ∧
      (recorded.Pairwise fun r s => Before r.place s.place) ∧
      (∀ r ∈ recorded, ∃ path text tree, Listed w paths r.place.1 path text tree ∧
        g.Links (moduleInfo w.cwd root path).1 path text tree r.place.2 r.link) ∧
      ∀ number path text tree way l, Listed w paths number path text tree →
        g.Links (moduleInfo w.cwd root path).1 path text tree way l →
        recorded.filter (fun r => r.place = (number, way))
          = if isInCall tree way then [] else [⟨(number, way), l⟩] := by
  obtain ⟨known, hcollects, hexec⟩ := exists_known root paths w
  have hgathers := gathers_foldl ((paths.map (SourceFile.at w root)).flatMap
    fun file => file.links known)
  refine ⟨_, records (foundAt known.linkAt? w root paths) (places w root paths), hexec, ?_,
    pairwise_records (pairwise_places w root paths) _, ?_, ?_⟩
  · rw [map_link_records, ← flatMap_at (links_eq known)]
    exact hgathers
  · intro r hr
    obtain ⟨path, tree, hpath, htree, hl⟩ := foundAt_eq_some.1 (mem_records.1 hr).2
    obtain ⟨raw, hlisted⟩ := exists_listed hpath htree
    refine ⟨path, _, tree, hlisted, (links_withEdges _).2 ?_⟩
    exact ((linkAt?_eq_some hcollects.contains_iff hlisted).1 hl).2
  · intro number path text tree way l hlisted hl
    rw [links_withEdges] at hl
    obtain ⟨span, func, args, keywords, hat, -⟩ := hl.call
    have hplace : (number, way) ∈ places w root paths := mem_places.2
      ⟨path, tree, hlisted.path_eq, hlisted.tree?_eq root, Option.isSome_of_mem hat⟩
    rw [filter_records (nodup_places w root paths) hplace, hlisted.foundAt_eq]
    cases hcall : isInCall tree way with
    | true =>
      have hnone : known.linkAt? (.at w root path) tree way = none := by
        refine Option.eq_none_iff_forall_not_mem.2 fun l' hl' => ?_
        have hnot := ((linkAt?_eq_some hcollects.contains_iff hlisted).1 hl').1
        rw [hcall] at hnot
        cases hnot
      rw [hnone]
      rfl
    | false =>
      rw [(linkAt?_eq_some hcollects.contains_iff hlisted).2 ⟨hcall, hl⟩]
      rfl

/-! ## Ends of edges -/

/-- A call that makes an edge with `ends` is recorded, and it lies in the definitions `scope`. -/
def IsRecorded (g : CallGraph) (w : Workspace) (root : String) (paths : List String)
    (ends : String × String) (scope : List Node) : Prop :=
  ∃ number path text tree way site, Listed w paths number path text tree ∧
    g.Links (moduleInfo w.cwd root path).1 path text tree way ⟨ends, site⟩ ∧
    isInCall tree way = false ∧ scope = tree.definitionsAround way

def ids (g : CallGraph) : List String := g.functions.values.map Function.id

/-- The innermost definition of `scope` is a class. -/
def isClassScope (scope : List Node) : Bool := scope.getLast?.any Node.isClass

theorem isFunction_or_isClass {d : Node} (h : d.isDefinition = true) :
    d.isFunction = true ∨ d.isClass = true := by
  cases d with
  | functionDef => exact .inl rfl
  | classDef => exact .inr rfl
  | _ => cases h

/-- Calls that lie in a function, with no class in between, have a function as their source. -/
theorem IsRecorded.exists_defines {ends : String × String} {scope : List Node}
    (h : g.IsRecorded w root paths ends scope) (hscope : isClassScope scope = false) :
    ∃ place, Defines w root paths place ends.1 := by
  obtain ⟨number, path, text, tree, way, site, hlisted, hlinks, -, rfl⟩ := h
  obtain ⟨outer, d, hlast⟩ := eq_nil_or_concat _ |>.resolve_left hlinks.inside
  rw [concat_eq_append] at hlast
  rw [isClassScope, hlast, getLast?_concat, any_some] at hscope
  have hd : d ∈ tree.definitionsAround way := by simp [hlast]
  have hfunction := (isFunction_or_isClass (mem_filter.1 hd).2).resolve_right (by simp [hscope])
  obtain ⟨place, hat, haround⟩ := Node.exists_of_definitionsAround_concat hlast
  refine ⟨(number, place), path, text, tree, d, hlisted, hat, hfunction, ?_⟩
  rw [haround, ← hlast]
  exact hlinks.source_eq

/-- The edges of the graph are those of the calls that are recorded. -/
theorem isRecorded_iff {known : CallGraph}
    (hknown : ∀ {id}, known.functions.contains id = true ↔ ∃ f ∈ known.functions.values, f.id = id)
    {ends : String × String} :
    (∃ scope, known.IsRecorded w root paths ends scope) ↔
      ∃ l ∈ (paths.map (SourceFile.at w root)).flatMap fun file => file.links known,
        l.ends = ends := by
  rw [flatMap_at (links_eq known)]
  simp only [mem_filterMap]
  constructor
  · rintro ⟨_, number, path, text, tree, way, site, hlisted, hlinks, hcall, -⟩
    obtain ⟨span, func, args, keywords, hat, -⟩ := hlinks.call
    have hplace : (number, way) ∈ places w root paths := mem_places.2
      ⟨path, tree, hlisted.path_eq, hlisted.tree?_eq root, isSome_of_mem hat⟩
    refine ⟨⟨ends, site⟩, ⟨(number, way), hplace, ?_⟩, rfl⟩
    rw [hlisted.foundAt_eq]
    exact (linkAt?_eq_some hknown hlisted).2 ⟨hcall, hlinks⟩
  · rintro ⟨l, ⟨⟨number, way⟩, -, hfound⟩, rfl⟩
    obtain ⟨path, tree, hpath, htree, hl⟩ := foundAt_eq_some.1 hfound
    obtain ⟨raw, hlisted⟩ := exists_listed hpath htree
    obtain ⟨hcall, hlinks⟩ := (linkAt?_eq_some hknown hlisted).1 hl
    exact ⟨_, number, path, _, tree, way, l.site, hlisted, hlinks, hcall, rfl⟩

/-- The target of every edge of the graph that `loadFiles` makes of `paths` is a function of the
graph. The source of an edge is none exactly if all its calls lie in a class, with no function in
between, and no function has the way of the class; so the ends of all edges are functions exactly if
every class that calls are recorded in shares its way with a function. -/
theorem loadFiles_ends (root : String) (paths : List String) (w : Workspace) :
    ∃ g, (empty.loadFiles root paths).exec w = (.ok g, w) ∧
      (∀ e ∈ g.edges, e.target ∈ g.ids) ∧
      (∀ e ∈ g.edges, e.source ∉ g.ids ↔
        (∀ scope, g.IsRecorded w root paths e.ends scope → isClassScope scope = true) ∧
          ∀ place, ¬Defines w root paths place e.source) ∧
      ((∀ e ∈ g.edges, e.source ∈ g.ids) ↔ ∀ ends scope, g.IsRecorded w root paths ends scope →
        isClassScope scope = true → ∃ place, Defines w root paths place ends.1) := by
  obtain ⟨known, hcollects, hexec⟩ := exists_known root paths w
  have hgathers := gathers_foldl ((paths.map (SourceFile.at w root)).flatMap
    fun file => file.links known)
  refine ⟨_, hexec, ?_⟩
  generalize ((paths.map (SourceFile.at w root)).flatMap fun file => file.links known).foldl
    addLink [] = edges at hgathers
  have hends : ∀ {ends}, ends ∈ edges.map Edge.ends ↔
      ∃ scope, { known with edges }.IsRecorded w root paths ends scope := by
    intro ends
    rw [hgathers.mem_ends, ← isRecorded_iff hcollects.contains_iff]
    simp only [IsRecorded, links_withEdges]
  have hids : ∀ {id}, id ∈ { known with edges }.ids ↔ ∃ place, Defines w root paths place id :=
    hcollects.mem_map_id_iff_defines
  refine ⟨fun e he => ?_, fun e he => ⟨fun hsource => ⟨fun scope h => ?_, ?_⟩, ?_⟩, ?_, ?_⟩
  · obtain ⟨scope, number, path, text, tree, way, site, -, hlinks, -⟩ :=
      hends.1 (List.mem_map_of_mem he)
    obtain ⟨f, hf, hid⟩ := hlinks.target_mem
    exact List.mem_map.2 ⟨f, hf, hid⟩
  · by_contra hscope
    exact hsource (hids.2 (h.exists_defines (Bool.eq_false_iff.2 hscope)))
  · exact fun place h => hsource (hids.2 ⟨place, h⟩)
  · rintro ⟨-, hnone⟩ hmem
    obtain ⟨place, h⟩ := hids.1 hmem
    exact hnone place h
  · intro hall ends scope h _
    obtain ⟨e, he, rfl⟩ := List.mem_map.1 (hends.2 ⟨scope, h⟩)
    exact hids.1 (hall e he)
  · intro hclasses e he
    obtain ⟨scope, h⟩ := hends.1 (List.mem_map_of_mem he)
    refine hids.2 ?_
    cases hscope : isClassScope scope with
    | true => exact hclasses _ scope h hscope
    | false => exact h.exists_defines hscope

/-- The body of a class calls a function: the edge starts at the class, which the graph does not
have. -/
example :
    let text := "def f():\n    return 1\nclass A:\n    x = f()\n"
    let g := ofFiles [.ofText? "/" "/" "/a.py" (some text)]
    (g.functions.keys, g.edges.map Edge.ends) = (["a.f"], [("a.A", "a.f")]) := by
  decide +kernel

end SmellLint.CallGraph
