import SmellLint.Proofs.CallGraph.Edges
import SmellLint.Proofs.Inspection
import SmellLint.Proofs.Project.Log
import SmellLint.Proofs.Workspace.Keeps

/-!
# Scopes and edges

## Definitions around a node

`Node.withScopes` goes through a tree and keeps the definitions it is in.  `withScopes_eq_ways` says
what it meets: every place of the tree that it reaches, depth first, with the definitions on the way
to it.  A place is reached if all nodes around it are entered.
-/

namespace SmellLint.Syntax.Node

open List

/-- Whether `n` is a definition of a function or a class. -/
def isDefinition (n : Node) : Bool := n.definedName?.isSome

/-- The definitions that the place at `way` lies in, the outermost first. -/
def definitionsAround (n : Node) (way : List Nat) : List Node :=
  (n.around way).dropLast.filter isDefinition

theorem around_ne_nil (n : Node) (way : List Nat) : n.around way ≠ [] := by
  cases way <;> simp [around, at?]

theorem definitionsAround_nil (n : Node) : n.definitionsAround [] = [] := by
  simp [definitionsAround, around, at?]

theorem definitionsAround_cons {n c : Node} {i : Nat} (way : List Nat)
    (h : n.children[i]? = some c) :
    n.definitionsAround (i :: way) = [n].filter isDefinition ++ c.definitionsAround way := by
  rw [definitionsAround, around_cons n c i way h, dropLast_cons_of_ne_nil (c.around_ne_nil way),
    ← singleton_append, filter_append]
  rfl

/-- The definitions around the children of `n`. -/
def innerScope (scope : List Node) (n : Node) : List Node := scope ++ [n].filter isDefinition

variable (enter : Node → Bool)

theorem withScopes_eq (scope : List Node) (n : Node) : n.withScopes enter scope = (scope, n) ::
      if enter n then n.children.flatMap (withScopes enter (innerScope scope n)) else [] := by
  have hinner : (if n.definedName?.isSome then scope ++ [n] else scope) = innerScope scope n := by
    rw [innerScope, ← isDefinition]
    cases h : n.isDefinition <;> simp [h]
  rw [withScopes, hinner, flatMap_subtype (g := withScopes enter _)
    (fun _ _ => rfl), unattach_attach]

/-- Whether a traversal that goes into what `enter` accepts gets as far as `way`. -/
def isReached (enter : Node → Bool) (n : Node) (way : List Nat) : Bool :=
  (n.around way).dropLast.all enter

theorem isReached_cons {n c : Node} {i : Nat} (way : List Nat) (h : n.children[i]? = some c) :
    n.isReached enter (i :: way) = (enter n && c.isReached enter way) := by
  rw [isReached, around_cons n c i way h, dropLast_cons_of_ne_nil (c.around_ne_nil way)]
  rfl

theorem isReached_of_forall (n : Node) (way : List Nat) : n.isReached (fun _ => true) way = true :=
  all_eq_true.2 fun _ _ => rfl

/-- What a traversal meets at `way`: the definitions around it, and the node there. -/
def met? (enter : Node → Bool) (scope : List Node) (n : Node) (way : List Nat) :
    Option (List Node × Node) :=
  if n.isReached enter way then (n.at? way).map fun m => (scope ++ n.definitionsAround way, m)
  else none

theorem met?_nil (scope : List Node) (n : Node) : n.met? enter scope [] = some (scope, n) := by
  have h : n.isReached enter [] = true := by simp [isReached, around, at?]
  rw [met?, if_pos h, at?, definitionsAround_nil, append_nil, Option.map_some]

theorem met?_cons (scope : List Node) {n c : Node} {i : Nat} (way : List Nat)
    (h : n.children[i]? = some c) :
    n.met? enter scope (i :: way)
      = if enter n then c.met? enter (innerScope scope n) way else none := by
  rw [met?, isReached_cons enter way h, at?, h, definitionsAround_cons way h, ← append_assoc]
  cases enter n <;> rfl

/-- `withScopes` meets the places that it reaches, depth first, with the definitions around them. -/
theorem withScopes_eq_ways (scope : List Node) (n : Node) :
    n.withScopes enter scope = n.ways.filterMap (n.met? enter scope) := by
  induction n using induction_children generalizing scope with
  | h n ih =>
    have hways : ∀ c ∈ n.children.zipIdx,
        ((ways c.1).flatMap fun way => (n.met? enter scope (c.2 :: way)).toList)
          = if enter n then c.1.withScopes enter (innerScope scope n) else [] := by
      intro c hc
      rw [ih c.1 (fst_mem_of_mem_zipIdx hc), filterMap_eq_flatMap_toList]
      simp only [met?_cons enter scope _ (zipIdx_children hc)]
      cases enter n <;> simp
    rw [withScopes_eq, filterMap_eq_flatMap_toList, ways_flatMap, flatMap_congr hways,
      met?_nil, Option.toList_some, singleton_append]
    cases enter n with
    | true =>
      simp only [if_true]
      conv_lhs => rw [← zipIdx_map_fst 0 n.children, flatMap_map]
    | false => simp

theorem mem_preorder_of_at? {n m : Node} {way : List Nat} (h : n.at? way = some m) :
    m ∈ n.preorder := by
  rw [preorder_eq_ways, mem_flatMap]
  exact ⟨way, mem_ways.2 (by rw [h]; rfl), by rw [h]; simp⟩

theorem mem_withScopes {enter : Node → Bool} {scope : List Node} {n m : Node} :
    (scope, m) ∈ n.withScopes enter [] ↔ ∃ way, n.at? way = some m ∧ n.isReached enter way = true ∧
        scope = n.definitionsAround way := by
  rw [withScopes_eq_ways, mem_filterMap]
  simp only [met?, Option.ite_none_right_eq_some, Option.map_eq_some_iff, Prod.mk.injEq]
  constructor
  · rintro ⟨way, -, hreached, m', hm, rfl, rfl⟩
    exact ⟨way, hm, hreached, rfl⟩
  · rintro ⟨way, hm, hreached, rfl⟩
    exact ⟨way, mem_ways.2 (by rw [hm]; rfl), hreached, m, hm, rfl, rfl⟩

/-- The innermost definition `d` around a place is met itself, with the definitions around it. -/
theorem exists_of_definitionsAround_concat {n d : Node} {way : List Nat} {scope : List Node}
    (h : n.definitionsAround way = scope ++ [d]) :
    ∃ outer, n.at? outer = some d ∧ n.definitionsAround outer = scope := by
  induction way generalizing n scope with
  | nil =>
    rw [definitionsAround_nil] at h
    exact absurd h.symm (by simp)
  | cons i way ih =>
    cases hc : n.children[i]? with
    | none =>
      -- the way leaves the tree at the root
      have haround : n.around (i :: way) = [n] := by
        simp [around, at?, hc]
      rw [definitionsAround, haround] at h
      exact absurd h.symm (by simp)
    | some c =>
      rw [definitionsAround_cons way hc] at h
      rcases eq_nil_or_concat (c.definitionsAround way) with hnil | ⟨r, e, hr⟩
      · -- nothing below is a definition, so the root is the one
        rw [hnil, append_nil] at h
        cases hdef : n.isDefinition with
        | false =>
          rw [filter_cons_of_neg (by simp [hdef])] at h
          exact absurd h.symm (by simp)
        | true =>
          rw [filter_cons_of_pos hdef, filter_nil, ← nil_append [n]] at h
          obtain ⟨hscope, hd⟩ := append_inj' h rfl
          obtain rfl := singleton_inj.1 hd
          exact ⟨[], rfl, by rw [definitionsAround_nil, ← hscope]⟩
      · rw [concat_eq_append] at hr
        rw [hr, ← append_assoc] at h
        obtain ⟨hscope, hd⟩ := append_inj' h rfl
        obtain rfl := singleton_inj.1 hd
        obtain ⟨outer, hat, haround⟩ := ih hr
        refine ⟨i :: outer, ?_, ?_⟩
        · rw [at?, hc, Option.bind_some, hat]
        · rw [definitionsAround_cons outer hc, haround, hscope]

end SmellLint.Syntax.Node

/-!
## Where the edges of a call graph come from

Every site of an edge is a call in one of the files (`loadFiles_sound`): its line is that of the
call, its text is that line of the file, the source of the edge is the way to the definitions around
the call, and the target is the function that the call means.  The two passes go through a file in
the same way, so a function around a call is a function of the graph.
-/

namespace SmellLint

open Syntax (Node)
open List Run Syntax.Node Text

/-! ### Lines of a file -/

namespace Text

theorem not_mem_unifyNewlineChars (cs : List Char) : '\r' ∉ unifyNewlineChars cs := by
  fun_induction unifyNewlineChars cs with
  | case1 => exact not_mem_nil
  | case2 r ih => simpa using ih
  | case3 c r _ ih =>
    rw [mem_cons, not_or]
    refine ⟨?_, ih⟩
    split
    · decide
    · next h => exact Ne.symm h

theorem linesKeepingEndChars_ne_nil {cs : List Char} (h : cs ≠ []) :
    linesKeepingEndChars cs ≠ [] := by
  obtain ⟨c, r, rfl⟩ := exists_cons_of_ne_nil h
  rw [linesKeepingEndChars]
  split
  · exact cons_ne_nil _ _
  · split <;> exact cons_ne_nil _ _

end Text

/-- In a text with one spelling of line ends, lines are counted as they are cut. -/
theorem Syntax.length_linesKeepingEndChars {cs : List Char} (h : cs ≠ []) (hreturn : '\r' ∉ cs) :
    (linesKeepingEndChars cs).length = 1 + (lexerText cs).dropLast.count '\n' := by
  rw [lexerText_eq, unifyNewlineChars_of_not_mem hreturn]
  clear hreturn
  induction cs with
  | nil => exact absurd rfl h
  | cons c r ih =>
    by_cases hr : r = []
    · subst hr
      rw [dropLast_endLine_singleton, linesKeepingEndChars]
      split <;> rfl
    · rw [dropLast_endLine_cons c hr, count_cons, linesKeepingEndChars]
      have hlen := ih hr
      split
      · next hc =>
        rw [length_cons, hc]
        simp only [BEq.rfl, if_true]
        omega
      · next hc =>
        obtain ⟨line, lines, hlines⟩ := exists_cons_of_ne_nil (linesKeepingEndChars_ne_nil hr)
        rw [hlines] at hlen ⊢
        have hbeq : (c == '\n') = false := beq_false_of_ne hc
        simp only [hbeq]
        exact hlen

/-- The nodes of a program that was read from a file stand within the lines of the file. -/
theorem Syntax.Node.within_of_mem_preorder {raw : String} {tree n : Node}
    (h : ofSource? (unifyNewlines raw) = some tree) (hn : n ∈ tree.preorder) :
    n.Within (linesKeepingEnds (unifyNewlines raw)).length := by
  rw [linesKeepingEnds, length_map, unifyNewlines, String.toList_ofList]
  rw [ofSource?, unifyNewlines, String.toList_ofList] at h
  have hreturn := not_mem_unifyNewlineChars raw.toList
  generalize unifyNewlineChars raw.toList = cs at *
  by_cases hempty : cs = []
  · rw [hempty] at h
    cases h
    rw [preorder_eq] at hn
    obtain rfl := mem_singleton.1 hn
    exact within_of_noSpan rfl (forall_mem_nil _)
  · rw [length_linesKeepingEndChars hempty hreturn]
    exact Inspection.within_of_mem_walk (ofChars?_within h) (tree.walk_perm_preorder.mem_iff.2 hn)

/-- A node `n` of a program that was read from a file starts on a line of the file. -/
theorem Syntax.Node.line_of_mem_preorder {raw : String} {tree n : Node} {s : Span}
    (h : ofSource? (unifyNewlines raw) = some tree) (hn : n ∈ tree.preorder)
    (hs : n.span? = some s) :
    1 ≤ s.start.line ∧ s.start.line ≤ (linesKeepingEnds (unifyNewlines raw)).length := by
  cases within_of_mem_preorder h hn with
  | mk hstart _ _ => exact hstart s hs

/-! ### Reading files -/

theorem Run.exec_readText (path : String) (w : Workspace) :
    (readText path).exec w = (((readText path).exec w).1, w) :=
  Prod.ext rfl (keeps_readText (P := fun v => v = w) path w rfl)

/-- Line ends in what `readText` gives have one spelling. -/
theorem Run.exists_of_readText {path text : String} {w v : Workspace}
    (h : (readText path).exec w = (.ok text, v)) : ∃ raw, text = unifyNewlines raw := by
  obtain ⟨c, u, -, hlift⟩ := exec_bind_eq_ok h
  have htext : c.readText = .ok text := (Prod.mk.inj hlift).1
  rw [Content.readText] at htext
  cases hraw : c.rawText with
  | error e =>
    rw [hraw] at htext
    cases htext
  | ok raw =>
    rw [hraw] at htext
    cases htext
    exact ⟨raw, rfl⟩

namespace CallGraph

/-- What the file at `path` is read as. -/
def SourceFile.at (w : Workspace) (root path : String) : SourceFile :=
  .ofText? w.cwd root path ((readText path).exec w).1.toOption

theorem exec_load (root path : String) (w : Workspace) :
    (SourceFile.load root path).exec w = (.ok (.at w root path), w) := by
  rw [SourceFile.load, exec_bind_ok _ (exec_outcome _ w), exec_readText]
  rfl

theorem exec_loadFiles (g : CallGraph) (root : String) (paths : List String) (w : Workspace) :
    (g.loadFiles root paths).exec w = (.ok (g.addFiles (paths.map (.at w root))), w) := by
  have hall : (paths.mapM (SourceFile.load root)).exec w = (.ok (paths.map (.at w root)), w) := by
    induction paths with
    | nil => rfl
    | cons path paths ih =>
      rw [mapM_cons, exec_bind_ok _ (exec_load root path w), exec_bind_ok _ ih]
      rfl
  rw [loadFiles, exec_bind_ok _ hall]
  rfl

/-- A file that is a program has been read, and its lines are those of its text. -/
theorem SourceFile.exists_of_tree? {w : Workspace} {root path : String} {tree : Node}
    (h : (SourceFile.at w root path).tree? = some tree) :
    ∃ raw, (readText path).exec w = (.ok (unifyNewlines raw), w) ∧
      ofSource? (unifyNewlines raw) = some tree ∧
      (SourceFile.at w root path).lines = linesKeepingEnds (unifyNewlines raw) := by
  obtain ⟨x, hx⟩ : ∃ x, (readText path).exec w = (x, w) := ⟨_, exec_readText path w⟩
  rw [SourceFile.at, hx] at h ⊢
  obtain ⟨text, htext, hparsed⟩ := Option.bind_eq_some_iff.1 h
  cases x with
  | error fault => cases htext
  | ok read =>
    cases htext
    obtain ⟨raw, rfl⟩ := exists_of_readText hx
    exact ⟨raw, rfl, hparsed, rfl⟩

/-! ### Sites -/

/-- The line `n`, if it is there, is the one that `lineSnippet` shows. -/
theorem exists_lineSnippet {lines : List String} {n : Nat} (h : 1 ≤ n ∧ n ≤ lines.length) :
    ∃ line, lines[n - 1]? = some line ∧ lineSnippet lines n = trim line := by
  have hlt : n - 1 < lines.length := by omega
  have hpos : (1 : Int) ≤ (n : Int) := by exact_mod_cast h.1
  refine ⟨_, getElem?_eq_getElem hlt, ?_⟩
  rw [lineSnippet, if_pos hpos, Int.toNat_natCast, getD_eq_getElem?_getD,
    getElem?_eq_getElem hlt, Option.getD_some]

/-- The call at `place` of a program that a site of an edge comes from.  `module` is the module of
the file. -/
structure Origin (g : CallGraph) (module text : String) (tree : Node) (place : List Nat)
    (e : Edge) (site : CallSite) : Prop where
  /-- There is a call at the place, on the line of the site, and it means the target. -/
  call : ∃ span func args keywords, tree.at? place = some (.call span func args keywords) ∧
    site.line = span.start.line ∧
    g.resolveTarget module (scopeNames (tree.definitionsAround place)) func = some e.target
  /-- The text of the site is its line in the file. -/
  snippet : 1 ≤ site.line ∧ ∃ line, (linesKeepingEnds text)[site.line - 1]? = some line ∧
    site.snippet = trim line
  /-- The call lies in a definition, -/
  inside : tree.definitionsAround place ≠ []
  /-- and the source is the way to it. -/
  source_eq : e.source = way module (scopeNames (tree.definitionsAround place))
  target_mem : ∃ f ∈ g.functions.values, f.id = e.target
  /-- If the innermost definition is a function, it is one of the graph. -/
  source_mem : ∀ d, (tree.definitionsAround place).getLast? = some d → d.isFunction = true →
    ∃ f ∈ g.functions.values, f.id = e.source

variable {g : CallGraph} {file : SourceFile}

/-- A function that is met in `file` is one of its `functions`. -/
theorem mem_functions {tree d : Node} {place : List Nat} (htree : file.tree? = some tree)
    (hd : tree.at? place = some d) (hfunction : d.isFunction = true) :
    ∃ f ∈ file.functions,
      f.id = way file.module (scopeNames (tree.definitionsAround place ++ [d])) := by
  cases d with
  | functionDef span isAsync name parameters body decorators returns =>
    have hmet := mem_withScopes.2 ⟨place, hd, tree.isReached_of_forall place, rfl⟩
    rw [SourceFile.functions, htree]
    refine ⟨_, mem_filterMap.2 ⟨_, hmet, rfl⟩, ?_⟩
    rw [scopeNames, scopeNames, filterMap_append]
    rfl
  | _ => cases hfunction

/-- The innermost definition around `place` is one of the `functions`, if it is a function. -/
theorem mem_functions_of_getLast? {tree d : Node} {place : List Nat}
    (htree : file.tree? = some tree) (hlast : (tree.definitionsAround place).getLast? = some d)
    (hfunction : d.isFunction = true) :
    ∃ f ∈ file.functions, f.id = way file.module (scopeNames (tree.definitionsAround place)) := by
  obtain ⟨scope, hscope⟩ := getLast?_eq_some_iff.1 hlast
  obtain ⟨outer, houter, hdefs⟩ := exists_of_definitionsAround_concat hscope
  obtain ⟨f, hf, hid⟩ := mem_functions htree houter hfunction
  rw [hdefs, ← hscope] at hid
  exact ⟨f, hf, hid⟩

/-- What a link `l` of `file` comes from. -/
theorem exists_of_mem_links {l : Link} (h : l ∈ file.links g) :
    ∃ tree place span func args keywords, file.tree? = some tree ∧
      tree.at? place = some (.call span func args keywords) ∧
      tree.definitionsAround place ≠ [] ∧
      l = ⟨(way file.module (scopeNames (tree.definitionsAround place)), l.ends.2),
        ⟨file.path, span.start.line, lineSnippet file.lines span.start.line⟩⟩ ∧
      g.resolveTarget file.module (scopeNames (tree.definitionsAround place)) func = some l.ends.2 ∧
      g.functions.contains l.ends.2 = true := by
  obtain ⟨⟨names, n⟩, hcall, hlink⟩ := mem_filterMap.1 h
  rw [SourceFile.calls] at hcall
  cases htree : file.tree? with
  | none =>
    rw [htree] at hcall
    cases hcall
  | some tree =>
    rw [htree] at hcall
    obtain ⟨⟨scope, m⟩, hmet, hcall⟩ := mem_filterMap.1 hcall
    obtain ⟨place, hat, -, rfl⟩ := mem_withScopes.1 hmet
    dsimp only at hcall
    split_ifs at hcall with hcond
    cases hcall
    rw [Bool.and_eq_true] at hcond
    cases n with
    | call span func args keywords =>
      obtain ⟨target, htarget, rfl⟩ := Option.map_eq_some_iff.1 hlink
      rw [target?, Option.filter_eq_some_iff] at htarget
      exact ⟨tree, place, span, func, args, keywords, rfl, hat, by simpa using hcond.2, rfl,
        htarget.1, htarget.2⟩
    | _ => cases hlink

/-- The graph that `loadFiles` makes of `paths` has one edge for each two ends, and every site of an
edge comes from a call in one of the files. -/
theorem loadFiles_sound (root : String) (paths : List String) (w : Workspace) :
    ∃ g, (empty.loadFiles root paths).exec w = (.ok g, w) ∧
      (g.edges.map fun e => (e.source, e.target)).Nodup ∧
      ∀ e ∈ g.edges, e.sites ≠ [] ∧ ∀ site ∈ e.sites, site.path ∈ paths ∧
        ∃ text tree place, (Run.readText site.path).exec w = (.ok text, w) ∧
          Node.ofSource? text = some tree ∧
          g.Origin (moduleInfo w.cwd root site.path).1 text tree place e site := by
  refine ⟨_, exec_loadFiles empty root paths w, ?_⟩
  rw [addFiles_eq]
  generalize hknown : ((paths.map (SourceFile.at w root)).flatMap SourceFile.functions).foldl
    addFunction empty = known
  have hfiled : known.IsFiled := by
    rw [← hknown]
    exact isFiled_foldl (by rintro id f ⟨⟩) _
  have hgathers := gathers_foldl ((paths.map (SourceFile.at w root)).flatMap
    fun file => file.links known)
  refine ⟨hgathers.nodup, fun e he => ⟨hgathers.sites_ne_nil he, fun site hsite => ?_⟩⟩
  obtain ⟨file, hfile, hlink⟩ := List.mem_flatMap.1 (hgathers.mem_links he hsite)
  obtain ⟨path, hpath, rfl⟩ := List.mem_map.1 hfile
  obtain ⟨tree, place, span, func, args, keywords, htree, hat, hinside, heq, htarget, hcontains⟩ :=
    exists_of_mem_links hlink
  obtain ⟨hends, rfl⟩ := Link.mk.inj heq
  obtain ⟨raw, hread, hparsed, hlines⟩ := SourceFile.exists_of_tree? htree
  have hline := Node.line_of_mem_preorder hparsed (Node.mem_preorder_of_at? hat) rfl
  refine ⟨hpath, _, tree, place, hread, hparsed, ?_⟩
  constructor
  case call => exact ⟨span, func, args, keywords, hat, rfl, htarget⟩
  case snippet =>
    rw [hlines]
    exact ⟨hline.1, exists_lineSnippet hline⟩
  case inside => exact hinside
  case source_eq => exact congrArg Prod.fst hends
  case target_mem => exact hfiled.exists_of_contains hcontains
  case source_mem =>
    -- the first pass has met the function around the call as well
    intro d hlast hfunction
    obtain ⟨f, hf, hid⟩ := mem_functions_of_getLast? htree hlast hfunction
    refine hfiled.exists_of_contains ?_
    rw [← hknown, contains_foldl]
    refine .inr ⟨f, List.mem_flatMap.2 ⟨_, List.mem_map_of_mem hpath, hf⟩, ?_⟩
    rw [hid]
    exact (congrArg Prod.fst hends).symm

end CallGraph

end SmellLint
