import Mathlib.Data.List.Induction
import SmellLint.CallGraph

/-!
# The parts of a call graph

A graph is built in two passes.  The first one makes its functions, and the second one changes only
its edges, so every call is resolved against the same functions (`addFiles_eq`).  What the second
pass adds is a list of links, each with the two ends of an edge and a site; the edges are the links
put together by their ends (`Gathers`).
-/

namespace SmellLint

open List

namespace Keyed

variable {α : Type}

theorem contains_alter (m : Keyed α) (key : String) (f : Option α → α) (k : String) :
    (m.alter key f).contains k = (decide (k = key) || m.contains k) := by
  rw [contains, contains, get?_alter]
  by_cases h : k = key <;> simp [h]

theorem mem_values_of_get? {m : Keyed α} {key : String} {value : α} (h : m.get? key = some value) :
    value ∈ m.values := by
  obtain ⟨before, after, heq, -⟩ := lookup_eq_some_iff.1 h
  rw [values, heq]
  simp

end Keyed

namespace CallGraph

open Syntax (Node)

/-! ## Functions -/

/-- Every function of `g` is filed under its own way. -/
def IsFiled (g : CallGraph) : Prop :=
  ∀ {id : String} {f : Function}, g.functions.get? id = some f → f.id = id

theorem IsFiled.addFunction {g : CallGraph} (h : g.IsFiled) (f : Function) :
    (g.addFunction f).IsFiled := by
  intro id f' hget
  rw [CallGraph.addFunction, Keyed.get?_alter] at hget
  split at hget
  · next hid =>
    subst hid
    cases hold : g.functions.get? f.id with
    | none =>
      rw [hold] at hget
      cases hget
      rfl
    | some old =>
      rw [hold] at hget
      cases hget
      exact h hold
  · exact h hget

variable (g : CallGraph)

theorem contains_addFunction (f : Function) (id : String) :
    (g.addFunction f).functions.contains id = true
      ↔ g.functions.contains id = true ∨ f.id = id := by
  rw [addFunction, Keyed.contains_alter, Bool.or_eq_true, decide_eq_true_eq, or_comm,
    eq_comm (a := id)]

/-- `addDefinitions` adds the functions of all `files`, in turn. -/
theorem foldl_addDefinitions (files : List SourceFile) :
    files.foldl addDefinitions g = (files.flatMap SourceFile.functions).foldl addFunction g := by
  rw [foldl_flatMap]
  rfl

theorem isFiled_foldl {g : CallGraph} (h : g.IsFiled) (fs : List Function) :
    (fs.foldl addFunction g).IsFiled := by
  induction fs generalizing g with
  | nil => exact h
  | cons f fs ih => exact ih (h.addFunction f)

theorem contains_foldl (fs : List Function) (id : String) :
    (fs.foldl addFunction g).functions.contains id = true ↔
      g.functions.contains id = true ∨ ∃ f ∈ fs, f.id = id := by
  induction fs generalizing g with
  | nil => simp
  | cons f fs ih =>
    rw [foldl_cons, ih, contains_addFunction, or_assoc]
    simp

theorem edges_foldl (fs : List Function) : (fs.foldl addFunction g).edges = g.edges := by
  induction fs generalizing g with
  | nil => rfl
  | cons f fs ih => exact ih _

/-- A way `id` under which a function is filed is the way of a function. -/
theorem IsFiled.exists_of_contains {g : CallGraph} (h : g.IsFiled) {id : String}
    (hid : g.functions.contains id = true) : ∃ f ∈ g.functions.values, f.id = id := by
  obtain ⟨f, hf⟩ := Option.isSome_iff_exists.1 hid
  exact ⟨f, Keyed.mem_values_of_get? hf, h hf⟩

/-! ## Links -/

/-- A call that means a function: the ends of its edge, and its site. -/
structure Link where
  ends : String × String
  site : CallSite

def Edge.ends (e : Edge) : String × String := (e.source, e.target)

/-- The function of `g` that a call of `func` means. -/
def target? (g : CallGraph) (file : SourceFile) (scope : List String) (func : Node) :
    Option String :=
  (g.resolveTarget file.module scope func).filter g.functions.contains

def link? (g : CallGraph) (file : SourceFile) (scope : List String) (n : Node) : Option Link :=
  match n with
  | .call _ func _ _ => (g.target? file scope func).map fun target =>
    ⟨(way file.module scope, target), ⟨file.path, n.line, lineSnippet file.lines n.line⟩⟩
  | _ => none

def addLink (edges : List Edge) (l : Link) : List Edge := addSite l.ends.1 l.ends.2 l.site edges

def SourceFile.links (file : SourceFile) (g : CallGraph) : List Link :=
  file.calls.filterMap fun p => g.link? file p.1 p.2

theorem addCall_eq (file : SourceFile) (scope : List String) (n : Node) : g.addCall file scope n
      = { g with edges := (g.link? file scope n).toList.foldl addLink g.edges } := by
  cases n with
  | call span func args keywords =>
    rw [addCall, link?, target?]
    cases g.resolveTarget file.module scope func with
    | none => rfl
    | some target =>
      cases h : g.functions.contains target with
      | true =>
        rw [Option.filter_some_pos h]
        simp only [h]
        rfl
      | false =>
        rw [Option.filter_some_neg (by simp [h])]
        simp only [h]
        rfl
  | _ => rfl

theorem addCalls_eq (file : SourceFile) :
    g.addCalls file = { g with edges := (file.links g).foldl addLink g.edges } := by
  -- calls are resolved against the functions, and these stay as they are
  have hrun : ∀ (calls : List (List String × Node)) (edges : List Edge),
      calls.foldl (fun g p => g.addCall file p.1 p.2) { g with edges }
        = { g with
          edges := (calls.filterMap fun p => g.link? file p.1 p.2).foldl addLink edges } := by
    intro calls
    induction calls with
    | nil => exact fun _ => rfl
    | cons p calls ih =>
      intro edges
      rw [foldl_cons, addCall_eq, ih, filterMap_cons]
      rw [show link? { g with edges } file p.1 p.2 = g.link? file p.1 p.2 from rfl]
      cases g.link? file p.1 p.2 <;> rfl
  exact hrun file.calls g.edges

/-- `addFiles` adds the links of all `files` to the edges, and leaves the functions alone. -/
theorem addFiles_eq (files : List SourceFile) : g.addFiles files =
      let known := (files.flatMap SourceFile.functions).foldl addFunction g
      { known with
        edges := (files.flatMap fun file => file.links known).foldl addLink g.edges } := by
  rw [addFiles, foldl_addDefinitions]
  generalize hknown : (files.flatMap SourceFile.functions).foldl addFunction g = known
  have hedges : known.edges = g.edges := by
    rw [← hknown]
    exact edges_foldl _ _
  have hrun : ∀ (files : List SourceFile) (edges : List Edge),
      files.foldl addCalls { known with edges } = { known with
        edges := (files.flatMap fun file => file.links known).foldl addLink edges } := by
    intro files
    induction files with
    | nil => exact fun _ => rfl
    | cons file files ih =>
      intro edges
      rw [foldl_cons, addCalls_eq, ih, flatMap_cons, foldl_append]
      rfl
  rw [← hedges]
  exact hrun files known.edges

/-! ## Gathering links -/

/-- `edges` gather `links`: there is one edge for each two ends, and its sites are those of the
links between them, in their order. -/
structure Gathers (links : List Link) (edges : List Edge) : Prop where
  nodup : (edges.map Edge.ends).Nodup
  sites : ∀ e ∈ edges, e.sites = (links.filter fun l => l.ends = e.ends).map Link.site
  mem_ends : ∀ {ends : String × String}, ends ∈ edges.map Edge.ends ↔ ∃ l ∈ links, l.ends = ends

theorem gathers_nil : Gathers [] [] := ⟨nodup_nil, forall_mem_nil _, by simp⟩

theorem map_ends_addLink (edges : List Edge) (l : Link) : (addLink edges l).map Edge.ends
      = edges.map Edge.ends ++ if l.ends ∈ edges.map Edge.ends then [] else [l.ends] := by
  induction edges with
  | nil => rfl
  | cons e edges ih =>
    rw [addLink, addSite]
    by_cases h : e.source = l.ends.1 ∧ e.target = l.ends.2
    · have hends : l.ends = e.ends := Prod.ext h.1.symm h.2.symm
      rw [hends]
      simp [Edge.ends]
    · have hends : ¬l.ends = e.ends := fun heq =>
        h ⟨congrArg Prod.fst heq.symm, congrArg Prod.snd heq.symm⟩
      rw [if_neg (by simpa using h), map_cons, ← addLink, ih]
      simp [hends]

variable {edges : List Edge}

/-- What an edge `e` is after `l` has been added. -/
theorem sites_of_mem_addLink {l : Link} {e : Edge}
    (hnodup : (edges.map Edge.ends).Nodup) (he : e ∈ addLink edges l) :
    (e ∈ edges ∧ l.ends ≠ e.ends) ∨
      (l.ends = e.ends ∧ l.ends ∉ edges.map Edge.ends ∧ e.sites = [l.site]) ∨
      ∃ old ∈ edges, l.ends = e.ends ∧ old.ends = e.ends ∧ e.sites = old.sites ++ [l.site] := by
  induction edges with
  | nil =>
    obtain rfl := mem_singleton.1 he
    exact .inr (.inl ⟨rfl, not_mem_nil, rfl⟩)
  | cons d edges ih =>
    rw [map_cons, nodup_cons] at hnodup
    rw [addLink, addSite] at he
    by_cases h : d.source = l.ends.1 ∧ d.target = l.ends.2
    · have hends : l.ends = d.ends := Prod.ext h.1.symm h.2.symm
      rw [if_pos (by simpa using h)] at he
      rcases mem_cons.1 he with rfl | he
      · exact .inr (.inr ⟨d, mem_cons_self, hends, rfl, rfl⟩)
      · refine .inl ⟨mem_cons_of_mem d he, fun heq => hnodup.1 ?_⟩
        rw [← hends, heq]
        exact mem_map_of_mem he
    · have hends : l.ends ≠ d.ends := fun heq =>
        h ⟨congrArg Prod.fst heq.symm, congrArg Prod.snd heq.symm⟩
      rw [if_neg (by simpa using h)] at he
      rcases mem_cons.1 he with rfl | he
      · exact .inl ⟨mem_cons_self, hends⟩
      · rcases ih hnodup.2 he with ⟨hmem, hne⟩ | ⟨heq, hnot, hsites⟩ | ⟨old, hold, hrest⟩
        · exact .inl ⟨mem_cons_of_mem d hmem, hne⟩
        · refine .inr (.inl ⟨heq, ?_, hsites⟩)
          rw [map_cons, mem_cons, not_or]
          exact ⟨hends, hnot⟩
        · exact .inr (.inr ⟨old, mem_cons_of_mem d hold, hrest⟩)

variable {links : List Link}

theorem Gathers.addLink (h : Gathers links edges)
    (l : Link) : Gathers (links ++ [l]) (addLink edges l) where
  nodup := by
    rw [map_ends_addLink]
    split
    · rw [append_nil]
      exact h.nodup
    · next hnot => exact nodup_append.2 ⟨h.nodup, by simp, by
        intro a ha b hb
        rw [mem_singleton.1 hb]
        rintro rfl
        exact hnot ha⟩
  sites e he := by
    rw [filter_append]
    rcases sites_of_mem_addLink h.nodup he with
      ⟨hmem, hne⟩ | ⟨heq, hnot, hsites⟩ | ⟨old, hold, heq, hends, hsites⟩
    · rw [h.sites e hmem]
      simp [hne]
    · have hnone : links.filter (fun l' => l'.ends = e.ends) = [] := by
        refine filter_eq_nil_iff.2 fun l' hl' hends => hnot ?_
        rw [heq]
        exact h.mem_ends.2 ⟨l', hl', of_decide_eq_true hends⟩
      rw [hsites, hnone]
      simp [heq]
    · rw [hsites, h.sites old hold, hends]
      simp [heq]
  mem_ends {ends} := by
    rw [map_ends_addLink, mem_append, h.mem_ends]
    simp only [mem_append, mem_singleton, or_and_right, exists_or, exists_eq_left]
    refine or_congr_right' fun hnot => ?_
    split
    · next hmem =>
      refine ⟨fun h => absurd h not_mem_nil, fun heq => ?_⟩
      exact absurd (h.mem_ends.1 (heq ▸ hmem)) hnot
    · rw [mem_singleton, eq_comm]

/-- `addLink` of `links` in turn gathers them. -/
theorem gathers_foldl (links : List Link) : Gathers links (links.foldl addLink []) := by
  induction links using reverseRecOn with
  | nil => exact gathers_nil
  | append_singleton links l ih =>
    rw [foldl_append]
    exact ih.addLink l

theorem Gathers.sites_ne_nil (h : Gathers links edges)
    {e : Edge} (he : e ∈ edges) : e.sites ≠ [] := by
  obtain ⟨l, hl, hends⟩ := h.mem_ends.1 (mem_map_of_mem he)
  rw [h.sites e he]
  refine ne_nil_of_mem (mem_map_of_mem (a := l) (mem_filter.2 ⟨hl, ?_⟩))
  exact decide_eq_true hends

/-- Every `site` of `e` is that of a link between its ends. -/
theorem Gathers.mem_links (h : Gathers links edges)
    {e : Edge} (he : e ∈ edges) {site : CallSite} (hsite : site ∈ e.sites) :
    ⟨e.ends, site⟩ ∈ links := by
  rw [h.sites e he] at hsite
  obtain ⟨l, hl, rfl⟩ := mem_map.1 hsite
  obtain ⟨hmem, hends⟩ := mem_filter.1 hl
  rw [← of_decide_eq_true hends]
  exact hmem

end CallGraph

end SmellLint
