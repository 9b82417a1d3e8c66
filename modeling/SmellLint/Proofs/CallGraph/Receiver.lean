import SmellLint.Proofs.CallGraph.Functions

/-!
# Names that are called

A call of a method that several functions could be goes by the name that it is called on.  The
function is looked for by the text at the end of its way, and a text does not end at a dot: the
first function is taken that lies in a class whose name ends in the name, which need not be its
whole name (`resolveTarget_receiver`).

A bare name goes by what it was last defined as.  The functions and what names stand for are kept
apart, but agree after every file (`Indexed`), so a bare name means a function that is called so if
there is one (`resolveTarget_of_definitions`).
-/

namespace SmellLint

open List Path Text

theorem Keyed.mem_keys_iff {α : Type} {m : Keyed α} {key : String} :
    key ∈ m.keys ↔ m.contains key = true := by
  rw [contains, get?, lookup_isSome_iff, keys, mem_map]
  simp

/-! ## Parts of dotted texts -/

namespace Text

/-- `splitOn` cuts `s` before its last part, or it has one part only. -/
theorem splitOn_cases (sep : Char) (s : String) :
    splitOn sep s = [s] ∨ ∃ a b, s = a ++ String.singleton sep ++ b ∧
      splitOn sep s = splitOn sep a ++ [b] := by
  by_cases hmem : sep ∈ s.toList
  · obtain ⟨before, after, heq, hbefore⟩ := eq_append_cons_of_mem (mem_reverse.2 hmem)
    have hs : s = String.ofList after.reverse ++ String.singleton sep ++
        String.ofList before.reverse := by
      rw [← String.toList_inj, ← reverse_inj, heq]
      simp
    refine .inr ⟨_, _, hs, ?_⟩
    rw [← splitOn_of_not_mem (s := String.ofList before.reverse) (by simpa using hbefore),
      ← splitOn_append, ← hs]
  · exact .inl (splitOn_of_not_mem hmem)

end Text

namespace CallGraph

open Syntax (Node Span)

/-- The way `id` ends in the class `cls` and `method`. -/
def IsMethodOf (cls method id : String) : Prop := ∃ front, splitOn '.' id = front ++ [cls, method]

/-- The way `id` ends in a class whose name ends in `base`, and `method`. -/
def LooksLikeMethodOf (base method id : String) : Prop :=
  ∃ cls, IsMethodOf cls method id ∧ base.toList <:+ cls.toList

variable {base method id : String}

theorem IsMethodOf.looksLike (h : IsMethodOf base method id) : LooksLikeMethodOf base method id :=
  ⟨base, h, suffix_refl _⟩

/-- The last part of `s` ends as `s` does, as far as there is no dot. -/
theorem exists_last_part (hbase : '.' ∉ base.toList) (s : String) :
    ∃ front last, splitOn '.' s = front ++ [last] ∧
      endsWith last base = endsWith s base := by
  rcases splitOn_cases '.' s with hone | ⟨a, b, rfl, hsplit⟩
  · exact ⟨[], s, hone, rfl⟩
  · exact ⟨_, b, hsplit, (endsWith_append_singleton hbase a b).symm⟩

/-- `base`, a dot and `method` end a way if `base` ends the name of a class there. -/
theorem endsWith_method_iff (hbase : '.' ∉ base.toList) (hmethod : '.' ∉ method.toList) :
    endsWith id (base ++ "." ++ method) = true ↔ LooksLikeMethodOf base method id := by
  constructor
  · intro h
    obtain ⟨cs, hcs⟩ := endsWith_iff.1 h
    let s := String.ofList cs ++ base
    have hid : id = s ++ String.singleton '.' ++ method := by
      rw [← String.toList_inj, ← hcs]
      simp [s]
    obtain ⟨front, last, hsplit, hends⟩ := exists_last_part hbase s
    refine ⟨last, ⟨front, ?_⟩, endsWith_iff.1 (hends.trans (endsWith_iff.2 (by simp [s])))⟩
    rw [hid, Text.splitOn_append, hsplit, splitOn_of_not_mem hmethod, append_assoc]
    rfl
  · rintro ⟨cls, ⟨front, hid⟩, hcls⟩
    rcases splitOn_cases '.' id with hone | ⟨a, b, rfl, hsplit⟩
    · rw [hone] at hid
      simpa using congrArg length hid
    · obtain ⟨front', last, ha, hends⟩ := exists_last_part hbase a
      rw [hsplit, ha] at hid
      rw [append_assoc] at hid
      obtain ⟨rfl, rfl⟩ : last = cls ∧ b = method := by
        simpa using (append_inj' hid rfl).2
      obtain ⟨cs, hcs⟩ := endsWith_iff.1 (hends.symm.trans (endsWith_iff.2 hcls))
      exact endsWith_iff.2 ⟨cs, by simp [← hcs]⟩

/-! ## Targets of calls -/

/-- `target` is a method of `cls` if `g` has one, and nothing else. -/
def FindsMethod (g : CallGraph) (cls method : String) (target : Option String) : Prop :=
  (∀ id, target = some id → id ∈ g.functions.keys ∧ IsMethodOf cls method id) ∧
    ((∃ id ∈ g.functions.keys, IsMethodOf cls method id) → target ≠ none)

theorem resolveTarget_of_many (g : CallGraph) (module : String) (scope : List String) {s s' : Span}
    (hself : base ≠ "self")
    (hmany : 1 < (g.functions.keys.filter (endsIn · method)).length) :
    g.resolveTarget module scope (.attribute s (.name s' base) method)
      = g.functions.keys.find? fun id => endsWith id (base ++ "." ++ method) := by
  have hname : ((Node.name s' base).nameId? == some "self") = false := by
    simpa [Node.nameId?] using hself
  rw [resolveTarget, resolveAttribute, hname, Bool.false_and, if_neg Bool.false_ne_true]
  split
  · next hone =>
    rw [hone] at hmany
    exact absurd hmany (lt_irrefl 1)
  · rfl

/-- For a call of `method` that several functions could be, `resolveTarget` gives the first of them
in a class whose name ends in `base`, on which the method is called.  That is the method of the
class `base`, if there is one, only if no class with a longer name comes before. -/
theorem resolveTarget_receiver (g : CallGraph) (module : String) (scope : List String) (s s' : Span)
    (hself : base ≠ "self") (hbase : '.' ∉ base.toList) (hmethod : '.' ∉ method.toList)
    (hmany : 1 < (g.functions.keys.filter (endsIn · method)).length) :
    (∀ id, g.resolveTarget module scope (.attribute s (.name s' base) method) = some id ↔
      ∃ before after, g.functions.keys = before ++ id :: after ∧
        LooksLikeMethodOf base method id ∧ ∀ x ∈ before, ¬LooksLikeMethodOf base method x) ∧
    (g.FindsMethod base method
        (g.resolveTarget module scope (.attribute s (.name s' base) method)) ↔
      ∀ before id after, g.functions.keys = before ++ id :: after →
        LooksLikeMethodOf base method id → (∀ x ∈ before, ¬LooksLikeMethodOf base method x) →
        IsMethodOf base method id) := by
  rw [resolveTarget_of_many g module scope hself hmany]
  have hfind : ∀ id, (g.functions.keys.find? fun id => endsWith id (base ++ "." ++ method))
      = some id ↔ ∃ before after, g.functions.keys = before ++ id :: after ∧
        LooksLikeMethodOf base method id ∧ ∀ x ∈ before, ¬LooksLikeMethodOf base method x := by
    intro id
    rw [List.find?_eq_some_iff_append, endsWith_method_iff hbase hmethod]
    simp only [Bool.not_eq_eq_eq_not, Bool.not_true, ← Bool.not_eq_true,
      endsWith_method_iff hbase hmethod]
    constructor
    · rintro ⟨hid, before, after, heq, hbefore⟩
      exact ⟨before, after, heq, hid, hbefore⟩
    · rintro ⟨before, after, heq, hid, hbefore⟩
      exact ⟨hid, before, after, heq, hbefore⟩
  refine ⟨hfind, ?_, ?_⟩
  · intro h before id after heq hid hbefore
    exact (h.1 id ((hfind id).2 ⟨before, after, heq, hid, hbefore⟩)).2
  · intro h
    refine ⟨fun id hid => ?_, ?_⟩
    · obtain ⟨before, after, heq, hlooks, hbefore⟩ := (hfind id).1 hid
      exact ⟨heq ▸ List.mem_append_right before List.mem_cons_self,
        h before id after heq hlooks hbefore⟩
    · rintro ⟨id, hmem, hid⟩ hnone
      exact List.find?_eq_none.1 hnone id hmem ((endsWith_method_iff hbase hmethod).2 hid.looksLike)

def runOf (cls : String) : Function where
  id := way "app" [cls, "run"]
  name := "run"
  module := "app"
  package := "app"
  isMethod := true
  path := "app.py"
  startLine := 2
  endLine := 2
  source := "    def run(self): pass"

/-- With a class `MyAlpha` before the class `Alpha`, a call `Alpha.run()` means the method of the
first. -/
theorem resolveTarget_receiver_longerName :
    let g := [runOf "MyAlpha", runOf "Alpha"].foldl addFunction empty
    let target := g.resolveTarget "app" ["main"]
      (.attribute default (.name default "Alpha") "run")
    target = some "app.MyAlpha.run" ∧ ¬g.FindsMethod "Alpha" "run" target := by
  intro g target
  have hmany : 1 < (g.functions.keys.filter (endsIn · "run")).length := by decide +kernel
  obtain ⟨hid, hfinds⟩ := @resolveTarget_receiver "Alpha" "run" g "app" ["main"] default default
    (by decide) (by decide) (by decide) hmany
  have hlooks : LooksLikeMethodOf "Alpha" "run" "app.MyAlpha.run" :=
    ⟨"MyAlpha", ⟨["app"], by decide +kernel⟩, by decide⟩
  have hkeys : g.functions.keys = [] ++ "app.MyAlpha.run" :: ["app.Alpha.run"] := by decide +kernel
  refine ⟨(hid _).2 ⟨[], _, hkeys, hlooks, List.forall_mem_nil _⟩, fun h => ?_⟩
  obtain ⟨front, hfront⟩ := hfinds.1 h _ _ _ hkeys hlooks (List.forall_mem_nil _)
  have hsplit : splitOn '.' "app.MyAlpha.run" = ["app"] ++ ["MyAlpha", "run"] := by
    decide +kernel
  rw [hsplit] at hfront
  exact absurd (List.append_inj' hfront rfl).2 (by decide)

/-! ## Ways that end in a name -/

variable {g : CallGraph} {f : Function} {name : String}

theorem endsIn_append_iff {n : String} (front : String) (hn : '.' ∉ n.toList)
    (hname : '.' ∉ name.toList) : endsIn (front ++ "." ++ n) name = true ↔ n = name := by
  have hmethod : endsIn (front ++ "." ++ n) name = true ↔
      LooksLikeMethodOf "" name (front ++ "." ++ n) :=
    @endsWith_method_iff "" _ _ (by decide) hname
  have hsplit : splitOn '.' (front ++ "." ++ n) = splitOn '.' front ++ [n] := by
    rw [← splitOn_of_not_mem hn]
    exact splitOn_append '.' front n
  rw [hmethod]
  constructor
  · rintro ⟨cls, ⟨ways, hways⟩, -⟩
    simpa [hsplit] using congrArg getLast? hways
  · rintro rfl
    obtain ⟨ways, cls, hfront, -⟩ := @exists_last_part "" (by decide) front
    refine ⟨cls, ⟨ways, ?_⟩, nil_suffix⟩
    rw [hsplit, hfront, append_assoc]
    rfl

/-- The way of `f` ends in its name, which has no dot. -/
def Function.IsDotted (f : Function) : Prop :=
  '.' ∉ f.name.toList ∧ ∃ front, f.id = front ++ "." ++ f.name

theorem Function.IsDotted.endsIn_iff (hf : f.IsDotted) (hname : '.' ∉ name.toList) :
    endsIn f.id name = true ↔ f.name = name := by
  obtain ⟨hdot, front, hid⟩ := hf
  rw [hid, endsIn_append_iff front hdot hname]

theorem way_concat (module : String) (names : List String) (name : String) :
    way module (names ++ [name]) = ".".intercalate (module :: names) ++ "." ++ name := by
  rw [way, ← cons_append, String.intercalate_append_of_ne_nil (cons_ne_nil _ _)
    (cons_ne_nil _ _), String.intercalate_singleton]

/-- The functions of a program are named by words of its text. -/
theorem isDotted_of_mem_functions {cwd root path : String} {text? : Option String}
    (hf : f ∈ (SourceFile.ofText? cwd root path text?).functions) : f.IsDotted := by
  rw [SourceFile.functions] at hf
  cases htree : (SourceFile.ofText? cwd root path text?).tree? with
  | none =>
    rw [htree] at hf
    cases hf
  | some tree =>
    rw [htree] at hf
    obtain ⟨⟨scope, n⟩, hmet, hf⟩ := mem_filterMap.1 hf
    obtain ⟨place, hat, -, -⟩ := Node.mem_withScopes.1 hmet
    obtain ⟨text, -, hparsed⟩ := Option.bind_eq_some_iff.1 htree
    have hwithin := Inspection.within_of_mem_walk (Node.ofSource?_within hparsed)
      (tree.walk_perm_preorder.mem_iff.2 (Node.mem_preorder_of_at? hat))
    cases n with
    | functionDef =>
      cases hf
      cases hwithin with
      | mk _ hfunction _ => exact ⟨(hfunction rfl _ rfl).2, _, way_concat _ _ _⟩
    | _ => cases hf

/-! ## The functions that names stand for -/

/-- Names stand for functions of `g`, and those without dots for functions that are called so, which
all have their names. -/
structure Indexed (g : CallGraph) : Prop where
  contains : ∀ {key id}, g.definitions.get? key = some id → g.functions.contains id = true
  endsIn : ∀ {name id}, '.' ∉ name.toList → g.definitions.get? name = some id →
    endsIn id name = true
  exists_get? : ∀ {name id}, '.' ∉ name.toList → g.functions.contains id = true →
    CallGraph.endsIn id name = true → ∃ id', g.definitions.get? name = some id'

theorem get?_addFunction (g : CallGraph) (f : Function) (key : String) :
    (g.addFunction f).definitions.get? key
      = if key = f.id ∨ key = f.name then some f.id else g.definitions.get? key := by
  rw [addFunction, Keyed.get?_insert, Keyed.get?_insert]
  split_ifs <;> grind

theorem Indexed.addFunction (h : g.Indexed) (hf : f.IsDotted) : (g.addFunction f).Indexed := by
  have hself : (g.addFunction f).functions.contains f.id = true :=
    (contains_addFunction g f f.id).2 (.inr rfl)
  constructor
  case contains =>
    intro key id hget
    rw [get?_addFunction] at hget
    split_ifs at hget
    · cases hget
      exact hself
    · exact (contains_addFunction g f id).2 (.inl (h.contains hget))
  case endsIn =>
    intro name id hname hget
    rw [get?_addFunction] at hget
    split_ifs at hget with hkey
    · cases hget
      rcases hkey with rfl | rfl
      · obtain ⟨-, front, hid⟩ := hf
        simp [hid] at hname
      · exact (hf.endsIn_iff hname).2 rfl
    · exact h.endsIn hname hget
  case exists_get? =>
    intro name id hname hid hends
    rw [get?_addFunction]
    split_ifs with hkey
    · exact ⟨_, rfl⟩
    · rcases (contains_addFunction g f id).1 hid with hid | rfl
      · exact h.exists_get? hname hid hends
      · exact absurd (.inr ((hf.endsIn_iff hname).1 hends).symm) hkey

theorem indexed_foldl (h : g.Indexed) {fs : List Function} (hfs : ∀ f ∈ fs, f.IsDotted) :
    (fs.foldl addFunction g).Indexed := by
  induction fs generalizing g with
  | nil => exact h
  | cons f fs ih =>
    obtain ⟨hf, hfs⟩ := forall_mem_cons.1 hfs
    exact ih (h.addFunction hf) hfs

namespace Indexed

variable (h : g.Indexed) {module : String}
include h

theorem contains_of_resolveName (hid : g.resolveName module name = some id) :
    g.functions.contains id = true := by
  rw [resolveName] at hid
  split_ifs at hid with hhere
  · cases hid
    exact hhere
  · split at hid
    · next hget =>
      cases hid
      exact h.contains hget
    · exact Keyed.mem_keys_iff.1 (mem_of_find?_eq_some hid)

theorem exists_resolveName (module : String) (hname : '.' ∉ name.toList)
    (hid : g.functions.contains id = true)
    (hends : CallGraph.endsIn id name = true) :
    ∃ id', g.resolveName module name = some id' ∧ CallGraph.endsIn id' name = true := by
  obtain ⟨id', hget⟩ := h.exists_get? hname hid hends
  rw [resolveName, hget]
  split_ifs
  · have hway : way module [name] = module ++ "." ++ name := way_concat module [] name
    exact ⟨_, rfl, hway ▸ (endsIn_append_iff module hname hname).2 rfl⟩
  · exact ⟨id', rfl, h.endsIn hname hget⟩

/-- Where a `name` without dots stands for nothing, no function is called so, and a constructor is
all that is left. -/
theorem endsIn_of_resolveName (hname : '.' ∉ name.toList)
    (hhere : g.functions.contains (way module [name]) = false)
    (hget : g.definitions.get? name = none) (hid : g.resolveName module name = some id) :
    CallGraph.endsIn id (name ++ ".__init__") = true := by
  rw [resolveName, hhere, hget] at hid
  have hfound := find?_some hid
  rw [Bool.or_eq_true] at hfound
  refine hfound.resolve_left fun hends => ?_
  obtain ⟨id', hsome⟩ := h.exists_get? hname (Keyed.mem_keys_iff.1 (mem_of_find?_eq_some hid)) hends
  rw [hget] at hsome
  cases hsome

end Indexed

/-- After `addDefinitions` of any files, names stand for functions of the graph, and a name without
dots stands for one exactly if a function is called so.  So `resolveTarget` for the call of a bare
name gives nothing but functions, gives one that is called so if a file defines one, and comes down
to the last search, where a name stands for nothing, only for a constructor. -/
theorem resolveTarget_of_definitions (cwd root : String) (files : List (String × Option String)) :
    let sources := files.map fun f => SourceFile.ofText? cwd root f.1 f.2
    let g := sources.foldl addDefinitions empty
    (∀ key id, g.definitions.get? key = some id → id ∈ g.functions.keys) ∧
    ∀ name : String, '.' ∉ name.toList →
      (name ∈ g.definitions.keys ↔ ∃ id ∈ g.functions.keys, endsIn id name = true) ∧
      ∀ (module : String) (scope : List String) (s : Span),
        (∀ id, g.resolveTarget module scope (.name s name) = some id → id ∈ g.functions.keys) ∧
        ((∃ source ∈ sources, ∃ f ∈ source.functions, f.name = name) →
          ∃ f ∈ g.functions.values, f.name = name ∧
            g.resolveTarget module scope (.name s name) = some f.id) ∧
        (way module [name] ∉ g.functions.keys → name ∉ g.definitions.keys →
          ∀ id, g.resolveTarget module scope (.name s name) = some id →
            endsIn id (name ++ ".__init__") = true) := by
  intro sources g
  have hdotted : ∀ f ∈ sources.flatMap SourceFile.functions, f.IsDotted := by
    intro f hf
    obtain ⟨source, hsource, hf⟩ := List.mem_flatMap.1 hf
    obtain ⟨file, -, rfl⟩ := List.mem_map.1 hsource
    exact isDotted_of_mem_functions hf
  have hg : g = (sources.flatMap SourceFile.functions).foldl addFunction empty :=
    foldl_addDefinitions empty sources
  have hcollects := collects_foldl (sources.flatMap SourceFile.functions)
  have hindexed : g.Indexed := by
    rw [hg]
    refine indexed_foldl ?_ hdotted
    constructor <;> intros <;> contradiction
  rw [← hg] at hcollects
  simp only [Keyed.mem_keys_iff]
  refine ⟨fun _ _ => hindexed.contains, fun name hname => ⟨⟨fun hkey => ?_, ?_⟩,
    fun module scope s => ⟨fun _ => hindexed.contains_of_resolveName, ?_, ?_⟩⟩⟩
  · obtain ⟨id, hget⟩ := Option.isSome_iff_exists.1 hkey
    exact ⟨id, hindexed.contains hget, hindexed.endsIn hname hget⟩
  · rintro ⟨id, hid, hends⟩
    exact Option.isSome_iff_exists.2 (hindexed.exists_get? hname hid hends)
  · rintro ⟨source, hsource, f, hf, rfl⟩
    have hmem : f ∈ sources.flatMap SourceFile.functions := List.mem_flatMap.2 ⟨source, hsource, hf⟩
    have hcontains : g.functions.contains f.id = true := by
      rw [hg, contains_foldl]
      exact .inr ⟨f, hmem, rfl⟩
    obtain ⟨id, hid, hends⟩ := hindexed.exists_resolveName module hname hcontains
      (((hdotted f hmem).endsIn_iff hname).2 rfl)
    obtain ⟨f', hf', rfl⟩ := hcollects.contains_iff.1 (hindexed.contains_of_resolveName hid)
    have hmem' := List.mem_of_find?_eq_some (hcollects.mem_values.1 hf')
    exact ⟨f', hf', ((hdotted f' hmem').endsIn_iff hname).1 hends, hid⟩
  · intro hhere hkey id hid
    exact hindexed.endsIn_of_resolveName hname (by simpa using hhere)
      (Option.not_isSome_iff_eq_none.1 hkey) hid

/-- A class with a constructor, called in another file. -/
theorem resolveTarget_of_definitions_constructor :
    let sources := [("/p/a.py", some "class K:\n  def __init__(self): 0\n"), ("/p/b.py", none)].map
      fun f => SourceFile.ofText? "/" "/p" f.1 f.2
    let g := sources.foldl addDefinitions empty
    g.resolveTarget "b" ["f"] (.name default "K") = some "a.K.__init__" ∧
      "a.K.__init__" ∈ g.functions.keys ∧ "K" ∉ g.definitions.keys ∧
      endsIn "a.K.__init__" "K.__init__" = true := by
  intro sources g
  have hid : g.resolveTarget "b" ["f"] (.name default "K") = some "a.K.__init__" := by
    decide +kernel
  have hkey : "K" ∉ g.definitions.keys := by decide +kernel
  obtain ⟨hkeys, -, hlast⟩ := ((resolveTarget_of_definitions "/" "/p" _).2 "K" (by decide)).2 "b"
    ["f"] default
  exact ⟨hid, hkeys _ hid, hkey, hlast (by decide +kernel) hkey _ hid⟩

end CallGraph
end SmellLint
