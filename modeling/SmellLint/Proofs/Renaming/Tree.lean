import SmellLint.Proofs.Occurrences
import SmellLint.Proofs.Lists

/-!
# Trees with other names

`Node.mapNames f` applies `f` to every bare name of a tree and changes nothing else, so that a walk
through the new tree meets the same nodes in the same order (`walk_mapNames`,
`walkWith_mapNames`).  `Node.Avoids id` says that a name stands nowhere in a tree.
-/

namespace SmellLint

open List

namespace Syntax.Node

mutual

/-- A tree with `f` applied to every bare name in it. -/
def mapNames (f : String → String) : Node → Node
  | .file body => .file (mapNamesList f body)
  | .functionDef s isAsync id parameters body decorators returns =>
    .functionDef s isAsync id (mapNames f parameters) (mapNamesList f body)
      (mapNamesList f decorators) (mapNamesOption f returns)
  | .classDef s id bases keywords body decorators =>
    .classDef s id (mapNamesList f bases) (mapNamesList f keywords) (mapNamesList f body)
      (mapNamesList f decorators)
  | .returnStmt s value => .returnStmt s (mapNamesOption f value)
  | .delete s targets => .delete s (mapNamesList f targets)
  | .assign s targets value => .assign s (mapNamesList f targets) (mapNames f value)
  | .augAssign s target op value => .augAssign s (mapNames f target) op (mapNames f value)
  | .annAssign s target typeNote value =>
    .annAssign s (mapNames f target) (mapNames f typeNote) (mapNamesOption f value)
  | .forLoop s isAsync target iter body orElse =>
    .forLoop s isAsync (mapNames f target) (mapNames f iter) (mapNamesList f body)
      (mapNamesList f orElse)
  | .whileLoop s test body orElse =>
    .whileLoop s (mapNames f test) (mapNamesList f body) (mapNamesList f orElse)
  | .ifStmt s test body orElse =>
    .ifStmt s (mapNames f test) (mapNamesList f body) (mapNamesList f orElse)
  | .withStmt s isAsync items body =>
    .withStmt s isAsync (mapNamesList f items) (mapNamesList f body)
  | .withItem context target => .withItem (mapNames f context) (mapNamesOption f target)
  | .matchStmt s subject cases => .matchStmt s (mapNames f subject) (mapNamesList f cases)
  | .matchCase shape guard body =>
    .matchCase (mapNames f shape) (mapNamesOption f guard) (mapNamesList f body)
  | .raiseStmt s exc cause => .raiseStmt s (mapNamesOption f exc) (mapNamesOption f cause)
  | .tryStmt s isGroup body handlers orElse final =>
    .tryStmt s isGroup (mapNamesList f body) (mapNamesList f handlers) (mapNamesList f orElse)
      (mapNamesList f final)
  | .exceptHandler s type id body =>
    .exceptHandler s (mapNamesOption f type) id (mapNamesList f body)
  | .assertStmt s test message => .assertStmt s (mapNames f test) (mapNamesOption f message)
  | .importStmt s names => .importStmt s (mapNamesList f names)
  | .importFrom s library names level => .importFrom s library (mapNamesList f names) level
  | .alias s id asName => .alias s id asName
  | .scopeDecl s isGlobal names => .scopeDecl s isGlobal names
  | .exprStmt s value => .exprStmt s (mapNames f value)
  | .jump s kind => .jump s kind
  | .boolOp s isAnd values => .boolOp s isAnd (mapNamesList f values)
  | .namedExpr s target value => .namedExpr s (mapNames f target) (mapNames f value)
  | .binOp s left op right => .binOp s (mapNames f left) op (mapNames f right)
  | .unaryOp s op operand => .unaryOp s op (mapNames f operand)
  | .lambda s parameters body => .lambda s (mapNames f parameters) (mapNames f body)
  | .ifExp s test body orElse =>
    .ifExp s (mapNames f test) (mapNames f body) (mapNames f orElse)
  | .dict s keys values => .dict s (mapNamesOptions f keys) (mapNamesList f values)
  | .set s items => .set s (mapNamesList f items)
  | .comp s kind item generators =>
    .comp s kind (mapNames f item) (mapNamesList f generators)
  | .dictComp s key value generators =>
    .dictComp s (mapNames f key) (mapNames f value) (mapNamesList f generators)
  | .comprehension target iter conditions isAsync =>
    .comprehension (mapNames f target) (mapNames f iter) (mapNamesList f conditions) isAsync
  | .await s value => .await s (mapNames f value)
  | .yield s value => .yield s (mapNamesOption f value)
  | .yieldFrom s value => .yieldFrom s (mapNames f value)
  | .compare s left ops comparators =>
    .compare s (mapNames f left) ops (mapNamesList f comparators)
  | .call s func args keywords =>
    .call s (mapNames f func) (mapNamesList f args) (mapNamesList f keywords)
  | .formatted s value conversion spec =>
    .formatted s (mapNames f value) conversion (mapNamesOption f spec)
  | .joinedStr s values => .joinedStr s (mapNamesList f values)
  | .constant s value => .constant s value
  | .attribute s value attr => .attribute s (mapNames f value) attr
  | .subscript s value index => .subscript s (mapNames f value) (mapNames f index)
  | .starred s value => .starred s (mapNames f value)
  | .name s id => .name s (f id)
  | .list s items => .list s (mapNamesList f items)
  | .tuple s items => .tuple s (mapNamesList f items)
  | .slice s lower upper step =>
    .slice s (mapNamesOption f lower) (mapNamesOption f upper) (mapNamesOption f step)
  | .params positionalOnly args varArg keywordOnly keywordDefaults kwArg defaults =>
    .params (mapNamesList f positionalOnly) (mapNamesList f args) (mapNamesOption f varArg)
      (mapNamesList f keywordOnly) (mapNamesOptions f keywordDefaults) (mapNamesOption f kwArg)
      (mapNamesList f defaults)
  | .param s id typeNote => .param s id (mapNamesOption f typeNote)
  | .keyword s arg value => .keyword s arg (mapNames f value)
  | .pattern s form parts => .pattern s form (mapNamesList f parts)

/-- `mapNames` on a list. -/
def mapNamesList (f : String → String) : List Node → List Node
  | [] => []
  | n :: r => mapNames f n :: mapNamesList f r

/-- `mapNames` on what may be missing. -/
def mapNamesOption (f : String → String) : Option Node → Option Node
  | none => none
  | some n => some (mapNames f n)

/-- `mapNames` on a list of what may be missing. -/
def mapNamesOptions (f : String → String) : List (Option Node) → List (Option Node)
  | [] => []
  | o :: r => mapNamesOption f o :: mapNamesOptions f r

end

attribute [grind =] mapNames mapNamesList mapNamesOption mapNamesOptions

variable {f : String → String}

@[simp]
theorem mapNamesList_eq (l : List Node) : mapNamesList f l = l.map (mapNames f) := by
  induction l with
  | nil => rfl
  | cons n l ih => simp [mapNamesList, ih]

@[simp]
theorem mapNamesOption_eq (o : Option Node) : mapNamesOption f o = o.map (mapNames f) := by
  cases o <;> rfl

@[simp]
theorem mapNamesOptions_eq (l : List (Option Node)) :
    mapNamesOptions f l = l.map (Option.map (mapNames f)) := by
  induction l with
  | nil => rfl
  | cons o l ih => simp [mapNamesOptions, ih]

theorem toList_map_mapNames (o : Option Node) :
    (o.map (mapNames f)).toList = o.toList.map (mapNames f) := by
  cases o <;> rfl

@[simp]
theorem children_mapNames (n : Node) : (n.mapNames f).children = n.children.map (mapNames f) := by
  cases n <;>
    simp [mapNames, children, flatMap_map, map_flatMap, toList_map_mapNames]

@[simp]
theorem span?_mapNames (n : Node) : (n.mapNames f).span? = n.span? := by
  cases n <;> rfl

@[simp]
theorem line_mapNames (n : Node) : (n.mapNames f).line = n.line := by
  simp [line, line?]

@[simp]
theorem isLoop_mapNames (n : Node) : (n.mapNames f).isLoop = n.isLoop := by
  cases n <;> rfl

@[simp]
theorem nameId?_mapNames (n : Node) : (n.mapNames f).nameId? = n.nameId?.map f := by
  cases n <;> rfl

theorem filter_isLoop_mapNames (l : List Node) :
    (l.map (mapNames f)).filter isLoop = (l.filter isLoop).map (mapNames f) := by
  rw [filter_map]
  simp [Function.comp_def]

theorem walkLevels_mapNames (level : List Node) :
    walkLevels (level.map (mapNames f)) = (walkLevels level).map (mapNames f) := by
  fun_induction walkLevels level with
  | case1 => simp [walkLevels]
  | case2 n level ih =>
    have hbelow : ((n :: level).map (mapNames f)).flatMap children
        = ((n :: level).flatMap children).map (mapNames f) := by
      simp [flatMap_map, map_flatMap]
    rw [map_cons, walkLevels, ← map_cons, hbelow, ih, map_append]

@[simp]
theorem walk_mapNames (n : Node) : (n.mapNames f).walk = n.walk.map (mapNames f) :=
  walkLevels_mapNames [n]

variable {σ : Type} {down : σ → Node → Nat → σ}
  (hdown : ∀ a n i, down a (mapNames f n) i = down a n i)
include hdown

theorem childrenWith_mapNames (a : σ) (n : Node) : (n.mapNames f).childrenWith down a
      = (n.childrenWith down a).map (Prod.map id (mapNames f)) := by
  simp [childrenWith, mapIdx_eq_zipIdx_map, zipIdx_map, hdown]

/-- `walkWith` reaches the same places if `down` does not depend on bare names. -/
theorem walkWith_mapNames (start : σ) (n : Node) : (n.mapNames f).walkWith down start
      = (n.walkWith down start).map (Prod.map id (mapNames f)) :=
  walkLevelsWith_map (g := Prod.map id (mapNames f)) [(start, n)] fun q _ =>
    childrenWith_mapNames hdown q.1 q.2

omit hdown

theorem walkWays_mapNames (n : Node) :
    (n.mapNames f).walkWays = n.walkWays.map (Prod.map id (mapNames f)) :=
  walkWith_mapNames (fun _ _ _ => rfl) [] n

theorem parent?_mapNames (n : Node) (way : List Nat) :
    (n.mapNames f).parent? way = (n.parent? way).map (Prod.map id (mapNames f)) := by
  have hchildren (p : List Nat × Node) : (p.2.mapNames f).childrenWith wayBelow p.1
      = (p.2.childrenWith wayBelow p.1).map (Prod.map id (mapNames f)) :=
    childrenWith_mapNames (fun _ _ _ => rfl) p.1 p.2
  simp [parent?, walkWays_mapNames, find?_map, Function.comp_def, hchildren]

theorem inLoop_mapNames (n : Node) (way : List Nat) : (n.mapNames f).inLoop way = n.inLoop way := by
  fun_induction inLoop n way with
  | case1 way h => rw [inLoop, parent?_mapNames, h]; rfl
  | case2 way p h ih => rw [inLoop, parent?_mapNames, h]; simp [ih]

theorem snd_mem_walk {σ : Type} {down : σ → Node → Nat → σ} {start : σ} {n : Node} {p : σ × Node}
    (h : p ∈ n.walkWith down start) : p.2 ∈ n.walk := by
  have hwalk : (n.walkWith down start).map Prod.snd = n.walk := map_snd_walkLevelsWith down _
  exact hwalk ▸ mem_map_of_mem h

/-! ## Names that do not occur -/

/-- `id` stands nowhere in `n`. -/
def Avoids (id : String) (n : Node) : Prop := ∀ m ∈ n.preorder, m.nameId? ≠ some id

instance (id : String) (n : Node) : Decidable (n.Avoids id) :=
  inferInstanceAs (Decidable (∀ m ∈ n.preorder, m.nameId? ≠ some id))

variable {id : String} {n c : Node}

theorem Avoids.child (h : n.Avoids id) (hc : c ∈ n.children) : c.Avoids id := by
  intro m hm
  refine h m ?_
  rw [preorder_eq]
  exact mem_cons_of_mem _ (mem_flatMap.2 ⟨c, hc, hm⟩)

theorem Avoids.ne {s : Span} {x : String} (h : (name s x).Avoids id) : x ≠ id := by
  intro heq
  refine h (name s x) ?_ (congrArg some heq)
  rw [preorder_eq]
  exact mem_cons_self

theorem Avoids.of_mem_preorder (h : n.Avoids id) {m : Node} (hm : m ∈ n.preorder) :
    m.Avoids id := by
  induction n using induction_children with
  | h n ih =>
    rw [preorder_eq] at hm
    rcases mem_cons.1 hm with rfl | hm
    · exact h
    · obtain ⟨c, hc, hm⟩ := mem_flatMap.1 hm
      exact ih c hc (h.child hc) hm

theorem Avoids.of_mem_walk (h : n.Avoids id) {m : Node} (hm : m ∈ n.walk) : m.Avoids id :=
  h.of_mem_preorder (n.walk_perm_preorder.mem_iff.1 hm)

theorem Avoids.receiver {s s' : Span} {base : Node} {attr : String} {args keywords : List Node}
    (h : (call s (.attribute s' base attr) args keywords).Avoids id) : base.Avoids id :=
  (h.child mem_cons_self).child mem_cons_self

end Syntax.Node

end SmellLint
