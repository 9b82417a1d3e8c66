import SmellLint.Syntax.Node

/-!
# Traversals

All traversals of a tree are built on `Node.children`:

* `Node.walk` lists a tree level by level, the root first and each level from left to right;
* `Node.walkWith` does the same and hands an attribute down from each node to its children;
* `Node.walkWays` gives each node its place, from which `Node.parent?` looks for the node above it;
* `Node.preorder` lists a tree depth first.

Every child is smaller than its parent (`Node.sizeOf_children_lt`), which is why they end.
-/

namespace SmellLint.Syntax

open List
namespace Node

theorem foldr_add_append (l r : List Nat) :
    (l ++ r).foldr (· + ·) 0 = l.foldr (· + ·) 0 + r.foldr (· + ·) 0 :=
  sum_append_nat

theorem sum_sizeOf_le (l : List Node) : (l.map sizeOf).foldr (· + ·) 0 ≤ sizeOf l := by
  induction l with
  | nil => simp
  | cons a l ih => simp only [map_cons, foldr_cons, cons.sizeOf_spec]; omega

theorem sum_sizeOf_toList_le (o : Option Node) :
    (o.toList.map sizeOf).foldr (· + ·) 0 ≤ sizeOf o := by
  cases o <;> simp

theorem sum_sizeOf_flatMap_le (l : List (Option Node)) :
    ((l.flatMap Option.toList).map sizeOf).foldr (· + ·) 0 ≤ sizeOf l := by
  induction l with
  | nil => simp
  | cons a l ih =>
    have := sum_sizeOf_toList_le a
    simp only [flatMap_cons, map_append, foldr_add_append, cons.sizeOf_spec]
    omega

/-- The `children` together are smaller than their parent `n`. -/
theorem sum_sizeOf_children_lt (n : Node) :
    (n.children.map sizeOf).foldr (· + ·) 0 < sizeOf n := by
  cases n <;>
    simp only [children, map_append, foldr_add_append, map_cons, foldr_cons,
      map_nil, foldr_nil] <;>
    grind [sum_sizeOf_le, sum_sizeOf_toList_le, sum_sizeOf_flatMap_le]

theorem sizeOf_le_sum {c : Node} {l : List Node} (h : c ∈ l) :
    sizeOf c ≤ (l.map sizeOf).foldr (· + ·) 0 := by
  induction l with
  | nil => cases h
  | cons a l ih =>
    simp only [map_cons, foldr_cons]
    rcases mem_cons.1 h with rfl | h
    · omega
    · have := ih h
      omega

theorem sizeOf_children_lt {n c : Node} (h : c ∈ n.children) : sizeOf c < sizeOf n := by
  have h1 := sum_sizeOf_children_lt n
  have h2 := sizeOf_le_sum h
  omega

theorem sum_sizeOf_flatMap_children_le (l : List Node) :
    ((l.flatMap children).map sizeOf).foldr (· + ·) 0 ≤ (l.map sizeOf).foldr (· + ·) 0 := by
  induction l with
  | nil => simp
  | cons a l ih =>
    have := sum_sizeOf_children_lt a
    simp only [flatMap_cons, map_append, foldr_add_append, map_cons, foldr_cons]
    omega

/-- A level of trees, then the level below it, and so on. -/
def walkLevels : List Node → List Node
  | [] => []
  | n :: level => (n :: level) ++ walkLevels ((n :: level).flatMap children)
termination_by level => (level.map sizeOf).foldr (· + ·) 0
decreasing_by
  have h1 := sum_sizeOf_children_lt n
  have h2 := sum_sizeOf_flatMap_children_le level
  simp only [flatMap_cons, map_append, foldr_add_append, map_cons, foldr_cons]
  omega

def walk (n : Node) : List Node := walkLevels [n]

/-- The children of `n`, each with the attribute that is handed `down` to it. -/
def childrenWith {σ : Type} (down : σ → Node → Nat → σ) (a : σ) (n : Node) : List (σ × Node) :=
  n.children.mapIdx fun i c => (down a n i, c)

theorem map_snd_childrenWith {σ : Type} (down : σ → Node → Nat → σ) (a : σ) (n : Node) :
    (n.childrenWith down a).map Prod.snd = n.children := by
  simp only [childrenWith, mapIdx_eq_zipIdx_map, map_map]
  exact zipIdx_map_fst 0 n.children

theorem sum_sizeOf_childrenWith {σ : Type} (down : σ → Node → Nat → σ) (a : σ) (n : Node) :
    ((n.childrenWith down a).map fun p => sizeOf p.2).foldr (· + ·) 0 =
      (n.children.map sizeOf).foldr (· + ·) 0 := by
  rw [← map_snd_childrenWith down a n, map_map]
  rfl

theorem sum_sizeOf_flatMap_childrenWith_le {σ : Type} (down : σ → Node → Nat → σ)
    (l : List (σ × Node)) :
    ((l.flatMap fun p => p.2.childrenWith down p.1).map fun p => sizeOf p.2).foldr (· + ·) 0 ≤
      (l.map fun p => sizeOf p.2).foldr (· + ·) 0 := by
  induction l with
  | nil => simp
  | cons p l ih =>
    have := sum_sizeOf_children_lt p.2
    simp only [flatMap_cons, map_append, foldr_add_append, map_cons, foldr_cons,
      sum_sizeOf_childrenWith]
    omega

/-- As `walkLevels`, with an attribute handed down from parent to child. -/
def walkLevelsWith {σ : Type} (down : σ → Node → Nat → σ) : List (σ × Node) → List (σ × Node)
  | [] => []
  | p :: level =>
    (p :: level) ++ walkLevelsWith down ((p :: level).flatMap fun q => q.2.childrenWith down q.1)
termination_by level => (level.map fun p => sizeOf p.2).foldr (· + ·) 0
decreasing_by
  have h1 := sum_sizeOf_children_lt p.2
  have h2 := sum_sizeOf_flatMap_childrenWith_le down level
  simp only [flatMap_cons, map_append, foldr_add_append, map_cons, foldr_cons,
    sum_sizeOf_childrenWith]
  omega

/-- All nodes of a tree, level by level, each with the attribute that reaches it: the root has
`start`, and the child number `i` of a node `n` with attribute `a` has `down a n i`. -/
def walkWith {σ : Type} (down : σ → Node → Nat → σ) (start : σ) (n : Node) : List (σ × Node) :=
  walkLevelsWith down [(start, n)]

/-- The way to the child number `i` of the node at `way`. -/
def wayBelow (way : List Nat) (_ : Node) (i : Nat) : List Nat := way ++ [i]

/-- All nodes of `n`, level by level, each with the way to it: the numbers of the children that lead
to it from the root. -/
def walkWays (n : Node) : List (List Nat × Node) := n.walkWith wayBelow []

/-- The parent of the node at `way`, with its own way; all of `n` is searched for it. -/
def parent? (n : Node) (way : List Nat) : Option (List Nat × Node) :=
  n.walkWays.find? fun p => (p.2.childrenWith wayBelow p.1).any fun c => c.1 == way

theorem exists_of_parent? {n : Node} {way : List Nat} {p : List Nat × Node}
    (h : n.parent? way = some p) : ∃ i, ∃ c, p.2.children[i]? = some c ∧ way = p.1 ++ [i] := by
  have hfound := find?_some h
  obtain ⟨c, hc, hway⟩ := any_eq_true.1 hfound
  obtain ⟨i, hi, rfl⟩ := mem_mapIdx.1 hc
  exact ⟨i, _, getElem?_eq_getElem hi, (beq_iff_eq.1 hway).symm⟩

/-- Whether one of the parents above the node at `way` is a loop. -/
def inLoop (n : Node) (way : List Nat) : Bool :=
  match _h : n.parent? way with
  | none => false
  | some p => p.2.isLoop || n.inLoop p.1
termination_by way.length
decreasing_by
  obtain ⟨i, c, -, rfl⟩ := exists_of_parent? ‹_›
  simp

/-- All nodes of `n`, depth first, each before its children. -/
def preorder (n : Node) : List Node := n :: n.children.attach.flatMap fun c => preorder c.1
termination_by sizeOf n
decreasing_by exact sizeOf_children_lt c.2

/-- The nodes of a tree, depth first, each with the definitions around it, the outermost first.
What is below a node that `enter` refuses is left out. -/
def withScopes (enter : Node → Bool) (scope : List Node) (n : Node) : List (List Node × Node) :=
  (scope, n) ::
    if enter n then
      let inner := if n.definedName?.isSome then scope ++ [n] else scope
      n.children.attach.flatMap fun c => withScopes enter inner c.1
    else []
termination_by sizeOf n
decreasing_by exact sizeOf_children_lt c.2

/-- The plain function definitions of `n`, in the order of the walk. -/
def functionDefs (n : Node) : List Node := n.walk.filter isFunctionDef

def lastFunction? (n : Node) (name : String) : Option Node :=
  (n.functionDefs.filter fun f => f.definedName? == some name).getLast?

end Node
end SmellLint.Syntax
