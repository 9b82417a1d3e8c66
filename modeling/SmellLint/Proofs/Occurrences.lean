import Mathlib.Data.List.Perm.Basic
import Mathlib.Data.List.Shortlex
import SmellLint.Syntax.Walk

/-!
# Occurrences in a tree

Equal nodes may stand at several places of a tree, so a statement that counts nodes has to count
places.  A place is a *way*: the numbers of the children that lead to it from the root.  The subtree
at a way `v` contains the node at a way `w` exactly if `v` starts `w`, so `Node.around` lists all
the nodes whose subtree contains a given one.

`Node.walk_perm_preorder` says that the walk by levels meets every place once.  From it follows the
double count `Node.walks_perm_around`: walking through every subtree of a tree meets each node as
often as there are nodes around it, the node itself included.

The walk that tells the way to each node meets shorter ways first, and ways of one length from left
to right (`Node.pairwise_walkWays`).  Only the node at the way without its last step has a node as
its child (`Node.parent?_eq_some_iff`), so going from parent to parent meets all the nodes above
(`Node.inLoop_iff`).  What a walk finds is told by the ways to it (`Node.waysTo`), and so is what a
walk hands down from node to node, if it depends on the way alone (`Node.walkWith_eq_map`).
-/

namespace SmellLint.Syntax.Node

open List

/-! ## Ways -/

/-- The node that a way leads to. -/
def at? (n : Node) : List Nat → Option Node
  | [] => some n
  | i :: way => (n.children[i]?).bind fun c => c.at? way

/-- All ways that lead to a node. -/
def ways (n : Node) : List (List Nat) :=
  [] :: n.children.attach.zipIdx.flatMap fun c => (ways c.1.1).map (c.2 :: ·)
termination_by sizeOf n
decreasing_by exact sizeOf_children_lt c.1.2

/-- The nodes from `n` down to the end of `way`: those whose subtree contains the node at its end.
-/
def around (n : Node) (way : List Nat) : List Node := way.inits.filterMap n.at?

/-- To prove `motive` of every node, prove it of a node from what holds of its children. -/
theorem induction_children {motive : Node → Prop}
    (h : ∀ n, (∀ c ∈ n.children, motive c) → motive n) (n : Node) : motive n :=
  h n fun c _ => induction_children h c
decreasing_by exact sizeOf_children_lt ‹_›

theorem preorder_eq (n : Node) : n.preorder = n :: n.children.flatMap preorder := by
  rw [preorder, flatMap_subtype (g := preorder) (fun _ _ => rfl), unattach_attach]

theorem ways_eq (n : Node) :
    n.ways = [] :: n.children.zipIdx.flatMap fun c => (ways c.1).map (c.2 :: ·) := by
  rw [ways]
  conv_rhs => rw [← attach_map_subtype_val n.children, zipIdx_map, flatMap_map]
  rfl

theorem around_cons (n c : Node) (i : Nat) (way : List Nat) (h : n.children[i]? = some c) :
    n.around (i :: way) = n :: c.around way := by
  have hat : (fun v => n.at? (i :: v)) = c.at? := by
    simp [at?, h]
  simp only [around, inits, filterMap_cons, filterMap_map, ← hat]
  rfl

variable {β σ : Type} {n m : Node} {way : List Nat} {p : List Nat × Node}
  {level : List (List Nat × Node)} {test : Node → Bool}

/-- What `f` gives for the `ways` of `n`: first the empty way, then the ways through each child. -/
theorem ways_flatMap (n : Node) (f : List Nat → List β) : n.ways.flatMap f =
      f [] ++ n.children.zipIdx.flatMap fun c => (ways c.1).flatMap fun way => f (c.2 :: way) := by
  rw [ways_eq, flatMap_cons, flatMap_assoc]
  simp [flatMap_map]

theorem zipIdx_children {c : Node} {i : Nat} (h : (c, i) ∈ n.children.zipIdx) :
    n.children[i]? = some c :=
  mem_zipIdx_iff_getElem?.1 h

/-- The ways of a tree are those that lead to a node. -/
theorem mem_ways : way ∈ n.ways ↔ (n.at? way).isSome := by
  induction way generalizing n with
  | nil => rw [ways_eq]; simp [at?]
  | cons i way ih =>
    rw [ways_eq]
    simp only [mem_cons, reduceCtorEq, false_or, mem_flatMap, mem_map, cons.injEq, at?]
    constructor
    · rintro ⟨c, hc, v, hv, rfl, rfl⟩
      rw [zipIdx_children hc]
      exact ih.1 hv
    · intro h
      obtain ⟨c, hc⟩ := Option.isSome_iff_exists.1 (Option.isSome_of_isSome_bind h)
      rw [hc] at h
      exact ⟨(c, i), mem_zipIdx_iff_getElem?.2 hc, way, ih.2 h, rfl, rfl⟩

/-- `ways` are in order: a node comes before what is below it, and what is below a child before what
is below a later one. -/
theorem pairwise_ways (n : Node) : n.ways.Pairwise (· < ·) := by
  induction n using induction_children with
  | h n ih =>
    rw [ways_eq, pairwise_cons, pairwise_flatMap]
    refine ⟨fun way hway => ?_, fun c hc => ?_, ?_⟩
    · obtain ⟨c, -, hway⟩ := mem_flatMap.1 hway
      obtain ⟨v, -, rfl⟩ := mem_map.1 hway
      exact nil_lt_cons _ _
    · refine pairwise_map.2 ((ih c.1 (fst_mem_of_mem_zipIdx hc)).imp fun h => ?_)
      exact cons_lt_cons_iff.2 (.inr ⟨rfl, h⟩)
    · refine pairwise_iff_getElem.2 fun i j hi hj hij => ?_
      simp only [getElem_zipIdx, zero_add]
      intro v hv v' hv'
      obtain ⟨u, -, rfl⟩ := mem_map.1 hv
      obtain ⟨u', -, rfl⟩ := mem_map.1 hv'
      exact cons_lt_cons_iff.2 (.inl hij)

/-- `preorder` goes through the nodes at `ways`. -/
theorem preorder_eq_ways (n : Node) :
    n.preorder = n.ways.flatMap fun way => (n.at? way).toList := by
  induction n using induction_children with
  | h n ih =>
    have hways : ∀ c ∈ n.children.zipIdx,
        ((ways c.1).flatMap fun way => (n.at? (c.2 :: way)).toList) = c.1.preorder := by
      intro c hc
      rw [ih c.1 (fst_mem_of_mem_zipIdx hc)]
      simp [at?, zipIdx_children hc]
    rw [preorder_eq, ways_flatMap, flatMap_congr hways]
    simp only [at?, Option.toList_some, singleton_append]
    conv_lhs => rw [← zipIdx_map_fst 0 n.children, flatMap_map]

/-! ## Walks -/

theorem walkLevels_perm_preorder (level : List Node) :
    (walkLevels level).Perm (level.flatMap preorder) := by
  fun_induction walkLevels level with
  | case1 => simp
  | case2 n level ih =>
    have hsplit : (n :: level).flatMap preorder =
        (n :: level).flatMap fun m => m :: m.children.flatMap preorder :=
      flatMap_congr fun m _ => preorder_eq m
    have hheads := map_append_flatMap_perm (n :: level) id
      fun m => m.children.flatMap preorder
    rw [map_id, ← flatMap_assoc] at hheads
    rw [hsplit]
    exact (ih.append_left (n :: level)).trans hheads

/-- `walk`, which goes by levels, meets every node as often as `preorder`. -/
theorem walk_perm_preorder (n : Node) : n.walk.Perm n.preorder := by
  have h := walkLevels_perm_preorder [n]
  rwa [flatMap_singleton] at h

/-- One summand of the double count: the ways through the child `c` of `n` give what the walk of `n`
meets in `c`, and what the subtrees inside `c` meet there. -/
theorem flatMap_around_child (f : Node → Node → List β) {c : Node × Nat}
    (hc : c ∈ n.children.zipIdx) :
    ((ways c.1).flatMap fun way => (n.at? (c.2 :: way)).toList.flatMap fun m =>
        (n.around (c.2 :: way)).flatMap (f · m)).Perm
      (c.1.preorder.flatMap (f n) ++ (ways c.1).flatMap fun way =>
        (c.1.at? way).toList.flatMap fun m => (c.1.around way).flatMap (f · m)) := by
  have hstep : ∀ way, ((n.at? (c.2 :: way)).toList.flatMap fun m =>
        (n.around (c.2 :: way)).flatMap (f · m)) =
      (c.1.at? way).toList.flatMap (f n) ++
        (c.1.at? way).toList.flatMap fun m => (c.1.around way).flatMap (f · m) := by
    intro way
    rw [around_cons n c.1 c.2 way (zipIdx_children hc)]
    simp only [at?, zipIdx_children hc, Option.bind_some]
    cases c.1.at? way <;> simp
  rw [preorder_eq_ways, flatMap_assoc]
  simp only [hstep]
  exact (flatMap_append_perm _ _ _).symm

theorem preorders_perm_around (f : Node → Node → List β) (n : Node) :
    (n.preorder.flatMap fun g => g.preorder.flatMap (f g)).Perm
      (n.ways.flatMap fun way => (n.at? way).toList.flatMap fun m =>
        (n.around way).flatMap (f · m)) := by
  induction n using induction_children with
  | h n ih =>
    -- a node below has around it the root and what is around it in the child it is in
    have hchildren : (n.children.zipIdx.flatMap fun c => c.1.preorder.flatMap (f n) ++
          (c.1.preorder.flatMap fun g => g.preorder.flatMap (f g))).Perm
        (n.children.zipIdx.flatMap fun c => (ways c.1).flatMap fun way =>
          (n.at? (c.2 :: way)).toList.flatMap fun m =>
            (n.around (c.2 :: way)).flatMap (f · m)) := by
      apply Perm.flatMap_left
      intro c hc
      have hc' := (ih c.1 (fst_mem_of_mem_zipIdx hc)).append_left (c.1.preorder.flatMap (f n))
      exact hc'.trans (flatMap_around_child f hc).symm
    have hsplit := flatMap_append_perm n.children (fun c => c.preorder.flatMap (f n))
      fun c => c.preorder.flatMap fun g => g.preorder.flatMap (f g)
    rw [← zipIdx_map_fst 0 n.children, flatMap_map, flatMap_map, flatMap_map] at hsplit
    have hroot : n.preorder.flatMap (f n) =
        f n n ++ n.children.zipIdx.flatMap fun c => c.1.preorder.flatMap (f n) := by
      rw [preorder_eq, flatMap_cons, flatMap_assoc]
      conv_lhs => rw [← zipIdx_map_fst 0 n.children, flatMap_map]
    have hbelow : ((n.children.flatMap preorder).flatMap fun g => g.preorder.flatMap (f g)) =
        n.children.zipIdx.flatMap fun c =>
          c.1.preorder.flatMap fun g => g.preorder.flatMap (f g) := by
      rw [flatMap_assoc]
      conv_lhs => rw [← zipIdx_map_fst 0 n.children, flatMap_map]
    have hnil : ((n.at? []).toList.flatMap fun m => (n.around []).flatMap (f · m)) = f n n := by
      simp [at?, around]
    rw [ways_flatMap, hnil]
    conv_lhs => rw [preorder_eq, flatMap_cons, hroot, hbelow, append_assoc]
    exact (hsplit.trans hchildren).append_left (f n n)

/-- Walking through every subtree of `n` meets each node once for every node `around` it. -/
theorem walks_perm_around (f : Node → Node → List β) (n : Node) :
    (n.walk.flatMap fun g => g.walk.flatMap (f g)).Perm
      (n.ways.flatMap fun way => (n.at? way).toList.flatMap fun m =>
        (n.around way).flatMap (f · m)) := by
  have hinner : (n.walk.flatMap fun g => g.walk.flatMap (f g)).Perm
      (n.preorder.flatMap fun g => g.preorder.flatMap (f g)) :=
    (walk_perm_preorder n).flatMap fun g _ => (walk_perm_preorder g).flatMap_right (f g)
  exact hinner.trans (preorders_perm_around f n)

/-! ## Parents -/

theorem at?_append (n : Node) (v w : List Nat) : n.at? (v ++ w) = (n.at? v).bind (·.at? w) := by
  induction v generalizing n with
  | nil => rfl
  | cons i v ih => simp [at?, ih, Option.bind_assoc]

theorem at?_concat (n : Node) (way : List Nat) (i : Nat) :
    n.at? (way ++ [i]) = (n.at? way).bind (·.children[i]?) := by
  simp [at?_append, at?]

theorem mem_childrenWays :
    p ∈ n.childrenWith wayBelow way ↔ ∃ i, p.1 = way ++ [i] ∧ n.children[i]? = some p.2 := by
  rw [childrenWith, mem_mapIdx]
  constructor
  · rintro ⟨i, hi, rfl⟩
    exact ⟨i, rfl, getElem?_eq_getElem hi⟩
  · rintro ⟨i, hway, hchild⟩
    obtain ⟨hi, hchild⟩ := List.getElem?_eq_some_iff.1 hchild
    exact ⟨i, hi, Prod.ext hway.symm hchild⟩

theorem mem_walkLevelsWays : p ∈ walkLevelsWith wayBelow level ↔
      ∃ q ∈ level, ∃ rest, p.1 = q.1 ++ rest ∧ q.2.at? rest = some p.2 := by
  fun_induction walkLevelsWith wayBelow level with
  | case1 => simp
  | case2 q level ih =>
    rw [mem_append, ih]
    constructor
    · rintro (hp | ⟨r, hr, rest, hway, hat⟩)
      · exact ⟨p, hp, [], by simp, rfl⟩
      · obtain ⟨q', hq', hr⟩ := mem_flatMap.1 hr
        obtain ⟨i, hi, hchild⟩ := mem_childrenWays.1 hr
        exact ⟨q', hq', i :: rest, by simp [hway, hi], by simp [at?, hchild, hat]⟩
    · rintro ⟨q', hq', rest, hway, hat⟩
      cases rest with
      | nil =>
        rw [append_nil] at hway
        rw [Prod.ext hway (Option.some.inj hat).symm]
        exact .inl hq'
      | cons i rest =>
        obtain ⟨c, hc, hat⟩ := Option.bind_eq_some_iff.1 hat
        refine .inr ⟨(q'.1 ++ [i], c), ?_, rest, by simp [hway], hat⟩
        exact mem_flatMap.2 ⟨q', hq', mem_childrenWays.2 ⟨i, rfl, hc⟩⟩

/-- `walkWays` meets each node at its way. -/
theorem mem_walkWays : p ∈ n.walkWays ↔ n.at? p.1 = some p.2 := by
  simp [walkWays, walkWith, mem_walkLevelsWays]

/-- Ways of one length stay in their order when they are continued. -/
theorem lex_append {v w : List Nat} (h : Lex (· < ·) v w) (hlength : v.length = w.length)
    (v' w' : List Nat) : Lex (· < ·) (v ++ v') (w ++ w') := by
  induction h with
  | nil => simp at hlength
  | cons _ ih => exact .cons (ih (by simpa using hlength))
  | rel h => exact .rel h

theorem pairwise_walkLevelsWays {length : Nat} (hlength : ∀ p ∈ level, p.1.length = length)
    (hlevel : level.Pairwise fun p q => Shortlex (· < ·) p.1 q.1) :
    (walkLevelsWith wayBelow level).Pairwise fun p q => Shortlex (· < ·) p.1 q.1 := by
  fun_induction walkLevelsWith wayBelow level generalizing length with
  | case1 => exact .nil
  | case2 p level ih =>
    have hbelow : ∀ q ∈ (p :: level).flatMap fun q => q.2.childrenWith wayBelow q.1,
        q.1.length = length + 1 := by
      intro q hq
      obtain ⟨r, hr, hq⟩ := mem_flatMap.1 hq
      obtain ⟨i, hway, -⟩ := mem_childrenWays.1 hq
      simp [hway, hlength r hr]
    refine pairwise_append.2 ⟨hlevel, ih hbelow (pairwise_flatMap.2 ⟨?_, ?_⟩), ?_⟩
    · intro q _
      refine pairwise_iff_getElem.2 fun i j hi hj hij => ?_
      simp only [childrenWith, getElem_mapIdx]
      exact Shortlex.append_left ((shortlex_singleton_iff i j).2 hij) q.1
    · refine hlevel.imp_of_mem fun {q r} hq hr h => ?_
      intro q' hq' r' hr'
      obtain ⟨i, hi, -⟩ := mem_childrenWays.1 hq'
      obtain ⟨j, hj, -⟩ := mem_childrenWays.1 hr'
      have hsame := (hlength q hq).trans (hlength r hr).symm
      rw [hi, hj]
      refine .of_lex (by simp [hsame]) (lex_append ?_ hsame [i] [j])
      exact (shortlex_iff_lex hsame).1 h
    · intro q hq r hr
      obtain ⟨r', hr', rest, hway, -⟩ := mem_walkLevelsWays.1 hr
      refine .of_length_lt ?_
      rw [hlength q hq, hway, length_append, hbelow r' hr']
      omega

/-- `walkWays` meets shorter ways first, and ways of one length from left to right. -/
theorem pairwise_walkWays (n : Node) : n.walkWays.Pairwise fun p q => Shortlex (· < ·) p.1 q.1 := by
  have hroot : ∀ p ∈ [(([] : List Nat), n)], p.1.length = 0 := by simp
  exact pairwise_walkLevelsWays hroot (pairwise_singleton _ _)

/-- `parent?` is at `way` without the last step. -/
theorem parent?_eq_some_iff : n.parent? way = some p ↔
      n.at? p.1 = some p.2 ∧ ∃ i c, p.2.children[i]? = some c ∧ way = p.1 ++ [i] := by
  constructor
  · intro h
    exact ⟨mem_walkWays.1 (mem_of_find?_eq_some h), exists_of_parent? h⟩
  · rintro ⟨hat, i, c, hchild, rfl⟩
    cases h : n.parent? _ with
    | none =>
      have hnone := find?_eq_none.1 h p (mem_walkWays.2 hat)
      simp only [any_eq_true, beq_iff_eq, not_exists, not_and] at hnone
      exact (hnone (p.1 ++ [i], c) (mem_childrenWays.2 ⟨i, rfl, hchild⟩) rfl).elim
    | some q =>
      obtain ⟨j, _, -, hway⟩ := exists_of_parent? h
      have hsame : p.1 = q.1 := (append_inj' hway rfl).1
      have hq := mem_walkWays.1 (mem_of_find?_eq_some h)
      rw [← hsame, hat] at hq
      rw [Prod.ext hsame (Option.some.inj hq)]

/-- `inLoop`, which goes from parent to parent, finds a loop exactly if there is one `above`, at a
shorter way that starts `way`. -/
theorem inLoop_iff (h : (n.at? way).isSome) :
    n.inLoop way = true ↔ ∃ above, above <+: way ∧ above ≠ way ∧
      ∃ loop, n.at? above = some loop ∧ loop.isLoop = true := by
  fun_induction inLoop n way with
  | case1 way hparent =>
    rcases eq_nil_or_concat way with rfl | ⟨v, i, rfl⟩
    · simp +contextual
    · rw [concat_eq_append] at h hparent
      obtain ⟨c, hc⟩ := Option.isSome_iff_exists.1 h
      rw [at?_concat] at hc
      obtain ⟨m, hm, hc⟩ := Option.bind_eq_some_iff.1 hc
      rw [(parent?_eq_some_iff (p := (v, m))).2 ⟨hm, i, c, hc, rfl⟩] at hparent
      cases hparent
  | case2 way p hparent ih =>
    obtain ⟨hat, i, c, -, rfl⟩ := parent?_eq_some_iff.1 hparent
    rw [Bool.or_eq_true, ih (by simp [hat])]
    constructor
    · rintro (hloop | ⟨above, habove, hne, hloop⟩)
      · exact ⟨p.1, prefix_append _ _, by simp, p.2, hat, hloop⟩
      · refine ⟨above, habove.trans (prefix_append _ _), ?_, hloop⟩
        rintro rfl
        simpa using habove.length_le
    · rintro ⟨above, habove, hne, hloop⟩
      rcases prefix_concat_iff.1 habove with heq | habove
      · exact absurd heq hne
      · by_cases heq : above = p.1
        · subst heq
          rw [hat] at hloop
          obtain ⟨loop, hloop, hisLoop⟩ := hloop
          cases hloop
          exact .inl hisLoop
        · exact .inr ⟨above, habove, heq, hloop⟩

/-! ## Places of what is found -/

theorem map_snd_walkLevelsWith (down : σ → Node → Nat → σ) (level : List (σ × Node)) :
    (walkLevelsWith down level).map Prod.snd = walkLevels (level.map Prod.snd) := by
  fun_induction walkLevelsWith down level with
  | case1 => simp [walkLevels]
  | case2 p level ih =>
    have hbelow : ((p :: level).flatMap fun q => q.2.childrenWith down q.1).map Prod.snd
        = ((p :: level).map Prod.snd).flatMap children := by
      simp [map_flatMap, map_snd_childrenWith, flatMap_map]
    rw [map_append, ih, hbelow, map_cons, walkLevels]

theorem map_snd_walkWays (n : Node) : n.walkWays.map Prod.snd = n.walk :=
  map_snd_walkLevelsWith wayBelow _

theorem mem_walk : m ∈ n.walk ↔ ∃ way, n.at? way = some m := by
  simp [← map_snd_walkWays, mem_walkWays]

/-- What commutes with `down` commutes with a walk. -/
theorem walkLevelsWith_map {τ : Type} {down : σ → Node → Nat → σ} {down' : τ → Node → Nat → τ}
    {g : σ × Node → τ × Node} (level : List (σ × Node))
    (h : ∀ q ∈ walkLevelsWith down level,
      (g q).2.childrenWith down' (g q).1 = (q.2.childrenWith down q.1).map g) :
    walkLevelsWith down' (level.map g) = (walkLevelsWith down level).map g := by
  fun_induction walkLevelsWith down level with
  | case1 => simp [walkLevelsWith]
  | case2 p level ih =>
    have hbelow : ((p :: level).map g).flatMap (fun q => q.2.childrenWith down' q.1)
        = ((p :: level).flatMap fun q => q.2.childrenWith down q.1).map g := by
      rw [flatMap_map, map_flatMap]
      exact flatMap_congr fun q hq => h q (mem_append_left _ hq)
    rw [map_cons] at hbelow ⊢
    rw [walkLevelsWith, hbelow, ih fun q hq => h q (mem_append_right _ hq), map_append, map_cons]

/-- An attribute `attr` that depends on the way alone is handed down as the ways are. -/
theorem walkWith_eq_map {down : σ → Node → Nat → σ} (attr : List Nat → σ)
    (h : ∀ way m, n.at? way = some m → ∀ i, attr (way ++ [i]) = down (attr way) m i) :
    n.walkWith down (attr []) = n.walkWays.map fun p => (attr p.1, p.2) := by
  refine walkLevelsWith_map (g := fun p => (attr p.1, p.2)) [([], n)] fun p hp => ?_
  have hp := h p.1 p.2 (mem_walkWays.1 hp)
  simp [childrenWith, wayBelow, mapIdx_eq_zipIdx_map, hp]

def lineAt (n : Node) (way : List Nat) : Nat := ((n.at? way).map line).getD 0

theorem lineAt_of_at? (h : n.at? way = some m) : n.lineAt way = m.line := by
  rw [lineAt, h]
  rfl

theorem lineAt_append {v : List Nat} (h : n.at? v = some m) (w : List Nat) :
    n.lineAt (v ++ w) = m.lineAt w := by
  rw [lineAt, at?_append, h]
  rfl

/-- The ways to the nodes that pass `test`, in the order of the walk. -/
def waysTo (n : Node) (test : Node → Bool) : List (List Nat) :=
  (n.walkWays.filter fun p => test p.2).map Prod.fst

theorem mem_waysTo : way ∈ n.waysTo test ↔ ∃ m, n.at? way = some m ∧ test m = true := by
  simp [waysTo, mem_walkWays]

theorem mem_waysTo_of_at? (h : n.at? way = some m) : way ∈ n.waysTo test ↔ test m = true := by
  simp [mem_waysTo, h]

theorem pairwise_waysTo (n : Node) (test : Node → Bool) :
    (n.waysTo test).Pairwise (Shortlex (· < ·)) :=
  pairwise_map.2 (n.pairwise_walkWays.filter _)

/-- What `f` makes of nodes, if anything, comes in the order of the ways to them. -/
theorem forall₂_waysTo (n : Node) (f : Node → Option β) :
    Forall₂ (fun way b => ∃ m, n.at? way = some m ∧ f m = some b)
      (n.waysTo fun m => (f m).isSome) (n.walk.filterMap f) := by
  have hat : ∀ p ∈ n.walkWays, n.at? p.1 = some p.2 := fun _ => mem_walkWays.1
  rw [waysTo, ← map_snd_walkWays, filterMap_map]
  generalize n.walkWays = nodes at hat
  induction nodes with
  | nil => exact .nil
  | cons p nodes ih =>
    obtain ⟨hp, hnodes⟩ := forall_mem_cons.1 hat
    rw [filterMap_cons, Function.comp_apply]
    cases hf : f p.2 with
    | none =>
      rw [filter_cons_of_neg (by simp [hf])]
      exact ih hnodes
    | some b =>
      rw [filter_cons_of_pos (by simp [hf])]
      exact .cons ⟨p.2, hp, hf⟩ (ih hnodes)

/-- The first node of `walk` that passes `test`: its way comes before all others to such nodes. -/
theorem exists_of_find?_walk (h : n.walk.find? test = some m) :
    ∃ way, n.at? way = some m ∧ ∀ other ∈ n.waysTo test, other ≠ way →
      Shortlex (· < ·) way other := by
  rw [← map_snd_walkWays, find?_map, ← head?_filter] at h
  obtain ⟨p, hp, rfl⟩ := Option.map_eq_some_iff.1 h
  obtain ⟨later, hlater⟩ := head?_eq_some_iff.1 hp
  have hways : n.waysTo test = p.1 :: later.map Prod.fst := congrArg _ hlater
  have hfirst := n.pairwise_waysTo test
  have hmem : p ∈ n.walkWays := (mem_filter.1 (mem_of_mem_head? hp)).1
  refine ⟨p.1, mem_walkWays.1 hmem, fun other hother hne => ?_⟩
  rw [hways] at hfirst hother
  exact (pairwise_cons.1 hfirst).1 other ((mem_cons.1 hother).resolve_left hne)

/-- What `f` makes of the lines of the nodes that pass `test` is made of the lines at their ways. -/
theorem map_line_filter_walk (n : Node) (test : Node → Bool) (f : Nat → β) :
    (n.walk.filter test).map (fun m => f m.line) =
      (n.waysTo test).map fun way => f (n.lineAt way) := by
  rw [← map_snd_walkWays, filter_map, map_map, waysTo, map_map]
  refine map_congr_left fun p hp => ?_
  have hat := mem_walkWays.1 (mem_filter.1 hp).1
  simp [lineAt_of_at? hat]

end SmellLint.Syntax.Node
