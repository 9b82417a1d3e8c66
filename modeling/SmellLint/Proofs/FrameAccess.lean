import Mathlib.Data.List.Induction
import Mathlib.Data.List.Nodup
import SmellLint.Proofs.FrameRules

/-!
# Loops over data frames and chains of indices

Two rules look at how data frames are read, and report one thing for each place that may hold
several of what they look for.

A loop is reported once, however many slow calls it has (`detect_unnecessaryIteration`).  A loop
over the result of a slow call has that call in it, so both ways to find a loop find a loop with a
slow call.

A chain of indices is reported once, however long it is (`detect_chainIndexing`): the rule looks for
the second index of a chain, and every chain has just one.
-/

namespace SmellLint.Smell

open Syntax (Node Span)
open List

variable {n m loop : Node} {facts : Facts} {libraries : LibraryMap} {frames : List String}
  {way : List Nat}

/-! ## Loops -/

/-- `m` is a data-frame variable, or an index into one. -/
def IsFrameExpr (frames : List String) (m : Node) : Prop :=
  ∃ s, ∃ id ∈ frames, m = .name s id ∨ ∃ s' index, m = .subscript s' (.name s id) index

/-- `m` calls a method that goes through a data frame item by item. -/
def IsSlowCall (frames : List String) (m : Node) : Prop :=
  ∃ s s' base method args keywords, m = .call s (.attribute s' base method) args keywords ∧
    method ∈ ["iterrows", "itertuples", "apply", "applymap"] ∧ IsFrameExpr frames base

def SlowCallAt (frames : List String) (n : Node) (way : List Nat) : Prop :=
  ∃ m, n.at? way = some m ∧ IsSlowCall frames m

/-- `loop` goes over the result of a slow call. -/
def IteratesSlowly (frames : List String) (loop : Node) : Prop :=
  ∃ s isAsync target iter body orElse,
    loop = .forLoop s isAsync target iter body orElse ∧ IsSlowCall frames iter

/-- What is reported of `loop`: the loop itself if it `IteratesSlowly`, and otherwise the first slow
call in it, which all the others are deeper than, or as deep and further right. -/
def IsLoopReport (frames : List String) (loop : Node) (f : Finding) : Prop :=
  (IteratesSlowly frames loop ∧ f = ⟨loop.line,
    "Inefficient iteration detected. Consider using vectorized operations instead."⟩) ∨
  (¬IteratesSlowly frames loop ∧ ∃ way, SlowCallAt frames loop way ∧
    (∀ other, SlowCallAt frames loop other → other ≠ way → Shortlex (· < ·) way other) ∧
      f = ⟨loop.lineAt way, "Inefficient operation detected inside the loop. " ++
        "Consider using vectorized operations instead."⟩)

theorem isFrameExpr_iff : isFrameExpr frames m = true ↔ IsFrameExpr frames m := by
  constructor
  · intro h
    unfold isFrameExpr at h
    split at h
    · exact ⟨_, _, contains_iff_mem.1 h, .inl rfl⟩
    · exact ⟨_, _, contains_iff_mem.1 h, .inr ⟨_, _, rfl⟩⟩
    · cases h
  · rintro ⟨s, id, hid, rfl | ⟨s', index, rfl⟩⟩ <;> exact contains_iff_mem.2 hid

theorem isSlowCall_iff : isSlowCall frames m = true ↔ IsSlowCall frames m := by
  constructor
  · intro h
    unfold isSlowCall at h
    split at h
    · rw [Bool.and_eq_true, contains_iff_mem, isFrameExpr_iff] at h
      exact ⟨_, _, _, _, _, _, rfl, h⟩
    · cases h
  · rintro ⟨s, s', base, method, args, keywords, rfl, hmethod, hbase⟩
    rw [isSlowCall, Bool.and_eq_true, contains_iff_mem, isFrameExpr_iff]
    exact ⟨hmethod, hbase⟩

theorem mem_waysTo_isSlowCall : way ∈ n.waysTo (isSlowCall frames) ↔ SlowCallAt frames n way := by
  simp [Node.mem_waysTo, isSlowCall_iff, SlowCallAt]

/-- The expression that `loop` goes over is a part of it. -/
theorem IteratesSlowly.slowCallAt (h : IteratesSlowly frames loop) :
    SlowCallAt frames loop [1] := by
  obtain ⟨s, isAsync, target, iter, body, orElse, rfl, hiter⟩ := h
  exact ⟨iter, rfl, hiter⟩

theorem slowLoop?_of_not_iteratesSlowly (h : ¬IteratesSlowly frames loop) :
    slowLoop? frames loop = (loop.walk.find? (isSlowCall frames)).map fun call =>
      ⟨call.line, "Inefficient operation detected inside the loop. " ++
        "Consider using vectorized operations instead."⟩ := by
  refine if_neg ?_
  split
  · rw [isSlowCall_iff]
    exact fun hiter => h ⟨_, _, _, _, _, _, rfl, hiter⟩
  · exact Bool.false_ne_true

theorem isLoopReport_of_slowLoop? {f : Finding} (h : slowLoop? frames loop = some f) :
    IsLoopReport frames loop f := by
  by_cases hiterates : IteratesSlowly frames loop
  · refine .inl ⟨hiterates, ?_⟩
    obtain ⟨s, isAsync, target, iter, body, orElse, rfl, hiter⟩ := hiterates
    exact (Option.some.inj ((if_pos (isSlowCall_iff.2 hiter)).symm.trans h)).symm
  · refine .inr ⟨hiterates, ?_⟩
    rw [slowLoop?_of_not_iteratesSlowly hiterates] at h
    obtain ⟨call, hcall, rfl⟩ := Option.map_eq_some_iff.1 h
    obtain ⟨way, hway, hfirst⟩ := Node.exists_of_find?_walk hcall
    have hslow := isSlowCall_iff.1 (find?_some hcall)
    refine ⟨way, ⟨call, hway, hslow⟩, fun other hother => ?_, ?_⟩
    · exact hfirst other (mem_waysTo_isSlowCall.2 hother)
    · rw [Node.lineAt_of_at? hway]

theorem isSome_slowLoop?_iff :
    (slowLoop? frames loop).isSome = true ↔ ∃ way, SlowCallAt frames loop way := by
  by_cases hiterates : IteratesSlowly frames loop
  · refine iff_of_true ?_ ⟨_, hiterates.slowCallAt⟩
    obtain ⟨s, isAsync, target, iter, body, orElse, rfl, hiter⟩ := hiterates
    rw [slowLoop?, if_pos (isSlowCall_iff.2 hiter)]
    rfl
  · rw [slowLoop?_of_not_iteratesSlowly hiterates, Option.isSome_map, find?_isSome]
    simp only [Node.mem_walk, isSlowCall_iff, ← exists_and_right]
    exact exists_comm

/-- `unnecessaryIteration` reports every loop with a slow call somewhere in it once, in the order of
the walk: on the line of the loop if it goes over the result of such a call, and otherwise on the
line of the first such call in the walk through the loop. -/
theorem detect_unnecessaryIteration {pandas : String}
    (hlibraries : facts.libraries = some libraries)
    (hname : libraries.nameOf? "pandas" = some pandas)
    (hframes : facts.frameVariables = .value frames) :
    ∃ (loops : List (List Nat)) (findings : List Finding),
      unnecessaryIteration.detect n facts = .ok findings ∧
      loops.Pairwise (Shortlex (· < ·)) ∧
      (∀ way, way ∈ loops ↔ ∃ loop, n.at? way = some loop ∧ loop.isLoop = true ∧
        ∃ below, SlowCallAt frames loop below) ∧
      findings.length = loops.length ∧
      Forall₂ (fun way f => ∃ loop, n.at? way = some loop ∧ IsLoopReport frames loop f)
        loops findings := by
  let report? (m : Node) : Option Finding := if m.isLoop then slowLoop? frames m else none
  have hreports := n.forall₂_waysTo report?
  refine ⟨n.waysTo fun m => (report? m).isSome, n.walk.filterMap report?, ?_, n.pairwise_waysTo _,
    ?_, hreports.length_eq.symm, hreports.imp ?_⟩
  · refine (whenImported_eq hlibraries hname _).trans ?_
    rw [hframes]
    exact congrArg Except.ok filterMap_filter
  · intro way
    rw [Node.mem_waysTo]
    refine exists_congr fun loop => and_congr_right fun _ => ?_
    rw [← isSome_slowLoop?_iff]
    cases hloop : loop.isLoop <;> simp [report?, hloop]
  · rintro way f ⟨loop, hway, hf⟩
    simp only [report?, Option.ite_none_right_eq_some] at hf
    exact ⟨loop, hway, isLoopReport_of_slowLoop? hf.2⟩

/-- A loop over a slow call, with another loop and a slow call in it. -/
def nestedLoops : Node :=
  let s (line : Nat) : Span := ⟨⟨line, 0⟩, ⟨line, 0⟩⟩
  let call (line : Nat) (method : String) : Node :=
    .call (s line) (.attribute (s line) (.name (s line) "df") method) [] []
  .file [.forLoop (s 1) false (.name (s 1) "row") (call 1 "iterrows")
    [.whileLoop (s 2) (.name (s 2) "row") [.exprStmt (s 3) (call 3 "apply")] []] []]

theorem detect_unnecessaryIteration_nestedLoops :
    ∃ (loops : List (List Nat)) (findings : List Finding),
      (∀ way, way ∈ loops ↔ ∃ loop, nestedLoops.at? way = some loop ∧ loop.isLoop = true ∧
        ∃ below, SlowCallAt ["df"] loop below) ∧
      Forall₂ (fun way f => ∃ loop, nestedLoops.at? way = some loop ∧
        IsLoopReport ["df"] loop f) loops findings ∧
      findings.map Finding.line = [1, 3] := by
  let facts : Facts := { libraries := some ⟨[("pandas", "pd")]⟩, frameVariables := .value ["df"] }
  have hlibraries : facts.libraries = some ⟨[("pandas", "pd")]⟩ := rfl
  obtain ⟨loops, findings, hdetect, -, hloops, -, hreports⟩ :=
    detect_unnecessaryIteration (n := nestedLoops) hlibraries rfl rfl
  have hlines : (unnecessaryIteration.detect nestedLoops facts).toOption.map
      (map Finding.line) = some [1, 3] := by decide +kernel
  rw [hdetect] at hlines
  exact ⟨loops, findings, hloops, hreports, Option.some.inj hlines⟩

/-! ## Chains of indices -/

/-- The variable `var` with a number of indices behind it. -/
inductive IsChain (var : String) : Nat → Node → Prop
  | var (s : Span) : IsChain var 0 (.name s var)
  | index {k : Nat} {value : Node} (s : Span) (i : Node) (h : IsChain var k value) :
      IsChain var (k + 1) (.subscript s value i)

/-- No further index follows on what is at `way`. -/
def IsUnindexed (n : Node) (way : List Nat) : Prop :=
  ∀ above s value index, n.at? above = some (.subscript s value index) → way ≠ above ++ [0]

variable {var : String} {k : Nat}

theorem chainedVariable?_eq_some_iff : chainedVariable? m = some var ↔ IsChain var 2 m := by
  constructor
  · intro h
    unfold chainedVariable? at h
    split at h
    · cases h
      exact .index _ _ (.index _ _ (.var _))
    · cases h
  · rintro (_ | ⟨s, i, _ | ⟨s', i', ⟨s''⟩⟩⟩)
    rfl

theorem IsChain.unique {var' : String} {k' : Nat} (h : IsChain var k m) (h' : IsChain var' k' m) :
    k = k' ∧ var = var' := by
  induction h generalizing k' with
  | var s =>
    cases h'
    exact ⟨rfl, rfl⟩
  | index s i _ ih =>
    cases h' with
    | index _ _ h' =>
      obtain ⟨rfl, rfl⟩ := ih h'
      exact ⟨rfl, rfl⟩

/-- A part of a chain is found by leaving out the last `j` indices. -/
theorem IsChain.exists_at? {j : Nat} (h : IsChain var (k + j) m) :
    ∃ part, m.at? (replicate j 0) = some part ∧ IsChain var k part := by
  induction j generalizing m with
  | zero => exact ⟨m, rfl, h⟩
  | succ j ih =>
    cases h with
    | index s i h => exact ih h

/-- Every chain `m` is a part of a `whole` one that no further index follows on. -/
theorem exists_isUnindexed (hway : n.at? way = some m) (h : IsChain var k m) :
    ∃ above j whole, way = above ++ replicate j 0 ∧ n.at? above = some whole ∧
      IsChain var (k + j) whole ∧ IsUnindexed n above := by
  -- by induction on the way from its end: either nothing follows, or the node above is a chain
  induction way using reverseRecOn generalizing m k with
  | nil =>
    refine ⟨[], 0, m, rfl, hway, h, ?_⟩
    rintro above s value index - heq
    simp at heq
  | append_singleton v i ih =>
    by_cases hend : IsUnindexed n (v ++ [i])
    · exact ⟨v ++ [i], 0, m, by simp, hway, h, hend⟩
    · simp only [IsUnindexed, not_forall, not_not] at hend
      obtain ⟨above, s, value, index, habove, heq⟩ := hend
      obtain ⟨rfl, hi⟩ := append_inj' heq rfl
      obtain rfl : i = 0 := by simpa using hi
      rw [Node.at?_concat, habove] at hway
      obtain rfl : value = m := by simpa [Node.children] using hway
      obtain ⟨top, j, whole, rfl, htop, hwhole, hend⟩ := ih habove (.index s index h)
      refine ⟨top, j + 1, whole, ?_, htop, ?_, hend⟩
      · rw [replicate_succ', append_assoc]
      · rwa [add_assoc, add_comm 1 j] at hwhole

/-- A chain that no index follows on is not a part of a longer one. -/
theorem not_isUnindexed {j : Nat} (hway : n.at? way = some m) (h : IsChain var (k + (j + 1)) m) :
    ¬IsUnindexed n (way ++ replicate (j + 1) 0) := by
  intro hend
  rw [← add_assoc, add_right_comm] at h
  obtain ⟨part, hpart, hchain⟩ := h.exists_at?
  cases hchain with
  | @index _ value s i _ =>
    refine hend (way ++ replicate j 0) s value i ?_ ?_
    · rw [Node.at?_append, hway]
      exact hpart
    · rw [replicate_succ', append_assoc]

/-- The second index of a chain tells which chain it is. -/
theorem unique_of_append_replicate {way' : List Nat} {m' : Node} {var' : String} {j j' : Nat}
    (hway : n.at? way = some m) (h : IsChain var (k + j) m) (hend : IsUnindexed n way)
    (hway' : n.at? way' = some m') (h' : IsChain var' (k + j') m') (hend' : IsUnindexed n way')
    (heq : way ++ replicate j 0 = way' ++ replicate j' 0) : way = way' ∧ j = j' := by
  have hlonger {way way' : List Nat} {m : Node} {var : String} {j j' : Nat}
      (hway : n.at? way = some m) (h : IsChain var (k + j) m) (hend' : IsUnindexed n way')
      (heq : way ++ replicate j 0 = way' ++ replicate j' 0) : j ≤ j' := by
    by_contra hlt
    obtain ⟨i, rfl⟩ : ∃ i, j = i + 1 + j' := ⟨j - j' - 1, by omega⟩
    rw [← replicate_append_replicate, ← append_assoc] at heq
    rw [← append_cancel_right heq] at hend'
    have hlong : IsChain var (k + j' + (i + 1)) m := by rwa [add_assoc, add_comm j']
    exact not_isUnindexed hway hlong hend'
  obtain rfl : j = j' := le_antisymm (hlonger hway h hend' heq) (hlonger hway' h' hend heq.symm)
  exact ⟨append_cancel_right heq, rfl⟩

/-- The second indices of chains on the variables `frames`, each with the variable. -/
def secondIndices (frames : List String) (n : Node) : List (List Nat × String) :=
  remarks n fun _ m => (chainedVariable? m).filter frames.contains

theorem mem_secondIndices : (way, var) ∈ secondIndices frames n ↔
    ∃ m, n.at? way = some m ∧ IsChain var 2 m ∧ var ∈ frames := by
  simp [secondIndices, mem_remarks, chainedVariable?_eq_some_iff]

theorem nodup_secondIndices (frames : List String) (n : Node) : (secondIndices frames n).Nodup := by
  refine Nodup.of_map Prod.fst ((pairwise_remarks n _).imp fun hlt => ?_)
  rintro rfl
  exact Std.Asymm.asymm _ _ hlt hlt

theorem detect_eq_secondIndices {pandas : String} (hlibraries : facts.libraries = some libraries)
    (hname : libraries.nameOf? "pandas" = some pandas)
    (hframes : facts.frameVariables = .value frames) :
    chainIndexing.detect n facts = .ok ((secondIndices frames n).map fun r =>
      ⟨n.lineAt r.1, s!"Chained indexing detected invariable '{r.2}'."⟩) := by
  have hfound := filterMap_walk n (fun m => (chainedVariable? m).filter frames.contains)
    fun line id => (⟨line, s!"Chained indexing detected invariable '{id}'."⟩ : Finding)
  refine (whenImported_eq hlibraries hname _).trans ?_
  rw [hframes]
  refine (findAll_eq (fun m => ?_) n.walk).trans (congrArg Except.ok hfound)
  cases chainedVariable? m with
  | none => rfl
  | some id =>
    simp only [isFrame_eq hframes, Option.filter_some]
    cases frames.contains id <;> rfl

/-- `chainIndexing` reports every chain of at least two indices on a data-frame variable once: a
chain is what no further index follows on, and the line is that of its second index. -/
theorem detect_chainIndexing {pandas : String} (hlibraries : facts.libraries = some libraries)
    (hname : libraries.nameOf? "pandas" = some pandas)
    (hframes : facts.frameVariables = .value frames) :
    ∃ chains : List (List Nat × Nat × String),
      (chains.map Prod.fst).Nodup ∧
      (∀ way k var, (way, k, var) ∈ chains ↔ 2 ≤ k ∧ var ∈ frames ∧
        (∃ m, n.at? way = some m ∧ IsChain var k m) ∧ IsUnindexed n way) ∧
      chainIndexing.detect n facts = .ok (chains.map fun c =>
        ⟨n.lineAt (c.1 ++ replicate (c.2.1 - 2) 0),
          s!"Chained indexing detected invariable '{c.2.2}'."⟩) := by
  have htop (r : List Nat × String) (hr : r ∈ secondIndices frames n) : ∃ top : List Nat × Nat,
      r.1 = top.1 ++ replicate top.2 0 ∧ IsUnindexed n top.1 ∧
        ∃ whole, n.at? top.1 = some whole ∧ IsChain r.2 (2 + top.2) whole := by
    obtain ⟨m, hm, hchain, -⟩ := mem_secondIndices.1 hr
    obtain ⟨above, j, whole, heq, habove, hwhole, hend⟩ := exists_isUnindexed hm hchain
    exact ⟨(above, j), heq, hend, whole, habove, hwhole⟩
  choose! top heq hend hwhole using htop
  refine ⟨(secondIndices frames n).map fun r => ((top r).1, 2 + (top r).2, r.2), ?_, ?_, ?_⟩
  · rw [map_map]
    refine Nodup.map_on (fun r hr r' hr' hsame => ?_) (nodup_secondIndices frames n)
    -- one place is the start of one chain, which has one second index
    obtain ⟨whole, hat, hchain⟩ := hwhole r hr
    obtain ⟨whole', hat', hchain'⟩ := hwhole r' hr'
    have hsame : (top r).1 = (top r').1 := hsame
    rw [hsame, hat'] at hat
    obtain rfl := Option.some.inj hat
    obtain ⟨hlength, hvar⟩ := hchain.unique hchain'
    refine Prod.ext ?_ hvar
    rw [heq r hr, heq r' hr', hsame, Nat.add_left_cancel hlength]
  · intro way k var
    simp only [mem_map, Prod.mk.injEq]
    constructor
    · rintro ⟨r, hr, rfl, rfl, rfl⟩
      obtain ⟨-, -, -, hvar⟩ := mem_secondIndices.1 hr
      exact ⟨Nat.le_add_right 2 _, hvar, hwhole r hr, hend r hr⟩
    · rintro ⟨hk, hvar, ⟨m, hm, hchain⟩, hunindexed⟩
      obtain ⟨j, rfl⟩ := Nat.exists_eq_add_of_le hk
      obtain ⟨part, hpart, hsecond⟩ := hchain.exists_at?
      have hr : (way ++ replicate j 0, var) ∈ secondIndices frames n := by
        refine mem_secondIndices.2 ⟨part, ?_, hsecond, hvar⟩
        rw [Node.at?_append, hm]
        exact hpart
      obtain ⟨whole, hat, hwhole⟩ := hwhole _ hr
      obtain ⟨hway, hj⟩ := unique_of_append_replicate hat hwhole (hend _ hr) hm hchain hunindexed
        (heq _ hr).symm
      exact ⟨_, hr, hway, congrArg (2 + ·) hj, rfl⟩
  · rw [detect_eq_secondIndices hlibraries hname hframes, map_map]
    refine congrArg Except.ok (map_congr_left fun r hr => ?_)
    simp only [Function.comp_apply, Nat.add_sub_cancel_left, ← heq r hr]

/-- A chain of three indices, with a chain of two in the last index, and a single index. -/
def chainedIndices : Node :=
  let s (line : Nat) : Span := ⟨⟨line, 0⟩, ⟨line, 0⟩⟩
  let name (line : Nat) (id : String) : Node := .name (s line) id
  let index (line : Nat) (value i : Node) : Node := .subscript (s line) value i
  .file [.exprStmt (s 1) (index 1 (index 1 (index 1 (name 1 "df") (name 1 "a")) (name 1 "b"))
      (index 2 (index 2 (name 2 "df") (name 2 "a")) (name 2 "b"))),
    .exprStmt (s 3) (index 3 (name 3 "df") (name 3 "a"))]

theorem detect_chainIndexing_chainedIndices :
    ∃ chains : List (List Nat × Nat × String),
      (∀ way k var, (way, k, var) ∈ chains ↔ 2 ≤ k ∧ var ∈ ["df"] ∧
        (∃ m, chainedIndices.at? way = some m ∧ IsChain var k m) ∧
          IsUnindexed chainedIndices way) ∧
      chains.map (fun c => chainedIndices.lineAt (c.1 ++ replicate (c.2.1 - 2) 0)) =
        [1, 2] := by
  let facts : Facts := { libraries := some ⟨[("pandas", "pd")]⟩, frameVariables := .value ["df"] }
  have hlibraries : facts.libraries = some ⟨[("pandas", "pd")]⟩ := rfl
  obtain ⟨chains, -, hchains, hdetect⟩ :=
    detect_chainIndexing (n := chainedIndices) hlibraries rfl rfl
  have hlines : (chainIndexing.detect chainedIndices facts).toOption.map (map Finding.line)
      = some [1, 2] := by decide +kernel
  rw [hdetect] at hlines
  exact ⟨chains, hchains, by simpa [Except.toOption, Function.comp_def] using hlines⟩

end SmellLint.Smell
