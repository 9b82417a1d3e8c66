import SmellLint.Proofs.Lists
import SmellLint.Proofs.Occurrences
import SmellLint.Smell.Tensor
import SmellLint.Smell.Model

/-!
# Rules that look at comparisons and at loops

A rule looks at the nodes of a tree in the order of the walk, so what it reports is told by the ways
to the nodes: `detect_nanComparison` for comparisons, and `detect_gradients` for calls in loops.

The walk goes by levels.  A loop counts as cleared from the first call of `zero_grad` in the walk
on, which is the first one from left to right only among calls of one depth.
-/

namespace SmellLint.Smell

open Syntax (Node Span Comparison)
open List

/-! ## Comparisons with NaN -/

/-- The member `nan` of the library, or the bare name. -/
def IsNaN (numpy : String) (m : Node) : Prop :=
  (∃ s s', m = .attribute s (.name s' numpy) "nan") ∨ ∃ s, m = .name s "nan"

/-- `operand` is one of the operands of the comparison `m`. -/
def IsOperand (operand m : Node) : Prop :=
  ∃ s left ops comparators, m = .compare s left ops comparators ∧ operand ∈ left :: comparators

/-- `left` and `right` are successive operands of the comparison `m`, and `op` is between them. -/
def Joins (left : Node) (op : Comparison) (right m : Node) : Prop :=
  ∃ s first ops comparators, ∃ i : Nat, m = .compare s first ops comparators ∧
    (first :: comparators)[i]? = some left ∧ ops[i]? = some op ∧ comparators[i]? = some right

/-- `m` asks whether something is equal to NaN, or is not. -/
def EquatesNaN (numpy : String) (m : Node) : Prop :=
  ∃ left op right, Joins left op right m ∧ (op = .eq ∨ op = .notEq) ∧
    (IsNaN numpy left ∨ IsNaN numpy right)

variable {n m : Node} {facts : Facts} {libraries : LibraryMap} {numpy : String}

theorem isNaN_iff : isNaN numpy m = true ↔ IsNaN numpy m := by
  constructor
  · intro h
    unfold isNaN at h
    split at h
    · simp only [Bool.and_eq_true, beq_iff_eq] at h
      obtain ⟨rfl, rfl⟩ := h
      exact .inl ⟨_, _, rfl⟩
    · obtain rfl := beq_iff_eq.1 h
      exact .inr ⟨_, rfl⟩
    · cases h
  · rintro (⟨s, s', rfl⟩ | ⟨s, rfl⟩) <;> simp [isNaN]

theorem comparesNaN_iff :
    comparesNaN numpy m = true ↔ ∃ operand, IsOperand operand m ∧ IsNaN numpy operand := by
  constructor
  · intro h
    unfold comparesNaN at h
    split at h
    · rw [← any_cons, any_eq_true] at h
      obtain ⟨operand, hoperand, hnan⟩ := h
      exact ⟨operand, ⟨_, _, _, _, rfl, hoperand⟩, isNaN_iff.1 hnan⟩
    · cases h
  · rintro ⟨operand, ⟨s, left, ops, comparators, rfl, hoperand⟩, hnan⟩
    rw [comparesNaN, ← any_cons, any_eq_true]
    exact ⟨operand, hoperand, isNaN_iff.2 hnan⟩

theorem Joins.exists_operand {left right : Node} {op : Comparison}
    (h : Joins left op right m) (hnan : IsNaN numpy left ∨ IsNaN numpy right) :
    ∃ operand, IsOperand operand m ∧ IsNaN numpy operand := by
  obtain ⟨s, first, ops, comparators, i, rfl, hleft, -, hright⟩ := h
  rcases hnan with hnan | hnan
  · exact ⟨left, ⟨s, first, ops, comparators, rfl, mem_of_getElem? hleft⟩, hnan⟩
  · exact ⟨right, ⟨s, first, ops, comparators, rfl, .tail _ (mem_of_getElem? hright)⟩, hnan⟩

/-- With an operator in front of each operand but the `first`, every `operand` stands in a pair. -/
theorem exists_joins {s : Span} {first operand : Node} {ops : List Comparison}
    {comparators : List Node} (hlength : ops.length = comparators.length)
    (hpairs : comparators ≠ []) (h : operand ∈ first :: comparators) :
    ∃ left op right, Joins left op right (.compare s first ops comparators) ∧
      (operand = left ∨ operand = right) := by
  -- the first operand is on the left of the first pair, and any other one on the right of its own
  rcases mem_cons.1 h with rfl | h
  · have hpos := length_pos_iff.2 hpairs
    exact ⟨operand, ops[0], comparators[0], ⟨s, _, _, _, 0, rfl, by simp⟩, .inl rfl⟩
  · obtain ⟨i, hi, rfl⟩ := getElem_of_mem h
    have hi' : i < (first :: comparators).length := Nat.lt_succ_of_lt hi
    exact ⟨(first :: comparators)[i], ops[i], comparators[i],
      ⟨s, _, _, _, i, rfl, by simp⟩, .inr rfl⟩

theorem exists_operand_iff {s : Span} {first : Node} {ops : List Comparison}
    {comparators : List Node} (hlength : ops.length = comparators.length)
    (hpairs : comparators ≠ []) :
    (∃ operand, IsOperand operand (.compare s first ops comparators) ∧ IsNaN numpy operand) ↔
      ∃ left op right, Joins left op right (.compare s first ops comparators) ∧
        (IsNaN numpy left ∨ IsNaN numpy right) := by
  constructor
  · rintro ⟨operand, ⟨_, _, _, _, heq, hoperand⟩, hnan⟩
    cases heq
    obtain ⟨left, op, right, hjoins, rfl | rfl⟩ := exists_joins (s := s) hlength hpairs hoperand
    · exact ⟨_, op, right, hjoins, .inl hnan⟩
    · exact ⟨left, op, _, hjoins, .inr hnan⟩
  · rintro ⟨left, op, right, hjoins, hnan⟩
    exact hjoins.exists_operand hnan

/-- `nanComparison` reports, once each and in the order of the walk, the comparisons with an operand
that is NaN, whatever the operators are: all those that ask for equality, and besides them those
that have NaN next to other operators only. -/
theorem detect_nanComparison {numpy : String} (hlibraries : facts.libraries = some libraries)
    (hname : libraries.nameOf? "numpy" = some numpy) :
    ∃ ways : List (List Nat), ways.Pairwise (Shortlex (· < ·)) ∧
      (∀ way, way ∈ ways ↔
        ∃ m operand, n.at? way = some m ∧ IsOperand operand m ∧ IsNaN numpy operand) ∧
      (∀ way s first ops comparators, n.at? way = some (.compare s first ops comparators) →
        ops.length = comparators.length → comparators ≠ [] →
          (way ∈ ways ↔ ∃ left op right, Joins left op right (.compare s first ops comparators) ∧
            (IsNaN numpy left ∨ IsNaN numpy right))) ∧
      (∀ way m, n.at? way = some m → EquatesNaN numpy m → way ∈ ways) ∧
      ((∀ way ∈ ways, ∀ m, n.at? way = some m → EquatesNaN numpy m) ↔
        ∀ way m operand, n.at? way = some m → IsOperand operand m → IsNaN numpy operand →
          EquatesNaN numpy m) ∧
      nanComparison.detect n facts = .ok (ways.map fun way => ⟨n.lineAt way,
        "Direct equivalence comparison with NaN detected. Use np.isnan() instead."⟩) := by
  refine ⟨n.waysTo (comparesNaN numpy), n.pairwise_waysTo _, ?_, ?_, ?_, ⟨?_, ?_⟩, ?_⟩
  · intro way
    simp [Node.mem_waysTo, comparesNaN_iff]
  · intro way s first ops comparators hm hlength hpairs
    rw [Node.mem_waysTo_of_at? hm, comparesNaN_iff, exists_operand_iff hlength hpairs]
  · rintro way m hm ⟨left, op, right, hjoins, -, hnan⟩
    rw [Node.mem_waysTo_of_at? hm, comparesNaN_iff]
    exact hjoins.exists_operand hnan
  · intro hall way m operand hm hoperand hnan
    have hway := (Node.mem_waysTo_of_at? hm).2 (comparesNaN_iff.2 ⟨operand, hoperand, hnan⟩)
    exact hall way hway m hm
  · intro hall way hway m hm
    obtain ⟨operand, hoperand, hnan⟩ := comparesNaN_iff.1 ((Node.mem_waysTo_of_at? hm).1 hway)
    exact hall way m operand hm hoperand hnan
  · refine (whenImported_eq hlibraries hname _).trans (congrArg Except.ok ?_)
    exact n.map_line_filter_walk _ (Finding.mk · _)

/-- A program that compares with NaN by equality, and by identity on the second line. -/
def nanComparisons : Node :=
  let s (line : Nat) : Span := ⟨⟨line, 0⟩, ⟨line, 0⟩⟩
  let compare (line : Nat) (op : Comparison) : Node :=
    .exprStmt (s line) (.compare (s line) (.name (s line) "x") [op]
      [.attribute (s line) (.name (s line) "np") "nan"])
  .file [compare 1 .eq, compare 2 .is, .exprStmt (s 3) (.name (s 3) "nan")]

theorem detect_nanComparison_nanComparisons :
    ∃ ways : List (List Nat), (∀ way, way ∈ ways ↔ ∃ m operand,
        nanComparisons.at? way = some m ∧ IsOperand operand m ∧ IsNaN "np" operand) ∧
      ways.map nanComparisons.lineAt = [1, 2] := by
  let facts : Facts := { libraries := some ⟨[("numpy", "np")]⟩ }
  have hlibraries : facts.libraries = some ⟨[("numpy", "np")]⟩ := rfl
  obtain ⟨ways, -, hways, -, -, -, hdetect⟩ :=
    detect_nanComparison (n := nanComparisons) hlibraries rfl
  have hlines : (nanComparison.detect nanComparisons facts).toOption.map (map Finding.line)
      = some [1, 2] := by decide +kernel
  rw [hdetect] at hlines
  exact ⟨ways, hways, by simpa [Except.toOption, Function.comp_def] using hlines⟩

/-! ## Gradients in loops -/

/-- The node at `way` calls `method` on one of the variables `names`. -/
def CallsAt (names : List String) (method : String) (n : Node) (way : List Nat) : Prop :=
  ∃ s s' s'' args keywords, ∃ id ∈ names,
    n.at? way = some (.call s (.attribute s' (.name s'' id) method) args keywords)

/-- Whether `m` calls `method` on one of the variables `names`. -/
def callsOn (names : List String) (method : String) (m : Node) : Bool :=
  (variableCall? m).any fun call => call.2 == method && names.contains call.1

variable {names : List String} {method : String} {loop : Node} {way : List Nat}

theorem callsAt_iff :
    CallsAt names method n way ↔ ∃ m, n.at? way = some m ∧ callsOn names method m = true := by
  constructor
  · rintro ⟨s, s', s'', args, keywords, id, hid, hm⟩
    exact ⟨_, hm, by simp [callsOn, variableCall?, hid]⟩
  · rintro ⟨m, hm, hcall⟩
    unfold callsOn variableCall? at hcall
    split at hcall
    · simp only [Option.any_some, Bool.and_eq_true, beq_iff_eq, contains_iff_mem] at hcall
      obtain ⟨rfl, hid⟩ := hcall
      exact ⟨_, _, _, _, _, _, hid, hm⟩
    · cases hcall

/-- One node of the walk. -/
theorem unclearedLines_cons (cleared : Bool) (m : Node) (nodes : List Node) :
    unclearedLines names cleared (m :: nodes) =
      (if callsOn names "backward" m && !(cleared || callsOn names "zero_grad" m) then [m.line]
        else []) ++ unclearedLines names (cleared || callsOn names "zero_grad" m) nodes := by
  rw [unclearedLines, callsOn, callsOn]
  cases variableCall? m with
  | none => simp
  | some call =>
    simp only [Option.any_some]
    split <;> rfl

theorem unclearedLines_true (nodes : List Node) : unclearedLines names true nodes = [] := by
  induction nodes with
  | nil => rfl
  | cons m nodes ih => simp [unclearedLines_cons, ih]

/-- What the walk meets from the first call of `zero_grad` on is not reported. -/
theorem unclearedLines_false (nodes : List Node) : unclearedLines names false nodes =
      ((nodes.takeWhile fun m => !callsOn names "zero_grad" m).filter
        (callsOn names "backward")).map Node.line := by
  induction nodes with
  | nil => rfl
  | cons m nodes ih =>
    rw [unclearedLines_cons]
    cases hcleared : callsOn names "zero_grad" m with
    | true => simp [hcleared, unclearedLines_true]
    | false => cases hback : callsOn names "backward" m <;> simp [hcleared, hback, ih]

/-- The ways to the calls of `backward` in a loop that are reported, in the order of the walk. -/
def unclearedWays (names : List String) (loop : Node) : List (List Nat) :=
  ((loop.walkWays.takeWhile fun p => !callsOn names "zero_grad" p.2).filter fun p =>
    callsOn names "backward" p.2).map Prod.fst

theorem mem_unclearedWays : way ∈ unclearedWays names loop ↔ CallsAt names "backward" loop way ∧
    ∀ other, CallsAt names "zero_grad" loop other → Shortlex (· < ·) way other := by
  have hasymm (p q : List Nat × Node) (hpq : Shortlex (· < ·) p.1 q.1) :
      ¬Shortlex (· < ·) q.1 p.1 := Std.Asymm.asymm _ _ hpq
  have hfirst {p : List Nat × Node} := mem_takeWhile_iff hasymm
    (p := fun p => !callsOn names "zero_grad" p.2) loop.pairwise_walkWays (a := p)
  constructor
  · intro hway
    obtain ⟨p, hp, rfl⟩ := mem_map.1 hway
    obtain ⟨hp, hback⟩ := mem_filter.1 hp
    obtain ⟨hp, hall⟩ := hfirst.1 hp
    refine ⟨callsAt_iff.2 ⟨p.2, Node.mem_walkWays.1 hp, hback⟩, fun other hother => ?_⟩
    obtain ⟨m, hm, hcleared⟩ := callsAt_iff.1 hother
    exact hall (other, m) (Node.mem_walkWays.2 hm) (by simp [hcleared])
  · rintro ⟨hback, hall⟩
    obtain ⟨m, hm, hback⟩ := callsAt_iff.1 hback
    refine mem_map.2 ⟨(way, m), mem_filter.2 ⟨hfirst.2 ⟨?_, ?_⟩, hback⟩, rfl⟩
    · exact Node.mem_walkWays.2 hm
    · intro q hq hcleared
      exact hall q.1 (callsAt_iff.2 ⟨q.2, Node.mem_walkWays.1 hq, by simpa using hcleared⟩)

theorem pairwise_unclearedWays (names : List String) (loop : Node) :
    (unclearedWays names loop).Pairwise (Shortlex (· < ·)) :=
  pairwise_map.2 ((loop.pairwise_walkWays.sublist (takeWhile_sublist _)).filter _)

theorem unclearedLines_walk (names : List String) (loop : Node) :
    unclearedLines names false loop.walk = (unclearedWays names loop).map loop.lineAt := by
  rw [unclearedLines_false, ← Node.map_snd_walkWays, takeWhile_map, filter_map,
    map_map, unclearedWays, map_map]
  refine map_congr_left fun p hp => ?_
  have hp := mem_of_mem_filter hp
  have hat := Node.mem_walkWays.1 ((takeWhile_sublist _).mem hp)
  exact (Node.lineAt_of_at? hat).symm

/-- No node calls two methods. -/
theorem CallsAt.ne {other : List Nat} (h : CallsAt names "backward" loop way)
    (hother : CallsAt names "zero_grad" loop other) : way ≠ other := by
  rintro rfl
  obtain ⟨_, _, _, _, _, _, -, h⟩ := h
  obtain ⟨_, _, _, _, _, _, -, h'⟩ := hother
  rw [h] at h'
  simp at h'

/-- Where calls further left are not deeper and those further right not shallower, the order of the
walk is that from left to right. -/
theorem mem_unclearedWays_of_depths (h : CallsAt names "backward" loop way)
    (hearlier : ∀ other, CallsAt names "zero_grad" loop other → Lex (· < ·) other way →
      other.length ≤ way.length)
    (hlater : ∀ other, CallsAt names "zero_grad" loop other → Lex (· < ·) way other →
      way.length ≤ other.length) :
    way ∈ unclearedWays names loop ↔
      ¬∃ other, CallsAt names "zero_grad" loop other ∧ Lex (· < ·) other way := by
  rw [mem_unclearedWays]
  constructor
  · rintro ⟨-, hall⟩ ⟨other, hother, hlt⟩
    rcases shortlex_def.1 (hall other hother) with hlength | ⟨-, hgt⟩
    · exact absurd (hearlier other hother hlt) (not_le.2 hlength)
    · exact Std.Asymm.asymm _ _ hlt hgt
  · intro hnone
    refine ⟨h, fun other hother => ?_⟩
    have hlt : Lex (· < ·) way other := by
      by_contra hlt
      have hgt (hgt : Lex (· < ·) other way) : False := hnone ⟨other, hother, hgt⟩
      exact h.ne hother (Std.Trichotomous.trichotomous _ _ hlt hgt)
    rcases (hlater other hother hlt).lt_or_eq with hlength | hlength
    · exact .of_length_lt hlength
    · exact .of_lex hlength hlt

/-- The ways to the loops of `n` with the ways, in each, to the calls of `backward` that are
reported. -/
def unclearedReports (names : List String) (n : Node) : List (List Nat × List Nat) :=
  (n.walkWays.filter fun p => p.2.isLoop).flatMap fun p =>
    (unclearedWays names p.2).map fun way => (p.1, way)

theorem mem_unclearedReports {above : List Nat} : (above, way) ∈ unclearedReports names n ↔
    ∃ loop, n.at? above = some loop ∧ loop.isLoop = true ∧ way ∈ unclearedWays names loop := by
  simp [unclearedReports, Node.mem_walkWays, and_assoc]

theorem pairwise_unclearedReports (names : List String) (n : Node) :
    (unclearedReports names n).Pairwise (Prod.Lex (Shortlex (· < ·)) (Shortlex (· < ·))) := by
  refine pairwise_flatMap.2 ⟨fun p _ => ?_, ?_⟩
  · refine pairwise_map.2 ((pairwise_unclearedWays names p.2).imp fun h => ?_)
    exact .right _ h
  · refine (n.pairwise_walkWays.filter _).imp fun h r hr r' hr' => ?_
    obtain ⟨_, -, rfl⟩ := mem_map.1 hr
    obtain ⟨_, -, rfl⟩ := mem_map.1 hr'
    exact .left _ _ h

/-- `gradients` reports, on behalf of each loop, the calls of `backward` that come before all calls
of `zero_grad` in the order of the walk through the loop: those are deeper, or as deep and further
right.  These are the calls with no `zero_grad` before them from left to right, where no call of
`zero_grad` further left is deeper and none further right is shallower. -/
theorem detect_gradients {torch : String} (hlibraries : facts.libraries = some libraries)
    (hname : libraries.nameOf? "torch" = some torch) (hnames : facts.names = some names) :
    ∃ reports : List (List Nat × List Nat),
      reports.Pairwise (Prod.Lex (Shortlex (· < ·)) (Shortlex (· < ·))) ∧
      (∀ above way, (above, way) ∈ reports ↔
        ∃ loop, n.at? above = some loop ∧ loop.isLoop = true ∧ CallsAt names "backward" loop way ∧
          ∀ other, CallsAt names "zero_grad" loop other →
            way.length < other.length ∨ way.length = other.length ∧ Lex (· < ·) way other) ∧
      (∀ above loop way, n.at? above = some loop → loop.isLoop = true →
        CallsAt names "backward" loop way →
        (∀ other, CallsAt names "zero_grad" loop other → Lex (· < ·) other way →
          other.length ≤ way.length) →
        (∀ other, CallsAt names "zero_grad" loop other → Lex (· < ·) way other →
          way.length ≤ other.length) →
        ((above, way) ∈ reports ↔
          ¬∃ other, CallsAt names "zero_grad" loop other ∧ Lex (· < ·) other way)) ∧
      gradients.detect n facts = .ok (reports.map fun r => ⟨n.lineAt (r.1 ++ r.2),
        s!"`zero_grad()` not called before `backward()` in loop. " ++
          s!"Code: {facts.lineText (n.lineAt (r.1 ++ r.2))}"⟩) := by
  refine ⟨unclearedReports names n, pairwise_unclearedReports names n, ?_, ?_, ?_⟩
  · intro above way
    simp only [mem_unclearedReports, mem_unclearedWays, shortlex_def]
  · intro above loop way hloop hisLoop hback hearlier hlater
    rw [← mem_unclearedWays_of_depths hback hearlier hlater, mem_unclearedReports]
    simp [hloop, hisLoop]
  · have hvariables : facts.requireVariables = .ok names := by
      rw [Facts.requireVariables, hnames]
    refine (whenImported_eq hlibraries hname _).trans ?_
    rw [hvariables]
    refine congrArg Except.ok ?_
    rw [← Node.map_snd_walkWays, filter_map, flatMap_map, unclearedReports,
      map_flatMap]
    refine flatMap_congr fun p hp => ?_
    have hat := Node.mem_walkWays.1 (mem_filter.1 hp).1
    simp only [unclearedLines_walk, map_map, Function.comp_def, Node.lineAt_append hat]

/-- A loop that clears gradients in a block on the third line, and propagates them on the next. -/
def clearedInBlock : Node :=
  let s (line : Nat) : Span := ⟨⟨line, 0⟩, ⟨line, 0⟩⟩
  let call (line : Nat) (id method : String) : Node :=
    .exprStmt (s line) (.call (s line) (.attribute (s line) (.name (s line) id) method) [] [])
  .file [.forLoop (s 1) false (.name (s 1) "x") (.name (s 1) "xs")
    [.withStmt (s 2) false [.withItem (.name (s 2) "c") none] [call 3 "opt" "zero_grad"],
      call 4 "loss" "backward"] []]

theorem detect_gradients_clearedInBlock :
    ∃ reports : List (List Nat × List Nat), (∀ above way, (above, way) ∈ reports ↔
        ∃ loop, clearedInBlock.at? above = some loop ∧ loop.isLoop = true ∧
          CallsAt ["opt", "loss"] "backward" loop way ∧
          ∀ other, CallsAt ["opt", "loss"] "zero_grad" loop other →
            way.length < other.length ∨ way.length = other.length ∧ Lex (· < ·) way other) ∧
      reports.map (fun r => clearedInBlock.lineAt (r.1 ++ r.2)) = [4] := by
  let facts : Facts := { libraries := some ⟨[("torch", "torch")]⟩, names := some ["opt", "loss"] }
  have hlibraries : facts.libraries = some ⟨[("torch", "torch")]⟩ := rfl
  obtain ⟨reports, -, hreports, -, hdetect⟩ :=
    detect_gradients (n := clearedInBlock) hlibraries rfl rfl
  have hlines : (gradients.detect clearedInBlock facts).toOption.map (map Finding.line)
      = some [4] := by decide +kernel
  rw [hdetect] at hlines
  exact ⟨reports, hreports, by simpa [Except.toOption, Function.comp_def] using hlines⟩

end SmellLint.Smell
