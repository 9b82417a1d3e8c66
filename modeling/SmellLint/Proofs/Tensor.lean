import SmellLint.Proofs.FrameRules
import SmellLint.Proofs.Frames

/-!
# Tensors that grow in loops or are tiled

The rule about growing constants looks for a loop above an assignment by going from parent to
parent.  `detect_tensorArray` says what it reports without that search: the assignments at ways that
go through a loop, in the order of the walk.  An assignment is told by its way, so one that reads
the same outside of the loop is not reported.

The rule about tiling looks at both operands of an operation, and then shows the left one if it is a
variable.  `detect_broadcasting` says that the variable shown is an operand, and when it is a tiled
one.

The rule about memory looks for a call by its attributes, from the outside in, where other rules
join what they find to a dotted name.  `isNestedCall_iff` says that they mean the same calls.
-/

namespace SmellLint.Smell

open List

open Syntax (Node Span)
open Frames (Assigns)

/-- `value` calls `function` of `library` under its name, with `args`. -/
def IsCallOf (library function : String) (args : List Node) (value : Node) : Prop :=
  ∃ s s' s'' keywords, value = .call s (.attribute s' (.name s'' library) function) args keywords

/-- `var` is assigned a constant tensor somewhere in `n`. -/
def IsConstant (tensorflow : String) (n : Node) (var : String) : Prop :=
  ∃ m ∈ n.walk, ∃ value args, Assigns var value m ∧ IsCallOf tensorflow "constant" args value

/-- `arg` joins `var`: it is the variable itself, or a list with the variable or with a call of it.
-/
def JoinsVariable (var : String) (arg : Node) : Prop :=
  (∃ s, arg = .name s var) ∨ ∃ s items, arg = .list s items ∧ ∃ item ∈ items,
    (∃ s', item = .name s' var) ∨
      ∃ s' s'' args keywords, item = .call s' (.name s'' var) args keywords

/-- `m` is an assignment that joins a constant tensor of `n` with others. -/
def Grows (tensorflow : String) (n m : Node) : Prop :=
  ∃ s targets value args, m = .assign s targets value ∧ IsCallOf tensorflow "concat" args value ∧
    ∃ arg ∈ args, ∃ var, IsConstant tensorflow n var ∧ JoinsVariable var arg

variable {tensorflow : String} {n m : Node} {var : String}

theorem callsFunction_iff {library function : String} {value : Node} :
    callsFunction library function value = true ↔ ∃ args, IsCallOf library function args value := by
  constructor
  · intro h
    unfold callsFunction at h
    split at h
    · simp only [Bool.and_eq_true, beq_iff_eq] at h
      obtain ⟨rfl, rfl⟩ := h
      exact ⟨_, _, _, _, _, rfl⟩
    · cases h
  · rintro ⟨args, s, s', s'', keywords, rfl⟩
    simp [callsFunction]

theorem mem_constantTensors : var ∈ constantTensors tensorflow n ↔ IsConstant tensorflow n var := by
  rw [constantTensors, mem_flatMap]
  refine exists_congr fun m => and_congr_right fun _ => ?_
  constructor
  · intro h
    split at h
    · split_ifs at h with hvalue
      · obtain ⟨args, hvalue⟩ := callsFunction_iff.1 hvalue
        exact ⟨_, args, ⟨_, _, rfl, Frames.mem_names.1 h⟩, hvalue⟩
      · cases h
    · cases h
  · rintro ⟨value, args, ⟨s, targets, rfl, hvar⟩, hvalue⟩
    simp only [callsFunction_iff.2 ⟨args, hvalue⟩]
    exact Frames.mem_names.2 hvar

theorem listedTensor?_eq_some {item : Node} : listedTensor? item = some var ↔
    (∃ s, item = .name s var) ∨
      ∃ s s' args keywords, item = .call s (.name s' var) args keywords := by
  constructor
  · intro h
    unfold listedTensor? at h
    split at h
    · cases h
      exact .inl ⟨_, rfl⟩
    · cases h
      exact .inr ⟨_, _, _, _, rfl⟩
    · cases h
  · rintro (⟨s, rfl⟩ | ⟨s, s', args, keywords, rfl⟩) <;> rfl

theorem mem_joinedTensors {s : Span} {func : Node} {args keywords : List Node} :
    var ∈ joinedTensors (.call s func args keywords) ↔ ∃ arg ∈ args, JoinsVariable var arg := by
  rw [joinedTensors, mem_flatMap]
  refine exists_congr fun arg => and_congr_right fun _ => ?_
  constructor
  · intro h
    split at h
    · rw [mem_singleton.1 h]
      exact .inl ⟨_, rfl⟩
    · obtain ⟨item, hitem, hvar⟩ := mem_filterMap.1 h
      exact .inr ⟨_, _, rfl, item, hitem, listedTensor?_eq_some.1 hvar⟩
    · cases h
  · rintro (⟨s, rfl⟩ | ⟨s, items, rfl, item, hitem, hvar⟩)
    · exact mem_singleton_self var
    · exact mem_filterMap.2 ⟨item, hitem, listedTensor?_eq_some.2 hvar⟩

theorem growsOneOf_iff :
    growsOneOf tensorflow (constantTensors tensorflow n) m = true ↔ Grows tensorflow n m := by
  constructor
  · intro h
    unfold growsOneOf at h
    split at h
    · rw [Bool.and_eq_true, any_eq_true] at h
      obtain ⟨hvalue, var, hjoined, hconstant⟩ := h
      obtain ⟨args, s, s', s'', keywords, rfl⟩ := callsFunction_iff.1 hvalue
      obtain ⟨arg, harg, hvar⟩ := mem_joinedTensors.1 hjoined
      rw [contains_iff_mem, mem_constantTensors] at hconstant
      exact ⟨_, _, _, args, rfl, ⟨s, s', s'', keywords, rfl⟩, arg, harg, var, hconstant, hvar⟩
    · cases h
  · rintro ⟨s, targets, value, args, rfl, hvalue, arg, harg, var, hconstant, hvar⟩
    rw [growsOneOf, callsFunction_iff.2 ⟨args, hvalue⟩, Bool.true_and, any_eq_true]
    obtain ⟨s, s', s'', keywords, rfl⟩ := hvalue
    refine ⟨var, mem_joinedTensors.2 ⟨arg, harg, hvar⟩, ?_⟩
    exact contains_iff_mem.2 (mem_constantTensors.2 hconstant)

/-- Whether `tensorArray` reports the node at a way. -/
def isReported (tensorflow : String) (n : Node) (p : List Nat × Node) : Bool :=
  growsOneOf tensorflow (constantTensors tensorflow n) p.2 && n.inLoop p.1

/-- `tensorArray` reports, once each and in the order of the walk, the assignments that join a
constant tensor with others and are below a loop. -/
theorem detect_tensorArray {facts : Facts} {libraries : LibraryMap}
    (hlibraries : facts.libraries = some libraries)
    (hname : libraries.nameOf? "tensorflow" = some tensorflow) :
    ∃ ways : List (List Nat), ways.Pairwise (Shortlex (· < ·)) ∧
      (∀ way, way ∈ ways ↔ ∃ m, n.at? way = some m ∧ Grows tensorflow n m ∧
        ∃ above, above <+: way ∧ above ≠ way ∧
          ∃ loop, n.at? above = some loop ∧ loop.isLoop = true) ∧
      tensorArray.detect n facts = .ok (ways.map fun way =>
        ⟨((n.at? way).map Node.line).getD 0,
          "Using `tf.TensorArray` is better for dynamically growing arrays."⟩) := by
  refine ⟨(n.walkWays.filter (isReported tensorflow n)).map Prod.fst,
    pairwise_map.2 (n.pairwise_walkWays.filter _), fun way => ?_, ?_⟩
  · simp only [mem_map, mem_filter, Node.mem_walkWays, Prod.exists, exists_and_right,
      exists_eq_right, isReported, Bool.and_eq_true, growsOneOf_iff]
    refine exists_congr fun m => and_congr_right fun hm => and_congr_right fun _ => ?_
    exact Node.inLoop_iff (by simp [hm])
  · refine (whenImported_eq hlibraries hname _).trans (congrArg Except.ok ?_)
    rw [map_map, ← filterMap_eq_map, filterMap_filter]
    refine filterMap_congr fun p hp => ?_
    simp [isReported, Node.mem_walkWays.1 hp]

/-- A program that joins a constant tensor with others before a loop, in the loop, and in a function
that is defined when the loop ends. -/
def grownTensors : Node :=
  let s (line : Nat) : Span := ⟨⟨line, 0⟩, ⟨line, 0⟩⟩
  let name (line : Nat) (id : String) : Node := .name (s line) id
  let assign (line : Nat) (function : String) : Node :=
    .assign (s line) [name line "t"] (.call (s line)
      (.attribute (s line) (name line "tf") function) [.list (s line) [name line "t"]] [])
  .file [assign 1 "constant", assign 2 "concat",
    .forLoop (s 3) false (name 3 "x") (name 3 "t") [assign 4 "concat"]
      [.functionDef (s 6) false "f" (.params [] [] none [] [] none []) [assign 7 "concat"] [] none]]

theorem detect_tensorArray_grownTensors :
    ∃ ways : List (List Nat), ways.Pairwise (Shortlex (· < ·)) ∧
      (∀ way, way ∈ ways ↔ ∃ m, grownTensors.at? way = some m ∧ Grows "tf" grownTensors m ∧
        ∃ above, above <+: way ∧ above ≠ way ∧
          ∃ loop, grownTensors.at? above = some loop ∧ loop.isLoop = true) ∧
      ways.map (fun way => ((grownTensors.at? way).map Node.line).getD 0) = [4, 7] := by
  have hlibraries : ({ libraries := some ⟨[("tensorflow", "tf")]⟩ } : Facts).libraries
      = some ⟨[("tensorflow", "tf")]⟩ := rfl
  obtain ⟨ways, hordered, hways, hdetect⟩ := detect_tensorArray (n := grownTensors) hlibraries rfl
  have hlines : (tensorArray.detect grownTensors
        { libraries := some ⟨[("tensorflow", "tf")]⟩ }).toOption.map (map Finding.line)
      = some [4, 7] := by decide +kernel
  rw [hdetect] at hlines
  refine ⟨ways, hordered, hways, ?_⟩
  simpa [Except.toOption, Function.comp_def] using hlines

/-! ## Tiling -/

/-- `var` is assigned a tiled tensor somewhere in `n`. -/
def IsTiled (tensorflow : String) (n : Node) (var : String) : Prop :=
  ∃ m ∈ n.walk, ∃ value args, Assigns var value m ∧ IsCallOf tensorflow "tile" args value

/-- `var` is the first to be assigned a tiled tensor somewhere in `n`. -/
def IsTiledFirst (tensorflow : String) (n : Node) (var : String) : Prop :=
  ∃ s s' targets value args,
    .assign s (.name s' var :: targets) value ∈ n.walk ∧ IsCallOf tensorflow "tile" args value

def IsVariable (var : String) (m : Node) : Prop := ∃ s, m = .name s var

/-- `var` is shown for an operation: it is `left`, or `right` if `left` is no variable. -/
def IsShown (var : String) (left right : Node) : Prop :=
  IsVariable var left ∨ (∀ id, ¬IsVariable id left) ∧ IsVariable var right

theorem IsTiledFirst.isTiled (h : IsTiledFirst tensorflow n var) : IsTiled tensorflow n var := by
  obtain ⟨s, s', targets, value, args, hm, hvalue⟩ := h
  exact ⟨_, hm, value, args, ⟨s, _, rfl, s', mem_cons_self⟩, hvalue⟩

theorem mem_tiledVariables : var ∈ tiledVariables tensorflow n ↔ IsTiledFirst tensorflow n var := by
  rw [tiledVariables, mem_filterMap]
  constructor
  · rintro ⟨m, hm, hvar⟩
    split at hvar
    · split_ifs at hvar with hvalue
      obtain rfl := Option.some.inj hvar
      obtain ⟨args, hvalue⟩ := callsFunction_iff.1 hvalue
      exact ⟨_, _, _, _, args, hm, hvalue⟩
    · cases hvar
  · rintro ⟨s, s', targets, value, args, hm, hvalue⟩
    exact ⟨_, hm, if_pos (callsFunction_iff.2 ⟨args, hvalue⟩)⟩

theorem isTiled_iff {tiled : List String} :
    isTiled tiled m = true ↔ ∃ var ∈ tiled, IsVariable var m := by
  constructor
  · intro h
    unfold isTiled at h
    split at h
    · exact ⟨_, contains_iff_mem.1 h, _, rfl⟩
    · cases h
  · rintro ⟨var, hvar, s, rfl⟩
    exact contains_iff_mem.2 hvar

/-- If one of the operands is a variable, the operand that is shown is one. -/
theorem isShown_iff {left right : Node} {other : String}
    (h : IsVariable other left ∨ IsVariable other right) :
    IsShown var left right ↔ shownOperand left right = var := by
  unfold shownOperand
  split
  · simp [IsShown, IsVariable]
  · next hleft =>
    have hleft (s : Span) (id : String) : left ≠ .name s id := hleft s id
    simp [IsShown, IsVariable, hleft]
  · next hleft hright =>
    rcases h with ⟨s, rfl⟩ | ⟨s, rfl⟩
    · exact (hleft _ _ rfl).elim
    · exact (hright _ _ rfl).elim

theorem tiledRemark_inj {id : String} : tiledRemark id = tiledRemark var ↔ id = var := by
  constructor
  · intro h
    have hlist := congrArg String.toList h
    simp only [tiledRemark, String.toList_append, append_cancel_right_eq,
      append_cancel_left_eq] at hlist
    exact String.toList_inj.1 hlist
  · rintro rfl
    rfl

/-- A remark about a tiled variable is none about a tiling inside an expression. -/
theorem tiledRemark_ne_inlineTileRemark (shown : String) :
    tiledRemark shown ≠ inlineTileRemark := by
  intro h
  have hhead := congrArg (fun s => s.toList.head?) h
  simp [tiledRemark, inlineTileRemark, toString] at hhead

theorem tiledOperand?_eq_some_iff {tiled : List String} :
    tiledOperand? tiled m = some (tiledRemark var) ↔ ∃ s left op right, m = .binOp s left op right ∧
      (∃ other ∈ tiled, IsVariable other left ∨ IsVariable other right) ∧
        IsShown var left right := by
  have htiled {left right : Node} : (isTiled tiled left || isTiled tiled right) = true ↔
      ∃ other ∈ tiled, IsVariable other left ∨ IsVariable other right := by
    simp [isTiled_iff, and_or_left, exists_or]
  constructor
  · intro h
    unfold tiledOperand? at h
    split at h
    · split_ifs at h with hoperand
      · obtain ⟨other, hother, hoperand⟩ := htiled.1 hoperand
        have hshown := tiledRemark_inj.1 (Option.some.inj h)
        exact ⟨_, _, _, _, rfl, ⟨other, hother, hoperand⟩, (isShown_iff hoperand).2 hshown⟩
      · exact (tiledRemark_ne_inlineTileRemark var (Option.some.inj h).symm).elim
    · cases h
  · rintro ⟨s, left, op, right, rfl, ⟨other, hother, hoperand⟩, hshown⟩
    rw [tiledOperand?, if_pos (htiled.2 ⟨other, hother, hoperand⟩), (isShown_iff hoperand).1 hshown]

/-- `broadcasting` does not fail, and it reports operations in the order of the walk, once each.  A
report about a tiled variable is made of an operation with an operand that is one, and shows an
operand.  What is shown is not tiled if it is the left operand and only the right one is tiled, so
all these reports show tiled variables exactly if there is no such operation. -/
theorem detect_broadcasting {facts : Facts} {libraries : LibraryMap}
    (hlibraries : facts.libraries = some libraries)
    (hname : libraries.nameOf? "tensorflow" = some tensorflow) :
    ∃ reports : List (List Nat × String),
      (reports.map Prod.fst).Pairwise (Shortlex (· < ·)) ∧
      (∀ way var, (way, tiledRemark var) ∈ reports ↔
        ∃ s left op right, n.at? way = some (.binOp s left op right) ∧
          (∃ other, IsTiledFirst tensorflow n other ∧
            (IsVariable other left ∨ IsVariable other right)) ∧ IsShown var left right) ∧
      (∀ way var, (way, tiledRemark var) ∈ reports → ∃ s left op right,
        n.at? way = some (.binOp s left op right) ∧ (IsVariable var left ∨ IsVariable var right)) ∧
      ((∀ way var, (way, tiledRemark var) ∈ reports → IsTiled tensorflow n var) ↔
        ∀ way s left op right var other, n.at? way = some (.binOp s left op right) →
          IsVariable var left → IsVariable other right → IsTiledFirst tensorflow n other →
            IsTiled tensorflow n var) ∧
      broadcasting.detect n facts = .ok (reports.map fun r => ⟨n.lineAt r.1, r.2⟩) := by
  let reports := remarks n fun _ => tiledOperand? (tiledVariables tensorflow n)
  have hreports (way : List Nat) (var : String) : (way, tiledRemark var) ∈ reports ↔
      ∃ s left op right, n.at? way = some (.binOp s left op right) ∧
        (∃ other, IsTiledFirst tensorflow n other ∧
          (IsVariable other left ∨ IsVariable other right)) ∧ IsShown var left right := by
    simp only [reports, mem_remarks, tiledOperand?_eq_some_iff, mem_tiledVariables]
    constructor
    · rintro ⟨_, hm, s, left, op, right, rfl, h⟩
      exact ⟨s, left, op, right, hm, h⟩
    · rintro ⟨s, left, op, right, hm, h⟩
      exact ⟨_, hm, s, left, op, right, rfl, h⟩
  refine ⟨reports, pairwise_remarks n _, hreports, ?_, ⟨?_, ?_⟩, ?_⟩
  · intro way var hway
    obtain ⟨s, left, op, right, hm, -, hshown⟩ := (hreports way var).1 hway
    exact ⟨s, left, op, right, hm, hshown.imp_right And.right⟩
  · intro hall way s left op right var other hm hleft hright hother
    refine hall way var ((hreports way var).2 ⟨s, left, op, right, hm, ?_, .inl hleft⟩)
    exact ⟨other, hother, .inr hright⟩
  · intro hall way var hway
    obtain ⟨s, left, op, right, hm, ⟨other, hother, hoperand⟩, hshown⟩ := (hreports way var).1 hway
    rcases hshown with hleft | ⟨hleft, ⟨s', rfl⟩⟩
    · rcases hoperand with ⟨s', rfl⟩ | hright
      · obtain ⟨_, heq⟩ := hleft
        cases heq
        exact hother.isTiled
      · exact hall way s left op right var other hm hleft hright hother
    · -- the left operand is no variable, so the right one is both tiled and shown
      obtain ⟨_, heq⟩ := hoperand.resolve_left (hleft other)
      cases heq
      exact hother.isTiled
  · refine (whenImported_eq hlibraries hname _).trans (congrArg Except.ok ?_)
    exact filterMap_walk n _ Finding.mk

/-- A program that tiles a tensor and adds it to another one, which stands on the left. -/
def tiledOnRight : Node :=
  let s (line : Nat) : Span := ⟨⟨line, 0⟩, ⟨line, 0⟩⟩
  let name (line : Nat) (id : String) : Node := .name (s line) id
  .file [.assign (s 1) [name 1 "t"]
      (.call (s 1) (.attribute (s 1) (name 1 "tf") "tile") [name 1 "a"] []),
    .exprStmt (s 2) (.binOp (s 2) (name 2 "b") .add (name 2 "t"))]

/-- The variable on the left is shown, although it is not the one that is tiled. -/
theorem detect_broadcasting_tiledOnRight :
    ∃ reports : List (List Nat × String),
      (∀ way var, (way, tiledRemark var) ∈ reports ↔
        ∃ s left op right, tiledOnRight.at? way = some (.binOp s left op right) ∧
          (∃ other, IsTiledFirst "tf" tiledOnRight other ∧
            (IsVariable other left ∨ IsVariable other right)) ∧ IsShown var left right) ∧
      reports.map (fun r => (tiledOnRight.lineAt r.1, r.2)) = [(2, tiledRemark "b")] := by
  let facts : Facts := { libraries := some ⟨[("tensorflow", "tf")]⟩ }
  have hlibraries : facts.libraries = some ⟨[("tensorflow", "tf")]⟩ := rfl
  obtain ⟨reports, -, hreports, -, -, hdetect⟩ :=
    detect_broadcasting (n := tiledOnRight) hlibraries rfl
  have hfound : (broadcasting.detect tiledOnRight facts).toOption.map
      (map fun f => (f.line, f.info)) = some [(2, tiledRemark "b")] := by decide +kernel
  rw [hdetect] at hfound
  exact ⟨reports, hreports, by simpa [Except.toOption, Function.comp_def] using hfound⟩

/-! ## Calls by dotted names -/

open LibraryMap Text

/-- The names of `func`, as they are written one after the other: attributes, and in front of them
the name that they are attributes of, if it is one. -/
def dottedNames (func : Node) : List String := (unwind func).1.nameId?.toList ++ (unwind func).2

theorem unwind_attribute (s : Span) (value : Node) (attr : String) :
    unwind (.attribute s value attr) = ((unwind value).1, (unwind value).2 ++ [attr]) := rfl

theorem fullName_empty (func : Node) :
    fullName .empty func = ".".intercalate (dottedNames func) := by
  unfold fullName dottedNames
  generalize unwind func = path
  obtain ⟨base, attrs⟩ := path
  cases base <;> rfl

/-- `attributes`, outermost first, are those that `unwind` finds. -/
theorem isAttributePath_iff {base : String} {attributes : List String} {func : Node} :
    isAttributePath base attributes func = true ↔
      ∃ s, unwind func = (.name s base, attributes.reverse) := by
  fun_induction isAttributePath base attributes func with
  | case1 s id => simp [unwind]
  | case2 a r s value attr ih =>
    rw [Bool.and_eq_true, ih, unwind_attribute]
    simp [Prod.ext_iff, and_comm, and_assoc]
  | case3 attributes func hname hattribute =>
    cases func with
    | name s id =>
      cases attributes with
      | nil => exact absurd rfl (hname s id rfl)
      | cons a r => simp [unwind]
    | «attribute» s value attr =>
      cases attributes with
      | nil => simp [unwind_attribute]
      | cons a r => exact absurd rfl (hattribute a r s value attr rfl)
    | _ => simp [unwind]

theorem unwind_ne_attribute (func : Node) (s : Span) (value : Node) (attr : String) :
    (unwind func).1 ≠ .attribute s value attr := by
  fun_induction unwind func with
  | case1 _ _ _ _ _ _ ih => simp_all
  | case2 n hn => exact hn s value attr

/-- A call `isNestedCall` exactly if what is called unwinds to a name and its dotted name is that of
`base` and `attributes`. -/
theorem isNestedCall_iff (s : Span) (func : Node) (args keywords : List Node) {base : String}
    {attributes : List String} (hfunc : ∀ name ∈ dottedNames func, '.' ∉ name.toList)
    (hnames : ∀ name ∈ base :: attributes, '.' ∉ name.toList) :
    (∀ s value attr, (unwind func).1 ≠ .attribute s value attr) ∧
    (isNestedCall base attributes (.call s func args keywords) = true ↔
      (∃ s id, (unwind func).1 = .name s id) ∧
        fullName .empty func = ".".intercalate (base :: attributes)) := by
  refine ⟨unwind_ne_attribute func, ?_⟩
  rw [isNestedCall, isAttributePath_iff, reverse_reverse, fullName_empty]
  constructor
  · rintro ⟨s, h⟩
    simp [dottedNames, h, Node.nameId?]
  · rintro ⟨⟨s, id, h⟩, hjoined⟩
    -- joining keeps apart what has no dots
    have hsame : dottedNames func = base :: attributes := by
      rw [← splitOn_intercalate '.' (cons_ne_nil _ _) hnames,
        ← splitOn_intercalate '.' _ hfunc]
      · exact congrArg (Text.splitOn '.') hjoined
      · simp [dottedNames, h, Node.nameId?]
    obtain ⟨rfl, hattributes⟩ : id = base ∧ (unwind func).2 = attributes := by
      simpa [dottedNames, h, Node.nameId?] using hsame
    exact ⟨s, Prod.ext h hattributes⟩

/-- A path of three names; a call of the last two on what another call gives is none. -/
theorem isNestedCall_iff_threeNames :
    let names := ["tf", "keras", "Sequential"]
    let func := fun base => Node.attribute default (.attribute default base "keras") "Sequential"
    (∀ name ∈ names, '.' ∉ name.toList) ∧
      isNestedCall "tf" names.tail (.call default (func (.name default "tf")) [] []) = true ∧
      isNestedCall "keras" ["Sequential"]
        (.call default (func (.call default (.name default "tf") [] [])) [] []) = false := by
  refine ⟨by decide, (isNestedCall_iff default _ [] [] (by decide) (by decide)).2.2
    ⟨⟨_, _, rfl⟩, rfl⟩, ?_⟩
  rw [Bool.eq_false_iff, Ne, (isNestedCall_iff default _ [] [] (by decide) (by decide)).2]
  rintro ⟨⟨_, _, h⟩, -⟩
  cases h

end SmellLint.Smell
