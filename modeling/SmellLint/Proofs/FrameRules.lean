import SmellLint.Proofs.Occurrences
import SmellLint.Smell.Frame

/-!
# Calls on data frames

What the rules about calls on data frames report, by the ways to the calls.

A merge is looked at if it is called on a data-frame variable or on a part of the library, and not
on the library itself (`detect_mergeParameters`).  The rule about operations in place looks for the
value of the last `inplace` argument, and takes a value that it cannot read for a missing one
(`detect_inPlace`).
-/

namespace SmellLint.Smell

open Syntax (Node Span)
open List Option

variable {n m : Node} {facts : Facts} {libraries : LibraryMap} {frames methods : List String}
  {keywords : List Node} {way : List Nat}

theorem isFrame_eq (h : facts.frameVariables = .value frames) (id : String) :
    facts.isFrame id = .ok (frames.contains id) := by
  rw [Facts.isFrame, h]

/-! ## Merges -/

variable {test : Node → Except Fault (Option Finding)}

/-- `findAll` with a test that does not fail finds what `f` says of each node. -/
theorem findAll_eq {f : Node → Option Finding} (h : ∀ m, test m = .ok (f m)) (nodes : List Node) :
    findAll test nodes = .ok (nodes.filterMap f) := by
  induction nodes with
  | nil => rfl
  | cons m nodes ih =>
    rw [findAll, h, ih, filterMap_cons]
    cases f m <;> rfl

open Classical in
/-- `findAll` with a test that decides by `P` reports the nodes in the order of the walk. -/
theorem findAll_walk {P : Node → Prop}
    {text : String} (h : ∀ m, test m = .ok (if P m then some ⟨m.line, text⟩ else none)) :
    findAll test n.walk = .ok ((n.waysTo (P ·)).map fun way => ⟨n.lineAt way, text⟩) := by
  rw [findAll_eq h, ← n.map_line_filter_walk _ (Finding.mk · _), ← filterMap_eq_map,
    filterMap_filter]
  simp

/-- `m` is a call of `merge` on `base` with `keywords`. -/
def IsMerge (base : Node) (keywords : List Node) (m : Node) : Prop :=
  ∃ s s' args, m = .call s (.attribute s' base "merge") args keywords

/-- One of the arguments of a merge is not among `keywords`. -/
def LacksArgument (keywords : List Node) : Prop :=
  ∃ arg ∈ ["how", "on", "validate"], ∀ s value, .keyword s (some arg) value ∉ keywords

/-- Merges are looked at on `base`: it is a data-frame variable, or a part of the library. -/
def IsMergeBase (pandas : String) (frames : List String) (base : Node) : Prop :=
  (∃ s, ∃ id ∈ frames, base = .name s id) ∨ ∃ s s' part, base = .attribute s (.name s' pandas) part

theorem mem_keywordNames {arg : String} :
    arg ∈ keywordNames keywords ↔ ∃ s value, .keyword s (some arg) value ∈ keywords := by
  rw [keywordNames, mem_filterMap]
  constructor
  · rintro ⟨k, hk, harg⟩
    split at harg
    · cases harg
      exact ⟨_, _, hk⟩
    · cases harg
  · rintro ⟨s, value, hk⟩
    exact ⟨_, hk, rfl⟩

theorem lacksArgument_iff :
    (!mergeArguments.all fun arg => (keywordNames keywords).contains arg) = true ↔
      LacksArgument keywords := by
  simp [mergeArguments, LacksArgument, mem_keywordNames]

theorem exists_isMergeBase (hframes : facts.frameVariables = .value frames) (pandas : String)
    (base : Node) : ∃ b, facts.isMergeBase pandas base = .ok b ∧
      (b = true ↔ IsMergeBase pandas frames base) := by
  unfold Facts.isMergeBase
  split
  · exact ⟨_, isFrame_eq hframes _, by simp [IsMergeBase]⟩
  · exact ⟨_, rfl, by simp [IsMergeBase]⟩
  · next hvariable hpart =>
    refine ⟨false, rfl, ?_⟩
    simp only [Bool.false_eq_true, false_iff]
    rintro (⟨s, id, -, rfl⟩ | ⟨s, s', part, rfl⟩)
    · exact hvariable _ _ rfl
    · exact hpart _ _ _ _ rfl

/-- `m` is a merge that is looked at and lacks an argument. -/
def IsIncompleteMerge (pandas : String) (frames : List String) (m : Node) : Prop :=
  ∃ base keywords, IsMerge base keywords m ∧ IsMergeBase pandas frames base ∧ LacksArgument keywords

theorem isMergeBase_name {pandas id : String} {s : Span} :
    IsMergeBase pandas frames (.name s id) ↔ id ∈ frames := by
  simp [IsMergeBase]

theorem IsMerge.isIncomplete_iff {pandas : String} {base : Node} (h : IsMerge base keywords m) :
    IsIncompleteMerge pandas frames m ↔
      IsMergeBase pandas frames base ∧ LacksArgument keywords := by
  obtain ⟨s, s', args, rfl⟩ := h
  constructor
  · rintro ⟨_, _, ⟨_, _, _, heq⟩, hmerge⟩
    cases heq
    exact hmerge
  · intro hmerge
    exact ⟨base, keywords, ⟨s, s', args, rfl⟩, hmerge⟩

/-- `mergeParameters` reports, once each and in the order of the walk, the merges that lack an
argument and are called on a data-frame variable or on a part of the library.  A merge that is
called on the library itself is passed over, unless its name is also that of a data-frame variable.
-/
theorem detect_mergeParameters {pandas : String} (hlibraries : facts.libraries = some libraries)
    (hname : libraries.nameOf? "pandas" = some pandas)
    (hframes : facts.frameVariables = .value frames) :
    ∃ ways : List (List Nat), ways.Pairwise (List.Shortlex (· < ·)) ∧
      (∀ way, way ∈ ways ↔ ∃ m base keywords, n.at? way = some m ∧ IsMerge base keywords m ∧
        IsMergeBase pandas frames base ∧ LacksArgument keywords) ∧
      (∀ way m s id keywords, n.at? way = some m → IsMerge (.name s id) keywords m →
        (way ∈ ways ↔ id ∈ frames ∧ LacksArgument keywords)) ∧
      ((∀ way m s id keywords, n.at? way = some m → IsMerge (.name s id) keywords m →
          id ∈ frames ∨ id = pandas → (way ∈ ways ↔ LacksArgument keywords)) ↔
        ∀ way m s keywords, n.at? way = some m → IsMerge (.name s pandas) keywords m →
          LacksArgument keywords → pandas ∈ frames) ∧
      mergeParameters.detect n facts = .ok (ways.map fun way => ⟨n.lineAt way,
        "Incomplete parameters in `merge`. Consider specifying 'how', " ++
          "'on',  and 'validate'."⟩) := by
  classical
  have hvariable {way : List Nat} {m : Node} {s : Span} {id : String} {keywords : List Node}
      (hm : n.at? way = some m) (hmerge : IsMerge (.name s id) keywords m) :
      way ∈ n.waysTo (IsIncompleteMerge pandas frames ·) ↔
        id ∈ frames ∧ LacksArgument keywords := by
    rw [Node.mem_waysTo_of_at? hm, decide_eq_true_iff, hmerge.isIncomplete_iff, isMergeBase_name]
  refine ⟨_, n.pairwise_waysTo _, ?_, fun _ _ _ _ _ => hvariable, ⟨?_, ?_⟩, ?_⟩
  · intro way
    simp only [Node.mem_waysTo, decide_eq_true_iff, exists_and_left]
    rfl
  · intro hall way m s keywords hm hmerge hlacks
    have hway := (hall way m s pandas keywords hm hmerge (.inr rfl)).2 hlacks
    exact ((hvariable hm hmerge).1 hway).1
  · intro hall way m s id keywords hm hmerge hid
    rw [hvariable hm hmerge, and_iff_right_iff_imp]
    intro hlacks
    rcases hid with hid | rfl
    · exact hid
    · exact hall way m s keywords hm hmerge hlacks
  · refine (whenImported_eq hlibraries hname _).trans (findAll_walk fun m => ?_)
    split
    · next s s' base args keywords =>
      obtain ⟨b, hb, hbase⟩ := exists_isMergeBase hframes pandas base
      have hmerge : IsMerge base keywords (.call s (.attribute s' base "merge") args keywords) :=
        ⟨s, s', args, rfl⟩
      simp only [hb, hmerge.isIncomplete_iff, ← hbase, ← lacksArgument_iff, ← Bool.and_eq_true]
      exact (apply_ite Except.ok _ _ _).symm
    · next hother =>
      have hincomplete : ¬IsIncompleteMerge pandas frames m := by
        rintro ⟨base, keywords, ⟨s, s', args, rfl⟩, -⟩
        exact hother _ _ _ _ _ rfl
      rw [if_neg hincomplete]
      rfl

/-- A merge on the library, and one on a data frame on the second line. -/
def merges : Node :=
  let s (line : Nat) : Span := ⟨⟨line, 0⟩, ⟨line, 0⟩⟩
  let merge (line : Nat) (id : String) : Node := .exprStmt (s line)
    (.call (s line) (.attribute (s line) (.name (s line) id) "merge") [.name (s line) "b"] [])
  .file [merge 1 "pd", merge 2 "a"]

theorem detect_mergeParameters_merges :
    ∃ ways : List (List Nat), (∀ way, way ∈ ways ↔ ∃ m base keywords, merges.at? way = some m ∧
        IsMerge base keywords m ∧ IsMergeBase "pd" ["a"] base ∧ LacksArgument keywords) ∧
      ways.map merges.lineAt = [2] := by
  let facts : Facts := { libraries := some ⟨[("pandas", "pd")]⟩, frameVariables := .value ["a"] }
  have hlibraries : facts.libraries = some ⟨[("pandas", "pd")]⟩ := rfl
  obtain ⟨ways, -, hways, -, -, hdetect⟩ := detect_mergeParameters (n := merges) hlibraries rfl rfl
  have hlines : (mergeParameters.detect merges facts).toOption.map (List.map Finding.line)
      = some [2] := by decide +kernel
  rw [hdetect] at hlines
  exact ⟨ways, hways, by simpa [Except.toOption, Function.comp_def] using hlines⟩

/-! ## Operations in place -/

/-- The node at `way` is the value of an assignment. -/
def IsAssigned (n : Node) (way : List Nat) : Prop :=
  ∃ above s targets value, n.at? above = some (.assign s targets value) ∧
    way = above ++ [targets.length]

/-- Decides `IsAssigned`. -/
def isAssignedAt (n : Node) (way : List Nat) : Bool :=
  way.getLast?.any fun i => (n.at? way.dropLast).any fun parent => isAssignedValue false parent i

theorem isAssignedAt_iff : isAssignedAt n way = true ↔ IsAssigned n way := by
  constructor
  · intro h
    obtain ⟨i, hi, h⟩ := (any_eq_true _ _).1 h
    obtain ⟨parent, hparent, h⟩ := (any_eq_true _ _).1 h
    unfold isAssignedValue at h
    split at h
    · obtain rfl := beq_iff_eq.1 h
      exact ⟨_, _, _, _, hparent, (dropLast_append_getLast? _ hi).symm⟩
    · cases h
  · rintro ⟨above, s, targets, value, hat, rfl⟩
    simp [isAssignedAt, hat, isAssignedValue]

theorem walkWith_isAssignedValue (n : Node) : n.walkWith isAssignedValue false =
    n.walkWays.map fun p => (isAssignedAt n p.1, p.2) := by
  refine Node.walkWith_eq_map (isAssignedAt n) fun way m hm i => ?_
  simp only [isAssignedAt, getLast?_concat, dropLast_concat, hm]
  rfl

/-- The value of an `inplace` argument. -/
def inPlaceArgument? : Node → Option Node
  | .keyword _ (some "inplace") value => some value
  | _ => none

/-- The value of the last `inplace` argument among `keywords`. -/
def inPlaceValue? (keywords : List Node) : Option Node :=
  (keywords.filterMap inPlaceArgument?).getLast?

theorem inPlaceArgument?_eq_some {k value : Node} :
    inPlaceArgument? k = some value ↔ ∃ s, k = .keyword s (some "inplace") value := by
  constructor
  · intro h
    unfold inPlaceArgument? at h
    split at h
    · cases h
      exact ⟨_, rfl⟩
    · cases h
  · rintro ⟨s, rfl⟩
    rfl

theorem inPlaceValue?_eq_none :
    inPlaceValue? keywords = none ↔ ∀ s value, .keyword s (some "inplace") value ∉ keywords := by
  rw [inPlaceValue?, getLast?_eq_none_iff, filterMap_eq_nil_iff]
  constructor
  · intro h s value hk
    cases h _ hk
  · intro h k hk
    by_contra hsome
    obtain ⟨value, hvalue⟩ := ne_none_iff_exists'.1 hsome
    obtain ⟨s, rfl⟩ := inPlaceArgument?_eq_some.1 hvalue
    exact h s value hk

theorem inPlaceFlag_eq (keywords : List Node) :
    inPlaceFlag keywords = ((inPlaceValue? keywords).map InPlace.ofNode).getD .unset := by
  rw [inPlaceFlag, inPlaceValue?]
  generalize InPlace.unset = flag
  induction keywords generalizing flag with
  | nil => rfl
  | cons k keywords ih =>
    rw [foldl_cons, ih]
    split
    · next s value =>
      have hvalue : inPlaceArgument? (.keyword s (some "inplace") value) = some value := rfl
      rw [filterMap_cons_some hvalue, getLast?_cons]
      cases (keywords.filterMap inPlaceArgument?).getLast? <;> rfl
    · next hk =>
      have hnone : inPlaceArgument? k = none := by
        by_contra hsome
        obtain ⟨value, hvalue⟩ := ne_none_iff_exists'.1 hsome
        obtain ⟨s, rfl⟩ := inPlaceArgument?_eq_some.1 hvalue
        exact hk _ _ rfl
      rw [filterMap_cons_none hnone]

theorem head?_append_text {s : String} {c : Char} (h : s.toList.head? = some c) (t : String) :
    (s ++ t).toList.head? = some c := by
  rw [String.toList_append, head?_append, h]
  rfl

theorem refusedText_ne_unassignedText (method : String) :
    refusedText method ≠ unassignedText method := by
  have hrefused : (refusedText method).toList.head? = some 'E' :=
    head?_append_text (head?_append_text (head?_append_text (by decide +kernel) _) _) _
  have hunassigned : (unassignedText method).toList.head? = some 'T' :=
    head?_append_text (head?_append_text (head?_append_text (by decide +kernel) _) _) _
  intro h
  rw [h, hunassigned] at hrefused
  cases hrefused

theorem isFrameMethod_eq (h : facts.frameMethods = .value (methods.map some)) (name : String) :
    facts.isFrameMethod name = .ok (methods.contains name) := by
  have hsearch : Frames.Methods.search name (methods.map some) = .ok (methods.contains name) := by
    clear h
    induction methods with
    | nil => rfl
    | cons m methods ih =>
      rw [map_cons, Frames.Methods.search, ih]
      by_cases hm : m = name
      · simp [hm]
      · simp [hm, Ne.symm hm]
  rw [Facts.isFrameMethod, h, ← hsearch]

/-- `m` calls `method`, one of `methods`, with `keywords` on one of the variables `frames`. -/
def IsFrameCall (frames methods : List String) (method : String) (keywords : List Node)
    (m : Node) : Prop :=
  method ∈ methods ∧ ∃ s s' s'' args, ∃ base ∈ frames,
    m = .call s (.attribute s' (.name s'' base) method) args keywords

/-- `inPlaceRemark?` says something only about calls of `methods` on `frames`. -/
theorem exists_inPlaceRemark (hframes : facts.frameVariables = .value frames)
    (hmethods : facts.frameMethods = .value (methods.map some)) (isAssigned : Bool) (m : Node) :
    ∃ remark, facts.inPlaceRemark? isAssigned m = .ok remark ∧
      (∀ method keywords, IsFrameCall frames methods method keywords m →
        remark = (inPlaceFlag keywords).remark? method isAssigned) ∧
      (remark.isSome → ∃ method keywords, IsFrameCall frames methods method keywords m) := by
  unfold Facts.inPlaceRemark?
  split
  · next s s' s'' base attr args keywords =>
    refine ⟨if frames.contains base && methods.contains attr then
      (inPlaceFlag keywords).remark? attr isAssigned else none, ?_, ?_, ?_⟩
    · rw [isFrame_eq hframes, isFrameMethod_eq hmethods]
      cases frames.contains base <;> cases methods.contains attr <;> rfl
    · rintro _ _ ⟨hmethod, _, _, _, _, _, hbase, heq⟩
      cases heq
      simp [hbase, hmethod]
    · intro hsome
      split_ifs at hsome with hin
      · simp only [Bool.and_eq_true, contains_iff_mem] at hin
        exact ⟨attr, keywords, hin.2, s, s', s'', args, base, hin.1, rfl⟩
      · cases hsome
  · next hother =>
    refine ⟨none, rfl, ?_, fun hsome => by cases hsome⟩
    rintro _ _ ⟨_, _, _, _, _, _, _, rfl⟩
    exact (hother _ _ _ _ _ _ _ rfl).elim

theorem inPlaceFindings_eq {remark : Bool → Node → Option String}
    (h : ∀ isAssigned m, facts.inPlaceRemark? isAssigned m = .ok (remark isAssigned m))
    (nodes : List (Bool × Node)) : inPlaceFindings facts nodes =
      .ok (nodes.filterMap fun p => (remark p.1 p.2).map (⟨p.2.line, ·⟩)) := by
  induction nodes with
  | nil => rfl
  | cons p nodes ih =>
    rw [inPlaceFindings, h, ih, filterMap_cons]
    cases remark p.1 p.2 <;> rfl

theorem remark?_eq_unassignedText {method : String} {isAssigned : Bool} {flag : InPlace} :
    flag.remark? method isAssigned = some (unassignedText method) ↔
      isAssigned = false ∧ flag = .unset := by
  cases flag <;> cases isAssigned <;>
    simp [InPlace.remark?, refusedText_ne_unassignedText]

theorem of_remark?_eq_some {method text : String} {isAssigned : Bool} {flag : InPlace}
    (h : flag.remark? method isAssigned = some text) :
    text = unassignedText method ∨ text = refusedText method ∧ flag = .no := by
  cases flag with
  | unset =>
    cases isAssigned with
    | false => exact .inl (some.inj h).symm
    | true => cases h
  | no => exact .inr ⟨(some.inj h).symm, rfl⟩
  | other => cases h

/-- What `say` says of the nodes of `n`, with the ways to them, in the order of the walk. -/
def remarks (n : Node) (say : List Nat → Node → Option String) : List (List Nat × String) :=
  n.walkWays.filterMap fun p => (say p.1 p.2).map fun text => (p.1, text)

theorem mem_remarks {say : List Nat → Node → Option String} {text : String} :
    (way, text) ∈ remarks n say ↔ ∃ m, n.at? way = some m ∧ say way m = some text := by
  simp only [remarks, mem_filterMap, map_eq_some_iff, Prod.mk.injEq]
  constructor
  · rintro ⟨p, hp, _, hsaid, rfl, rfl⟩
    exact ⟨p.2, Node.mem_walkWays.1 hp, hsaid⟩
  · rintro ⟨m, hm, hsaid⟩
    exact ⟨(way, m), Node.mem_walkWays.2 hm, text, hsaid, rfl, rfl⟩

theorem pairwise_remarks (n : Node) (say : List Nat → Node → Option String) :
    ((remarks n say).map Prod.fst).Pairwise (Shortlex (· < ·)) := by
  refine pairwise_map.2 (pairwise_filterMap.2 (n.pairwise_walkWays.imp ?_))
  intro p q hpq r hr r' hr'
  obtain ⟨_, -, rfl⟩ := map_eq_some_iff.1 hr
  obtain ⟨_, -, rfl⟩ := map_eq_some_iff.1 hr'
  exact hpq

/-- What `f` makes of remarks about nodes and of their lines is made of the lines at their ways. -/
theorem filterMap_walk {β : Type} (n : Node) (say : Node → Option String) (f : Nat → String → β) :
    (n.walk.filterMap fun m => (say m).map (f m.line)) =
      (remarks n fun _ => say).map fun r => f (n.lineAt r.1) r.2 := by
  rw [← Node.map_snd_walkWays, filterMap_map, remarks, map_filterMap]
  refine filterMap_congr fun p hp => ?_
  simp [Function.comp_def, Node.lineAt_of_at? (Node.mem_walkWays.1 hp)]

/-- `inPlace` reports calls of the methods on the data-frame variables, at most once each and in the
order of the walk.  A call is reported as neither assigned nor told to work in place if it is not
the value of an assignment, and the value of its last `inplace` argument, if it has one, says
nothing.  So these reports are right exactly if no call that is not assigned has such a value. -/
theorem detect_inPlace {pandas : String} (hlibraries : facts.libraries = some libraries)
    (hname : libraries.nameOf? "pandas" = some pandas)
    (hframes : facts.frameVariables = .value frames)
    (hmethods : facts.frameMethods = .value (methods.map some)) :
    ∃ reports : List (List Nat × String),
      (reports.map Prod.fst).Pairwise (List.Shortlex (· < ·)) ∧
      (∀ way text, (way, text) ∈ reports → ∃ m method keywords, n.at? way = some m ∧
        IsFrameCall frames methods method keywords m ∧
          (text = unassignedText method ∨ text = refusedText method ∧ inPlaceFlag keywords = .no)) ∧
      (∀ way m method keywords, n.at? way = some m →
        IsFrameCall frames methods method keywords m →
        ((way, unassignedText method) ∈ reports ↔ ¬IsAssigned n way ∧
          ∀ value, inPlaceValue? keywords = some value → InPlace.ofNode value = .unset)) ∧
      ((∀ way m method keywords, n.at? way = some m →
          IsFrameCall frames methods method keywords m →
          ((way, unassignedText method) ∈ reports ↔
            (∀ s value, .keyword s (some "inplace") value ∉ keywords) ∧ ¬IsAssigned n way)) ↔
        ∀ way m method keywords value, n.at? way = some m →
          IsFrameCall frames methods method keywords m → ¬IsAssigned n way →
            inPlaceValue? keywords = some value → InPlace.ofNode value ≠ .unset) ∧
      inPlace.detect n facts = .ok (reports.map fun r => ⟨n.lineAt r.1, r.2⟩) := by
  choose remark hremark hcall hsome using exists_inPlaceRemark hframes hmethods
  let reports := remarks n fun way => remark (isAssignedAt n way)
  have hunassigned {way : List Nat} {m : Node} {method : String} {keywords : List Node}
      (hm : n.at? way = some m) (hframe : IsFrameCall frames methods method keywords m) :
      (way, unassignedText method) ∈ reports ↔ ¬IsAssigned n way ∧
        ∀ value, inPlaceValue? keywords = some value → InPlace.ofNode value = .unset := by
    have hremarks : (way, unassignedText method) ∈ reports ↔
        remark (isAssignedAt n way) m = some (unassignedText method) := by
      simp [reports, mem_remarks, hm]
    rw [hremarks, hcall _ _ _ _ hframe, remark?_eq_unassignedText, inPlaceFlag_eq,
      ← isAssignedAt_iff, Bool.not_eq_true]
    cases inPlaceValue? keywords <;> simp
  refine ⟨reports, pairwise_remarks n _, ?_, fun _ _ _ _ => hunassigned, ⟨?_, ?_⟩, ?_⟩
  · intro way text hreport
    obtain ⟨m, hm, hsaid⟩ := mem_remarks.1 hreport
    obtain ⟨method, keywords, hframe⟩ := hsome _ _ (by rw [hsaid]; rfl)
    rw [hcall _ _ _ _ hframe] at hsaid
    exact ⟨m, method, keywords, hm, hframe, of_remark?_eq_some hsaid⟩
  · intro hall way m method keywords value hm hframe hassigned hvalue hsilent
    have hreported := (hunassigned hm hframe).2
      ⟨hassigned, fun value' hvalue' => by rw [hvalue] at hvalue'; cases hvalue'; exact hsilent⟩
    have hnone := inPlaceValue?_eq_none.2 ((hall way m method keywords hm hframe).1 hreported).1
    rw [hvalue] at hnone
    cases hnone
  · intro hall way m method keywords hm hframe
    rw [hunassigned hm hframe, ← inPlaceValue?_eq_none, and_comm]
    refine and_congr_left fun hassigned => ⟨fun hsilent => ?_, fun hnone => by simp [hnone]⟩
    cases hvalue : inPlaceValue? keywords with
    | none => rfl
    | some value =>
      have hloud := hall way m method keywords value hm hframe hassigned hvalue
      exact absurd (hsilent value hvalue) hloud
  · refine (whenImported_eq hlibraries hname _).trans ?_
    rw [walkWith_isAssignedValue, inPlaceFindings_eq hremark, List.filterMap_map]
    simp only [reports, remarks, List.map_filterMap]
    refine congrArg Except.ok (List.filterMap_congr fun p hp => ?_)
    simp only [Function.comp_def, Option.map_map, Node.lineAt_of_at? (Node.mem_walkWays.1 hp)]

/-- A call with a variable as its `inplace` argument, and one that is assigned. -/
def droppedColumns : Node :=
  let s (line : Nat) : Span := ⟨⟨line, 0⟩, ⟨line, 0⟩⟩
  let name (line : Nat) (id : String) : Node := .name (s line) id
  let drop (line : Nat) (keywords : List Node) : Node :=
    .call (s line) (.attribute (s line) (name line "df") "drop") [] keywords
  .file [.exprStmt (s 1) (drop 1 [.keyword (s 1) (some "inplace") (name 1 "flag")]),
    .assign (s 2) [name 2 "df"] (drop 2 [])]

theorem detect_inPlace_droppedColumns :
    ∃ reports : List (List Nat × String),
      (∀ way m method keywords, droppedColumns.at? way = some m →
        IsFrameCall ["df"] ["drop"] method keywords m →
        ((way, unassignedText method) ∈ reports ↔ ¬IsAssigned droppedColumns way ∧
          ∀ value, inPlaceValue? keywords = some value → InPlace.ofNode value = .unset)) ∧
      reports.map (fun r => droppedColumns.lineAt r.1) = [1] := by
  let facts : Facts :=
    { libraries := some ⟨[("pandas", "pd")]⟩, frameVariables := .value ["df"],
      frameMethods := .value [some "drop"] }
  have hlibraries : facts.libraries = some ⟨[("pandas", "pd")]⟩ := rfl
  have hmethods : facts.frameMethods = .value (["drop"].map some) := rfl
  obtain ⟨reports, -, -, hreports, -, hdetect⟩ :=
    detect_inPlace (n := droppedColumns) hlibraries rfl rfl hmethods
  have hlines : (inPlace.detect droppedColumns facts).toOption.map (List.map Finding.line)
      = some [1] := by decide +kernel
  rw [hdetect] at hlines
  exact ⟨reports, hreports, by simpa [Except.toOption, Function.comp_def] using hlines⟩

end SmellLint.Smell
