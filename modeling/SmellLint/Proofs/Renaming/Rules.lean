import SmellLint.Proofs.Renaming.Tree
import SmellLint.Proofs.CallGraph.Edges
import SmellLint.Proofs.FileRules
import SmellLint.Proofs.Tensor
import Mathlib.Data.List.Find

/-!
# Rules and the names of libraries

A library may be used under any name.  Here a name is replaced by a fresh one, in a program and in
what is known about it, and every test that a rule makes is shown to say the same of the new
program: tests that compare with the name of a library, tests that look up variables, tests that go
by full names, and tests of tensors.  `lines_rename_library` puts them together: every rule reports
the same lines, except that tilings inside expressions are recognised by the customary name only.
-/

namespace SmellLint

open Syntax (Node)
open Function Keyed LibraryMap List Syntax.Node

/-- `g` applied to a value that may be left out. -/
def Given.map {α β : Type} (g : α → β) : Given α → Given β
  | .absent => .absent
  | .nothing => .nothing
  | .value a => .value (g a)

namespace Smell

/-! ## Renaming -/

def renamed (old new id : String) : String := if id = old then new else id

variable {old new : String}

@[simp]
theorem renamed_self : renamed old new old = new := if_pos rfl

variable {x function numpy tensorflow : String} {l : List Node} {frames names tiled : List String}
  {libraries : LibraryMap}

theorem renamed_of_ne (h : x ≠ old) : renamed old new x = x := if_neg h

theorem renamed_inj {y : String} (hx : x ≠ new) (hy : y ≠ new) :
    renamed old new x = renamed old new y ↔ x = y := by
  unfold renamed
  split_ifs <;> grind

/-- A name `z` that has no part in the renaming is told from others as before. -/
theorem renamed_eq_iff {z : String} (hold : z ≠ old) (hnew : z ≠ new) :
    renamed old new x = z ↔ x = z := by
  unfold renamed
  split_ifs <;> grind

theorem renamed_beq {y : String} (hx : x ≠ new) (hy : y ≠ new) :
    (renamed old new x == renamed old new y) = (x == y) := by
  rw [Bool.eq_iff_iff, beq_iff_eq, beq_iff_eq, renamed_inj hx hy]

theorem renamed_beq_of_ne {z : String} (hold : z ≠ old) (hnew : z ≠ new) :
    (renamed old new x == z) = (x == z) := by
  rw [Bool.eq_iff_iff, beq_iff_eq, beq_iff_eq, renamed_eq_iff hold hnew]

theorem contains_renamed {l : List String} (hx : x ≠ new) (hl : new ∉ l) :
    (l.map (renamed old new)).contains (renamed old new x) = l.contains x := by
  rw [Bool.eq_iff_iff, contains_iff_mem, contains_iff_mem, mem_map]
  constructor
  · rintro ⟨y, hy, heq⟩
    have hne : y ≠ new := by
      rintro rfl
      exact hl hy
    rwa [← (renamed_inj hne hx).1 heq]
  · intro hmem
    exact ⟨x, hmem, rfl⟩

/-! ## What is known under other names -/

/-- `facts` about a program in which `old` has been replaced by `new`. -/
def Facts.rename (old new : String) (facts : Facts) : Facts :=
  { facts with
    libraries := facts.libraries.map fun m => m.map (renamed old new)
    names := facts.names.map (map (renamed old new))
    frameVariables := facts.frameVariables.map (map (renamed old new)) }

/-- `facts` do not mention `id`: it is no name of a library, no variable and no data frame. -/
structure Facts.Avoids (id : String) (facts : Facts) : Prop where
  libraries : ∀ m, facts.libraries = some m → id ∉ m.values
  names : ∀ vs, facts.names = some vs → id ∉ vs
  frames : ∀ vs, facts.frameVariables = .value vs → id ∉ vs

variable {facts : Facts} {n m : Node} {library : String}

theorem get?_rename (libraries : LibraryMap) (library : String) :
    (libraries.map (renamed old new)).get? library
      = (libraries.get? library).map (renamed old new) := by
  obtain ⟨l⟩ := libraries
  unfold get? Keyed.map
  induction l with
  | nil => rfl
  | cons e l ih =>
    obtain ⟨k, v⟩ := e
    cases h : library == k
    · simp only [map_cons, lookup_cons, h]
      exact ih
    · simp [lookup_cons, h]

theorem nameOf?_rename (hold : old ≠ "") (hnew : new ≠ "") (libraries : LibraryMap)
    (library : String) :
    nameOf? (libraries.map (renamed old new)) library
      = (libraries.nameOf? library).map (renamed old new) := by
  unfold nameOf?
  rw [get?_rename]
  cases libraries.get? library with
  | none => rfl
  | some name =>
    by_cases hname : name = old
    · simp [hname, hold, hnew, Option.filter]
    · rw [Option.map_some, renamed_of_ne hname]
      by_cases hempty : name = "" <;> simp [hempty, Option.filter, renamed_of_ne hname]

theorem aliasOf_rename (hold : old ≠ "") (hnew : new ≠ "") (facts : Facts) (library : String) :
    (facts.rename old new).aliasOf library
      = (facts.aliasOf library).map (Option.map (renamed old new)) := by
  unfold Facts.aliasOf Facts.requireLibraries Facts.rename
  cases facts.libraries with
  | none => rfl
  | some m => exact congrArg Except.ok (nameOf?_rename hold hnew m library)

theorem alias_ne (hf : facts.Avoids new) {name : String}
    (h : facts.aliasOf library = .ok (some name)) : name ≠ new := by
  rintro rfl
  unfold Facts.aliasOf Facts.requireLibraries at h
  cases hm : facts.libraries with
  | none => rw [hm] at h; cases h
  | some m =>
    rw [hm] at h
    have hname : m.nameOf? library = some name := by
      injection h
    have hget := (Option.filter_eq_some_iff.1 hname).1
    exact hf.libraries m hm (mem_values_of_get? hget)

theorem isFrame_rename (hf : facts.Avoids new) (hx : x ≠ new) :
    (facts.rename old new).isFrame (renamed old new x) = facts.isFrame x := by
  unfold Facts.isFrame Facts.rename
  cases h : facts.frameVariables with
  | absent => rfl
  | nothing => rfl
  | value vs =>
    simp only [Given.map]
    rw [contains_renamed hx (hf.frames vs h)]

/-! ## Lines of findings -/

def Rule.lines (r : Rule) (n : Node) (facts : Facts) : Except Fault (List Nat) :=
  (r.detect n facts).map (map Finding.line)

theorem lines_findAll_cons (test : Node → Except Fault (Option Finding)) (m : Node)
    (l : List Node) :
    (findAll test (m :: l)).map (map Finding.line) = (do
      let here ← (test m).map (Option.map Finding.line)
      let rest ← (findAll test l).map (map Finding.line)
      return here.toList ++ rest) := by
  rw [findAll]
  cases test m with
  | error e => rfl
  | ok here =>
    cases findAll test l with
    | error e => rfl
    | ok rest => cases here <;> rfl

/-- Tests that say the same of nodes find the same lines. -/
theorem lines_findAll {test test' : Node → Except Fault (Option Finding)} {g : Node → Node}
    (h : ∀ m ∈ l, (test' (g m)).map (Option.map Finding.line)
      = (test m).map (Option.map Finding.line)) :
    (findAll test' (l.map g)).map (map Finding.line) = (findAll test l).map (map Finding.line) := by
  induction l with
  | nil => rfl
  | cons m l ih =>
    obtain ⟨hm, hl⟩ := forall_mem_cons.1 h
    rw [map_cons, lines_findAll_cons, lines_findAll_cons, hm, ih hl]

/-- Remarks that are made about the same nodes are found on the same lines. -/
theorem lines_remarks {α β : Type} {remark? : Node → Option α} {remark'? : Node → Option β}
    {info : α → String} {info' : β → String} {f : String → String}
    (h : ∀ m ∈ l, (remark'? (m.mapNames f)).isSome = (remark? m).isSome) :
    ((l.map (mapNames f)).filterMap fun m =>
        (remark'? m).map fun b => (⟨m.line, info' b⟩ : Finding)).map Finding.line
      = (l.filterMap fun m => (remark? m).map fun a => (⟨m.line, info a⟩ : Finding)).map
          Finding.line := by
  rw [FileRule.map_line_filterMap, FileRule.map_line_filterMap, filter_map, map_map]
  simp only [comp_def, line_mapNames]
  rw [filter_congr h]

theorem lines_bind_pure {α : Type} {x : Except Fault α} {found found' : α → List Finding}
    (h : ∀ a, (found' a).map Finding.line = (found a).map Finding.line) :
    (x >>= fun a => pure (found' a)).map (map Finding.line)
      = (x >>= fun a => pure (found a)).map (map Finding.line) := by
  cases x with
  | error e => rfl
  | ok a => exact congrArg Except.ok (h a)

/-- Nodes that are picked alike are found on the same lines. -/
theorem lines_filter {p p' : Node → Bool} {info info' : Node → String} {f : String → String}
    (h : ∀ m ∈ l, p' (m.mapNames f) = p m) :
    (((l.map (mapNames f)).filter p').map fun m =>
        (⟨m.line, info' m⟩ : Finding)).map Finding.line
      = ((l.filter p).map fun m => (⟨m.line, info m⟩ : Finding)).map Finding.line := by
  rw [filter_map, map_map, map_map, map_map]
  simp only [comp_def, line_mapNames]
  rw [filter_congr h]

/-- `whenImported` gives the same if `detect` does under the new name of the library. -/
theorem lines_whenImported (hold : old ≠ "") (hnew : new ≠ "")
    {detect detect' : String → Except Fault (List Finding)}
    {lines : List Finding → List Nat} (hnil : lines [] = [])
    (h : ∀ name, facts.aliasOf library = .ok (some name) →
      (detect' (renamed old new name)).map (map Finding.line) = (detect name).map lines) :
    (whenImported library (facts.rename old new) detect').map (map Finding.line)
      = (whenImported library facts detect).map lines := by
  unfold whenImported
  rw [aliasOf_rename hold hnew]
  cases hname : facts.aliasOf library with
  | error e => rfl
  | ok name? =>
    cases name? with
    | none => exact congrArg Except.ok hnil.symm
    | some name => exact h name hname

/-! ## Tests of one node -/

variable {f : String → String}

variable (m)

theorem chainedVariable?_mapNames :
    chainedVariable? (m.mapNames f) = (chainedVariable? m).map f := by
  cases m with
  | subscript _ value _ =>
    cases value with
    | subscript _ base _ => cases base <;> rfl
    | _ => rfl
  | _ => rfl

theorem valuesVariable?_mapNames : valuesVariable? (m.mapNames f) = (valuesVariable? m).map f := by
  cases m with
  | «attribute» _ base attr =>
    cases base with
    | name _ id =>
      by_cases h : attr = "values"
      · subst h; rfl
      · unfold valuesVariable?
        simp [h, mapNames]
    | _ => rfl
  | _ => rfl

theorem keywordNames_mapNames (keywords : List Node) :
    keywordNames (keywords.map (mapNames f)) = keywordNames keywords := by
  unfold keywordNames
  rw [filterMap_map]
  congr 1
  funext k
  cases k <;> rfl

theorem columnConstant?_mapNames : columnConstant? (m.mapNames f)
      = (columnConstant? m).map fun c => (f c.1, c.2.1.mapNames f, c.2.2) := by
  cases m with
  | assign _ targets value =>
    cases targets with
    | nil => rfl
    | cons target targets =>
      cases target with
      | subscript _ base _ =>
        cases base with
        | name _ _ => cases targets <;> cases value <;> rfl
        | _ => rfl
      | _ => rfl
  | _ => rfl

theorem variableCall?_mapNames :
    variableCall? (m.mapNames f) = (variableCall? m).map (Prod.map f id) := by
  cases m with
  | call _ func _ _ =>
    cases func with
    | «attribute» _ base _ => cases base <;> rfl
    | _ => rfl
  | _ => rfl

theorem baseName?_mapNames : baseName? (m.mapNames f) = (baseName? m).map f := by
  induction m using induction_children with
  | h m ih =>
    cases m with
    | «attribute» _ value _ => exact ih value mem_cons_self
    | _ => rfl

theorem unwind_mapNames : unwind (m.mapNames f) = ((unwind m).1.mapNames f, (unwind m).2) := by
  induction m using induction_children with
  | h m ih =>
    cases m with
    | «attribute» _ value _ =>
      simp [mapNames, unwind, ih value mem_cons_self]
    | _ => rfl

theorem ofNode_mapNames : InPlace.ofNode (m.mapNames f) = InPlace.ofNode m := by
  cases m with
  | yield _ value => cases value <;> rfl
  | _ => rfl

theorem inPlaceFlag_mapNames (keywords : List Node) :
    inPlaceFlag (keywords.map (mapNames f)) = inPlaceFlag keywords := by
  unfold inPlaceFlag
  rw [foldl_map]
  congr 1
  funext flag k
  cases k with
  | keyword _ arg value =>
    by_cases harg : arg = some "inplace"
    · subst harg
      exact ofNode_mapNames value
    · simp only [mapNames]
      split
      · next heq => simp_all
      · split
        · next heq => simp_all
        · rfl
  | _ => rfl

theorem isAssignedValue_mapNames (a : Bool) (m : Node) (i : Nat) :
    isAssignedValue a (m.mapNames f) i = isAssignedValue a m i := by
  cases m with
  | assign _ targets _ => simp [isAssignedValue, mapNames]
  | _ => rfl

theorem isList_mapNames : isList (m.mapNames f) = isList m := by
  cases m <;> rfl

theorem isMatrixArgument_mapNames : isMatrixArgument (m.mapNames f) = isMatrixArgument m := by
  cases m with
  | list _ items =>
    simp [isMatrixArgument, mapNames, comp_def, isList_mapNames]
  | _ => rfl

theorem listedTensor?_mapNames : listedTensor? (m.mapNames f) = (listedTensor? m).map f := by
  cases m with
  | call _ func _ _ => cases func <;> rfl
  | _ => rfl

theorem joinedTensors_mapNames : joinedTensors (m.mapNames f) = (joinedTensors m).map f := by
  cases m with
  | call _ func args _ =>
    simp only [mapNames, mapNamesList_eq, joinedTensors, flatMap_map, map_flatMap]
    congr 1
    funext arg
    cases arg with
    | list _ items =>
      simp [mapNames, map_filterMap, listedTensor?_mapNames]
    | _ => rfl
  | _ => rfl

variable {m}

theorem chainedVariable_ne {id : String} (hm : m.Avoids new) (h : chainedVariable? m = some id) :
    id ≠ new := by
  unfold chainedVariable? at h
  split at h
  · cases h
    exact ((hm.child mem_cons_self).child mem_cons_self).ne
  · cases h

theorem valuesVariable_ne {id : String} (hm : m.Avoids new) (h : valuesVariable? m = some id) :
    id ≠ new := by
  unfold valuesVariable? at h
  split at h
  · cases h
    exact (hm.child mem_cons_self).ne
  · cases h

theorem columnConstant_ne {c : String × Node × Syntax.Literal} (hm : m.Avoids new)
    (h : columnConstant? m = some c) : c.1 ≠ new := by
  unfold columnConstant? at h
  split at h
  · cases h
    exact ((hm.child mem_cons_self).child mem_cons_self).ne
  · cases h

theorem baseName_ne {id : String} (hm : m.Avoids new) (h : baseName? m = some id) : id ≠ new := by
  induction m using induction_children with
  | h m ih =>
    cases m with
    | name _ x =>
      cases h
      exact hm.ne
    | «attribute» _ value _ =>
      exact ih value mem_cons_self (hm.child mem_cons_self) h
    | _ => cases h

/-! ## Tests that compare with the name of a library -/

theorem callsFunction_rename (hl : library ≠ new) (hm : m.Avoids new) :
    callsFunction (renamed old new library) function (m.mapNames (renamed old new))
      = callsFunction library function m := by
  cases m with
  | call _ func _ _ =>
    cases func with
    | «attribute» _ base attr =>
      cases base with
      | name _ id => simp [mapNames, callsFunction, renamed_beq hm.receiver.ne hl]
      | _ => rfl
    | _ => rfl
  | _ => rfl

theorem untypedFrame?_rename {pandas : String} (hp : pandas ≠ new) (hm : m.Avoids new) :
    untypedFrame? (renamed old new pandas) (m.mapNames (renamed old new))
      = untypedFrame? pandas m := by
  cases m with
  | call _ func args keywords =>
    cases func with
    | «attribute» _ base attr =>
      cases base with
      | name _ id =>
        simp [mapNames, untypedFrame?, renamed_beq hm.receiver.ne hp, keywordNames_mapNames]
      | _ => rfl
    | _ => rfl
  | _ => rfl

theorem isMatrixDot_rename (hn : numpy ≠ new) (hm : m.Avoids new) :
    isMatrixDot (renamed old new numpy) (m.mapNames (renamed old new)) = isMatrixDot numpy m := by
  cases m with
  | call _ func args _ =>
    cases func with
    | «attribute» _ base attr =>
      cases base with
      | name _ id =>
        by_cases hattr : attr = "dot"
        · subst hattr
          simp [mapNames, isMatrixDot, renamed_beq hm.receiver.ne hn, comp_def,
            isMatrixArgument_mapNames]
        · simp [mapNames, isMatrixDot, hattr]
      | _ => rfl
    | _ => rfl
  | _ => rfl

theorem isNaN_rename (hold : "nan" ≠ old) (hnew : "nan" ≠ new) (hn : numpy ≠ new)
    (hm : m.Avoids new) :
    isNaN (renamed old new numpy) (m.mapNames (renamed old new)) = isNaN numpy m := by
  cases m with
  | name _ id => exact renamed_beq_of_ne hold hnew
  | «attribute» _ base attr =>
    cases base with
    | name _ id =>
      simp [mapNames, isNaN, renamed_beq (hm.child mem_cons_self).ne hn]
    | _ => rfl
  | _ => rfl

theorem comparesNaN_rename (hold : "nan" ≠ old) (hnew : "nan" ≠ new) (hn : numpy ≠ new)
    (hm : m.Avoids new) :
    comparesNaN (renamed old new numpy) (m.mapNames (renamed old new)) = comparesNaN numpy m := by
  cases m with
  | compare _ left _ comparators =>
    have hright : (comparators.map (mapNames (renamed old new))).any
          (isNaN (renamed old new numpy))
        = comparators.any (isNaN numpy) := by
      refine any_map_congr fun c hc => ?_
      exact isNaN_rename hold hnew hn (hm.child (mem_cons_of_mem _ hc))
    simp [mapNames, comparesNaN, hright, isNaN_rename hold hnew hn (hm.child mem_cons_self)]
  | _ => rfl

theorem isAttributePath_rename {base : String} (hb : base ≠ new) (attributes : List String)
    (hm : m.Avoids new) :
    isAttributePath (renamed old new base) attributes (m.mapNames (renamed old new))
      = isAttributePath base attributes m := by
  induction attributes generalizing m with
  | nil =>
    cases m with
    | name _ id => exact renamed_beq hm.ne hb
    | _ => rfl
  | cons a attributes ih =>
    cases m with
    | «attribute» _ value attr =>
      simp [mapNames, isAttributePath, ih (hm.child mem_cons_self)]
    | _ => rfl

theorem isNestedCall_rename {base : String} (hb : base ≠ new) (attributes : List String)
    (hm : m.Avoids new) :
    isNestedCall (renamed old new base) attributes (m.mapNames (renamed old new))
      = isNestedCall base attributes m := by
  cases m with
  | call _ func _ _ => exact isAttributePath_rename hb _ (hm.child mem_cons_self)
  | _ => rfl

theorem leaksModels_rename (ht : tensorflow ≠ new) (hm : m.Avoids new) :
    leaksModels (renamed old new tensorflow) (m.mapNames (renamed old new))
      = leaksModels tensorflow m := by
  have hcalls (attributes : List String) :
      (m.mapNames (renamed old new)).walk.any (isNestedCall (renamed old new tensorflow) attributes)
        = m.walk.any (isNestedCall tensorflow attributes) := by
    rw [walk_mapNames]
    exact any_map_congr fun c hc => isNestedCall_rename ht attributes (hm.of_mem_walk hc)
  simp only [leaksModels, hcalls]

/-! ## Tests that look up variables -/

theorem isFrameExpr_rename (hframes : new ∉ frames) (hm : m.Avoids new) :
    isFrameExpr (frames.map (renamed old new)) (m.mapNames (renamed old new))
      = isFrameExpr frames m := by
  cases m with
  | name _ id => exact contains_renamed hm.ne hframes
  | subscript _ value _ =>
    cases value with
    | name _ id => exact contains_renamed (hm.child mem_cons_self).ne hframes
    | _ => rfl
  | _ => rfl

theorem isSlowCall_rename (hframes : new ∉ frames) (hm : m.Avoids new) :
    isSlowCall (frames.map (renamed old new)) (m.mapNames (renamed old new))
      = isSlowCall frames m := by
  cases m with
  | call _ func _ _ =>
    cases func with
    | «attribute» _ base _ =>
      simp [mapNames, isSlowCall, isFrameExpr_rename hframes hm.receiver]
    | _ => rfl
  | _ => rfl

theorem slowLoop?_rename (hframes : new ∉ frames) (hm : m.Avoids new) :
    slowLoop? (frames.map (renamed old new)) (m.mapNames (renamed old new))
      = slowLoop? frames m := by
  have hfind : ((m.mapNames (renamed old new)).walk.find?
        (isSlowCall (frames.map (renamed old new))))
      = (m.walk.find? (isSlowCall frames)).map (mapNames (renamed old new)) := by
    rw [walk_mapNames, find?_map]
    congr 1
    refine find?_congr fun c hc => ?_
    exact isSlowCall_rename hframes (hm.of_mem_walk hc)
  simp only [slowLoop?, hfind, line_mapNames, Option.map_map, comp_def]
  cases m with
  | forLoop _ _ target iter _ _ =>
    have hiter : iter.Avoids new := hm.child (mem_cons_of_mem _ mem_cons_self)
    simp only [mapNames, isSlowCall_rename hframes hiter]
  | _ => rfl

theorem unclearedLines_rename (hnames : new ∉ names) (cleared : Bool) (hl : ∀ c ∈ l, c.Avoids new) :
    unclearedLines (names.map (renamed old new)) cleared (l.map (mapNames (renamed old new)))
      = unclearedLines names cleared l := by
  induction l generalizing cleared with
  | nil => rfl
  | cons c l ih =>
    obtain ⟨hc, hl⟩ := forall_mem_cons.1 hl
    simp only [map_cons, unclearedLines, variableCall?_mapNames, line_mapNames, ih _ hl]
    cases hcall : variableCall? c with
    | none => rfl
    | some call =>
      have hid : call.1 ≠ new := by
        unfold variableCall? at hcall
        split at hcall
        · cases hcall
          exact hc.receiver.ne
        · cases hcall
      simp only [Option.map_some, Prod.map_fst, Prod.map_snd, id_eq, contains_renamed hid hnames]

theorem isSome_forwardCall?_rename (hold : "self" ≠ old) (hnew : "self" ≠ new)
    (hnames : new ∉ names) (hm : m.Avoids new) :
    (forwardCall? (names.map (renamed old new)) (m.mapNames (renamed old new))).isSome
      = (forwardCall? names m).isSome := by
  cases m with
  | call _ func _ _ =>
    cases func with
    | «attribute» _ base attr =>
      by_cases hattr : attr = "forward"
      · subst hattr
        simp only [mapNames, forwardCall?, baseName?_mapNames]
        cases hbase : baseName? base with
        | none => rfl
        | some id =>
          have hid : id ≠ new := baseName_ne hm.receiver hbase
          simp only [Option.map_some, renamed_beq_of_ne hold hnew, contains_renamed hid hnames]
          split_ifs <;> rfl
      · simp [mapNames, forwardCall?, hattr]
    | _ => rfl
  | _ => rfl

/-! ## Full names -/

theorem libraryNamed?_rename {id : String} (hid : id ≠ new) (hnew : new ∉ libraries.values) :
    libraryNamed? (libraries.map (renamed old new)) (renamed old new id)
      = libraries.libraryNamed? id := by
  unfold libraryNamed? findKey? Keyed.map
  rw [find?_map, Option.map_map]
  congr 1
  refine find?_congr fun e he => renamed_beq ?_ hid
  rintro rfl
  exact hnew (mem_map_of_mem he)

theorem exists_libraryNamed? (h : old ∈ libraries.values) :
    ∃ library, libraries.libraryNamed? old = some library := by
  obtain ⟨e, he, rfl⟩ := mem_map.1 h
  have hfound : (libraries.entries.find? fun e' => e'.2 == e.2).isSome := by
    rw [find?_isSome]
    exact ⟨e, he, beq_self_eq_true _⟩
  obtain ⟨e', he'⟩ := Option.isSome_iff_exists.1 hfound
  exact ⟨e'.1, congrArg _ he'⟩

theorem avoids_unwind (hm : m.Avoids new) : (unwind m).1.Avoids new := by
  induction m using induction_children with
  | h m ih =>
    cases m with
    | «attribute» _ value _ => exact ih value mem_cons_self (hm.child mem_cons_self)
    | _ => exact hm

/-- `fullName` has the library in place of the name it is used under, so that it does not depend on
that name. -/
theorem fullName_rename (hold : old ∈ libraries.values) (hnew : new ∉ libraries.values)
    (hm : m.Avoids new) :
    fullName (libraries.map (renamed old new)) (m.mapNames (renamed old new))
      = libraries.fullName m := by
  have hbase := avoids_unwind hm
  simp only [fullName, unwind_mapNames]
  generalize (unwind m).1 = base at hbase
  cases base with
  | name _ id =>
    simp only [mapNames, libraryNamed?_rename hbase.ne hnew]
    by_cases hid : id = old
    · obtain ⟨library, hlibrary⟩ := exists_libraryNamed? hold
      simp [hid, hlibrary]
    · rw [renamed_of_ne hid]
  | _ => rfl

theorem deterministicCall?_rename (hold : old ∈ libraries.values) (hnew : new ∉ libraries.values)
    (hm : m.Avoids new) :
    deterministicCall? (libraries.map (renamed old new)) (m.mapNames (renamed old new))
      = deterministicCall? libraries m := by
  cases m with
  | call _ func args _ =>
    have hname := fullName_rename hold hnew (hm.child mem_cons_self)
    cases args with
    | nil => rfl
    | cons arg args =>
      cases arg with
      | constant _ value =>
        cases value with
        | bool b =>
          cases b with
          | true =>
            cases args with
            | nil => simp [mapNames, deterministicCall?, hname]
            | cons _ _ => rfl
          | false => rfl
        | _ => rfl
      | _ => rfl
  | _ => rfl

/-- Whether a call is a `bareModel?` is told by the last part of its full name. -/
theorem isSome_bareModel?_mapNames {libraries' : LibraryMap} (models : List String)
    (h : ∀ func, func.Avoids new →
      lastComponent (libraries'.fullName (func.mapNames f))
        = lastComponent (libraries.fullName func))
    (hm : m.Avoids new) :
    (bareModel? libraries' models (m.mapNames f)).isSome
      = (bareModel? libraries models m).isSome := by
  cases m with
  | call _ func args keywords =>
    have hname := h func (hm.child mem_cons_self)
    cases args with
    | nil =>
      cases keywords with
      | nil =>
        simp only [mapNames, mapNamesList, bareModel?, hname]
        split_ifs <;> rfl
      | cons _ _ => rfl
    | cons _ _ => rfl
  | _ => rfl

/-- `hyperparameters` has the same lines if full names have the same last parts. -/
theorem lines_hyperparameters_mapNames {facts' : Facts} {libraries' : LibraryMap}
    (hlibraries : facts.libraries = some libraries)
    (hlibraries' : facts'.libraries = some libraries')
    (hempty : libraries'.isEmpty = libraries.isEmpty)
    (hmethods : facts'.modelMethods = facts.modelMethods) (hn : n.Avoids new)
    (h : ∀ func, func.Avoids new → lastComponent (libraries'.fullName (func.mapNames f))
        = lastComponent (libraries.fullName func)) :
    hyperparameters.lines (n.mapNames f) facts' = hyperparameters.lines n facts := by
  unfold Rule.lines hyperparameters
  simp only [hlibraries, hlibraries', hempty, hmethods, walk_mapNames]
  split_ifs
  · rfl
  · have hmodel (models : List String) (m : Node) (hm : m ∈ n.walk) :=
      isSome_bareModel?_mapNames models h (hn.of_mem_walk hm)
    cases facts.modelMethods <;>
      exact lines_bind_pure fun models => lines_remarks (hmodel models)

/-! ## Tensors -/

theorem avoids_of_mem_targets {s : Syntax.Span} {targets : List Node} {value target : Node}
    (h : (assign s targets value).Avoids new) (ht : target ∈ targets) :
    target.Avoids new :=
  h.child (mem_append_left _ ht)

theorem avoids_value {s : Syntax.Span} {targets : List Node} {value : Node}
    (h : (assign s targets value).Avoids new) : value.Avoids new :=
  h.child (mem_append_right _ mem_cons_self)

theorem constantTensors_rename (ht : tensorflow ≠ new) (hn : n.Avoids new) :
    constantTensors (renamed old new tensorflow) (n.mapNames (renamed old new))
      = (constantTensors tensorflow n).map (renamed old new) := by
  unfold constantTensors
  rw [walk_mapNames, flatMap_map, map_flatMap]
  refine flatMap_congr fun m hm => ?_
  have hm := hn.of_mem_walk hm
  cases m with
  | assign _ targets value =>
    simp only [mapNames, mapNamesList_eq, callsFunction_rename ht (avoids_value hm)]
    split_ifs with hcall
    · rw [filterMap_map, map_filterMap]
      simp
    · rfl
  | _ => rfl

theorem not_mem_constantTensors (hn : n.Avoids new) : new ∉ constantTensors tensorflow n := by
  intro hmem
  obtain ⟨m, hm, hmem⟩ := mem_flatMap.1 hmem
  have hm := hn.of_mem_walk hm
  cases m with
  | assign _ targets value =>
    dsimp only at hmem
    split_ifs at hmem
    · obtain ⟨target, htarget, hid⟩ := mem_filterMap.1 hmem
      refine avoids_of_mem_targets hm htarget target ?_ hid
      rw [preorder_eq]
      exact mem_cons_self
    · cases hmem
  | _ => cases hmem

theorem not_mem_joinedTensors (hm : m.Avoids new) : new ∉ joinedTensors m := by
  intro hmem
  cases m with
  | call _ func args _ =>
    obtain ⟨arg, harg, hmem⟩ := mem_flatMap.1 hmem
    have harg : arg.Avoids new := hm.child (mem_cons_of_mem _ (mem_append_left _ harg))
    cases arg with
    | name _ id =>
      exact harg.ne (mem_singleton.1 hmem).symm
    | list _ items =>
      obtain ⟨item, hitem, hid⟩ := mem_filterMap.1 hmem
      have hitem : item.Avoids new := harg.child hitem
      cases item with
      | name _ id =>
        exact hitem.ne (Option.some.inj hid)
      | call _ func _ _ =>
        cases func with
        | name _ id => exact (hitem.child mem_cons_self).ne (Option.some.inj hid)
        | _ => cases hid
      | _ => cases hid
    | _ => cases hmem
  | _ => cases hmem

theorem tiledVariables_rename (ht : tensorflow ≠ new) (hn : n.Avoids new) :
    tiledVariables (renamed old new tensorflow) (n.mapNames (renamed old new))
      = (tiledVariables tensorflow n).map (renamed old new) := by
  unfold tiledVariables
  rw [walk_mapNames, filterMap_map, map_filterMap]
  refine filterMap_congr fun m hm => ?_
  have hm := hn.of_mem_walk hm
  cases m with
  | assign _ targets value =>
    cases targets with
    | nil => rfl
    | cons target targets =>
      cases target with
      | name _ id =>
        simp only [comp_apply, mapNames, mapNamesList, callsFunction_rename ht (avoids_value hm)]
        split_ifs <;> rfl
      | _ => rfl
  | _ => rfl

theorem not_mem_tiledVariables (hn : n.Avoids new) : new ∉ tiledVariables tensorflow n := by
  intro hmem
  obtain ⟨m, hm, hid⟩ := mem_filterMap.1 hmem
  have hm := hn.of_mem_walk hm
  cases m with
  | assign _ targets value =>
    cases targets with
    | nil => cases hid
    | cons target targets =>
      cases target with
      | name _ id =>
        have hne := (avoids_of_mem_targets hm mem_cons_self).ne
        dsimp only at hid
        split_ifs at hid
        exact hne (Option.some.inj hid)
      | _ => cases hid
  | _ => cases hid

theorem callsFunction_of_ne (hold : library ≠ old) (hnew : library ≠ new) (m : Node) :
    callsFunction library function (m.mapNames (renamed old new))
      = callsFunction library function m := by
  cases m with
  | call _ func _ _ =>
    cases func with
    | «attribute» _ base attr =>
      cases base with
      | name _ id => simp [mapNames, callsFunction, renamed_beq_of_ne hold hnew]
      | _ => rfl
    | _ => rfl
  | _ => rfl

/-- No call is left under a name `old` that has been replaced. -/
theorem callsFunction_old (hne : old ≠ new) (m : Node) :
    callsFunction old function (m.mapNames (renamed old new)) = false := by
  cases m with
  | call _ func _ _ =>
    cases func with
    | «attribute» _ base attr =>
      cases base with
      | name _ id =>
        have hbase : renamed old new id ≠ old := by
          unfold renamed
          split_ifs with hid
          · exact hne.symm
          · exact hid
        simp [mapNames, callsFunction, beq_false_of_ne hbase]
      | _ => rfl
    | _ => rfl
  | _ => rfl

theorem isTiled_rename (ht : new ∉ tiled) (hm : m.Avoids new) :
    isTiled (tiled.map (renamed old new)) (m.mapNames (renamed old new)) = isTiled tiled m := by
  cases m with
  | name _ id => exact contains_renamed hm.ne ht
  | _ => rfl

theorem isSome_tiledOperand?_rename (ht : new ∉ tiled) (hold : inlineTileName ≠ old)
    (hnew : inlineTileName ≠ new) (hm : m.Avoids new) :
    (tiledOperand? (tiled.map (renamed old new)) (m.mapNames (renamed old new))).isSome
      = (tiledOperand? tiled m).isSome := by
  cases m with
  | binOp s left op right =>
    have hleft : left.Avoids new := hm.child mem_cons_self
    have hright : right.Avoids new := hm.child (mem_cons_of_mem _ mem_cons_self)
    simp only [mapNames, tiledOperand?, isTiled_rename ht hleft, isTiled_rename ht hright,
      callsFunction_of_ne hold hnew]
    split_ifs <;> rfl
  | _ => rfl

/-- Without `inlineTileName`, the tilings inside expressions are no longer recognised, and all else
is. -/
theorem isSome_tiledOperand?_rename_inline (ht : new ∉ tiled) (hnew : inlineTileName ≠ new)
    (hm : m.Avoids new) :
    (tiledOperand? (tiled.map (renamed inlineTileName new))
        (m.mapNames (renamed inlineTileName new))).isSome
      = ((tiledOperand? tiled m).filter (· != inlineTileRemark)).isSome := by
  cases m with
  | binOp s left op right =>
    have hleft : left.Avoids new := hm.child mem_cons_self
    have hright : right.Avoids new := hm.child (mem_cons_of_mem _ mem_cons_self)
    simp only [mapNames, tiledOperand?, isTiled_rename ht hleft, isTiled_rename ht hright,
      callsFunction_old hnew, Bool.or_self, Bool.false_eq_true, if_false]
    split_ifs with htiled hinline
    · rfl
    · simp
    · rfl
  | _ => rfl

theorem inPlaceRemark?_rename (hf : facts.Avoids new) (isAssigned : Bool) (hm : m.Avoids new) :
    (facts.rename old new).inPlaceRemark? isAssigned (m.mapNames (renamed old new))
      = facts.inPlaceRemark? isAssigned m := by
  have hmethod : (facts.rename old new).isFrameMethod = facts.isFrameMethod := rfl
  cases m with
  | call _ func _ keywords =>
    cases func with
    | «attribute» _ base attr =>
      cases base with
      | name _ id =>
        simp [mapNames, Facts.inPlaceRemark?, inPlaceFlag_mapNames, hmethod,
          isFrame_rename hf hm.receiver.ne]
      | _ => rfl
    | _ => rfl
  | _ => rfl

theorem inPlaceFindings_rename (hf : facts.Avoids new) {l : List (Bool × Node)}
    (hl : ∀ p ∈ l, p.2.Avoids new) :
    inPlaceFindings (facts.rename old new) (l.map (Prod.map id (mapNames (renamed old new))))
      = inPlaceFindings facts l := by
  induction l with
  | nil => rfl
  | cons p l ih =>
    obtain ⟨isAssigned, m⟩ := p
    obtain ⟨hm, hl⟩ := forall_mem_cons.1 hl
    simp [inPlaceFindings, ih hl, inPlaceRemark?_rename hf isAssigned hm]

/-! ## The rules -/

theorem frameVariables_rename (facts : Facts) : (facts.rename old new).frameVariables
    = facts.frameVariables.map (map (renamed old new)) := rfl

theorem requireVariables_rename (facts : Facts) : (facts.rename old new).requireVariables
      = facts.requireVariables.map (map (renamed old new)) := by
  unfold Facts.requireVariables Facts.rename
  cases facts.names <;> rfl

theorem not_mem_variables (hf : facts.Avoids new) (h : facts.requireVariables = .ok names) :
    new ∉ names := by
  unfold Facts.requireVariables at h
  cases hvs : facts.names with
  | none =>
    rw [hvs] at h
    cases h
  | some vs =>
    rw [hvs] at h
    cases h
    exact hf.names _ hvs

/-- A test of a data-frame variable `x` says the same of the variable under its new name. -/
theorem frameTest_rename (hf : facts.Avoids new) (hx : x ≠ new) (line : Nat) (info info' : String) :
    (do if ← (facts.rename old new).isFrame (renamed old new x) then
          return some (⟨line, info'⟩ : Finding)
        else return none : Except Fault (Option Finding)).map (Option.map Finding.line)
      = (do if ← facts.isFrame x then return some (⟨line, info⟩ : Finding)
            else return none : Except Fault (Option Finding)).map (Option.map Finding.line) := by
  rw [isFrame_rename hf hx]
  cases facts.isFrame x with
  | error e => rfl
  | ok b => cases b <;> rfl

/-- `r` reports the same lines under other names. -/
def Rule.KeepsLines (r : Rule) (old new : String) (n : Node) (facts : Facts) : Prop :=
  r.lines (n.mapNames (renamed old new)) (facts.rename old new) = r.lines n facts

section

variable (hold : old ≠ "") (hnew : new ≠ "") (hn : n.Avoids new) (hf : facts.Avoids new)

include hold hnew hn hf

theorem lines_chainIndexing_rename : chainIndexing.KeepsLines old new n facts := by
  refine lines_whenImported hold hnew rfl fun pandas hp => ?_
  rw [frameVariables_rename]
  cases hframes : facts.frameVariables with
  | absent => rfl
  | _ =>
    rw [walk_mapNames]
    refine lines_findAll fun m hm => ?_
    rw [chainedVariable?_mapNames, line_mapNames]
    cases hid : chainedVariable? m with
    | none => rfl
    | some id => exact frameTest_rename hf (chainedVariable_ne (hn.of_mem_walk hm) hid) _ _ _

theorem lines_frameConversion_rename : frameConversion.KeepsLines old new n facts := by
  refine lines_whenImported hold hnew rfl fun pandas hp => ?_
  rw [walk_mapNames]
  refine lines_findAll fun m hm => ?_
  rw [valuesVariable?_mapNames, line_mapNames]
  cases hid : valuesVariable? m with
  | none => rfl
  | some id => exact frameTest_rename hf (valuesVariable_ne (hn.of_mem_walk hm) hid) _ _ _

theorem lines_gradients_rename : gradients.KeepsLines old new n facts := by
  refine lines_whenImported hold hnew rfl fun torch ht => ?_
  rw [requireVariables_rename]
  cases hnames : facts.requireVariables with
  | error e => rfl
  | ok names =>
    refine congrArg Except.ok ?_
    rw [walk_mapNames, filter_isLoop_mapNames, flatMap_map, map_flatMap, map_flatMap]
    refine flatMap_congr fun loop hloop => ?_
    have hloop : loop.Avoids new := hn.of_mem_walk (mem_of_mem_filter hloop)
    rw [map_map, map_map, walk_mapNames,
      unclearedLines_rename (not_mem_variables hf hnames) _ fun c hc => hloop.of_mem_walk hc]
    rfl

theorem lines_columnTypes_rename : columnTypes.KeepsLines old new n facts := by
  refine lines_whenImported hold hnew rfl fun pandas hp => ?_
  rw [walk_mapNames]
  refine congrArg Except.ok (lines_remarks fun m hm => ?_)
  rw [untypedFrame?_rename (alias_ne hf hp) (hn.of_mem_walk hm)]

theorem lines_matrixProduct_rename : matrixProduct.KeepsLines old new n facts := by
  refine lines_whenImported hold hnew rfl fun numpy hp => ?_
  rw [walk_mapNames]
  refine congrArg Except.ok (lines_filter fun m hm => ?_)
  exact isMatrixDot_rename (alias_ne hf hp) (hn.of_mem_walk hm)

theorem lines_nanComparison_rename (holdNaN : "nan" ≠ old) (hnewNaN : "nan" ≠ new) :
    nanComparison.KeepsLines old new n facts := by
  refine lines_whenImported hold hnew rfl fun numpy hp => ?_
  rw [walk_mapNames]
  refine congrArg Except.ok (lines_filter fun m hm => ?_)
  exact comparesNaN_rename holdNaN hnewNaN (alias_ne hf hp) (hn.of_mem_walk hm)

theorem lines_memoryNotFreed_rename : memoryNotFreed.KeepsLines old new n facts := by
  refine lines_whenImported hold hnew rfl fun tensorflow hp => ?_
  rw [walk_mapNames, filter_isLoop_mapNames]
  refine congrArg Except.ok (lines_filter fun m hm => ?_)
  exact leaksModels_rename (alias_ne hf hp) (hn.of_mem_walk (mem_of_mem_filter hm))

theorem lines_forwardCalls_rename (holdSelf : "self" ≠ old) (hnewSelf : "self" ≠ new) :
    forwardCalls.KeepsLines old new n facts := by
  refine lines_whenImported hold hnew rfl fun torch ht => ?_
  rw [requireVariables_rename]
  cases hnames : facts.requireVariables with
  | error e => rfl
  | ok names =>
    rw [walk_mapNames]
    refine congrArg Except.ok (lines_remarks fun m hm => ?_)
    exact isSome_forwardCall?_rename holdSelf hnewSelf (not_mem_variables hf hnames)
      (hn.of_mem_walk hm)

theorem lines_tensorArray_rename : tensorArray.KeepsLines old new n facts := by
  refine lines_whenImported hold hnew rfl fun tensorflow hp => ?_
  have ht := alias_ne hf hp
  dsimp only
  rw [walkWays_mapNames, constantTensors_rename ht hn, filterMap_map]
  refine congrArg (fun l => Except.ok _) ?_
  refine filterMap_congr fun p hp => ?_
  obtain ⟨way, m⟩ := p
  have hm : m.Avoids new := hn.of_mem_walk (snd_mem_walk hp)
  have hgrows : growsOneOf (renamed old new tensorflow)
        ((constantTensors tensorflow n).map (renamed old new)) (m.mapNames (renamed old new))
      = growsOneOf tensorflow (constantTensors tensorflow n) m := by
    cases m with
    | assign _ targets value =>
      have hvalue := avoids_value hm
      have hjoined : ((joinedTensors value).map (renamed old new)).any
            ((constantTensors tensorflow n).map (renamed old new)).contains
          = (joinedTensors value).any (constantTensors tensorflow n).contains := by
        refine any_map_congr fun x hx => contains_renamed ?_ (not_mem_constantTensors hn)
        rintro rfl
        exact not_mem_joinedTensors hvalue hx
      simp [mapNames, growsOneOf, callsFunction_rename ht hvalue, joinedTensors_mapNames, hjoined]
    | _ => rfl
  simp [inLoop_mapNames, hgrows]

theorem lines_broadcasting_rename (holdTile : inlineTileName ≠ old)
    (hnewTile : inlineTileName ≠ new) : broadcasting.KeepsLines old new n facts := by
  refine lines_whenImported hold hnew rfl fun tensorflow hp => ?_
  simp only [walk_mapNames, tiledVariables_rename (alias_ne hf hp) hn]
  refine congrArg Except.ok (lines_remarks fun m hm => ?_)
  exact isSome_tiledOperand?_rename (not_mem_tiledVariables hn) holdTile hnewTile
    (hn.of_mem_walk hm)

/-- If `inlineTileName` is replaced, exactly the tilings inside expressions are lost. -/
theorem lines_broadcasting_rename_inline (hlost : old = inlineTileName)
    (hnewTile : inlineTileName ≠ new) :
    broadcasting.lines (n.mapNames (renamed old new)) (facts.rename old new)
      = (broadcasting.detect n facts).map fun findings =>
          (findings.filter (·.info != inlineTileRemark)).map Finding.line := by
  refine lines_whenImported hold hnew rfl fun tensorflow hp => ?_
  simp only [walk_mapNames, tiledVariables_rename (alias_ne hf hp) hn, Except.map]
  rw [filter_filterMap]
  refine congrArg Except.ok ?_
  have hkept : (fun m : Node => ((tiledOperand? (tiledVariables tensorflow n) m).map
        fun info => (⟨m.line, info⟩ : Finding)).filter (·.info != inlineTileRemark))
      = fun m => ((tiledOperand? (tiledVariables tensorflow n) m).filter
          (· != inlineTileRemark)).map fun info => (⟨m.line, info⟩ : Finding) := by
    funext m
    cases tiledOperand? _ m with
    | none => rfl
    | some info =>
      simp only [Option.map_some, Option.filter_some]
      split_ifs <;> rfl
  rw [hkept]
  refine lines_remarks fun m hm => ?_
  subst hlost
  exact isSome_tiledOperand?_rename_inline (not_mem_tiledVariables hn) hnewTile (hn.of_mem_walk hm)

theorem lines_emptyColumn_rename : emptyColumn.KeepsLines old new n facts := by
  refine lines_whenImported hold hnew rfl fun pandas hp => ?_
  rw [frameVariables_rename, walk_mapNames]
  refine lines_findAll fun m hm => ?_
  rw [columnConstant?_mapNames, line_mapNames]
  cases hc : columnConstant? m with
  | none => rfl
  | some c =>
    obtain ⟨id, index, value⟩ := c
    have hid : id ≠ new := columnConstant_ne (hn.of_mem_walk hm) hc
    cases index with
    | constant _ column =>
      cases hframes : facts.frameVariables with
      | value frames =>
        simp only [Option.map_some, mapNames, Given.map,
          contains_renamed hid (hf.frames frames hframes)]
        split_ifs
        · cases column.text? <;> rfl
        · rfl
      | _ => rfl
    | _ => rfl

theorem lines_inPlace_rename : inPlace.KeepsLines old new n facts := by
  refine lines_whenImported hold hnew rfl fun pandas hp => ?_
  rw [walkWith_mapNames isAssignedValue_mapNames,
    inPlaceFindings_rename hf fun p hp => hn.of_mem_walk (snd_mem_walk hp)]

theorem lines_mergeParameters_rename : mergeParameters.KeepsLines old new n facts := by
  refine lines_whenImported hold hnew rfl fun pandas hp => ?_
  rw [walk_mapNames]
  refine lines_findAll fun m hm => ?_
  have hm := hn.of_mem_walk hm
  cases m with
  | call _ func _ keywords =>
    cases func with
    | «attribute» _ base attr =>
      by_cases hattr : attr = "merge"
      · subst hattr
        rw [line_mapNames]
        simp only [mapNames, mapNamesList_eq, keywordNames_mapNames]
        cases base with
        | name _ id =>
          simp only [mapNames, Facts.isMergeBase, isFrame_rename hf hm.receiver.ne]
        | «attribute» _ value _ =>
          cases value with
          | name _ id =>
            simp only [mapNames, Facts.isMergeBase,
              renamed_beq (hm.receiver.child mem_cons_self).ne (alias_ne hf hp)]
          | _ => rfl
        | _ => rfl
      · simp [mapNames, hattr]
    | _ => rfl
  | _ => rfl

theorem lines_unnecessaryIteration_rename : unnecessaryIteration.KeepsLines old new n facts := by
  refine lines_whenImported hold hnew rfl fun pandas hp => ?_
  have hloops {frames : List String} (hframes : new ∉ frames) :
      ((n.mapNames (renamed old new)).walk.filter isLoop).filterMap
          (slowLoop? (frames.map (renamed old new)))
        = (n.walk.filter isLoop).filterMap (slowLoop? frames) := by
    rw [walk_mapNames, filter_isLoop_mapNames, filterMap_map]
    refine filterMap_congr fun loop hloop => ?_
    exact slowLoop?_rename hframes (hn.of_mem_walk (mem_of_mem_filter hloop))
  rw [frameVariables_rename]
  cases hframes : facts.frameVariables with
  | absent => exact congrArg (fun l => Except.ok _) (hloops not_mem_nil)
  | nothing => rfl
  | value frames =>
    exact congrArg (fun l => Except.ok _) (hloops (hf.frames frames hframes))

end

/-! ## Rules that go by full names -/

section

variable (hlibraries : facts.libraries = some libraries) (hold : old ∈ libraries.values)
  (hn : n.Avoids new) (hf : facts.Avoids new)

include hlibraries hold hn hf

theorem lines_deterministicAlgorithms_rename :
    deterministicAlgorithms.KeepsLines old new n facts := by
  unfold Rule.KeepsLines Rule.lines deterministicAlgorithms Facts.rename
  simp only [hlibraries, Option.map_some, Option.getD_some, walk_mapNames]
  refine congrArg Except.ok (lines_remarks fun m hm => ?_)
  rw [deterministicCall?_rename hold (hf.libraries _ hlibraries) (hn.of_mem_walk hm)]

theorem lines_hyperparameters_rename : hyperparameters.KeepsLines old new n facts := by
  have hlibraries' : (facts.rename old new).libraries = some (libraries.map (renamed old new)) := by
    rw [Facts.rename, hlibraries, Option.map_some]
  refine lines_hyperparameters_mapNames hlibraries hlibraries' isEmpty_map rfl hn
    fun func hfunc => ?_
  rw [fullName_rename hold (hf.libraries _ hlibraries) hfunc]

end

/-! ## Renaming a library -/

/-- The names that `rules` look for by their spelling. -/
def literalNames : List String := ["nan", "self", inlineTileName]

/-- `new` can be given to a library: neither `n` nor `facts` mention it, and no rule looks for its
spelling. -/
structure Fresh (new : String) (n : Node) (facts : Facts) : Prop where
  nonempty : new ≠ ""
  not_literal : new ∉ literalNames
  tree : n.Avoids new
  facts : facts.Avoids new

/-- `Facts.rename` changes the libraries only if `old` is no variable. -/
theorem rename_eq (hlibraries : facts.libraries = some libraries)
    (hnames : ∀ vs, facts.names = some vs → old ∉ vs)
    (hframes : ∀ vs, facts.frameVariables = .value vs → old ∉ vs) :
    facts.rename old new = { facts with libraries := some (libraries.map (renamed old new)) } := by
  have hlist {vs : List String} (h : old ∉ vs) : vs.map (renamed old new) = vs := by
    refine map_congr_left (fun x hx => renamed_of_ne ?_) |>.trans (map_id vs)
    rintro rfl
    exact h hx
  unfold Facts.rename
  rw [hlibraries]
  have hnames : facts.names.map (map (renamed old new)) = facts.names := by
    cases h : facts.names with
    | none => rfl
    | some vs => exact congrArg some (hlist (hnames vs h))
  have hframes : facts.frameVariables.map (map (renamed old new))
      = facts.frameVariables := by
    cases h : facts.frameVariables with
    | value vs => exact congrArg Given.value (hlist (hframes vs h))
    | _ => rfl
  rw [hnames, hframes]
  rfl

/-- Every rule reports the same lines of a program in which a library is used under the name `new`
instead of `old`, or fails in the same way.  There is one exception: `broadcasting` recognises
tilings inside expressions by `inlineTileName` only, so that exactly these remarks are lost when
that name is replaced. -/
theorem lines_rename_library {r : Rule} (hr : r ∈ rules) {n : Node} {facts : Facts}
    {libraries : LibraryMap} {library old new : String}
    (hlibraries : facts.libraries = some libraries) (halias : libraries.get? library = some old)
    (hold : old ≠ "") (hfresh : Fresh new n facts)
    -- a rule that looks for a name by its spelling is meant to find that name
    (hnan : r = nanComparison → old ≠ "nan") (hself : r = forwardCalls → old ≠ "self") :
    ((r = broadcasting → old ≠ inlineTileName) →
      r.lines (n.mapNames (renamed old new)) (facts.rename old new) = r.lines n facts) ∧
    (r = broadcasting → old = inlineTileName →
      r.lines (n.mapNames (renamed old new)) (facts.rename old new)
        = (r.detect n facts).map fun findings =>
            (findings.filter (·.info != inlineTileRemark)).map Finding.line) ∧
    ((∀ vs, facts.names = some vs → old ∉ vs) →
      (∀ vs, facts.frameVariables = .value vs → old ∉ vs) →
      facts.rename old new
        = { facts with libraries := some (libraries.map (renamed old new)) }) := by
  obtain ⟨hnew, hliteral, hn, hf⟩ := hfresh
  have hmem : old ∈ libraries.values := Keyed.mem_values_of_get? halias
  have hne {x : String} (hx : x ∈ literalNames) : x ≠ new := by
    rintro rfl
    exact hliteral hx
  have hnewTile : inlineTileName ≠ new := hne (by decide)
  refine ⟨?_, ?_, rename_eq hlibraries⟩
  · intro hkept
    simp only [rules, List.mem_cons, List.not_mem_nil, or_false] at hr
    rcases hr with rfl | rfl | rfl | rfl | rfl | rfl | rfl | rfl | rfl | rfl | rfl | rfl | rfl |
      rfl | rfl | rfl
    · exact lines_chainIndexing_rename hold hnew hn hf
    · exact lines_frameConversion_rename hold hnew hn hf
    · exact lines_gradients_rename hold hnew hn hf
    · exact lines_matrixProduct_rename hold hnew hn hf
    · exact lines_forwardCalls_rename hold hnew hn hf (hself rfl).symm (hne (by decide))
    · exact lines_tensorArray_rename hold hnew hn hf
    · exact lines_broadcasting_rename hold hnew hn hf (hkept rfl).symm hnewTile
    · exact lines_columnTypes_rename hold hnew hn hf
    · exact lines_deterministicAlgorithms_rename hlibraries hmem hn hf
    · exact lines_emptyColumn_rename hold hnew hn hf
    · exact lines_hyperparameters_rename hlibraries hmem hn hf
    · exact lines_inPlace_rename hold hnew hn hf
    · exact lines_memoryNotFreed_rename hold hnew hn hf
    · exact lines_mergeParameters_rename hold hnew hn hf
    · exact lines_nanComparison_rename hold hnew hn hf (hnan rfl).symm (hne (by decide))
    · exact lines_unnecessaryIteration_rename hold hnew hn hf
  · rintro rfl hlost
    exact lines_broadcasting_rename_inline hold hnew hn hf hlost hnewTile

/-- A program that adds a tiled tensor to another one, once through a variable and once inside the
sum. -/
def tiledSums : Node :=
  let span (line : Nat) : Syntax.Span := ⟨⟨line, 0⟩, ⟨line, 0⟩⟩
  let name (line : Nat) (id : String) : Node := .name (span line) id
  let tile (line : Nat) : Node :=
    .call (span line) (.attribute (span line) (name line "tf") "tile") [name line "a"] []
  .file [.assign (span 1) [name 1 "b"] (tile 1),
    .exprStmt (span 2) (.binOp (span 2) (name 2 "b") .add (name 2 "a")),
    .exprStmt (span 3) (.binOp (span 3) (tile 3) .add (name 3 "a"))]

/-- The sum that tiles inside is no longer found under another name of the library. -/
theorem lines_rename_library_tiledSums :
    broadcasting.lines tiledSums { libraries := some ⟨[("tensorflow", "tf")]⟩ } = .ok [2, 3] ∧
      broadcasting.lines (tiledSums.mapNames (renamed "tf" "t"))
        { libraries := some ⟨[("tensorflow", "t")]⟩ } = .ok [2] := by
  have hfresh : Fresh "t" tiledSums { libraries := some ⟨[("tensorflow", "tf")]⟩ } := by
    refine ⟨by decide, by decide, by decide +kernel, ?_, ?_, ?_⟩
    · rintro m ⟨⟩
      decide
    · rintro vs ⟨⟩
    · rintro vs ⟨⟩
  have halias : Keyed.get? (⟨[("tensorflow", "tf")]⟩ : LibraryMap) "tensorflow" = some "tf" := rfl
  have hlines := (lines_rename_library (r := broadcasting) (by simp [rules]) rfl halias
    (by decide) hfresh (fun _ => by decide) (fun _ => by decide)).2.1 rfl rfl
  exact ⟨eq_ok_of_toOption (by decide +kernel),
    hlines.trans (eq_ok_of_toOption (by decide +kernel))⟩

end Smell
end SmellLint
