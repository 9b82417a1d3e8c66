import SmellLint.Proofs.Inspection
import SmellLint.Proofs.Lists

/-!
# Rules about the whole file

Five rules look only at what is known about the whole file, so each of them is a test of one node.
How often such a rule reports a node does not depend on how an inspection goes through the program:
a node that fails the test is reported once for every plain function around it
(`rows_perm_expected`).
-/

namespace SmellLint

open Syntax (Node)
open Inspection LibraryMap List

namespace Smell

/-! ## Rows of one rule -/

theorem nodup_smells : (rules.map Rule.smell).Nodup := by decide

theorem smell_of_mem_report {r : Rule} {filename functionName : String} {n : Node} {facts : Facts}
    {row : Row} (h : row ∈ (r.report filename functionName n facts).1) : row.smell = r.smell := by
  unfold Rule.report at h
  split at h
  · obtain ⟨f, _, rfl⟩ := mem_map.1 h
    rfl
  · cases h

/-- The rows of `check` with the smell of `r` are the rows of `r`, because no two rules share a
smell. -/
theorem filter_check {r : Rule} (hr : r ∈ rules) (filename functionName : String) (n : Node)
    (facts : Facts) :
    (check filename functionName n facts).1.filter (fun row => row.smell == r.smell) =
      (r.report filename functionName n facts).1 := by
  have hnodup := nodup_smells
  unfold check
  simp only [flatMap_map]
  generalize rules = all at hr hnodup
  induction all with
  | nil => cases hr
  | cons q all ih =>
    rw [map_cons, nodup_cons] at hnodup
    rw [flatMap_cons, filter_append]
    rcases mem_cons.1 hr with rfl | hr
    · have hown : ((r.report filename functionName n facts).1).filter
          (fun row => row.smell == r.smell) = (r.report filename functionName n facts).1 :=
        filter_eq_self.2 fun row hrow => by simp [smell_of_mem_report hrow]
      have hothers : (all.flatMap fun q => (q.report filename functionName n facts).1).filter
          (fun row => row.smell == r.smell) = [] := by
        refine filter_eq_nil_iff.2 fun row hrow => ?_
        obtain ⟨q, hq, hrow⟩ := mem_flatMap.1 hrow
        have hne : q.smell ≠ r.smell := fun he => hnodup.1 (he ▸ mem_map_of_mem hq)
        simp [smell_of_mem_report hrow, hne]
      rw [hown, hothers, append_nil]
    · have hfirst : ((q.report filename functionName n facts).1).filter
          (fun row => row.smell == r.smell) = [] := by
        refine filter_eq_nil_iff.2 fun row hrow => ?_
        have hne : q.smell ≠ r.smell := fun he => hnodup.1 (he ▸ mem_map_of_mem hr)
        simp [smell_of_mem_report hrow, hne]
      rw [hfirst, nil_append, ih hr hnodup.2]

/-! ## Tests of one node -/

/-- The rules that look only at what is known about the whole file. -/
inductive FileRule where
  | columnTypes
  | nanComparison
  | matrixProduct
  | deterministicAlgorithms
  | hyperparameters
deriving DecidableEq

namespace FileRule

/-- The rule itself. -/
def rule : FileRule → Rule
  | .columnTypes => Smell.columnTypes
  | .nanComparison => Smell.nanComparison
  | .matrixProduct => Smell.matrixProduct
  | .deterministicAlgorithms => Smell.deterministicAlgorithms
  | .hyperparameters => Smell.hyperparameters

/-- The test that the rule makes of `n`, with the libraries of the file and the models of
`catalogue`. -/
def offends (catalogue : Catalogue) (libraries : LibraryMap) (n : Node) : FileRule → Bool
  | .columnTypes => (libraries.nameOf? "pandas").any fun pandas => (untypedFrame? pandas n).isSome
  | .nanComparison => (libraries.nameOf? "numpy").any fun numpy => comparesNaN numpy n
  | .matrixProduct => (libraries.nameOf? "numpy").any fun numpy => isMatrixDot numpy n
  | .deterministicAlgorithms => (deterministicCall? libraries n).isSome
  | .hyperparameters =>
    !libraries.isEmpty &&
      match catalogue.modelMethods.mapM modelName with
      | .ok models => (bareModel? libraries models n).isSome
      | .error _ => false

theorem rule_mem_rules (r : FileRule) : r.rule ∈ rules := by
  cases r <;> simp [rule, rules]

/-- The lines of findings made of remarks are those of the nodes that have a remark. -/
theorem map_line_filterMap {α : Type} (remark? : Node → Option α) (info : α → String)
    (nodes : List Node) :
    (nodes.filterMap fun m => (remark? m).map fun a => (⟨m.line, info a⟩ : Finding)).map
        Finding.line =
      (nodes.filter fun m => (remark? m).isSome).map Node.line := by
  induction nodes with
  | nil => rfl
  | cons m nodes ih => cases h : remark? m <;> simp [h, ih]

theorem whenImported_facts (library : String) (catalogue : Catalogue) (libraries : LibraryMap)
    (lines : List (Nat × String)) (known : FunctionFacts)
    (detect : String → Except Fault (List Finding)) :
    whenImported library (facts catalogue libraries lines known) detect =
      match libraries.nameOf? library with
      | none => .ok []
      | some name => detect name := by
  have halias : (facts catalogue libraries lines known).aliasOf library =
      .ok (libraries.nameOf? library) := rfl
  unfold whenImported
  rw [halias]
  cases libraries.nameOf? library <;> rfl

/-- `detect` of a rule about the whole file finds the nodes that `offends` is true of. -/
theorem lines_detect (r : FileRule) (catalogue : Catalogue) (libraries : LibraryMap)
    (lines : List (Nat × String)) (known : FunctionFacts) (f : Node) :
    (match r.rule.detect f (facts catalogue libraries lines known) with
      | .ok findings => findings.map Finding.line
      | .error _ => []) =
    (f.walk.filter fun m => r.offends catalogue libraries m).map Node.line := by
  cases r with
  | columnTypes =>
    simp only [rule, Smell.columnTypes, whenImported_facts, offends]
    cases libraries.nameOf? "pandas" with
    | none => simp
    | some pandas => exact map_line_filterMap _ id f.walk
  | nanComparison =>
    simp only [rule, Smell.nanComparison, whenImported_facts, offends]
    cases libraries.nameOf? "numpy" with
    | none => simp
    | some numpy => simp
  | matrixProduct =>
    simp only [rule, Smell.matrixProduct, whenImported_facts, offends]
    cases libraries.nameOf? "numpy" with
    | none => simp
    | some numpy => simp
  | deterministicAlgorithms => exact map_line_filterMap _ id f.walk
  | hyperparameters =>
    simp only [rule, Smell.hyperparameters, offends, facts]
    split_ifs with hempty
    · simp [hempty]
    · cases hmodels : catalogue.modelMethods.mapM modelName with
      | error e => simp
      | ok models =>
        simp only [hempty]
        exact map_line_filterMap _ _ f.walk

/-- `report` of a rule about the whole file names the nodes that `offends` is true of. -/
theorem lines_report (r : FileRule) (catalogue : Catalogue) (libraries : LibraryMap)
    (lines : List (Nat × String)) (known : FunctionFacts) (filename : String)
    (f : Node) :
    ((r.rule.report filename f.functionName f
        (facts catalogue libraries lines known)).1.map fun row =>
      (row.functionName, row.line)) =
    (f.walk.filter fun m => r.offends catalogue libraries m).map fun m =>
      (f.functionName, m.line) := by
  have hlines := congrArg (map (f.functionName, ·))
    (r.lines_detect catalogue libraries lines known f)
  rw [map_map] at hlines
  unfold Rule.report
  refine trans ?_ hlines
  split
  · simp [Rule.row, *]
  · simp [*]

/-- What `r` has to report of `tree`: for each place whose node `offends`, one pair of a name and a
line for every plain function around the place. -/
def expected (r : FileRule) (catalogue : Catalogue) (tree : Node) : List (String × Nat) :=
  tree.ways.flatMap fun way =>
    (tree.at? way).toList.flatMap fun n =>
      if r.offends catalogue (ofTree tree) n then
        ((tree.around way).filter Node.isFunctionDef).map fun g => (g.functionName, n.line)
      else []

/-- The pairs that the functions report in turn are those that the places ask for. -/
theorem reports_perm_expected (r : FileRule) (catalogue : Catalogue) (tree : Node) :
    (tree.functionDefs.flatMap fun g =>
      (g.walk.filter fun m => r.offends catalogue (ofTree tree) m).map fun m =>
        (g.functionName, m.line)).Perm (r.expected catalogue tree) := by
  -- both sides are lists over pairs of a function definition and a node in it
  have hpairs : ∀ g : Node,
      (g.walk.filter fun m => r.offends catalogue (ofTree tree) m).map
        (fun m => (g.functionName, m.line)) =
      g.walk.flatMap fun m =>
        if r.offends catalogue (ofTree tree) m then [(g.functionName, m.line)] else [] :=
    fun g => map_filter_eq_flatMap _ _ _
  have hplaces : ∀ way n,
      (if r.offends catalogue (ofTree tree) n then
        ((tree.around way).filter Node.isFunctionDef).map fun g => (g.functionName, n.line)
      else []) =
      (tree.around way).flatMap fun g =>
        if g.isFunctionDef then
          if r.offends catalogue (ofTree tree) n then [(g.functionName, n.line)] else []
        else [] := by
    intro way n
    split_ifs with hn
    · exact map_filter_eq_flatMap _ _ _
    · simp
  unfold expected Node.functionDefs
  simp only [hpairs, hplaces]
  rw [flatMap_filter]
  have h := tree.walks_perm_around fun g m =>
    if g.isFunctionDef then
      if r.offends catalogue (ofTree tree) m then [(g.functionName, m.line)] else []
    else []
  refine Perm.trans (Perm.of_eq ?_) h
  congr 1
  funext g
  split_ifs
  · rfl
  · simp

end FileRule

/-- For every program that can be read, the rows of `r` are those that the places in the tree ask
for (`expected`).  The inspection gives no rows at all only if `catalogue` holds an unknown method
and the search for one comes to it. -/
theorem rows_perm_expected (r : FileRule) (catalogue : Catalogue) (filename source : String) :
    match Node.ofSource? source with
    | none => (ofSource catalogue filename source).result =
        .error (.inFile filename .invalidSyntax)
    | some tree =>
      (∃ rows, (ofSource catalogue filename source).result = .ok rows ∧
        ((rows.filter fun row => row.smell == r.rule.smell).map fun row =>
          (row.functionName, row.line)).Perm (r.expected catalogue tree)) ∨
      (none ∈ catalogue.frameMethods ∧
        (ofSource catalogue filename source).result = .error .unknownMember) := by
  unfold ofSource
  cases h : Node.ofSource? source with
  | none => rfl
  | some tree =>
    have hresult := @result_ofTree catalogue filename source tree h
    dsimp only
    cases hknown : knownFunctions catalogue tree with
    | error e =>
      rw [hknown] at hresult
      obtain ⟨rfl, hunknown⟩ := knownFunctions_eq_error hknown
      exact .inr ⟨hunknown, hresult⟩
    | ok known =>
      rw [hknown] at hresult
      refine .inl ⟨_, hresult, List.Perm.trans (List.Perm.of_eq ?_)
        (r.reports_perm_expected catalogue tree)⟩
      -- the rows of each function, whatever facts it is checked with
      rw [← map_fst_knownFunctions hknown, List.filter_flatMap, List.map_flatMap,
        List.flatMap_map]
      congr 1
      funext p
      rw [rowsWith, filter_check r.rule_mem_rules, r.lines_report]

end Smell
end SmellLint
