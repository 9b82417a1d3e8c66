import SmellLint.Inspection
import SmellLint.Proofs.Except
import SmellLint.Proofs.Lines.Statement
import SmellLint.Proofs.Occurrences

/-!
# What an inspection gives

The rows of an inspection in closed form (`result_ofSource`): the functions of a program in the
order of the walk, each checked with the facts of the last function of its name.  The only failure
of a program that can be read is a catalogue with an unknown method in it, because every node starts
on a line of the text.
-/

namespace SmellLint

open Syntax (Node)
open List

/-! ## Catalogues with unknown methods -/

namespace Frames

variable {methods : Methods} {e : Fault} {known : List String} {n : Node}

theorem Methods.search_eq_error {name : String} (h : methods.search name = .error e) :
    e = .unknownMember ∧ none ∈ methods := by
  induction methods with
  | nil => cases h
  | cons m methods ih =>
    cases m with
    | none => cases h; exact ⟨rfl, mem_cons_self⟩
    | some m =>
      rw [search] at h
      split_ifs at h
      exact ⟨(ih h).1, mem_cons_of_mem _ (ih h).2⟩

theorem derived_eq_error {targets : List String} (h : derived methods known targets n = .error e) :
    e = .unknownMember ∧ none ∈ methods := by
  unfold derived at h
  split at h
  · split_ifs at h
    · rcases bind_eq_error.1 h with h | ⟨isMember, _, h⟩
      · exact Methods.search_eq_error h
      · split_ifs at h <;> cases h
    · cases h
  · cases h

theorem called_eq_error {targets : List String} (h : called methods targets n = .error e) :
    e = .unknownMember ∧ none ∈ methods := by
  unfold called at h
  split at h
  · split_ifs at h
    · cases h
    · rcases bind_eq_error.1 h with h | ⟨isMember, _, h⟩
      · exact Methods.search_eq_error h
      · split_ifs at h <;> cases h
  · cases h
  · cases h

theorem assigned_eq_error {alias? : Option String}
    (h : assigned methods alias? known n = .error e) :
    e = .unknownMember ∧ none ∈ methods := by
  unfold assigned at h
  split at h
  · rcases bind_eq_error.1 h with h | ⟨fromKnown, _, h⟩
    · exact derived_eq_error h
    · rcases bind_eq_error.1 h with h | ⟨fromAny, _, h⟩
      · exact called_eq_error h
      · cases h
  · cases h

theorem collect_eq_error {alias? : Option String} {nodes : List Node}
    (h : collect methods alias? known nodes = .error e) :
    e = .unknownMember ∧ none ∈ methods := by
  induction nodes generalizing known with
  | nil => cases h
  | cons n nodes ih =>
    rcases bind_eq_error.1 h with h | ⟨more, _, h⟩
    · exact assigned_eq_error h
    · exact ih h

end Frames

namespace Inspection

/-! ## Lines -/

/-- The lines on which nodes of `tree`, read from `source`, start, with their texts. -/
def lineTexts (source : String) (tree : Node) : List (Nat × String) :=
  (tree.walk.filterMap Node.line?).map fun line =>
    (line, (Text.displayLines source).getD (line - 1) "")

variable {tree : Node} {source : String} {catalogue : Catalogue}

theorem within_of_mem_walk {lines : Nat} {n : Node} (h : tree.Within lines) (hn : n ∈ tree.walk) :
    n.Within lines := by
  rw [tree.walk_perm_preorder.mem_iff] at hn
  induction tree using Node.induction_children with
  | h tree ih =>
    rw [Node.preorder_eq] at hn
    rcases mem_cons.1 hn with rfl | hn
    · exact h
    · obtain ⟨m, hm, hn⟩ := mem_flatMap.1 hn
      cases h with
      | mk _ _ hchildren => exact ih m hm (hchildren m hm) hn

/-- Every node `n` starts on a line that is shown. -/
theorem line_of_ofSource? {n : Node} {k : Nat} (h : Node.ofSource? source = some tree)
    (hn : n ∈ tree.walk) (hk : n.line? = some k) :
    1 ≤ k ∧ k ≤ (Text.displayLines source).length := by
  obtain ⟨span, hspan, rfl⟩ := Option.map_eq_some_iff.1 hk
  cases within_of_mem_walk (Node.ofSource?_within h) hn with
  | mk hstart _ _ => exact hstart span hspan

theorem nodeLines_eq (h : Node.ofSource? source = some tree) :
    nodeLines (Text.displayLines source) tree = .ok (lineTexts source tree) := by
  refine mapM_eq_ok fun line hline => ?_
  obtain ⟨n, hn, hl⟩ := mem_filterMap.1 hline
  obtain ⟨hfirst, hlast⟩ := line_of_ofSource? h hn hl
  have hlt : line - 1 < (Text.displayLines source).length := by omega
  simp [getElem?_eq_getElem hlt]

/-! ## Facts about functions -/

/-- The functions of `tree`, each with what is known from its own text. -/
def knownFunctions (catalogue : Catalogue) (tree : Node) :
    Except Fault (List (Node × FunctionFacts)) :=
  tree.functionDefs.mapM fun f => do
    let own ← FunctionFacts.ofFunction catalogue (LibraryMap.ofTree tree) f
    return (f, own)

/-- What is known about the last function with `name`. -/
def lastFacts (known : List (Node × FunctionFacts)) (name : String) : FunctionFacts :=
  ((known.filter fun p => p.1.functionName == name).getLast?.map Prod.snd).getD {}

/-- The facts by name, when the functions `known` are taken in turn. -/
def factsByName (known : List (Node × FunctionFacts)) : Keyed FunctionFacts :=
  known.foldl (fun m p => m.insert p.1.functionName p.2) .empty

theorem getD_factsByName (known : List (Node × FunctionFacts)) (name : String) :
    ((factsByName known).get? name).getD {} = lastFacts known name := by
  have hlist : factsByName known
      = Keyed.ofList (known.map fun p => (p.1.functionName, p.2)) := by
    rw [factsByName, Keyed.ofList, foldl_map]
  rw [hlist, Keyed.get?_ofList, filter_map, getLast?_map, Option.map_map]
  rfl

/-- `functionFacts` come from `knownFunctions` in turn. -/
theorem functionFacts_eq (catalogue : Catalogue) (tree : Node) :
    functionFacts catalogue (LibraryMap.ofTree tree) tree = do
      let known ← knownFunctions catalogue tree
      return factsByName known := by
  unfold functionFacts knownFunctions factsByName
  generalize tree.functionDefs = fs
  generalize (Keyed.empty : Keyed FunctionFacts) = m
  induction fs generalizing m with
  | nil => rfl
  | cons f fs ih =>
    rw [foldlM_cons, mapM_cons]
    cases hown : FunctionFacts.ofFunction catalogue _ f with
    | error e => rfl
    | ok own =>
      simp only [bind, Except.bind, pure, Except.pure] at ih ⊢
      rw [ih]
      split <;> rfl

theorem map_fst_knownFunctions {known : List (Node × FunctionFacts)}
    (h : knownFunctions catalogue tree = .ok known) :
    known.map Prod.fst = tree.functionDefs := by
  unfold knownFunctions at h
  generalize tree.functionDefs = fs at h
  induction fs generalizing known with
  | nil => cases h; rfl
  | cons f fs ih =>
    rw [mapM_cons] at h
    obtain ⟨p, hp, h⟩ := bind_eq_ok.1 h
    obtain ⟨rest, hrest, h⟩ := bind_eq_ok.1 h
    obtain ⟨own, _, hown⟩ := bind_eq_ok.1 hp
    cases hown
    cases h
    rw [map_cons, ih hrest]

/-- `knownFunctions` fails only if `catalogue` holds an unknown method. -/
theorem knownFunctions_eq_error {e : Fault} (h : knownFunctions catalogue tree = .error e) :
    e = .unknownMember ∧ none ∈ catalogue.frameMethods := by
  obtain ⟨f, _, h⟩ := exists_of_mapM_eq_error h
  rcases bind_eq_error.1 h with h | ⟨own, _, h⟩
  · rcases bind_eq_error.1 h with h | ⟨frames, _, h⟩
    · rcases bind_eq_error.1 h with h | ⟨names, _, h⟩
      · exact Frames.collect_eq_error h
      · cases h
    · cases h
  · cases h

/-! ## Rows -/

/-- The rows of the function `f` that is checked with the facts `known`. -/
def rowsWith (catalogue : Catalogue) (filename source : String) (tree f : Node)
    (known : FunctionFacts) : List Row :=
  (Smell.check filename f.functionName f
    (facts catalogue (LibraryMap.ofTree tree) (lineTexts source tree) known)).1

theorem result_ofTree {catalogue : Catalogue} {filename source : String} {tree : Node}
    (h : Node.ofSource? source = some tree) :
    (ofTree catalogue filename source tree).result = do
      let known ← knownFunctions catalogue tree
      return known.flatMap fun p =>
        rowsWith catalogue filename source tree p.1 (lastFacts known p.1.functionName) := by
  unfold ofTree
  simp only [functionFacts_eq, nodeLines_eq h]
  cases hknown : knownFunctions catalogue tree with
  | error e => rfl
  | ok known =>
    have hfunctions := map_fst_knownFunctions hknown
    simp only [← hfunctions, bind, Except.bind, pure, Except.pure]
    -- without functions the lines are not looked at
    cases known with
    | nil => rfl
    | cons p known =>
      simp only [map_cons, flatMap_cons, flatMap_map, getD_factsByName]
      rfl

/-- Every function is checked with its own facts exactly if functions with one name do not differ in
what is known about them. -/
theorem lastFacts_eq_own_iff (known : List (Node × FunctionFacts)) :
    (∀ p ∈ known, lastFacts known p.1.functionName = p.2) ↔
      ∀ p ∈ known, ∀ q ∈ known, p.1.functionName = q.1.functionName → p.2 = q.2 := by
  constructor
  · intro h p hp q hq hname
    rw [← h p hp, hname, h q hq]
  · intro h p hp
    have hmem : p ∈ known.filter fun q => q.1.functionName == p.1.functionName := by simp [hp]
    have hlast := getLast?_eq_some_getLast (ne_nil_of_mem hmem)
    have hfound := mem_filter.1 (mem_of_getLast? hlast)
    rw [lastFacts, hlast]
    exact h _ hfound.1 p hp (by simpa using hfound.2)

/-- The rows of `ofSource` are those of the functions in the order of the walk, each checked with
the facts of the last function of its name (`lastFacts`).  So every function is checked with its own
facts exactly if functions with one name do not differ in them. -/
theorem result_ofSource (catalogue : Catalogue) (filename source : String) :
    match Node.ofSource? source with
    | none => (ofSource catalogue filename source).result =
        .error (.inFile filename .invalidSyntax)
    | some tree =>
      match knownFunctions catalogue tree with
      | .error e => (ofSource catalogue filename source).result = .error e
      | .ok known =>
        (ofSource catalogue filename source).result = .ok (known.flatMap fun p =>
          rowsWith catalogue filename source tree p.1 (lastFacts known p.1.functionName)) ∧
        ((∀ p ∈ known, lastFacts known p.1.functionName = p.2) ↔
          ∀ p ∈ known, ∀ q ∈ known, p.1.functionName = q.1.functionName → p.2 = q.2) := by
  unfold ofSource
  cases h : Node.ofSource? source with
  | none => rfl
  | some tree =>
    have hresult := @result_ofTree catalogue filename source tree h
    dsimp only
    cases hknown : knownFunctions catalogue tree with
    | error e =>
      rw [hknown] at hresult
      exact hresult
    | ok known =>
      rw [hknown] at hresult
      exact ⟨hresult, lastFacts_eq_own_iff known⟩

/-- Two functions with one name: the first one is checked as if it had the parameters of the second,
and a finding is lost. -/
example :
    let source := "import pandas as pd\ndef f(a):\n    a.dropna()\ndef f(b):\n    pass\n"
    (match (ofSource .shipped "code.py" source).result, Node.ofSource? source with
      | .ok rows, some tree =>
        match knownFunctions .shipped tree with
        | .ok known => (rows.length, (known.flatMap fun p =>
            rowsWith .shipped "code.py" source tree p.1 p.2).map Row.line)
        | .error _ => (0, [])
      | _, _ => (0, [])) = (0, [3]) := by
  decide +kernel

end Inspection
end SmellLint
