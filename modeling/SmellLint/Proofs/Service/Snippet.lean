import SmellLint.Proofs.CallGraph.Sound
import SmellLint.Proofs.Project.Single
import SmellLint.Proofs.Workspace.StoredValues
import SmellLint.Proofs.Workspace.TempFiles
import SmellLint.Service.Analysis

/-!
# Snippets that are analyzed on request

A snippet is copied to a temporary file and inspected there, and once more for its call graph.  The
analysis without a call graph takes the copy away only if it has found smells, and the analysis with
one only if the snippet is a program; a copy that cannot be written stays behind empty
(`Service.snippet_leaves`).  Both find the same smells (`Service.analyses_agree`).
-/

namespace SmellLint

open Syntax (Node)
open Inspection Syntax.Node Run Tree List

/-! ## Rows under another file name -/

def Row.inFile (filename : String) (r : Row) : Row := { r with filename }

theorem Smell.Rule.report_inFile (r : Rule) (f g functionName : String) (n : Node) (facts : Facts) :
    (r.report f functionName n facts).1
      = (r.report g functionName n facts).1.map (Row.inFile f) := by
  unfold report
  cases r.detect n facts with
  | error e => rfl
  | ok findings =>
    rw [map_map]
    rfl

namespace Inspection

theorem rowsWith_inFile (catalogue : Catalogue) (f g source : String) (tree n : Node)
    (known : FunctionFacts) : rowsWith catalogue f source tree n known
      = (rowsWith catalogue g source tree n known).map (Row.inFile f) := by
  simp only [rowsWith, Smell.check, flatMap_map, map_flatMap]
  exact flatMap_congr fun r _ => r.report_inFile f g _ _ _

/-- What a file is called makes no difference to what `ofSource` finds in it. -/
theorem result_ofSource_inFile {catalogue : Catalogue} {source : String} {tree : Node}
    (h : ofSource? source = some tree) (f g : String) :
    (ofSource catalogue f source).result
      = (ofSource catalogue g source).result.map (map (Row.inFile f)) := by
  simp only [ofSource, h, result_ofTree h]
  cases knownFunctions catalogue tree with
  | error e => rfl
  | ok known =>
    simp only [bind, Except.bind, pure, Except.pure, Except.map, map_flatMap]
    exact congrArg Except.ok (flatMap_congr fun p _ => rowsWith_inFile ..)

end Inspection

namespace Service

open Run (maxTempNames tempPathAt)

/-! ## Smells of texts -/

/-- The smells of `text`, which has none if it is no program. -/
def smellsIn (text : String) : List SmellRecord :=
  ((ofSource .shipped "" text).result.toOption.getD []).map SmellRecord.ofRow

theorem smellsIn_of_not_program {text : String} (h : ofSource? text = none) :
    smellsIn text = [] := by
  rw [smellsIn, ofSource, h]
  rfl

/-- The rows of a program in any file `f` are `smellsIn` its text. -/
theorem exists_result_ofSource_smellsIn {text : String} {tree : Node}
    (h : ofSource? text = some tree) (f : String) :
    ∃ rows, (ofSource .shipped f text).result = .ok rows ∧
      (∀ r ∈ rows, r.filename = f) ∧ rows.map SmellRecord.ofRow = smellsIn text := by
  have hcatalogue : none ∉ Catalogue.shipped.frameMethods := by decide +kernel
  obtain ⟨rows, hrows⟩ := Analyzer.exists_result_ofSource hcatalogue h ""
  refine ⟨rows.map (Row.inFile f), ?_, ?_, ?_⟩
  · rw [result_ofSource_inFile h f "", hrows]
    rfl
  · intro r hr
    obtain ⟨q, -, rfl⟩ := mem_map.1 hr
    rfl
  · rw [smellsIn, hrows, map_map]
    rfl

/-! ## Copies of programs -/

/-- What keeps `programFile` from writing a program. -/
def fileFault? : Option String → Option Fault
  | some code => (Text.Utf8.encodeFault? code).map .unencodable
  | none => some .nothingToWrite

/-- The text of the program `code` as it is read from its file. -/
def readProgram (code : Option String) : String := Text.unifyNewlines (code.getD "")

/-- What is left in the copy of `code`, which may be `kept`; one that cannot be written stays behind
empty. -/
def remains (code : Option String) (kept : Bool) : Option String :=
  match fileFault? code with
  | none => if kept then some (code.getD "") else none
  | some _ => some ""

/-- `w` after the number `n` has been given out for a copy, with what is left of the copy. -/
def leaving (w : Workspace) (n : Nat) : Option String → Workspace
  | some text => w.withCopy n text
  | none => { w with tempCount := n + 1 }

variable {w v : Workspace} {n : Nat}

section

variable (h : w.NextTemp n) (hw : w.Sound) (ht : w.HasTempDir) (hname : n < maxTempNames)
  (code : Option String)
include h ht hname

theorem exec_programFile : (programFile code).exec w = match fileFault? code with
      | none => (.ok (tempPathAt w.tempDir ".py" n), w.withCopy n (code.getD ""))
      | some e => (.error e, w.withCopy n "") := by
  cases code with
  | none =>
    have hempty := h.exec_tempTextFile ht hname ""
    exact exec_bind_ok _ hempty
  | some code =>
    refine (h.exec_tempTextFile ht hname code).trans ?_
    rw [fileFault?]
    cases Text.Utf8.encodeFault? code <;> rfl

include hw

/-- What a run can do that copies `code` and inspects the copy: it fails with an empty copy, it
fails because the copy is no program, or `k` goes on with the smells of the program. -/
theorem exec_copied_cases {α : Type} (k : String → List Row → Run α) :
    (∃ e, fileFault? code = some e ∧ (programFile code >>= fun path =>
        analyzer.inspect path >>= k path).exec w = (.error e, w.withCopy n "")) ∨
    (fileFault? code = none ∧ ofSource? (readProgram code) = none ∧
      ∃ e printed, (programFile code >>= fun path => analyzer.inspect path >>= k path).exec w
        = (.error e, { w.withCopy n (code.getD "") with printed })) ∨
    (fileFault? code = none ∧ (ofSource? (readProgram code)).isSome = true ∧
      ∃ rows printed, rows.map SmellRecord.ofRow = smellsIn (readProgram code) ∧
        (programFile code >>= fun path => analyzer.inspect path >>= k path).exec w
          = (k (tempPathAt w.tempDir ".py" n) rows).exec
            { w.withCopy n (code.getD "") with printed }) := by
  have hfile := exec_programFile h ht hname code
  cases hfault : fileFault? code with
  | some e =>
    rw [hfault] at hfile
    exact .inl ⟨e, rfl, exec_bind_error _ hfile⟩
  | none =>
    rw [hfault] at hfile
    rw [exec_bind_ok _ hfile]
    obtain ⟨printed, hinspect⟩ := analyzer.exec_inspect_of_read (h.exec_readText hw ht hname _)
    change (analyzer.inspect _).exec _
      = ((ofSource .shipped _ (readProgram code)).result, _) at hinspect
    cases hparse : ofSource? _ with
    | none =>
      rw [ofSource, hparse] at hinspect
      exact .inr (.inl ⟨rfl, rfl, _, printed, exec_bind_error _ hinspect⟩)
    | some tree =>
      obtain ⟨rows, hrows, -, hsmells⟩ := exists_result_ofSource_smellsIn hparse _
      rw [hrows] at hinspect
      exact .inr (.inr ⟨rfl, rfl, rows, printed, hsmells, exec_bind_ok _ hinspect⟩)

/-- `smellsOf` leaves a copy behind only if it is no program. -/
theorem exec_smellsOf : ∃ printed, (smellsOf code).exec w
      = (.ok (if (fileFault? code).isNone then smellsIn (readProgram code) else []),
        { leaving w n (remains code (ofSource? (readProgram code)).isNone) with printed }) := by
  rw [smellsOf, exec_bind_ok _ (exec_outcome _ w), remains]
  rcases exec_copied_cases h hw ht hname code (fun path rows => do
      remove path
      return rows.map SmellRecord.ofRow) with
    ⟨e, hfault, hexec⟩ | ⟨hfault, hparse, e, printed, hexec⟩ |
    ⟨hfault, hparse, rows, printed, hsmells, hexec⟩ <;> rw [hexec, hfault]
  · exact ⟨_, rfl⟩
  · rw [hparse, smellsIn_of_not_program hparse]
    exact ⟨_, rfl⟩
  · rw [exec_bind_ok _ (h.exec_remove hw ht hname _ printed), Option.isNone_eq_false_iff.2 hparse,
      ← hsmells]
    exact ⟨_, rfl⟩

/-- `analyzeSnippet` takes a copy away only if it has smells. -/
theorem exec_analyzeSnippet : ∃ report printed, (analyzeSnippet code).exec w = (.ok report,
      { leaving w n (remains code (smellsIn (readProgram code)).isEmpty) with printed }) := by
  rw [analyzeSnippet, exec_bind_ok _ (exec_outcome _ w), remains]
  rcases exec_copied_cases h hw ht hname code (fun path rows => do
      if rows.isEmpty then return SnippetReport.nothingFound
      remove path
      return SnippetReport.smells _) with
    ⟨e, hfault, hexec⟩ | ⟨hfault, hparse, e, printed, hexec⟩ |
    ⟨hfault, hparse, rows, printed, hsmells, hexec⟩ <;> rw [hexec, hfault]
  · exact ⟨_, _, rfl⟩
  · rw [smellsIn_of_not_program hparse]
    exact ⟨_, _, rfl⟩
  · rw [← hsmells]
    cases rows with
    | nil => exact ⟨_, _, rfl⟩
    | cons row rows =>
      have hremove := h.exec_remove hw ht hname (code.getD "") printed
      simp only [isEmpty_cons, Bool.false_eq_true, if_false, exec_bind_ok _ hremove]
      exact ⟨_, _, rfl⟩

/-! ## What is left behind -/

theorem sound_leaving (left : Option String) (printed : List String) :
    Workspace.Sound { leaving w n left with printed } := by
  cases left with
  | none => exact ⟨hw.tree, hw.isAbsolute, hw.lookup_place⟩
  | some text =>
    have hcopy := h.sound hw ht hname text
    exact ⟨hcopy.tree, hcopy.isAbsolute, hcopy.lookup_place⟩

end

theorem hasTempDir_leaving (h : w.NextTemp n) (ht : w.HasTempDir) (left : Option String)
    (printed : List String) : Workspace.HasTempDir { leaving w n left with printed } := by
  cases left with
  | none => exact ⟨ht.isAbsolute, ht.find_tempDir⟩
  | some text =>
    have hcopy := h.hasTempDir ht text
    exact ⟨hcopy.isAbsolute, hcopy.find_tempDir⟩

/-- `v` is `w` with `texts` in new temporary files. -/
structure Leaves (w : Workspace) (texts : List String) (v : Workspace) : Prop where
  tempDir_eq : v.tempDir = w.tempDir
  entries_eq : ∃ numbers : List Nat, numbers.Nodup ∧ numbers.length = texts.length ∧
    (∀ m ∈ numbers, w.tree.lookup (w.tempPlace m) = none) ∧
    v.tree.entries = w.tree.entries ++
      zipWith (fun m text => (w.tempPlace m, .file (.text text))) numbers texts

namespace Leaves

variable {texts : List String}

theorem refl (w : Workspace) : Leaves w [] w :=
  ⟨rfl, [], nodup_nil, rfl, forall_mem_nil _, (append_nil _).symm⟩

theorem tree_eq_iff (h : Leaves w texts v) : v.tree = w.tree ↔ texts = [] := by
  obtain ⟨numbers, -, hlength, -, hentries⟩ := h.entries_eq
  refine ⟨fun htree => ?_, ?_⟩
  · have := congrArg length hentries
    rw [htree, length_append, length_zipWith] at this
    exact eq_nil_of_length_eq_zero (by omega)
  · rintro rfl
    rw [zipWith_nil_right, append_nil] at hentries
    exact congrArg Tree.mk hentries

theorem length_entries (h : Leaves w texts v) :
    v.tree.entries.length = w.tree.entries.length + texts.length := by
  obtain ⟨numbers, -, hlength, -, hentries⟩ := h.entries_eq
  rw [hentries, length_append, length_zipWith, hlength, min_self]

/-- One more copy stays behind, under a number that is none of the others. -/
theorem withCopy (h : Leaves w texts v) (hn : v.NextTemp n) (hv : v.Sound) (text : String) :
    Leaves w (texts ++ [text]) (v.withCopy n text) := by
  obtain ⟨numbers, hnodup, hlength, hfree, hentries⟩ := h.entries_eq
  have hplace : v.tempPlace n = w.tempPlace n := by rw [Workspace.tempPlace, h.tempDir_eq]; rfl
  have hne := Workspace.NextTemp.tempPlace_ne w n
  have hnew : (v.tree.entries.lookup (w.tempPlace n)) = none := by
    rw [← lookup_eq _ hne, ← hplace]
    exact hn.free
  rw [hentries, lookup_append, Option.or_eq_none_iff] at hnew
  have hother : n ∉ numbers := by
    intro hmem
    obtain ⟨i, hi, rfl⟩ := mem_iff_getElem.1 hmem
    have htexts : i < texts.length := hlength ▸ hi
    have hdiffer := lookup_eq_none_iff.1 hnew.2
      (w.tempPlace numbers[i], .file _)
      (mem_iff_getElem.2 ⟨i, by rw [length_zipWith]; omega, getElem_zipWith⟩)
    exact bne_iff_ne.1 hdiffer rfl
  refine ⟨h.tempDir_eq, numbers ++ [n], ?_, ?_, ?_, ?_⟩
  · rw [← concat_eq_append]
    exact hnodup.concat hother
  · simp [hlength]
  · intro m hm
    rcases mem_append.1 hm with hm | hm
    · exact hfree m hm
    · rw [mem_singleton.1 hm, lookup_eq _ hne]
      exact hnew.1
  · rw [hn.entries_withCopy hv, hentries, hplace, zipWith_append hlength, append_assoc]
    rfl

theorem leaving (h : Leaves w texts v) (hn : v.NextTemp n) (hv : v.Sound) (left : Option String)
    (printed : List String) :
    Leaves w (texts ++ left.toList) { leaving v n left with printed } := by
  cases left with
  | none =>
    rw [Option.toList_none, append_nil]
    exact ⟨h.tempDir_eq, h.entries_eq⟩
  | some text =>
    have hcopy := h.withCopy hn hv text
    exact ⟨hcopy.tempDir_eq, hcopy.entries_eq⟩

end Leaves

theorem remains_eq_none_iff {code : Option String} {kept : Bool} :
    remains code kept = none ↔ fileFault? code = none ∧ kept = false := by
  rw [remains]
  cases fileFault? code <;> cases kept <;> simp

/-! ## Snippets -/

theorem exec_graphOf (root : String) (paths : List String) (name : String) (v : Workspace) :
    ∃ graph, (graphOf root paths name).exec v = (.ok graph, v) := by
  cases paths with
  | nil => exact ⟨none, rfl⟩
  | cons first rest =>
    rw [graphOf, exec_bind_ok _ (CallGraph.exec_loadFiles _ _ _ v)]
    exact ⟨_, rfl⟩

/-- `analyzeSnippetGraph` takes the copy for the call graph away unless it cannot be written. -/
theorem exec_analyzeSnippetGraph {code : Option String} {smells : List SmellRecord}
    (hsmells : (smellsOf code).exec w = (.ok smells, v)) (h : v.NextTemp n) (hv : v.Sound)
    (ht : v.HasTempDir) (hname : n < maxTempNames) :
    ∃ report printed, (analyzeSnippetGraph code).exec w
      = (.ok report, { leaving v n (remains code false) with printed }) := by
  have hfile := exec_programFile h ht hname code
  rw [analyzeSnippetGraph, exec_bind_ok _ hsmells, exec_bind_ok _ (exec_outcome _ v),
    hfile, remains]
  cases fileFault? code with
  | some e => exact ⟨_, _, rfl⟩
  | none =>
    obtain ⟨graph, hgraph⟩ := exec_graphOf _
      [tempPathAt v.tempDir ".py" n] "" (v.withCopy n _)
    have hremove := h.exec_remove hv ht hname (code.getD "") v.printed
    refine ⟨⟨smells, graph⟩, v.printed, ?_⟩
    exact (exec_bind_ok _ hgraph).trans (exec_bind_ok _ hremove)

/-- What the analysis of a snippet leaves behind.  With `analyzeSnippet` it is the copy of a snippet
in which no smells are found, and with `analyzeSnippetGraph` the first copy of a snippet that is no
program.  Copies that cannot be written stay behind empty. -/
theorem snippet_leaves (hw : w.Sound) (ht : w.HasTempDir)
    (hnames : w.tempCount + 2 * w.tree.entries.length + 2 < maxTempNames) (code : Option String) :
    (∃ report u, (analyzeSnippet code).exec w = (.ok report, u) ∧
      Leaves w (remains code (smellsIn (readProgram code)).isEmpty).toList u ∧
      (u.tree = w.tree ↔ fileFault? code = none ∧ smellsIn (readProgram code) ≠ [])) ∧
    ∃ report u, (analyzeSnippetGraph code).exec w = (.ok report, u) ∧
      Leaves w ((remains code (Node.ofSource? (readProgram code)).isNone).toList ++
        (remains code false).toList) u ∧
      (u.tree = w.tree ↔
        fileFault? code = none ∧ (Node.ofSource? (readProgram code)).isSome = true) := by
  obtain ⟨n, hn⟩ := w.exists_nextTemp
  have hlast := hn.le_length
  have hname : n < maxTempNames := by omega
  constructor
  · obtain ⟨report, printed, hexec⟩ := exec_analyzeSnippet hn hw ht hname code
    have hleaves := (Leaves.refl w).leaving hn hw
      (remains code (smellsIn (readProgram code)).isEmpty) printed
    refine ⟨report, _, hexec, hleaves, hleaves.tree_eq_iff.trans ?_⟩
    rw [List.nil_append, Option.toList_eq_nil_iff, remains_eq_none_iff, List.isEmpty_eq_false_iff]
  · obtain ⟨printed, hsmells⟩ := exec_smellsOf hn hw ht hname code
    generalize hleft : remains code (Node.ofSource? (readProgram code)).isNone = left at hsmells ⊢
    let v : Workspace := { leaving w n left with printed }
    have hfirst : Leaves w left.toList v := (Leaves.refl w).leaving hn hw left printed
    have hv : v.Sound := sound_leaving hn hw ht hname left printed
    have htv : v.HasTempDir := hasTempDir_leaving hn ht left printed
    obtain ⟨m, hm⟩ := v.exists_nextTemp
    -- one number has been given out and at most one file has come
    have hname₂ : m < maxTempNames := by
      have hcount : v.tempCount = n + 1 := by cases left <;> rfl
      have hlength := hfirst.length_entries
      have hone : left.toList.length ≤ 1 := by cases left <;> simp
      have hlast₂ := hm.le_length
      omega
    obtain ⟨report, printed₂, hexec⟩ := exec_analyzeSnippetGraph hsmells hm hv htv hname₂
    have hleaves := hfirst.leaving hm hv (remains code false) printed₂
    refine ⟨report, _, hexec, hleaves, hleaves.tree_eq_iff.trans ?_⟩
    rw [List.append_eq_nil_iff, Option.toList_eq_nil_iff, Option.toList_eq_nil_iff, ← hleft,
      remains_eq_none_iff, remains_eq_none_iff, Option.isNone_eq_false_iff]
    tauto

/-- A workspace with nothing but a directory for temporary files. -/
def onlyTemp : Workspace where
  tree := ⟨[(["tmp"], .dir)]⟩
  tempDir := "/tmp"

/-- An empty snippet has no smells but is a program; a text that is no program stays behind either
way. -/
theorem snippet_leaves_onlyTemp :
    onlyTemp.Sound ∧ onlyTemp.HasTempDir ∧
    (∃ report u, (analyzeSnippet (some "")).exec onlyTemp = (.ok report, u) ∧
      Leaves onlyTemp [""] u ∧ u.tree ≠ onlyTemp.tree) ∧
    (∃ report u, (analyzeSnippetGraph (some "")).exec onlyTemp = (.ok report, u) ∧
      u.tree = onlyTemp.tree) ∧
    ∃ report u, (analyzeSnippetGraph (some "x = (")).exec onlyTemp = (.ok report, u) ∧
      Leaves onlyTemp ["x = ("] u ∧ u.tree ≠ onlyTemp.tree := by
  have hw : onlyTemp.Sound := ⟨by decide +kernel, by decide, rfl⟩
  have ht : onlyTemp.HasTempDir := ⟨by decide, rfl⟩
  obtain ⟨⟨report, u, hexec, hleaves, htree⟩, reportG, uG, hexecG, -, htreeG⟩ :=
    snippet_leaves hw ht (by decide) (some "")
  obtain ⟨-, report₂, u₂, hexec₂, hleaves₂, htree₂⟩ :=
    snippet_leaves hw ht (by decide) (some "x = (")
  have hnone : (smellsIn (readProgram (some ""))).isEmpty = true := by decide +kernel
  have hbroken : (Node.ofSource? (readProgram (some "x = ("))).isNone = true := by decide +kernel
  have hfault : fileFault? (some "") = none ∧ fileFault? (some "x = (") = none := by decide
  rw [remains, hfault.1, hnone] at hleaves
  rw [remains, remains, hfault.2, hbroken] at hleaves₂
  refine ⟨hw, ht, ⟨report, u, hexec, hleaves, ?_⟩, ⟨reportG, uG, hexecG, htreeG.2 ⟨hfault.1, ?_⟩⟩,
    report₂, u₂, hexec₂, hleaves₂, ?_⟩
  · exact fun h => (htree.1 h).2 (List.isEmpty_iff.1 hnone)
  · decide +kernel
  · intro h
    have hsome := (htree₂.1 h).2
    rw [Option.isNone_iff_eq_none.1 hbroken] at hsome
    cases hsome

/-! ## Analyses with and without a call graph -/

def SnippetReport.found : SnippetReport → List SmellRecord
  | .smells found => found
  | _ => []

/-- What `programFile` has written can be taken away. -/
theorem exec_remove_of_programFile {code : Option String} {path : String}
    (h : (programFile code).exec w = (.ok path, v)) : ∃ u, (remove path).exec v = (.ok (), u) := by
  cases code with
  | none =>
    obtain ⟨_, _, -, hthrow⟩ := exec_bind_eq_ok h
    cases hthrow
  | some text =>
    obtain ⟨n, hn⟩ := w.exists_nextTemp
    have hsuffix : '/' ∉ ".py".toList := by decide
    have hname := isProper_tempName hsuffix n
    have hslash := Path.endsWith_slash_join w.tempDir hname.1
    rw [programFile, tempTextFile, exec_bind_ok _ hn.exec_tempPath] at h
    generalize ({ w with tempCount := n + 1 } : Workspace) = w₁ at h
    obtain ⟨_, u, hwrite, hpath⟩ := exec_bind_eq_ok h
    cases hpath
    cases hresolve : w₁.tree.resolve w₁.place _ with
    | error f =>
      rw [exec_writeText_of_error hresolve] at hwrite
      cases hwrite
    | ok p =>
      obtain ⟨hdir, -, rfl⟩ := exec_writeText_eq_ok hresolve hslash hwrite
      have hfile : w₁.IsFilePath (tempPathAt w.tempDir ".py" n) p :=
        ⟨hresolve, hdir, hslash, _, _, names_tempPathAt _ hsuffix n, hname⟩
      have hfind := find_of_resolve (hfile.insert hdir (.text text)).resolve_eq
        (lookup_insert_self _ hfile.ne_nil _)
      exact ⟨_, exec_bind_ok _ ((exec_find _ _).trans (congrArg (·, _) hfind))⟩

theorem exists_exec_analyzeSnippetGraph {code : Option String} {smells : List SmellRecord}
    (h : (smellsOf code).exec w = (.ok smells, v)) :
    ∃ graph u, (analyzeSnippetGraph code).exec w = (.ok ⟨smells, graph⟩, u) := by
  rw [analyzeSnippetGraph, exec_bind_ok _ h, exec_bind_ok _ (exec_outcome _ v)]
  rcases hfile : (programFile code).exec v with ⟨x, u⟩
  cases x with
  | error e => exact ⟨none, _, rfl⟩
  | ok path =>
    obtain ⟨graph, hgraph⟩ := exec_graphOf _ [path] "" u
    obtain ⟨u', hremove⟩ := exec_remove_of_programFile hfile
    exact ⟨graph, u', (exec_bind_ok _ hgraph).trans (exec_bind_ok _ hremove)⟩

/-- `analyzeSnippet` and `smellsOf` make a copy and inspect it, and fail or go on together. -/
theorem exists_exec_smellsOf (code : Option String) (w : Workspace) :
    ∃ report u v, (analyzeSnippet code).exec w = (.ok report, u) ∧
      (smellsOf code).exec w = (.ok report.found, v) := by
  rw [analyzeSnippet, smellsOf, exec_bind_ok _ (exec_outcome _ w),
    exec_bind_ok _ (exec_outcome _ w)]
  rcases hfile : (programFile code).exec w with ⟨x, v⟩
  cases x with
  | error e =>
    rw [exec_bind_error _ hfile, exec_bind_error _ hfile]
    exact ⟨_, _, _, rfl, rfl⟩
  | ok path =>
    rw [exec_bind_ok _ hfile, exec_bind_ok _ hfile]
    rcases hinspect : (analyzer.inspect path).exec v with ⟨x, u⟩
    cases x with
    | error e =>
      rw [exec_bind_error _ hinspect, exec_bind_error _ hinspect]
      exact ⟨_, _, _, rfl, rfl⟩
    | ok rows =>
      rw [exec_bind_ok _ hinspect, exec_bind_ok _ hinspect]
      rcases hremove : (remove path).exec u with ⟨x, u'⟩
      cases rows with
      | nil =>
        -- one of them ends before the copy is taken away, and the other finds nothing
        cases x with
        | error e => exact ⟨_, _, _, rfl, by rw [exec_bind_error _ hremove]; rfl⟩
        | ok _ => exact ⟨_, _, _, rfl, by rw [exec_bind_ok _ hremove]; rfl⟩
      | cons row rows =>
        simp only [isEmpty_cons, Bool.false_eq_true, if_false]
        cases x with
        | error e =>
          rw [exec_bind_error _ hremove, exec_bind_error _ hremove]
          exact ⟨_, _, _, rfl, rfl⟩
        | ok _ =>
          rw [exec_bind_ok _ hremove, exec_bind_ok _ hremove]
          exact ⟨_, _, _, rfl, rfl⟩

/-- `report`, without a call graph, and `graph`, with it, have the same smells. -/
def Agree (report : SnippetReport) (graph : GraphReport) : Prop :=
  (∀ found, report = .smells found → graph.smells = found) ∧
  (report = .nothingFound ∨ (∃ message, report = .failed message) → graph.smells = []) ∧
  graph.toJson.get? "success" = some (.bool true)

theorem agree_of_found {report : SnippetReport} {graph : GraphReport}
    (h : graph.smells = report.found) : Agree report graph := by
  refine ⟨?_, ?_, rfl⟩
  · rintro found rfl
    exact h
  · rintro (rfl | ⟨message, rfl⟩) <;> exact h

/-- `analyzeSnippetGraph` always gives a report, and its smells are those of `analyzeSnippet`, or
none if that finds nothing or fails.  This is so wherever both begin, unless no copy can be made in
one of the workspaces. -/
theorem analyses_agree (code : Option String) :
    (∀ w, ∃ report graph u v, (analyzeSnippet code).exec w = (.ok report, u) ∧
      (analyzeSnippetGraph code).exec w = (.ok graph, v) ∧ Agree report graph) ∧
    ∀ w w', (∀ v ∈ [w, w'], v.Sound ∧ v.HasTempDir ∧
        v.tempCount + v.tree.entries.length < maxTempNames) →
      ∃ report graph u v, (analyzeSnippet code).exec w = (.ok report, u) ∧
        (analyzeSnippetGraph code).exec w' = (.ok graph, v) ∧ Agree report graph := by
  refine ⟨fun w => ?_, fun w w' h => ?_⟩
  · obtain ⟨report, u, v, hexec, hsmells⟩ := exists_exec_smellsOf code w
    obtain ⟨graph, v', hgraph⟩ := exists_exec_analyzeSnippetGraph hsmells
    exact ⟨report, _, u, v', hexec, hgraph, agree_of_found rfl⟩
  · have hfound : ∀ v ∈ [w, w'], ∃ u, (smellsOf code).exec v
        = (.ok (if (fileFault? code).isNone then smellsIn (readProgram code) else []), u) := by
      intro v hv
      obtain ⟨hsound, htemp, hnames⟩ := h v hv
      obtain ⟨n, hn⟩ := v.exists_nextTemp
      have hlast := hn.le_length
      obtain ⟨printed, hsmells⟩ := exec_smellsOf hn hsound htemp (by omega) code
      exact ⟨_, hsmells⟩
    obtain ⟨report, u, v, hexec, hsmells⟩ := exists_exec_smellsOf code w
    obtain ⟨v₁, hsmells₁⟩ := hfound w (by simp)
    obtain ⟨v₂, hsmells₂⟩ := hfound w' (by simp)
    obtain ⟨graph, v', hgraph⟩ := exists_exec_analyzeSnippetGraph hsmells₂
    refine ⟨report, _, u, v', hexec, hgraph, agree_of_found ?_⟩
    rw [hsmells₁] at hsmells
    injection hsmells with hsame
    injection hsame

/-- A function with a smell, analyzed without a call graph and then with one. -/
theorem analyses_agree_onlyTemp :
    (∀ v ∈ [onlyTemp, { onlyTemp with tempCount := 1 }], v.Sound ∧ v.HasTempDir ∧
      v.tempCount + v.tree.entries.length < maxTempNames) ∧
    ∃ report graph u v,
      (analyzeSnippet (some "import numpy as np\ndef f(x):\n  return x == np.nan\n")).exec onlyTemp
        = (.ok report, u) ∧
      (analyzeSnippetGraph (some "import numpy as np\ndef f(x):\n  return x == np.nan\n")).exec
        { onlyTemp with tempCount := 1 } = (.ok graph, v) ∧ Agree report graph := by
  have h : ∀ v ∈ [onlyTemp, { onlyTemp with tempCount := 1 }], v.Sound ∧ v.HasTempDir ∧
      v.tempCount + v.tree.entries.length < maxTempNames := by
    intro v hv
    have hcases : v = onlyTemp ∨ v = { onlyTemp with tempCount := 1 } := by simpa using hv
    rcases hcases with rfl | rfl <;>
      exact ⟨⟨by decide +kernel, by decide, rfl⟩, ⟨by decide, rfl⟩, by decide⟩
  exact ⟨h, (analyses_agree _).2 _ _ h⟩

end Service

end SmellLint
