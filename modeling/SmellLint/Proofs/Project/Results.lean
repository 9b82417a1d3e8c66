import SmellLint.Proofs.Project.Merge
import SmellLint.Proofs.Project.Noted

/-!
# The results of projects

The analysis of a project of a folder saves its rows in a table of its own (`Analyzer.savedText?`),
unless a file is no text or something is in the way of a note or of the table.  Everything else that
the analysis of a folder changes is in the log, the notes and the folder for details
(`Scene.Turns.advanced`).
-/

namespace SmellLint

open Analyzer Path Project Run Scene Tree

namespace Analyzer

variable {a : Analyzer} {base name : String} {w v u : Workspace}

/-! ## The rows of a project -/

instance (a : Analyzer) (w : Workspace) (f : String) : Decidable (a.CanNote w f) :=
  inferInstanceAs (Decidable (∀ record ∈ a.recordOf w f, _ ∧ _))

/-- The rows of the files for `path`; none if the analysis of one of them fails. -/
def projectRows? (a : Analyzer) (w : Workspace) (path : String) : Option (List Row) :=
  (sourcesAt w path).toOption.bind fun files =>
    if ∀ f ∈ files, a.CanNote w f then (a.allRows w files).toOption else none

theorem HasOutput.toOption_inspectAll (ho : a.HasOutput w) {files : List String}
    (hat : ∀ f ∈ files, ∃ p name c, IsSourceAt w f p name c) :
    ((a.inspectAll files).exec w).1.toOption
      = if ∀ f ∈ files, a.CanNote w f then (a.allRows w files).toOption else none := by
  split
  · next hcan =>
    obtain ⟨v, hexec, -⟩ := exec_inspectAll ho hat hcan ho.noted
    rw [hexec]
  · next hnot =>
    obtain ⟨x, v, hexec⟩ : ∃ x v, (a.inspectAll files).exec w = (x, v) := ⟨_, _, rfl⟩
    rw [hexec]
    cases x with
    | error e => rfl
    | ok rows =>
      -- an inspection that comes to its end has noted every failure
      obtain ⟨_, _, hmap, -⟩ := exec_bind_eq_ok hexec
      exact absurd (ho.noted.canNote_of_mapM ho hat hmap) hnot

/-! ## Where projects write -/

def detailsPath (a : Analyzer) : String := join a.output "project_details"

def resultsPlace (a : Analyzer) (w : Workspace) (name : String) : Place :=
  w.placeOf a.detailsPath ++ [resultsName name]

theorem isName_details : IsName "project_details" := by decide

theorem placeOf_detailsPath (a : Analyzer) (w : Workspace) :
    w.placeOf a.detailsPath = w.placeOf a.output ++ ["project_details"] :=
  w.placeOf_join _ isName_details.1

theorem placeOf_logPath (base : String) (w : Workspace) :
    w.placeOf (logPath base) = w.placeOf base ++ ["execution_log.txt"] :=
  w.placeOf_join _ isName_log.1

/-- The analysis of the projects of `base` may write to `q`. -/
def IsWritten (a : Analyzer) (base : String) (w : Workspace) (q : Place) : Prop :=
  q = w.placeOf a.errorPath ∨ q = w.placeOf (logPath base) ∨ q = w.placeOf a.detailsPath ∨
    ∃ name, q = a.resultsPlace w name

theorem logPath_ne_details (a : Analyzer) (base : String) (w : Workspace) :
    w.placeOf (logPath base) ≠ w.placeOf a.detailsPath := by
  rw [placeOf_logPath, placeOf_detailsPath]
  intro heq
  simp at heq

theorem resultsPlace_ne_logPath (a : Analyzer) (base : String) (w : Workspace) (name : String) :
    a.resultsPlace w name ≠ w.placeOf (logPath base) := by
  rw [placeOf_logPath]
  exact fun heq => resultsName_ne_log name (List.singleton_inj.1 (List.append_inj' heq rfl).2)

/-! ## What a project saves -/

/-- `w` has the output folder of `a` and the folder `base` of projects. -/
structure Ready (a : Analyzer) (base : String) (w : Workspace) : Prop extends HasOutput a w where
  find_base : w.tree.find w.place base = .ok (w.placeOf base, .dir)

/-- Whether the entry `name` of `base` is a project to be analyzed. -/
def isProject (base : String) (w : Workspace) (name : String) : Bool :=
  !(name == "output" || name == "execution_log.txt") && w.tree.isDir (w.placeOf base ++ [name])

/-- Whether the results of the project `name` can be saved: no file is in the way of the folder for
details, and no directory in that of the table. -/
def canSave (a : Analyzer) (w : Workspace) (name : String) : Bool :=
  !w.tree.isFile (w.placeOf a.detailsPath) && decide (IsName (resultsName name)) &&
    !w.tree.isDir (a.resultsPlace w name)

/-- The text of the table that is saved for the entry `name` of `base`, if there is one. -/
def savedText? (a : Analyzer) (base : String) (w : Workspace) (name : String) : Option String :=
  if isProject base w name && a.canSave w name then
    ((a.projectRows? w (join base name)).filter fun rows => !rows.isEmpty).map fun rows =>
      Row.writtenCsv rows
  else none

/-- What is at a place with `e` after `text` may have been saved there. -/
def withSaved (text : Option String) (e : Option Entry) : Option Entry :=
  (text.map fun t => Entry.file (.text t)).or e

theorem withSaved_none (e : Option Entry) : withSaved none e = e := Option.none_or

/-- `u` is `w` after the projects of `base` have been analyzed. -/
structure Advanced (a : Analyzer) (base : String) (w u : Workspace) : Prop extends w.DirsIn u where
  lookup_eq : ∀ q, ¬a.IsWritten base w q → u.tree.lookup q = w.tree.lookup q
  results : ∀ name, u.tree.lookup (a.resultsPlace w name)
    = withSaved (a.savedText? base w name) (w.tree.lookup (a.resultsPlace w name))

theorem Advanced.of_printed (h : a.Advanced base w u) (lines : List String) :
    a.Advanced base w { u with printed := lines } :=
  ⟨⟨h.cwd_eq, h.lookup_dir⟩, h.lookup_eq, h.results⟩

theorem isName_of_isProject (hw : w.Sound) (h : isProject base w name = true) : IsName name := by
  rw [isProject, Bool.and_eq_true] at h
  exact hw.tree.isName (lookup_of_isDir h.2) name (List.mem_append_right _ List.mem_cons_self)

theorem Ready.find_project (h : a.Ready base w) (hproject : isProject base w name = true) :
    w.tree.find w.place (join base name) = .ok (w.placeOf base ++ [name], .dir) := by
  have hresolve := resolve_join_of_find h.find_base (isName_of_isProject h.sound hproject)
  rw [isProject, Bool.and_eq_true] at hproject
  exact find_of_resolve hresolve (lookup_of_isDir hproject.2)

theorem savedText?_of_not_isProject (h : isProject base w name = false) :
    a.savedText? base w name = none := by
  rw [savedText?, h, Bool.false_and, if_neg Bool.false_ne_true]

theorem savedText?_of_rows (hproject : isProject base w name = true) {rows : Option (List Row)}
    (hrows : a.projectRows? w (join base name) = rows) :
    a.savedText? base w name = if a.canSave w name then
      (rows.filter fun rows => !rows.isEmpty).map fun rows => Row.writtenCsv rows
      else none := by
  rw [savedText?, hproject, Bool.true_and, hrows]

end Analyzer

namespace Scene

variable {s : Scene}

/-! ## What is saved in an output folder that is there -/

theorem resultsPlace_eq (s : Scene) (name : String) :
    s.analyzer.resultsPlace s.start name = s.resultsPlace name := by
  rw [Analyzer.resultsPlace, placeOf_detailsPath]
  rfl

theorem resultsPlace_ne_details (s : Scene) (name : String) :
    s.resultsPlace name ≠ s.outputPlace ++ ["project_details"] := by
  intro heq
  have := congrArg List.length heq
  simp [resultsPlace] at this

section

variable (ho : s.analyzer.HasOutput s.start)

include ho

theorem open_output : Accepted s.analyzer.output ∧
      s.start.tree.Open (origin s.start.place s.analyzer.output) (names s.analyzer.output) := by
  obtain ⟨husable, hopen, -⟩ := find_eq_dir_iff.1 ho.find_output
  exact ⟨husable.2, hopen⟩

/-- The folder for details is the only one that may have to be made. -/
theorem lookup_of_mem_dirsOf {q : Place} (hq : q ∈ s.dirsOf s.details)
    (hne : q ≠ s.outputPlace ++ ["project_details"]) : s.start.tree.lookup q = some .dir := by
  rcases mem_dirsOf_details_iff hq with hq | heq
  · exact (open_output ho).2.lookup_of_mem_way hq
  · exact absurd heq hne

theorem canMake_details :
    s.canMake s.details = !s.start.tree.isFile (s.outputPlace ++ ["project_details"]) := by
  obtain ⟨haccepted, hopen⟩ := open_output ho
  have hclear := hopen.isClear fun n hn => haccepted.of_mem_names hn
  have hne : (s.details != "") = true := bne_iff_ne.2 (join_ne_empty _ isPlain_details)
  rw [canMake, hne, names_details, origin_details, isClear_concat, hclear]
  rfl

theorem canSave_eq (name : String) : s.canSave name = s.analyzer.canSave s.start name := by
  have hblocked : s.isBlocked s.details (s.resultsPlace name)
      = s.start.tree.isDir (s.resultsPlace name) := by
    rw [isBlocked]
    by_cases hmem : s.resultsPlace name ∈ s.dirsOf s.details
    · rw [decide_eq_true hmem, Tree.isDir,
        lookup_of_mem_dirsOf ho hmem (s.resultsPlace_ne_details name)]
      rfl
    · rw [decide_eq_false hmem, Bool.false_or]
  rw [canSave, canWrite, canMake_details ho, hblocked, Analyzer.canSave, resultsPlace_eq,
    placeOf_detailsPath]
  rfl

theorem rows?_eq {name : String} (hname : s.IsProject name) :
    s.rows? name = s.analyzer.projectRows? s.start (join s.base name) := by
  have hfiles : sourcesAt s.start (join s.base name) = .ok (s.sourcePaths name) :=
    sourcesAt_of_dir (rep_start.find_project hname)
  rw [projectRows?, hfiles]
  exact ho.toOption_inspectAll fun f hf => exists_of_mem_sourcePaths hname hf

theorem savedText?_eq {name : String} (hname : s.IsEntry name) :
    s.savedText? name = s.analyzer.savedText? s.base s.start name := by
  have hmember : s.isMember name = isProject s.base s.start name := by
    rw [isMember, memberPlace, basePlace_eq]
    rfl
  rw [savedText?, Analyzer.savedText?, canSave_eq ho, ← hmember]
  split
  · next h =>
    rw [rows?_eq ho (hname.isProject (Bool.and_eq_true _ _ ▸ h).1)]
  · rfl

/-- What all turns leave in an output folder that is there. -/
theorem Turns.advanced (t : s.Turns) {u : Workspace}
    (hu : s.Rep ((s.start.tree.names s.basePlace).flatMap t.effects) u) :
    s.analyzer.Advanced s.base s.start u := by
  have hentry : ∀ name ∈ s.start.tree.names s.basePlace, s.IsEntry name := fun name hname =>
    isEntry_of_mem_names hname
  have hsaved : ∀ name text,
      .save (s.resultsPlace name) text ∈ (s.start.tree.names s.basePlace).flatMap t.effects ↔
        s.analyzer.savedText? s.base s.start name = some text := by
    intro name text
    rw [List.mem_flatMap]
    constructor
    · rintro ⟨name', hname', hmem⟩
      obtain ⟨heq, htext⟩ := (t.isTurn (hentry _ hname')).saved.1 hmem
      obtain rfl := resultsPlace_inj heq
      rwa [savedText?_eq ho (hentry _ hname')] at htext
    · intro htext
      have hname : name ∈ s.start.tree.names s.basePlace := by
        cases hproject : isProject s.base s.start name with
        | false =>
          rw [savedText?_of_not_isProject hproject] at htext
          cases htext
        | true =>
          rw [isProject, Bool.and_eq_true, ← basePlace_eq] at hproject
          rw [s.sound.tree.mem_names, lookup_of_isDir hproject.2]
          rfl
      rw [← savedText?_eq ho (hentry _ hname)] at htext
      exact ⟨name, hname, (t.isTurn (hentry _ hname)).saved.2 ⟨rfl, htext⟩⟩
  -- folders are made in the way of nothing, apart from the folder for details
  have hother : ∀ q, q ≠ s.logPlace → q ≠ s.errorPlace →
      q ≠ s.outputPlace ++ ["project_details"] →
      (∀ text, .save q text ∉ (s.start.tree.names s.basePlace).flatMap t.effects) →
      u.tree.lookup q = s.start.tree.lookup q := by
    intro q hlog herror hdetails hsave
    rw [hu.lookup_eq, after_of_not_mem_save hlog (fun h => absurd h herror) hsave]
    split
    · next hmade =>
      obtain ⟨e, he, hmakes⟩ := List.any_eq_true.1 hmade
      cases e with
      | make path =>
        have hq := s.mem_dirsOf_of_allowed (hu.allowed _ he) (List.contains_iff_mem.1 hmakes)
        rw [lookup_of_mem_dirsOf ho hq hdetails]
        rfl
      | _ => cases hmakes
    · rfl
  refine ⟨⟨hu.cwd_eq, hu.kept.dir⟩, fun q hq => ?_, fun name => ?_⟩
  · rw [Analyzer.IsWritten, ← errorPlace_eq, ← logPlace_eq, placeOf_detailsPath] at hq
    simp only [not_or, not_exists, resultsPlace_eq] at hq
    refine hother q hq.2.1 hq.1 hq.2.2.1 fun text hmem => ?_
    obtain ⟨⟨name, heq, -⟩, -⟩ := hu.allowed _ hmem
    exact hq.2.2.2 name heq
  · rw [resultsPlace_eq]
    cases htext : s.analyzer.savedText? s.base s.start name with
    | some text =>
      rw [hu.lookup_eq, after_of_mem_save (t.coherent hentry) ((hsaved name text).2 htext)]
      rfl
    | none =>
      rw [withSaved_none]
      refine hother _ (s.resultsPlace_ne_logPlace name) (s.resultsPlace_ne_errorPlace name)
        (s.resultsPlace_ne_details name) fun text hmem => ?_
      rw [hsaved, htext] at hmem
      cases hmem

end

end Scene

end SmellLint
