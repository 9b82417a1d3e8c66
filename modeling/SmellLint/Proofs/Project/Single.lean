import Mathlib.Data.List.TakeWhile
import SmellLint.Proofs.Inspection
import SmellLint.Proofs.Project.Noted
import SmellLint.Proofs.Table.Reading

/-!
# Analyzing one project

A file of a project that is no program is noted and has no rows, and the others are inspected as if
it were not there.  A file that is no text ends the analysis, and nothing is saved
(`Analyzer.analyzeProject_of_sources`).
-/

namespace SmellLint

open Inspection List Path Project Row Run Text.Utf8 Tree

theorem Row.encodeFault?_heading : encodeFault? (Csv.recordText columnNames) = none := by
  decide +kernel

theorem Row.encodeFault?_record_eq_none_iff {row : Row} :
    encodeFault? (Csv.recordText row.fields) = none ↔
      ∀ field ∈ row.fields, encodeFault? field = none :=
  Csv.encodeFault?_recordText_eq_none_iff (by simp [fields])

/-- `toCsv rows` can be encoded if each field of the rows can. -/
theorem Row.encodeFault?_toCsv_eq_none_iff {rows : List Row} : encodeFault? (toCsv rows) = none ↔
      ∀ row ∈ rows, ∀ field ∈ row.fields, encodeFault? field = none := by
  rw [toCsv, encodeFault?_join_eq_none_iff, records, forall_mem_cons, forall_mem_map]
  simp [encodeFault?_heading, encodeFault?_record_eq_none_iff]

namespace Analyzer

open Syntax (Node)

variable {a : Analyzer} {w v : Workspace} {records files : List String}

/-! ## Saving the overview -/

/-- `u` is `w` after the analysis of a project: `records` have been added to the file for errors,
and `rows`, if there are any, have been saved as the overview. -/
structure Saved (a : Analyzer) (w : Workspace) (records : List String) (rows : List Row)
    (u : Workspace) : Prop where
  cwd_eq : u.cwd = w.cwd
  overview : u.tree.lookup (w.placeOf a.overviewPath) = if rows = []
    then w.tree.lookup (w.placeOf a.overviewPath) else some (.file (.text (toCsv rows)))
  errors : u.tree.lookup (w.placeOf a.errorPath) = if records = []
    then w.tree.lookup (w.placeOf a.errorPath)
    else some (.file (Scene.withRecords
      (Entry.contentOf (w.tree.lookup (w.placeOf a.errorPath))) records))
  other : ∀ q, q ≠ w.placeOf a.overviewPath → q ≠ w.placeOf a.errorPath →
    u.tree.lookup q = w.tree.lookup q

theorem isName_overview : IsName "overview.csv" := by decide

theorem placeOf_overviewPath (a : Analyzer) (w : Workspace) :
    w.placeOf a.overviewPath = w.placeOf a.output ++ ["overview.csv"] :=
  w.placeOf_join _ isName_overview.1

theorem placeOf_overviewPath_ne (a : Analyzer) (w : Workspace) :
    w.placeOf a.overviewPath ≠ w.placeOf a.errorPath := by
  rw [placeOf_overviewPath, placeOf_errorPath]
  intro heq
  simp at heq

theorem Noted.saved (h : a.Noted w records v) : a.Saved w records [] v :=
  ⟨h.cwd_eq, by rw [if_pos rfl, h.lookup_eq _ (a.placeOf_overviewPath_ne w)], h.lookup_error,
    fun q _ hq => h.lookup_eq q hq⟩

variable {rows : List Row} {u : Workspace} {path : String}

theorem Saved.of_printed (h : a.Saved w records rows u) (lines : List String) :
    a.Saved w records rows { u with printed := lines } :=
  ⟨h.cwd_eq, h.overview, h.errors, h.other⟩

theorem Noted.insert_overview (h : a.Noted w records v) (hrows : rows ≠ []) :
    a.Saved w records rows (v.withTree (v.tree.insert (w.placeOf a.overviewPath)
      (.file (.text (toCsv rows))))) := by
  have hne : w.placeOf a.overviewPath ≠ [] := by
    rw [placeOf_overviewPath]
    simp
  refine ⟨h.cwd_eq, ?_, ?_, fun q hq herror => ?_⟩
  · rw [if_neg hrows]
    exact lookup_insert_self _ hne _
  · exact (lookup_insert_of_ne _ (a.placeOf_overviewPath_ne w).symm _).trans h.lookup_error
  · exact (lookup_insert_of_ne _ hq _).trans (h.lookup_eq q herror)

/-- `analyzeProject` saves the rows once all `files` have been inspected. -/
theorem exec_analyzeProject (a : Analyzer) (hfiles : sourcesAt w path = .ok files)
    (hne : files ≠ []) :
    ∃ printed, (a.analyzeProject path).exec w
      = (a.inspectAll files >>= fun rows => a.saveOverview rows >>= fun _ =>
        reportProject path rows).exec { w with printed } := by
  have hsources : ∀ printed, (sourceFiles path).exec { w with printed }
      = (.ok files, { w with printed }) := by
    intro printed
    rw [exec_sourceFiles]
    exact Prod.ext hfiles rfl
  have hempty : ¬files.isEmpty = true := by simpa using hne
  rw [analyzeProject, exec_bind_ok _ (exec_print _ w), exec_bind_ok _ (hsources _), if_neg hempty]
  exact ⟨_, rfl⟩

variable (ho : a.HasOutput w)
include ho

theorem OnlyErrors.resolve_overviewPath (h : a.OnlyErrors w v) :
    v.tree.resolve v.place a.overviewPath = .ok (w.placeOf a.overviewPath) := by
  rw [placeOf_overviewPath]
  exact h.resolve_output ho isName_overview

omit ho in
theorem endsWith_slash_overviewPath (a : Analyzer) : endsWith a.overviewPath "/" = false :=
  endsWith_slash_join a.output isName_overview.1.1

/-- `rows`, if there are any, can be saved as the overview. -/
def CanSave (a : Analyzer) (w : Workspace) (rows : List Row) : Prop :=
  rows ≠ [] → w.tree.isDir (w.placeOf a.overviewPath) = false ∧
    ∀ row ∈ rows, ∀ field ∈ row.fields, encodeFault? field = none

/-- `saveOverview` writes to the output folder, whatever has been noted. -/
theorem Noted.exec_saveOverview_cons (h : a.Noted w records v) (hrows : rows ≠ []) :
    ∃ v', a.Noted w records v' ∧
      v'.tree.resolve v'.place a.overviewPath = .ok (w.placeOf a.overviewPath) ∧
      v'.tree.isDir (w.placeOf a.overviewPath) = w.tree.isDir (w.placeOf a.overviewPath) ∧
      (a.saveOverview rows).exec v = (writeTexts a.overviewPath (Row.records rows) >>= fun _ =>
        print s!"Results saved to {a.overviewPath}").exec v' := by
  have hempty : ¬rows.isEmpty = true := by simpa using hrows
  obtain ⟨v', hmake, h'⟩ := h.exec_makeDirs ho
  refine ⟨v', h', h'.resolve_overviewPath ho, ?_, ?_⟩
  · rw [Tree.isDir, Tree.isDir, h'.lookup_eq _ (a.placeOf_overviewPath_ne w)]
  · rw [saveOverview, if_neg hempty, exec_bind_ok _ hmake]

theorem Noted.exec_saveOverview (h : a.Noted w records v) (hsave : a.CanSave w rows) :
    ∃ u, (a.saveOverview rows).exec v = (.ok (), u) ∧ a.Saved w records rows u := by
  by_cases hrows : rows = []
  · subst hrows
    exact ⟨_, rfl, h.saved.of_printed _⟩
  · obtain ⟨hdir, hfields⟩ := hsave hrows
    have htext := encodeFault?_toCsv_eq_none_iff.2 hfields
    obtain ⟨v', h', hresolve, hfree, hexec⟩ := h.exec_saveOverview_cons ho hrows
    have hwrite := exec_writeText hresolve (hfree.trans hdir) a.endsWith_slash_overviewPath htext
    rw [hexec, writeTexts_eq_writeText htext, ← toCsv, exec_bind_ok _ hwrite]
    exact ⟨_, rfl, (h'.insert_overview hrows).of_printed _⟩

/-- `saveOverview` writes `rows` up to the first that cannot be encoded. -/
theorem Noted.exec_saveOverview_of_fault (h : a.Noted w records v)
    (hrows : rows ≠ []) (hdir : w.tree.isDir (w.placeOf a.overviewPath) = false)
    {fault : EncodeFault}
    (hfault : (Row.records rows).findSome? Text.Utf8.encodeFault? = some fault) :
    ∃ v', a.Noted w records v' ∧ (a.saveOverview rows).exec v = (.error (.unencodable fault),
      v'.withTree (v'.tree.insert (w.placeOf a.overviewPath)
        (.file (.text (writtenCsv rows))))) := by
  obtain ⟨v', h', hresolve, hfree, hexec⟩ := h.exec_saveOverview_cons ho hrows
  have hwrite := exec_writeTexts_of_fault hresolve (hfree.trans hdir)
    a.endsWith_slash_overviewPath hfault
  exact ⟨v', h', hexec.trans (exec_bind_error _ hwrite)⟩

/-- If `saveOverview` succeeds, `rows` could be saved and have been. -/
theorem Noted.saveOverview_eq_ok (h : a.Noted w records v) {x : Unit}
    (hok : (a.saveOverview rows).exec v = (.ok x, u)) :
    a.CanSave w rows ∧ a.Saved w records rows u := by
  by_cases hrows : rows = []
  · subst hrows
    cases hok
    exact ⟨fun hne => absurd rfl hne, h.saved.of_printed _⟩
  · obtain ⟨v', h', hresolve, hfree, hexec⟩ := h.exec_saveOverview_cons ho hrows
    rw [hexec] at hok
    obtain ⟨y, v'', hwrite, hprint⟩ := exec_bind_eq_ok hok
    rw [writeTexts_eq_writeText (encodeFault?_of_writeTexts hwrite)] at hwrite
    obtain ⟨hdir, htext, rfl⟩ := exec_writeText_eq_ok hresolve a.endsWith_slash_overviewPath hwrite
    cases hprint
    exact ⟨fun _ => ⟨hfree.symm.trans hdir, encodeFault?_toCsv_eq_none_iff.1 htext⟩,
      (h'.insert_overview hrows).of_printed _⟩

variable (hfiles : sourcesAt w path = .ok files) (hne : files ≠ [])
include hfiles hne

variable (hcan : ∀ f ∈ files, a.CanNote w f)
include hcan

/-- `analyzeProject` saves what `files` add, once all of them have been inspected or noted. -/
theorem exec_analyzeProject_of_canNote : ∃ v, a.Noted w (a.allRecords w files) v ∧
      (∀ e, a.allRows w files = .error e → (a.analyzeProject path).exec w = (.error e, v)) ∧
      ∀ rows, a.allRows w files = .ok rows → (a.analyzeProject path).exec w
        = (a.saveOverview rows >>= fun _ => reportProject path rows).exec v := by
  obtain ⟨printed, hexec⟩ := a.exec_analyzeProject hfiles hne
  have hat := fun f hf => exists_of_mem_sourcesAt (f := f) ho.sound hfiles hf
  obtain ⟨v, hall, hv⟩ := exec_inspectAll ho hat hcan (ho.noted.of_printed printed)
  refine ⟨v, hv, fun e hrows => ?_, fun rows hrows => ?_⟩ <;> rw [hrows] at hall
  · exact hexec.trans (exec_bind_error _ hall)
  · exact hexec.trans (exec_bind_ok _ hall)

/-- `analyzeProject` fails as the first file does that is neither inspected nor noted. -/
theorem exec_analyzeProject_of_error {e : Fault} (hrows : a.allRows w files = .error e) :
    ∃ u, (a.analyzeProject path).exec w = (.error e, u) ∧
      a.Noted w (a.allRecords w files) u := by
  obtain ⟨v, hv, herror, -⟩ := exec_analyzeProject_of_canNote ho hfiles hne hcan
  exact ⟨v, herror e hrows, hv⟩

theorem exec_analyzeProject_of_canSave (hrows : a.allRows w files = .ok rows)
    (hsave : a.CanSave w rows) :
    ∃ u, (a.analyzeProject path).exec w = (.ok rows.length, u) ∧
      a.Saved w (a.allRecords w files) rows u := by
  obtain ⟨v, hv, -, hexec⟩ := exec_analyzeProject_of_canNote ho hfiles hne hcan
  obtain ⟨u, hok, hu⟩ := hv.exec_saveOverview ho hsave
  rw [hexec rows hrows, exec_bind_ok _ hok]
  exact ⟨_, rfl, hu.of_printed _⟩

theorem exec_analyzeProject_of_ok (hrows : a.allRows w files = .ok rows)
    (hdir : w.tree.isDir (w.placeOf a.overviewPath) = false)
    (htext : encodeFault? (toCsv rows) = none) :
    ∃ u, (a.analyzeProject path).exec w = (.ok rows.length, u) ∧
      a.Saved w (a.allRecords w files) rows u :=
  exec_analyzeProject_of_canSave ho hfiles hne hcan hrows fun _ =>
    ⟨hdir, encodeFault?_toCsv_eq_none_iff.1 htext⟩

omit hcan

/-- If `analyzeProject` comes to its end, it has noted and saved what it had to. -/
theorem HasOutput.analyzeProject_eq_ok {n : Nat} (h : (a.analyzeProject path).exec w = (.ok n, u)) :
    (∀ f ∈ files, a.CanNote w f) ∧ ∃ rows, a.allRows w files = .ok rows ∧ a.CanSave w rows ∧
      a.Saved w (a.allRecords w files) rows u := by
  have hat := fun f hf => exists_of_mem_sourcesAt (f := f) ho.sound hfiles hf
  obtain ⟨printed, hexec⟩ := a.exec_analyzeProject hfiles hne
  have hnoted := ho.noted.of_printed printed
  rw [hexec] at h
  obtain ⟨rows, v, hinspect, h⟩ := exec_bind_eq_ok h
  obtain ⟨_, v', hsave, hreport⟩ := exec_bind_eq_ok h
  obtain ⟨_, _, hmap, -⟩ := exec_bind_eq_ok hinspect
  have hcan := hnoted.canNote_of_mapM ho hat hmap
  obtain ⟨_, hall, hv⟩ := exec_inspectAll ho hat hcan hnoted
  obtain ⟨hrows, rfl⟩ := Prod.mk.inj (hinspect.symm.trans hall)
  obtain ⟨hcanSave, hsaved⟩ := hv.saveOverview_eq_ok ho hsave
  cases hreport
  exact ⟨hcan, rows, hrows.symm, hcanSave, hsaved.of_printed _⟩

omit ho hfiles hne

/-! ## Texts and programs -/

/-- The text of the file `f` of a project. -/
def textAt (w : Workspace) (f : String) : Except Fault String :=
  ((readText (absolute w.cwd f)).exec w).1

def isText (w : Workspace) (f : String) : Bool := (textAt w f).isOk

/-- Whether the file `f` is text but no program. -/
def isNoProgram (w : Workspace) (f : String) : Bool :=
  (textAt w f).toOption.any fun text => (Node.ofSource? text).isNone

/-- The rows that inspecting `f` gives; none if it fails. -/
def rowsAt (a : Analyzer) (w : Workspace) (f : String) : List Row := (a.found w f).toOption.getD []

/-- The record of a file `f` that is no program. -/
def syntaxRecord (f : String) : String := failureRecord f (.inFile f .invalidSyntax)

theorem exists_of_readText_eq_error {c : Content} {e : Fault} (h : c.readText = .error e) :
    ∃ fault, e = .undecodable fault := by
  rw [Content.readText] at h
  cases c with
  | bytes bs =>
    rw [Content.rawText] at h
    cases hdecode : decode bs with
    | error fault =>
      rw [hdecode] at h
      cases h
      exact ⟨fault, rfl⟩
    | ok text =>
      rw [hdecode] at h
      cases h
  | text s => cases h
  | workbook sheets => cases h
  | image => cases h

/-- A program can be inspected, if no method of `catalogue` is unknown. -/
theorem exists_result_ofSource {catalogue : Catalogue} {source : String} {tree : Node}
    (hcatalogue : none ∉ catalogue.frameMethods) (h : Node.ofSource? source = some tree)
    (filename : String) :
    ∃ rows, (ofSource catalogue filename source).result = .ok rows := by
  have hresult := @Inspection.result_ofTree catalogue filename source tree h
  cases hknown : knownFunctions catalogue tree with
  | error e => exact absurd (knownFunctions_eq_error hknown).2 hcatalogue
  | ok known =>
    rw [hknown] at hresult
    rw [ofSource, h]
    exact ⟨_, hresult⟩

theorem textAt_eq (hw : w.Sound) {f name : String} {p : Place} {c : Content}
    (hat : IsSourceAt w f p name c) : textAt w f = c.readText := by
  rw [textAt, hat.exec_readText hw (fun _ hq => hq) hat.lookup_eq]

section

variable (hw : w.Sound) (hcatalogue : none ∉ a.catalogue.frameMethods)
include hw hcatalogue

/-- What a file `f` of a project adds, by what it holds. -/
theorem rowsOf_of_textAt {f : String} (hat : ∃ p name c, IsSourceAt w f p name c) :
    (isText w f = true ∧ a.rowsOf w f = .ok (a.rowsAt w f) ∧
      a.recordOf w f = if isNoProgram w f then [syntaxRecord f] else []) ∨
    ∃ fault, isText w f = false ∧ textAt w f = .error (.undecodable fault) ∧
      a.rowsOf w f = .error (.undecodable fault) ∧ a.recordOf w f = [] := by
  obtain ⟨p, name, c, hat⟩ := hat
  rw [isText, isNoProgram, rowsOf, recordOf, rowsAt, textAt_eq hw hat, found_eq hw hat]
  cases hread : c.readText with
  | error e =>
    obtain ⟨fault, rfl⟩ := exists_of_readText_eq_error hread
    exact .inr ⟨fault, rfl, rfl, rfl, rfl⟩
  | ok text =>
    refine .inl ⟨rfl, ?_⟩
    rw [ofFile]
    cases hparse : Node.ofSource? text with
    | none =>
      rw [ofSource]
      simp [Except.toOption, hparse, addedRows, addedRecord, Fault.isInFile, syntaxRecord]
    | some tree =>
      obtain ⟨rows, hrows⟩ := exists_result_ofSource hcatalogue hparse f
      rw [hrows]
      simp [Except.toOption, hparse, addedRows, addedRecord]

theorem rowsOf_of_isText {f : String} (hat : ∃ p name c, IsSourceAt w f p name c)
    (htext : isText w f = true) : a.rowsOf w f = .ok (a.rowsAt w f) := by
  rcases rowsOf_of_textAt hw hcatalogue hat with ⟨-, hrows, -⟩ | ⟨fault, hnot, -⟩
  · exact hrows
  · rw [htext] at hnot
    cases hnot

variable (hat : ∀ f ∈ files, ∃ p name c, IsSourceAt w f p name c)
include hat

/-- The records of `files`, up to the first that is no text, are those of the files that are no
program. -/
theorem allRecords_eq : a.allRecords w files
      = ((files.takeWhile (isText w)).filter (isNoProgram w)).map syntaxRecord := by
  rw [allRecords]
  induction files with
  | nil => rfl
  | cons f files ih =>
    obtain ⟨hf, hat⟩ := forall_mem_cons.1 hat
    rw [takeWhile_cons, takeWhile_cons]
    rcases rowsOf_of_textAt hw hcatalogue hf with
      ⟨htext, hrows, hrecord⟩ | ⟨fault, htext, -, hrows, -⟩
    · have hok : (Except.ok (a.rowsAt w f) : Except Fault (List Row)).isOk = true := rfl
      rw [hrows, htext, if_pos hok, if_pos rfl, flatMap_cons, filter_cons, ih hat, hrecord]
      split <;> rfl
    · rw [hrows, htext]
      rfl

theorem allRows_of_isText (htext : ∀ f ∈ files, isText w f = true) :
    a.allRows w files = .ok (files.flatMap (a.rowsAt w)) := by
  have hrows := fun f hf => rowsOf_of_isText hw hcatalogue (hat f hf) (htext f hf)
  rw [allRows, mapM_eq_ok hrows]
  rfl

theorem allRows_of_find? {f : String} (hf : (files.find? fun f => !isText w f) = some f) :
    ∃ fault, textAt w f = .error (.undecodable fault) ∧
      a.allRows w files = .error (.undecodable fault) := by
  obtain ⟨hnot, before, after, rfl, hbefore⟩ := find?_eq_some_iff_append.1 hf
  have hrows : ∀ g ∈ before, a.rowsOf w g = .ok (a.rowsAt w g) := fun g hg =>
    rowsOf_of_isText hw hcatalogue (hat g (mem_append_left _ hg)) (by simpa using hbefore g hg)
  rcases rowsOf_of_textAt hw hcatalogue (hat f (mem_append_right _ mem_cons_self)) with
    ⟨htext, -⟩ | ⟨fault, -, htext, hrow, -⟩
  · rw [htext] at hnot
    cases hnot
  · refine ⟨fault, htext, ?_⟩
    rw [allRows, mapM_append_cons_eq_error hrows hrow]
    rfl

/-- All `files` can be noted if the records of those that are no programs can be written. -/
theorem canNote_of_records (herrors : w.tree.isDir (w.placeOf a.errorPath) = false)
    (hrecords : ∀ f ∈ files, encodeFault? (syntaxRecord f) = none) :
    ∀ f ∈ files, a.CanNote w f := by
  intro f hf
  rw [CanNote]
  rcases rowsOf_of_textAt hw hcatalogue (hat f hf) with ⟨-, -, hnote⟩ | ⟨_, -, -, -, hnote⟩ <;>
    rw [hnote]
  · split
    · exact forall_mem_singleton.2 ⟨herrors, hrecords f hf⟩
    · exact forall_mem_nil _
  · exact forall_mem_nil _

end

/-- If all `files` of a project are text, `analyzeProject` saves the rows of all of them, and adds a
`syntaxRecord` to the file for errors for each one that is no program.  It fails at the first file
that is no text, with the records of the files before it and nothing saved. -/
theorem analyzeProject_of_sources (ho : a.HasOutput w)
    (hcatalogue : none ∉ a.catalogue.frameMethods) {path : String}
    (hfiles : (Project.sourceFiles path).exec w = (.ok files, v)) (hne : files ≠ [])
    (herrors : w.tree.isDir (w.placeOf a.errorPath) = false)
    (hoverview : w.tree.isDir (w.placeOf a.overviewPath) = false)
    (hrecords : ∀ f ∈ files, Text.Utf8.encodeFault? (syntaxRecord f) = none)
    (htable : Text.Utf8.encodeFault? (Row.toCsv (files.flatMap (a.rowsAt w))) = none) :
    match files.find? fun f => !isText w f with
    | none => ∃ u,
        (a.analyzeProject path).exec w = (.ok (files.flatMap (a.rowsAt w)).length, u) ∧
        a.Saved w ((files.filter (isNoProgram w)).map syntaxRecord) (files.flatMap (a.rowsAt w)) u
    | some f => ∃ fault u, textAt w f = .error (.undecodable fault) ∧
        (a.analyzeProject path).exec w = (.error (.undecodable fault), u) ∧
        a.Saved w (((files.takeWhile (isText w)).filter (isNoProgram w)).map syntaxRecord)
          [] u := by
  rw [Project.exec_sourceFiles] at hfiles
  have hfiles := (Prod.mk.inj hfiles).1
  have hat : ∀ f ∈ files, ∃ p name c, Project.IsSourceAt w f p name c := fun f hf =>
    Project.exists_of_mem_sourcesAt ho.sound hfiles hf
  have hrecord := allRecords_eq ho.sound hcatalogue hat
  have hcan := canNote_of_records ho.sound hcatalogue hat herrors hrecords
  cases hfind : files.find? fun f => !isText w f with
  | none =>
    have htext : ∀ f ∈ files, isText w f = true := by
      intro f hf
      simpa using List.find?_eq_none.1 hfind f hf
    rw [List.takeWhile_eq_self_iff.2 htext] at hrecord
    rw [← hrecord]
    exact exec_analyzeProject_of_ok ho hfiles hne hcan
      (allRows_of_isText ho.sound hcatalogue hat htext) hoverview htable
  | some f =>
    obtain ⟨fault, htext, hrows⟩ := allRows_of_find? ho.sound hcatalogue hat hfind
    obtain ⟨u, hexec, hu⟩ := exec_analyzeProject_of_error ho hfiles hne hcan hrows
    rw [hrecord] at hu
    exact ⟨fault, u, htext, hexec, hu.saved⟩

/-- A project of three files: one that is no program, one with a smell, and one that is no text. -/
def brokenProject : Workspace where
  tree := ⟨[(["out"], .dir), (["p"], .dir), (["p", "a.py"], .file (.text "x = (")),
    (["p", "b.py"], .file (.text "import pandas as pd\ndef f(df):\n    df[0][0]\n")),
    (["p", "c.py"], .file (.bytes [0xff]))]⟩

theorem sourceFiles_brokenProject : (sourceFiles "p").exec brokenProject
    = (.ok ["/p/a.py", "/p/b.py", "/p/c.py"], brokenProject) := rfl

theorem analyzeProject_of_sources_brokenProject :
    HasOutput { output := "out" } brokenProject ∧ ∃ fault u,
      textAt brokenProject "/p/c.py" = .error (.undecodable fault) ∧
      (analyzeProject { output := "out" } "p").exec brokenProject
        = (.error (.undecodable fault), u) ∧
      Saved { output := "out" } brokenProject [syntaxRecord "/p/a.py"] [] u := by
  have ho : HasOutput { output := "out" } brokenProject :=
    ⟨⟨by decide +kernel, by decide, rfl⟩, rfl⟩
  refine ⟨ho, ?_⟩
  have h := analyzeProject_of_sources ho (by decide +kernel) sourceFiles_brokenProject (by decide)
    (by decide +kernel) (by decide +kernel) (by decide +kernel) (by decide +kernel)
  have hfind : (["/p/a.py", "/p/b.py", "/p/c.py"].find? fun f => !isText brokenProject f)
      = some "/p/c.py" := by decide +kernel
  have hnoted : (["/p/a.py", "/p/b.py", "/p/c.py"].takeWhile (isText brokenProject)).filter
      (isNoProgram brokenProject) = ["/p/a.py"] := by decide +kernel
  rw [hfind, hnoted] at h
  exact h

end Analyzer

end SmellLint
