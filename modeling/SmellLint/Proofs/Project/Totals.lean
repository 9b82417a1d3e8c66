import Mathlib.Algebra.Ring.Nat
import SmellLint.Proofs.Project.Single

/-!
# Totals of a project

The number of smells that the analysis of a project returns, the table that it saves and the records
that it adds to the file for errors agree with each other: each file of the project is a program
with rows or has a record (`Analyzer.analyzeProject_accounts`).
-/

namespace SmellLint

open Syntax (Node)
open Project Row Text.Utf8

namespace Analyzer

variable {a : Analyzer} {w v : Workspace} {files : List String}

/-! ## Programs of a project -/

/-- Whether the file `f` of a project is a program. -/
def isProgram (w : Workspace) (f : String) : Bool :=
  (textAt w f).toOption.any fun text => (Node.ofSource? text).isSome

/-- The rows of those of `files` that are programs, in the order of the files. -/
def programRows (a : Analyzer) (w : Workspace) (files : List String) : List Row :=
  (files.filter (isProgram w)).flatMap (a.rowsAt w)

theorem rowsAt_eq_nil (hw : w.Sound) {f : String}
    (hat : ∃ p name c, IsSourceAt w f p name c) (hnot : isProgram w f = false) :
    a.rowsAt w f = [] := by
  obtain ⟨p, name, c, hat⟩ := hat
  rw [isProgram, textAt_eq hw hat] at hnot
  rw [rowsAt, found_eq hw hat]
  cases hread : c.readText with
  | error e =>
    obtain ⟨fault, rfl⟩ := exists_of_readText_eq_error hread
    rfl
  | ok text =>
    rw [hread] at hnot
    have hparse : Node.ofSource? text = none := by simpa [Except.toOption] using hnot
    rw [Inspection.ofFile, Inspection.ofSource, hparse]
    rfl

/-- Files that are no programs add no rows to those of the others. -/
theorem flatMap_rowsAt (hw : w.Sound) (hat : ∀ f ∈ files, ∃ p name c, IsSourceAt w f p name c) :
    files.flatMap (a.rowsAt w) = a.programRows w files := by
  rw [programRows]
  induction files with
  | nil => rfl
  | cons f files ih =>
    obtain ⟨hf, hat⟩ := List.forall_mem_cons.1 hat
    rw [List.flatMap_cons, ih hat, List.filter_cons]
    cases hprogram : isProgram w f with
    | true => rfl
    | false => rw [rowsAt_eq_nil hw hf hprogram]; rfl

/-! ## Totals -/

/-- What an analysis that has come to its end has returned and left: `count` is the sum over the
`files` that are programs, the table of their rows has as many and is the overview, and the file for
errors has got a record for each of the other files. -/
structure Totals (a : Analyzer) (w : Workspace) (files : List String) (count : Nat)
    (u : Workspace) : Prop where
  count_eq : count = ((files.filter (isProgram w)).map fun f => (a.rowsAt w f).length).sum
  length_rows : (a.programRows w files).length = count
  saved : a.Saved w ((files.filter (isNoProgram w)).map syntaxRecord) (a.programRows w files) u

/-- No rows make a table that can be written. -/
theorem ne_nil_of_fault {rows : List Row} {fault : EncodeFault}
    (h : (records rows).findSome? encodeFault? = some fault) : rows ≠ [] := by
  rintro rfl
  simp [records, encodeFault?_heading] at h

/-- The accounts of `analyzeProject` if all `files` of the project are text.  If each record can be
added to the file for errors and the rows can be saved, the analysis comes to its end, with its
`Totals`.  If not, it fails; a row that cannot be encoded leaves an overview that ends before it. -/
theorem analyzeProject_accounts (ho : a.HasOutput w)
    (hcatalogue : none ∉ a.catalogue.frameMethods) {path : String}
    (hfiles : (Project.sourceFiles path).exec w = (.ok files, v)) (hne : files ≠ [])
    (htext : ∀ f ∈ files, isText w f = true) :
    ((∀ f ∈ files, a.CanNote w f) → a.CanSave w (a.programRows w files) →
      ∃ count u, (a.analyzeProject path).exec w = (.ok count, u) ∧ a.Totals w files count u) ∧
    (¬((∀ f ∈ files, a.CanNote w f) ∧ a.CanSave w (a.programRows w files)) →
      ∃ e u, (a.analyzeProject path).exec w = (.error e, u)) ∧
    ((∀ f ∈ files, a.CanNote w f) → w.tree.isDir (w.placeOf a.overviewPath) = false →
      ∀ fault, (Row.records (a.programRows w files)).findSome? Text.Utf8.encodeFault? = some fault →
        ∃ u, a.Noted w ((files.filter (isNoProgram w)).map syntaxRecord) u ∧
          (a.analyzeProject path).exec w = (.error (.unencodable fault),
            u.withTree (u.tree.insert (w.placeOf a.overviewPath)
              (.file (.text (Row.writtenCsv (a.programRows w files))))))) := by
  rw [Project.exec_sourceFiles] at hfiles
  have hfiles := (Prod.mk.inj hfiles).1
  have hat : ∀ f ∈ files, ∃ p name c, Project.IsSourceAt w f p name c := fun f hf =>
    Project.exists_of_mem_sourcesAt ho.sound hfiles hf
  have hrecords := allRecords_eq ho.sound hcatalogue hat
  rw [List.takeWhile_eq_self_iff.2 htext] at hrecords
  have hrows := allRows_of_isText ho.sound hcatalogue hat htext
  rw [flatMap_rowsAt ho.sound hat] at hrows
  refine ⟨fun hcan hsave => ?_, fun hnot => ?_, fun hcan hdir fault hfault => ?_⟩
  · obtain ⟨u, hexec, hu⟩ := exec_analyzeProject_of_canSave ho hfiles hne hcan hrows hsave
    rw [hrecords] at hu
    exact ⟨_, u, hexec, List.length_flatMap, rfl, hu⟩
  · obtain ⟨x, u, hexec⟩ : ∃ x u, (a.analyzeProject path).exec w = (x, u) := ⟨_, _, rfl⟩
    cases x with
    | error e => exact ⟨e, u, hexec⟩
    | ok n =>
      obtain ⟨hcan, rows, hall, hsave, -⟩ := ho.analyzeProject_eq_ok hfiles hne hexec
      rw [hrows] at hall
      cases hall
      exact absurd ⟨hcan, hsave⟩ hnot
  · obtain ⟨v, hv, -, hexec⟩ := exec_analyzeProject_of_canNote ho hfiles hne hcan
    obtain ⟨u, hu, hfails⟩ := hv.exec_saveOverview_of_fault ho (ne_nil_of_fault hfault) hdir hfault
    rw [hrecords] at hu
    exact ⟨u, hu, (hexec _ hrows).trans (Run.exec_bind_error _ hfails)⟩

/-- Two projects, in a workspace that has a record already: `p` has a file that is no program, one
that makes a column and one without smells; in `q` the column is named by a lone surrogate. -/
def columnProjects : Workspace where
  tree := ⟨[(["out"], .dir), (["out", "error.txt"], .file (.text "old\n")), (["p"], .dir),
    (["p", "a.py"], .file (.text "x = (")),
    (["p", "b.py"], .file (.text "import pandas as pd\ndef f(df):\n    df['c'] = 0\n")),
    (["p", "c.py"], .file (.text "y = 1\n")), (["q"], .dir),
    (["q", "b.py"], .file (.text "import pandas as pd\ndef f(df):\n    df['\\ud800'] = 0\n"))]⟩

theorem sourceFiles_columnProjects :
    (sourceFiles "p").exec columnProjects
      = (.ok ["/p/a.py", "/p/b.py", "/p/c.py"], columnProjects) ∧
    (sourceFiles "q").exec columnProjects = (.ok ["/q/b.py"], columnProjects) :=
  ⟨rfl, rfl⟩

/-- The row of a `file` that makes `column`. -/
def columnRow (file column : String) : Row where
  filename := file
  functionName := "f"
  smell := "empty_column_misinitialization"
  line := 3
  description := "Using zeros or empty strings to initialize new DataFrame columns may cause " ++
    "issues. Consider using NaN (e.g., np.nan) instead."
  info := s!"Column '{column}' in DataFrame 'df' is initialized with a zero or an empty " ++
    "string. Consider using NaN instead."

/-- The row of the file in `q`. -/
def surrogateRow : Row := columnRow "/q/b.py" (String.singleton (Text.charOfCode 0xd800))

theorem programRows_columnProjects :
    programRows { output := "out" } columnProjects ["/p/a.py", "/p/b.py", "/p/c.py"]
      = [columnRow "/p/b.py" "c"] ∧
    programRows { output := "out" } columnProjects ["/q/b.py"] = [surrogateRow] := by
  decide +kernel

theorem filter_isNoProgram_columnProjects :
    ["/p/a.py", "/p/b.py", "/p/c.py"].filter (isNoProgram columnProjects) = ["/p/a.py"] ∧
    ["/q/b.py"].filter (isNoProgram columnProjects) = [] := by
  decide +kernel

theorem canNote_columnProjects (ho : HasOutput { output := "out" } columnProjects) {path : String}
    (hfiles : (sourceFiles path).exec columnProjects = (.ok files, columnProjects))
    (hrecords : ∀ f ∈ files, encodeFault? (syntaxRecord f) = none) :
    ∀ f ∈ files, CanNote { output := "out" } columnProjects f := by
  rw [exec_sourceFiles] at hfiles
  exact canNote_of_records ho.sound (by decide +kernel)
    (fun f hf => exists_of_mem_sourcesAt ho.sound (Prod.mk.inj hfiles).1 hf)
    (by decide +kernel) hrecords

theorem exists_fault_surrogateRow :
    ∃ fault, (records [surrogateRow]).findSome? encodeFault? = some fault ∧
      writtenCsv [surrogateRow] = toCsv [] := by
  have hfields : ¬∀ field ∈ surrogateRow.fields, encodeFault? field = none := by
    decide +kernel
  cases hrecord : encodeFault? _ with
  | none => exact absurd (encodeFault?_record_eq_none_iff.1 hrecord) hfields
  | some fault =>
    refine ⟨fault, ?_, ?_⟩
    · simp [records, encodeFault?_heading, hrecord]
    · simp [writtenCsv, toCsv, records, writable, encodeFault?_heading, hrecord]

theorem analyzeProject_accounts_columnProjects :
    HasOutput { output := "out" } columnProjects ∧
    (∃ u, (analyzeProject { output := "out" } "p").exec columnProjects = (.ok 1, u) ∧
      Saved { output := "out" } columnProjects [syntaxRecord "/p/a.py"]
        [columnRow "/p/b.py" "c"] u) ∧
    ∃ fault u, Noted { output := "out" } columnProjects [] u ∧
      (analyzeProject { output := "out" } "q").exec columnProjects
        = (.error (.unencodable fault), u.withTree (u.tree.insert ["out", "overview.csv"]
            (.file (.text (Row.toCsv []))))) := by
  have ho : HasOutput { output := "out" } columnProjects :=
    ⟨⟨by decide +kernel, by decide, rfl⟩, rfl⟩
  obtain ⟨hp, hq⟩ := sourceFiles_columnProjects
  obtain ⟨hprows, hqrows⟩ := programRows_columnProjects
  obtain ⟨hpbroken, hqbroken⟩ := filter_isNoProgram_columnProjects
  refine ⟨ho, ?_, ?_⟩
  · obtain ⟨hok, -⟩ := analyzeProject_accounts ho (by decide +kernel) hp (by decide)
      (by decide +kernel)
    obtain ⟨count, u, hexec, htotals⟩ :=
      hok (canNote_columnProjects ho hp (by decide +kernel)) <| by
      rw [hprows]
      exact fun _ => ⟨by decide +kernel, by decide +kernel⟩
    have hlength := htotals.length_rows
    have hsaved := htotals.saved
    rw [hprows] at hlength hsaved
    rw [hpbroken] at hsaved
    obtain rfl : 1 = count := hlength
    exact ⟨u, hexec, hsaved⟩
  · obtain ⟨-, -, hfails⟩ := analyzeProject_accounts ho (by decide +kernel) hq (by decide)
      (by decide +kernel)
    obtain ⟨fault, hfault, hcsv⟩ := exists_fault_surrogateRow
    have hplace : columnProjects.placeOf (overviewPath { output := "out" })
        = ["out", "overview.csv"] := by decide +kernel
    rw [hqrows, hqbroken, hplace, hcsv] at hfails
    obtain ⟨u, hu, hexec⟩ := hfails (canNote_columnProjects ho hq (by decide +kernel))
      (by decide +kernel) fault hfault
    exact ⟨fault, u, hu, hexec⟩

end Analyzer

end SmellLint
