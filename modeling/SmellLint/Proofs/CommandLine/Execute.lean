import SmellLint.CommandLine.Analyze
import SmellLint.Proofs.Project.Overview

/-!
# Requests that are not resumed

A request is checked and described, the folder is emptied, the analysis is made, and a call graph or
the joined tables follow (`exec_execute`).  Whatever is asked for, the overview is the one of a new
run (`execute_overview`).
-/

namespace SmellLint

open Analyzer Run

namespace CommandLine.Request

variable {r : Request} {a : Analyzer} {input : String} {w v u x : Workspace}

/-! ## Carrying out a request -/

/-- Whether `r` asks for all projects of a folder. -/
def isMultiple (r : Request) : Bool :=
  match r.multiple with
  | .value true => true
  | _ => false

/-- What follows `require` goes on with the value, and nothing else has changed. -/
theorem exec_require_bind_eq_ok {α β : Type} {name : String} {g : Given α} {f : Option α → Run β}
    {y : β} (h : (require name g >>= f).exec w = (.ok y, u)) :
    ∃ b : Option α, g = b.elim .nothing .value ∧ (f b).exec w = (.ok y, u) := by
  cases g with
  | absent => cases h
  | nothing => exact ⟨none, rfl, h⟩
  | value b => exact ⟨some b, rfl, h⟩

theorem getD_eq_isMultiple {b : Option Bool} (h : r.multiple = b.elim .nothing .value) :
    b.getD false = r.isMultiple := by
  rw [isMultiple, h]
  cases b with
  | none => rfl
  | some b => cases b <;> rfl

/-- `execute`, if the request is in order: it is described, the folder is emptied, and the analysis
is made. -/
theorem exec_execute {m : Option Bool} (hinput : r.input = .value input)
    (hmultiple : r.multiple = m.elim .nothing .value) (hresume : r.resume = .value false)
    (hprepare : (r.validate >>= fun _ => r.describe).exec w = (.ok (), v)) :
    (r.execute a).exec w = (a.clean >>= fun _ => r.analyze a input r.isMultiple false >>= fun _ =>
      r.finish a input r.isMultiple).exec v := by
  have hin : (require "input" r.input).exec v = (.ok (some input), v) := by
    rw [hinput]
    rfl
  have hm : (require "multiple" r.multiple).exec v = (.ok m, v) := by
    rw [hmultiple]
    cases m <;> rfl
  have hfresh : (require "resume" r.resume).exec v = (.ok (some false), v) := by
    rw [hresume]
    rfl
  obtain ⟨_, v', hvalidate, hdescribe⟩ := exec_bind_eq_ok hprepare
  rw [execute, exec_bind_ok _ hvalidate, exec_bind_ok _ hdescribe, exec_bind_ok _ hin,
    exec_bind_ok _ hm, exec_bind_ok _ hfresh, getD_eq_isMultiple hmultiple]
  rfl

variable {y : Unit}

theorem exec_execute_eq_ok (hinput : r.input = .value input)
    (hresume : r.resume = .value false) (h : (r.execute a).exec w = (.ok y, u)) :
    ∃ v, (r.validate >>= fun _ => r.describe).exec w = (.ok (), v) ∧
      (a.clean >>= fun _ => r.analyze a input r.isMultiple false >>= fun _ =>
        r.finish a input r.isMultiple).exec v = (.ok y, u) := by
  have hrun := h
  obtain ⟨_, w₁, hvalidate, h⟩ := exec_bind_eq_ok h
  obtain ⟨_, w₂, hdescribe, h⟩ := exec_bind_eq_ok h
  obtain ⟨_, -, h⟩ := exec_require_bind_eq_ok h
  obtain ⟨m, hm, -⟩ := exec_require_bind_eq_ok h
  have hprepare := (exec_bind_ok (fun _ => r.describe) hvalidate).trans hdescribe
  exact ⟨w₂, hprepare, (exec_execute hinput hm hresume hprepare).symm.trans hrun⟩

variable {P : Workspace → Prop}

theorem keeps_require {α : Type} (name : String) (g : Given α) : Keeps P (require name g) := by
  cases g <;> exact fun _ h => h

theorem keeps_validate (hprint : ∀ line, Keeps P (print line))
    (r : Request) : Keeps P r.validate := by
  refine (keeps_require _ _).bind fun input => ?_
  split
  · exact (hprint _).bind fun _ => .throw_bind _ _
  · refine (keeps_require _ _).bind fun parallel => ?_
    split
    · refine (keeps_require _ _).bind fun walkers => ?_
      split
      · split
        · exact .throw _
        · exact .pure _
      · exact .throw _
    · exact .pure _

theorem keeps_describe (hprint : ∀ line, Keeps P (print line)) (r : Request) : Keeps P r.describe :=
  (hprint _).bind fun _ => (keeps_require _ _).bind fun _ => (hprint _).bind fun _ =>
    (keeps_require _ _).bind fun _ => (hprint _).bind fun _ => (keeps_require _ _).bind fun _ =>
    (hprint _).bind fun _ => (keeps_require _ _).bind fun _ => (hprint _).bind fun _ =>
    (keeps_require _ _).bind fun _ => (hprint _).bind fun _ => (keeps_require _ _).bind fun _ =>
    hprint _

/-- `validate` and `describe` print texts and do nothing else. -/
theorem exists_printed (h : (r.validate >>= fun _ => r.describe).exec w = (.ok y, v)) :
    ∃ lines, v = { w with printed := lines } := by
  have hprint : ∀ line, Keeps (fun v => ∃ lines, v = { w with printed := lines })
      (print line) := by
    rintro line _ ⟨lines, rfl⟩
    exact ⟨_, rfl⟩
  exact ((keeps_validate hprint r).bind fun _ => keeps_describe hprint r).exec_eq h ⟨w.printed, rfl⟩

/-! ## All projects of a folder -/

/-- `finish` joins the tables. -/
theorem exists_mergeAll_of_finish (h : (r.finish a input true).exec x = (.ok y, u)) :
    ∃ lines lines' u', a.mergeAll.exec { x with printed := lines } = (.ok (), u') ∧
      u = { u' with printed := lines' } := by
  simp only [finish, ↓reduceIte] at h
  obtain ⟨callgraph, -, h⟩ := exec_require_bind_eq_ok h
  split at h
  · rw [exec_bind_ok _ (exec_print _ x)] at h
    obtain ⟨_, u', hmerge, hprint⟩ := exec_bind_eq_ok h
    cases hprint
    exact ⟨_, _, u', hmerge, rfl⟩
  · obtain ⟨_, u', hmerge, hprint⟩ := exec_bind_eq_ok h
    cases hprint
    exact ⟨x.printed, _, u', hmerge, rfl⟩

theorem advanced_of_analyze (hw : a.Ready input w)
    (h : (r.analyze a input true false).exec w = (.ok y, u)) :
    u.Sound ∧ a.Advanced input w u := by
  obtain ⟨parallel, -, h⟩ := exec_require_bind_eq_ok h
  split at h
  · obtain ⟨workers, -, h⟩ := exec_require_bind_eq_ok h
    exact ⟨(respects_analyzeParallel congruence_sound a input _ _).keeps.exec_eq h hw.sound,
      hw.advanced_parallel h⟩
  · exact ⟨(respects_analyzeSequential congruence_sound a input false).keeps.exec_eq h hw.sound,
      hw.advanced_sequential h⟩

/-! ## One project -/

theorem keeps_finish (ho : a.HasOutput x) : Keeps (a.OnlyGraph x) (r.finish a input false) := by
  simp only [finish, Bool.false_eq_true, ↓reduceIte]
  refine (keeps_require _ _).bind fun callgraph => ?_
  split
  · exact (ho.keeps_saveCallGraph input).bind fun _ => OnlyGraph.keeps_print _
  · exact OnlyGraph.keeps_print _

theorem exists_rows_of_analyze (hw : a.HasOutput w)
    (h : (r.analyze a input false false).exec w = (.ok y, u)) :
    a.HasOutput u ∧ ∃ records rows, a.projectRows? w input = some rows ∧
      a.Saved w records rows u := by
  obtain ⟨n, v, hproject, hprint⟩ := exec_bind_eq_ok h
  have hsound := (respects_analyzeProject congruence_sound a input).keeps.exec_eq hproject hw.sound
  have hdirs := (respects_analyzeProject (congruence_dirsIn w) a input).keeps.exec_eq hproject
    (.refl w)
  obtain ⟨records, rows, hrows, hsaved⟩ := hw.saved_of_ok hproject
  have ho : a.HasOutput v := by
    refine ⟨hsound, ?_⟩
    rw [Workspace.placeOf_congr hdirs.cwd_eq]
    exact hdirs.find_dir hw.find_output
  cases hprint
  exact ⟨⟨⟨ho.sound.tree, ho.sound.isAbsolute, ho.sound.lookup_place⟩, ho.find_output⟩,
    records, rows, hrows, hsaved.of_printed _⟩

/-! ## The overview -/

theorem isOverview_of_ok {multiple : Bool} (hw : a.Fresh input w) (h : (a.clean >>= fun _ =>
    r.analyze a input multiple false >>= fun _ => r.finish a input multiple).exec w = (.ok y, u)) :
    a.IsOverview input multiple w u := by
  obtain ⟨_, v, hclean, h⟩ := exec_bind_eq_ok h
  obtain ⟨_, x, hanalyze, hfinish⟩ := exec_bind_eq_ok h
  have hv := hw.emptied hclean
  have hready := hv.ready hw
  refine ⟨v, hv, ?_⟩
  cases multiple with
  | true =>
    obtain ⟨hsound, hadvanced⟩ := advanced_of_analyze hready hanalyze
    obtain ⟨lines, lines', u', hmerge, rfl⟩ := exists_mergeAll_of_finish hfinish
    have hjoined := (hadvanced.of_printed lines).joined hv hready
      ⟨hsound.tree, hsound.isAbsolute, hsound.lookup_place⟩ hmerge
    exact ⟨hjoined.sound, hjoined.saved, hjoined.left, hjoined.overview⟩
  | false =>
    obtain ⟨ho, records, rows, hrows, hsaved⟩ :=
      exists_rows_of_analyze hready.toHasOutput hanalyze
    have hgraph := (keeps_finish ho).exec_eq hfinish ⟨.refl x, fun _ _ _ => rfl⟩
    have hx : x.placeOf a.output = w.placeOf a.output :=
      (Workspace.placeOf_congr (hsaved.cwd_eq.trans hv.cwd_eq) _)
    have hlookup := hgraph.lookup_eq "overview.csv" (by decide) (by decide)
    have hoverview := hsaved.overview
    rw [placeOf_overviewPath, Workspace.placeOf_congr hv.cwd_eq,
      hv.lookup_output (by decide)] at hoverview
    rw [hx] at hlookup
    refine ⟨rows, hrows, ?_⟩
    rw [placeOf_overviewPath]
    exact hlookup.trans hoverview

/-- The overview after `execute` of a request that is not resumed: what it is made of, and that it
does not depend on anything else.  What earlier runs have left in the output folder is not always
gone: an overview stays if there is nothing to write, and tables among the details become part of
the overview of a folder. -/
theorem execute_overview (hinput : r.input = .value input) (hresume : r.resume = .value false)
    (hw : a.Fresh input w) (h : (r.execute a).exec w = (.ok (), u)) :
    a.IsOverview input r.isMultiple w u ∧
    ∀ w' u', a.Fresh input w' → Analyzer.SameInput input w w' →
      (r.isMultiple = true → a.SameTables w w') →
      (r.execute a).exec w' = (.ok (), u') → a.SameOverview w u w' u' := by
  have hoverview : ∀ {w u : Workspace}, a.Fresh input w → (r.execute a).exec w = (.ok (), u) →
      a.IsOverview input r.isMultiple w u := by
    intro w u hw h
    obtain ⟨v, hprepare, h⟩ := exec_execute_eq_ok hinput hresume h
    obtain ⟨lines, rfl⟩ := exists_printed hprepare
    exact (isOverview_of_ok (hw.of_printed lines) h).of_printed
  exact ⟨hoverview hw h, fun w' u' hw' hsame htables h' =>
    (hoverview hw h).sameOverview hw hw' (hoverview hw' h') hsame htables⟩

/-- A project without smells, and an output folder with the overview of an earlier run. -/
def staleOverview : Workspace where
  tree := ⟨[(["in"], .dir), (["in", "a.py"], .file (.text "def h():\n    return 1\n")),
    (["out"], .dir), (["out", "overview.csv"], .file (.text "old\n"))]⟩

def oneProject : Request :=
  ⟨.value "in", .value "out", .value false, .value false, .value 5, .value false, .value false⟩

theorem fresh_staleOverview : Fresh { output := "out" } "in" staleOverview where
  sound := ⟨by decide +kernel, by decide, rfl⟩
  find_output := rfl
  find_base := rfl
  place := by decide +kernel
  output := by
    rw [Avoids]
    decide +kernel
  input := by
    rw [Avoids]
    decide +kernel

/-- The project without smells is analyzed, and the overview of the earlier run stays. -/
theorem exists_execute_staleOverview :
    ∃ u, (oneProject.execute { output := "out" }).exec staleOverview = (.ok (), u) ∧
      u.tree.lookup ["out", "overview.csv"] = some (.file (.text "old\n")) :=
  ⟨_, exec_eq_of_toOption (by decide +kernel), by decide +kernel⟩

theorem execute_overview_staleOverview :
    Analyzer.Fresh { output := "out" } "in" staleOverview ∧ ∃ u,
      (oneProject.execute { output := "out" }).exec staleOverview = (.ok (), u) ∧
      u.tree.lookup ["out", "overview.csv"] = some (.file (.text "old\n")) ∧
      Analyzer.IsOverview { output := "out" } "in" false staleOverview u ∧
      ∀ w' u', Analyzer.Fresh { output := "out" } "in" w' →
        Analyzer.SameInput "in" staleOverview w' →
        (oneProject.execute { output := "out" }).exec w' = (.ok (), u') →
        Analyzer.SameOverview { output := "out" } staleOverview u w' u' := by
  obtain ⟨u, hexec, hold⟩ := exists_execute_staleOverview
  obtain ⟨hoverview, hsame⟩ := execute_overview rfl rfl fresh_staleOverview hexec
  refine ⟨fresh_staleOverview, u, hexec, hold, hoverview, fun w' u' hw' hinput h' => ?_⟩
  exact hsame w' u' hw' hinput (fun h => absurd h (by decide)) h'

end CommandLine.Request

end SmellLint
