import SmellLint.Proofs.Project.Sound
import SmellLint.Window

/-!
# The window and the command line

No step of an analysis looks at what has been printed, so runs that print different texts and agree
in everything else do the same work (`Run.SameWork`): they end alike, in workspaces that differ in
the printed texts only.  A request from the window and the request with the same settings from the
command line are such runs; the window prints a failure that the command line ends with
(`WindowRequest.run_sameWorkspace`).
-/

namespace SmellLint

open Run CommandLine.Request

namespace Run

variable {α : Type}

/-! ## Runs that do the same work -/

/-- Started in workspaces that differ in the printed texts only, `r` and `s` have the same outcome,
and end in workspaces that differ in the printed texts only. -/
def SameWork (r s : Run α) : Prop := Lockstep (fun w v => w.unprinted = v.unprinted) r s

theorem SameWork.print (line line' : String) : SameWork (print line) (print line') :=
  fun _ _ h => ⟨rfl, h⟩

/-- Nothing that a run does depends on what has been printed. -/
theorem congruence_unprinted : Congruence fun w v => w.unprinted = v.unprinted where
  unprinted_eq := id
  print line := SameWork.print line line
  makeDir _ := .get_bind id fun _ _ => .bind (.lift _) fun _ =>
    .ite _ (.throw _) fun _ _ _ => ⟨rfl, rfl⟩
  writeContent path _ := .bind (.reads id (exec_resolve path) fun _ _ => rfl) fun _ =>
    .get_bind id fun _ _ => .ite _ (.throw _) fun _ _ _ => ⟨rfl, rfl⟩

/-- A `line` that only the first run prints. -/
theorem SameWork.print_bind_left {r s : Run α} (h : SameWork r s) (line : String) :
    SameWork (Run.print line >>= fun _ => r) s := fun _ v hwv => h _ v hwv

/-- A `line` that only the second run prints. -/
theorem SameWork.print_bind_right {r s : Run α} (h : SameWork r s) (line : String) :
    SameWork r (Run.print line >>= fun _ => s) := fun w _ hwv => h w _ hwv

/-- A `line` that only the first run prints, at its end. -/
theorem SameWork.bind_print {r s : Run Unit} (h : SameWork r s) (line : String) :
    SameWork (r >>= fun _ => Run.print line) s := by
  have hbind := h.bind (f := fun _ => Run.print line) (g := pure) fun _ _ _ hwv => ⟨rfl, hwv⟩
  rwa [bind_pure] at hbind

/-- A step that is made or not before the rest. -/
theorem SameWork.ite_bind {c : Prop} [Decidable c] {r : Run Unit} {k s : Run α} (hr : SameWork r r)
    (h : SameWork k s) :
    SameWork (if c then r >>= fun _ => k else k) (if c then r >>= fun _ => s else s) :=
  .ite c (hr.bind fun _ => h) h

theorem sameWork_remove (path : String) : SameWork (remove path) (remove path) := by
  refine (congruence_unprinted.find path).bind fun found w v h => ⟨rfl, ?_⟩
  obtain ⟨lines, rfl⟩ := Workspace.exists_printed_of_unprinted_eq h
  rfl

end Run

/-! ## Projects -/

theorem Project.sameWork_clearEntry (path : String) :
    SameWork (clearEntry path) (clearEntry path) := by
  have hremove : SameWork (removeEntry path) (removeEntry path) :=
    (congruence_unprinted.isFile path).bind fun _ => .ite _ (sameWork_remove path)
      ((congruence_unprinted.isDir path).bind fun _ => .ite _ (sameWork_remove path) (.pure _))
  refine hremove.outcome.bind fun result => ?_
  cases result with
  | ok => exact .pure _
  | error e => exact SameWork.print _ _

namespace Analyzer

theorem sameWork_clean (a : Analyzer) : SameWork a.clean a.clean := by
  refine .bind ((congruence_unprinted.exists? _).bind fun isThere => ?_) fun _ => .pure _
  cases isThere with
  | true =>
    exact (congruence_unprinted.listDir _).bind fun names =>
      (Lockstep.forM (fun _ => Project.sameWork_clearEntry _) names).bind fun _ => .pure _
  | false => exact (congruence_unprinted.makeNewDirs _).bind fun _ => .pure _

theorem sameWork_start (output : String) : SameWork (start output) (start output) :=
  (sameWork_clean _).bind fun _ => .pure _

end Analyzer

/-! ## Requests -/

namespace WindowRequest

/-- The request from the command line with the settings of `r`; no call graph is asked for. -/
def toRequest (r : WindowRequest) : CommandLine.Request where
  input := .value r.input
  output := .value r.output
  parallel := .value r.parallel
  resume := .value r.resume
  maxWalkers := .value r.walkers
  multiple := .value r.multiple
  callgraph := .value false

variable {r : WindowRequest}

theorem validate_toRequest (h : 0 < r.walkers) : r.toRequest.validate = pure () := by
  have hpositive : ¬r.walkers ≤ 0 := Int.not_le.2 h
  cases hparallel : r.parallel <;>
    simp [validate, require, toRequest, hpositive]

/-- `describe` only prints, and `k` goes on as if nothing had happened. -/
theorem sameWork_describe_bind (r : WindowRequest) {k s : Run Unit} (h : SameWork k s) :
    SameWork (r.toRequest.describe >>= fun _ => k) s := by
  have hdescribe : SameWork r.toRequest.describe (pure ()) := fun _ _ hwv => ⟨rfl, hwv⟩
  have hbind := hdescribe.bind (g := fun _ => s) fun _ => h
  rwa [pure_bind] at hbind

/-- Once a request is checked and described, `CommandLine.Request.run` and `perform` go the same
way. -/
theorem sameWork_run (schedule : List String → List String) (h : 0 < r.walkers) :
    SameWork (r.toRequest.run schedule) (r.perform schedule) := by
  refine (Analyzer.sameWork_start r.output).bind fun a => ?_
  rw [execute, validate_toRequest h, pure_bind]
  refine r.sameWork_describe_bind ?_
  simp only [toRequest, analyze, finish,
    require, pure_bind, Option.getD_some]
  refine .ite_bind a.sameWork_clean ?_
  cases r.multiple with
  | false =>
    simp only [Bool.false_eq_true, if_false, bind_assoc]
    exact (a.respects_analyzeProject congruence_unprinted r.input).bind fun _ =>
      (SameWork.print _ _).print_bind_left _
  | true =>
    have hmerge : SameWork a.mergeAll a.mergeAll :=
      Project.respects_mergeResults congruence_unprinted _ _
    have hmerge := hmerge.bind_print "Analysis results saved successfully."
    simp only [Bool.false_eq_true, if_true, if_false]
    refine .print_bind_right ?_ _
    cases r.parallel with
    | true =>
      exact (a.respects_analyzeParallel congruence_unprinted r.input r.walkers schedule).bind
        fun _ => hmerge
    | false =>
      exact (a.respects_analyzeSequential congruence_unprinted r.input r.resume).bind
        fun _ => hmerge

/-- What the window prints at the end of an analysis. -/
def told : Except Fault Unit → Run Unit
  | .ok () => return ()
  | .error e => print s!"An error occurred during analysis: {e.message}"

/-- `WindowRequest.run` leaves what `CommandLine.Request.run` leaves with the same settings,
whatever order projects beside each other come to their end in, and whether the analysis fails or
not; the window reports the failure that the command line ends with. -/
theorem run_sameWorkspace (r : WindowRequest) (schedule : List String → List String)
    (hwalkers : 0 < r.walkers) (w : Workspace) :
    ∃ x u lines, (r.toRequest.run schedule).exec w = (x, u) ∧
      (r.run schedule).exec w = (.ok (), { u with printed := lines }) ∧
      ∀ e, x = .error e →
        lines.head? = some s!"An error occurred during analysis: {e.message}\n" := by
  obtain ⟨x, u, hrequest⟩ : ∃ x u, (r.toRequest.run schedule).exec w = (x, u) := ⟨_, _, rfl⟩
  -- the window has printed the settings before it starts
  obtain ⟨lines, hrun⟩ : ∃ lines, (r.run schedule).exec w
      = (Run.outcome (r.perform schedule) >>= told).exec { w with printed := lines } := ⟨_, rfl⟩
  obtain ⟨hx, hu⟩ := sameWork_run schedule hwalkers w { w with printed := lines } rfl
  rw [hrequest] at hx hu
  obtain ⟨printed, hv⟩ := Workspace.exists_printed_of_unprinted_eq hu.symm
  rw [Run.exec_bind_ok _ (Run.exec_outcome _ _), ← hx, hv] at hrun
  cases x with
  | ok =>
    exact ⟨_, u, printed, hrequest, hrun, fun e he => by cases he⟩
  | error e =>
    refine ⟨_, u, _, hrequest, hrun, fun e' he => ?_⟩
    cases he
    rfl

/-- A project that is not there, asked for with several walkers. -/
def absentProject : WindowRequest where
  input := "in"
  output := "out"
  walkers := 3
  parallel := true
  resume := false
  multiple := false

theorem run_sameWorkspace_absentProject :
    0 < absentProject.walkers ∧ ∃ e u lines,
      (absentProject.toRequest.run List.reverse).exec {} = (.error e, u) ∧
      (absentProject.run List.reverse).exec {} = (.ok (), { u with printed := lines }) ∧
      lines.head? = some
        "An error occurred during analysis: The project 'in' contains no Python files.\n" := by
  refine ⟨by decide, ?_⟩
  obtain ⟨x, u, lines, hrequest, hrun, hreport⟩ :=
    run_sameWorkspace absentProject List.reverse (by decide) {}
  have hfails : ((absentProject.toRequest.run List.reverse).exec {}).1.mapError Fault.message
      = .error "The project 'in' contains no Python files." := by decide +kernel
  rw [hrequest] at hfails
  cases x with
  | ok => cases hfails
  | error e =>
    have hmessage : e.message = "The project 'in' contains no Python files." :=
      Except.error.inj hfails
    refine ⟨e, u, lines, hrequest, hrun, (hreport e rfl).trans ?_⟩
    rw [hmessage]
    rfl

end WindowRequest

end SmellLint
