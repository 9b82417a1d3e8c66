import SmellLint.Project.Analysis
import SmellLint.Proofs.Project.Sources
import SmellLint.Proofs.Workspace.Keeps

/-!
# What analyses keep

An analysis does the same in workspaces that differ in the printed texts at most, whatever projects
hold and wherever the analysis ends (`Analyzer.respects_analyzeProject`,
`Analyzer.respects_analyzeSequential`, `Analyzer.respects_analyzeParallel`).  So it keeps what is
kept whatever is printed, made or written, and the workspace that it leaves is sound.
-/

namespace SmellLint

open Run Project.Log

variable {R : Workspace → Workspace → Prop} {P : Workspace → Prop}

theorem Project.keeps_sourceFiles (path : String) : Keeps P (sourceFiles path) := by
  intro w hw
  rw [exec_sourceFiles]
  exact hw

section

variable (h : Congruence R) (a : Analyzer) (base path name : String)

include h

namespace Project

theorem respects_sourceFiles : Respects R (sourceFiles path) :=
  .reads h.unprinted_eq (exec_sourceFiles path) fun _ _ => rfl

theorem respects_readResults (path : String) : Respects R (readResults path) := by
  refine (((h.readContent path).bind fun _ => .lift _).bind fun _ => .lift _).outcome.bind
    fun result => ?_
  cases result with
  | ok t => exact .ite _ ((h.print _).bind fun _ => .pure _) (.pure _)
  | error e => exact (h.print _).bind fun _ => .pure _

theorem respects_visits (path : String) (enter : String → Bool) :
    Respects R (visits path enter) := by
  refine .bind ((h.find path).outcome.bind fun found => ?_) fun place? => ?_
  · split
    · exact .pure _
    · exact .ite _ (.throw _) (.pure _)
    · exact .pure _
  · cases place? with
    | none => exact .pure _
    | some p => exact .get_bind h.unprinted_eq fun _ _ => .pure _

theorem respects_mergeResults (inputDir outputDir : String) :
    Respects R (mergeResults inputDir outputDir) := by
  refine (h.print _).bind fun _ => .bind ((respects_visits h _ _).bind fun _ => .pure _)
    fun paths => (Lockstep.mapM (respects_readResults h) _).bind fun tables => .ite _ (h.print _) ?_
  exact (h.makeDirs _).bind fun _ => (h.writeText _ _).bind fun _ => h.print _

namespace Log

theorem respects_start : Respects R (start path) := (h.writeText _ _).bind fun _ => h.print _

theorem respects_append : Respects R (append path name) :=
  (h.appendText _ _).bind fun _ => h.print _

theorem respects_appendLocked : Respects R (appendLocked path name) :=
  (h.appendText _ _).bind fun _ => h.print _

theorem respects_last : Respects R (last path) := by
  refine (h.readText path).outcome.bind fun result => ?_
  cases result with
  | ok text => exact .pure _
  | error e => exact .ite _ (.pure _) (.throw _)

end Log

end Project

namespace Analyzer

theorem respects_inspect : Respects R (a.inspect path) :=
  .get_bind h.unprinted_eq fun _ _ => (h.readText _).outcome.bind fun _ =>
    (h.printAll _).bind fun _ => .lift _

theorem respects_noteFailure (e : Fault) : Respects R (a.noteFailure path e) :=
  (h.makeDirs _).bind fun _ => (h.appendText _ _).bind fun _ => h.print _

theorem respects_inspectNoted : Respects R (a.inspectNoted path) := by
  refine (respects_inspect h a path).outcome.bind fun result => ?_
  split
  · exact .ite _ ((h.print _).bind fun _ => .pure _) (.pure _)
  · exact (respects_noteFailure h a path _).bind fun _ => .pure _
  · exact .throw _

theorem respects_inspectAll (paths : List String) : Respects R (a.inspectAll paths) :=
  (Lockstep.mapM (respects_inspectNoted h a) paths).bind fun _ => .pure _

theorem respects_saveOverview (rows : List Row) : Respects R (a.saveOverview rows) :=
  .ite _ (h.print _) ((h.makeDirs _).bind fun _ => (h.writeTexts _ _).bind fun _ => h.print _)

theorem respects_analyzeProject : Respects R (a.analyzeProject path) :=
  (h.print _).bind fun _ => (Project.respects_sourceFiles h path).bind fun files =>
    .ite _ (.throw_bind _ _ _) ((respects_inspectAll h a files).bind fun rows =>
      (respects_saveOverview h a rows).bind fun _ =>
        (h.print _).bind fun _ => (h.print _).bind fun _ => .pure _)

theorem respects_analyzeMember : Respects R (a.analyzeMember base name) := by
  refine (Project.respects_sourceFiles h _).bind fun files =>
    (respects_inspectAll h a files).bind fun rows => .ite _ ?_ (.pure _)
  exact (h.makeDirs _).bind fun _ => (h.writeTexts _ _).bind fun _ =>
    (h.print _).bind fun _ => .pure _

theorem respects_isMember : Respects R (isMember base name) := .ite _ (.pure _) (h.isDir _)

theorem respects_conclude {work : Run Nat} {log : Run Unit} (hwork : Respects R work)
    (hlog : Respects R log) : Respects R (conclude name work log) := by
  refine hwork.outcome.bind fun result => ?_
  cases result with
  | error e => exact (h.print _).bind fun _ => .pure _
  | ok count =>
    refine hlog.outcome.bind fun logged => ?_
    cases logged with
    | ok => exact .pure _
    | error e => exact (h.print _).bind fun _ => .pure _

theorem respects_ensureBase : Respects R (ensureBase base) :=
  (h.exists? base).bind fun _ => .ite _ (h.makeNewDirs base) (.pure ())

theorem respects_reportTotal (kind : String) (counts : List Nat) :
    Respects R (reportTotal kind counts) :=
  .get_bind h.unprinted_eq fun _ _ => (h.print _).bind fun _ => h.print _

theorem respects_takeTurn (resume : Bool) (last : String) :
    Respects R (a.takeTurn base resume last name) := by
  refine .ite _ (.pure _) ((respects_isMember h base name).bind fun _ => .ite _ ?_ (.pure _))
  refine (h.print _).bind fun _ =>
    respects_conclude h name (.bind ?_ fun _ => ?_) (respects_append h _ _)
  · exact respects_analyzeMember h a base name
  · exact (h.print _).bind fun _ => .pure _

theorem respects_prepareLog (resume : Bool) : Respects R (prepareLog base resume) :=
  (respects_ensureBase h base).bind fun _ => .ite _ (respects_last h _)
    ((respects_start h _).bind fun _ => .pure _)

theorem respects_analyzeSequential (resume : Bool) {listing : List String → List String} :
    Respects R (a.analyzeSequential base resume listing) :=
  (respects_prepareLog h base resume).bind fun last => (h.listDir base).bind fun _ =>
    (Lockstep.mapM (fun name => respects_takeTurn h a base name resume last) _).bind fun _ =>
      respects_reportTotal h _ _

theorem respects_analyzeBeside : Respects R (a.analyzeBeside base name) := by
  refine (respects_isMember h base name).bind fun _ => .ite _ (.pure _) ?_
  exact (h.print _).bind fun _ => respects_conclude h name
    (respects_analyzeMember h a base name) (respects_appendLocked h _ _)

theorem respects_keepLog : Respects R (keepLog base) :=
  (respects_ensureBase h base).bind fun _ => (h.exists? _).bind fun _ =>
    .ite _ (respects_start h _) (.pure ())

theorem respects_analyzeParallel (workers : Int) (schedule : List String → List String) :
    Respects R (a.analyzeParallel base workers schedule) :=
  (respects_keepLog h base).bind fun _ => .ite _ (.throw_bind _ _ _) ((h.listDir base).bind fun _ =>
      (Lockstep.mapM (respects_analyzeBeside h a base) _).bind fun _ => respects_reportTotal h _ _)

end Analyzer

end

end SmellLint
