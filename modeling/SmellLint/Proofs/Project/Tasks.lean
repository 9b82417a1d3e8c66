import SmellLint.Proofs.Project.Ledger
import SmellLint.Proofs.Project.Sources

/-!
# Analyzing one project of a folder

The analysis of a project reads files that no effect changes, so it gives the same rows, fails or
not, and adds the same effects, whatever has been analyzed before.
-/

namespace SmellLint

open Analyzer List Path Project Run Tree

/-- Whether the analysis of the project `name` does not fail, adding it to the log included. -/
def Analyzer.passes (a : Analyzer) (base : String) (w : Workspace) (name : String) : Bool :=
  ((a.analyzeMember base name >>= fun _ => Log.append (logPath base) name).exec w).1.isOk

namespace Scene

variable {s : Scene}

/-! ## The files of a project -/

/-- The place of the entry `name` of the folder. -/
def memberPlace (s : Scene) (name : String) : Place := s.basePlace ++ [name]

theorem isSource_resultsName (name : String) : isSource (resultsName name) = false := by
  have hlist : (resultsName name).toList = name.toList ++ "_results.csv".toList :=
    String.toList_append
  simp [isSource, endsWith, hlist, Text.dropStart?]

theorem isSource_eq_false_of_isWritten {q : Place} {n : String} (h : s.IsWritten (q ++ [n])) :
    isSource n = false := by
  rcases h with h | h | ⟨name, h, -⟩ <;> obtain ⟨-, h⟩ := append_inj' h rfl <;>
    obtain rfl := singleton_inj.1 h
  · decide
  · decide
  · exact isSource_resultsName name

variable {es : List Effect} {w : Workspace} {name path : String} {x : Option Nat}

theorem Rep.extends (h : s.Rep es w) : Extends isSource s.start.tree w.tree where
  isDir hq := isDir_of_lookup (h.kept.dir (lookup_of_isDir hq))
  isFile hq := h.kept.isFile (fun _ => rfl) hq
  isNew {q n} hn hnone := by
    rw [Tree.isFile]
    rcases h.kept.new hnone with hl | ⟨hl, -⟩ | ⟨-, hwritten, -⟩
    · rw [hl]
      rfl
    · rw [hl]
      rfl
    · rw [isSource_eq_false_of_isWritten hwritten] at hn
      cases hn

/-- The ways from the project `name` to its files. -/
def sourceWays (s : Scene) (name : String) : List (List String) :=
  s.start.tree.sources isSource (fun d => !isSkippedDir d) (s.memberPlace name)
    (s.start.tree.depth + 1) []

/-- The paths of the files of the project `name`. -/
def sourcePaths (s : Scene) (name : String) : List String :=
  (s.sourceWays name).map fun ws =>
    absolute s.start.cwd (joinAll (join s.base name) ws)

/-- `name` is a project of the folder. -/
structure IsProject (s : Scene) (name : String) : Prop where
  isName : IsName name
  isDir : s.start.tree.isDir (s.memberPlace name) = true

theorem Rep.find_project (h : s.Rep es w) (hname : s.IsProject name) :
    w.tree.find w.place (join s.base name) = .ok (s.memberPlace name, .dir) :=
  find_of_resolve (h.resolve_base hname.isName) (h.kept.dir (lookup_of_isDir hname.isDir))

theorem Rep.sources_eq (h : s.Rep es w) (name : String) :
    w.tree.sources isSource (fun d => !isSkippedDir d) (s.memberPlace name)
      (w.tree.depth + 1) [] = s.sourceWays name :=
  ((h.extends.sameBelow s.sound.tree _).sources_eq s.sound.tree.toRegular h.regular (by omega)
    (by omega) fun _ _ _ => rfl).symm

theorem reads_sourceFiles (hname : s.IsProject name) :
    Reads s.Rep (sourceFiles (join s.base name)) (.ok (s.sourcePaths name)) := by
  intro es w h
  refine ⟨w, (exec_sourceFiles _ w).trans ?_, h⟩
  rw [sourcesAt, h.find_project hname, h.cwd_eq, sourcePaths, ← h.sources_eq name]
  rfl

/-- The files of a project are there at the start. -/
theorem exists_of_mem_sourcePaths (hname : s.IsProject name) (hpath : path ∈ s.sourcePaths name) :
    ∃ p n c, IsSourceAt s.start path p n c := by
  obtain ⟨ws, hws, rfl⟩ := mem_map.1 hpath
  obtain ⟨p, n, c, -, hat⟩ :=
    isSourceAt_of_mem_sourceWays s.sound (rep_start.find_project hname) hws
  exact ⟨p, n, c, hat⟩

/-- `readText` gives what was in a source file at the start. -/
theorem reads_readText (hname : s.IsProject name) (hpath : path ∈ s.sourcePaths name) :
    ∃ x, Reads s.Rep (readText (absolute s.start.cwd path)) x := by
  obtain ⟨p, n, c, hat⟩ := exists_of_mem_sourcePaths hname hpath
  refine ⟨c.readText, fun es w h =>
    ⟨w, hat.exec_readText s.sound (fun _ hq => h.kept.dir hq) ?_, h⟩⟩
  obtain ⟨c', hc', hwritten | rfl⟩ := h.kept.file hat.lookup_eq
  · have hsource := hat.isSource
    rw [isSource_eq_false_of_isWritten hwritten] at hsource
    cases hsource
  · exact hc'

/-! ## Inspecting files -/

theorem reads_print (line : String) : Reads s.Rep (print line) (.ok ()) :=
  fun _ _ h => ⟨_, rfl, h.of_printed _⟩

theorem reads_printAll (lines : List String) : Reads s.Rep (printAll lines) (.ok ()) := by
  induction lines with
  | nil => exact .pure ()
  | cons line lines ih => exact (reads_print line).bind ih

theorem reads_inspect (hname : s.IsProject name) (hpath : path ∈ s.sourcePaths name) :
    ∃ x, Reads s.Rep (s.analyzer.inspect path) x := by
  obtain ⟨content, hcontent⟩ := reads_readText hname hpath
  refine ⟨(Inspection.ofFile s.analyzer.catalogue path content).result, fun es w h => ?_⟩
  rw [inspect, exec_bind_ok _ (exec_get w), h.cwd_eq]
  exact (hcontent.outcome.bind ((reads_printAll _).bind (.lift _))) es w h

theorem steady_noteFailure (s : Scene) (path : String) (e : Fault) :
    Steady s.Rep IsNoting (s.analyzer.noteFailure path e) := by
  rw [noteFailure, ← bind_assoc]
  exact (s.steady_note ⟨path, e, rfl⟩).bind fun _ => .of_reads (reads_print _)

theorem steady_inspectNoted (hname : s.IsProject name) (hpath : path ∈ s.sourcePaths name) :
    Steady s.Rep IsNoting (s.analyzer.inspectNoted path) := by
  obtain ⟨x, hx⟩ := reads_inspect hname hpath
  refine .bind_reads hx.outcome ?_
  cases x with
  | ok rows =>
    dsimp only
    split
    · exact .bind_reads (reads_print _) (.pure rows)
    · exact .pure rows
  | error e =>
    cases e with
    | inFile file cause => exact (s.steady_noteFailure _ _).bind fun _ => .pure []
    | _ => exact .throw _

theorem steady_inspectAll (hname : s.IsProject name) :
    Steady s.Rep IsNoting (s.analyzer.inspectAll (s.sourcePaths name)) :=
  (Steady.mapM fun _ hpath => steady_inspectNoted hname hpath).bind fun _ => .pure _

/-! ## Projects -/

/-- Whether the entry `name` of the folder is a project to be analyzed. -/
def isMember (s : Scene) (name : String) : Bool :=
  !(name == "output" || name == "execution_log.txt") && s.start.tree.isDir (s.memberPlace name)

/-- The rows of the project `name`, if its analysis comes that far. -/
def rows? (s : Scene) (name : String) : Option (List Row) :=
  ((s.analyzer.inspectAll (s.sourcePaths name)).exec s.start).1.toOption

/-- The text of the table that is saved for the entry `name` of the folder, if there is one. -/
def savedText? (s : Scene) (name : String) : Option String :=
  if s.isMember name && s.canSave name then
    ((s.rows? name).filter fun rows => !rows.isEmpty).map Row.writtenCsv
  else none

/-- Effects of analyzing the project `name`. -/
def OfProject (s : Scene) (name : String) : Effect → Prop
  | .save p text => p = s.resultsPlace name ∧ s.savedText? name = some text
  | e => IsNoting e

/-- `analyzeMember` does the same whatever happened before. -/
theorem exists_emits_analyzeMember (hname : s.IsProject name) (hmember : s.isMember name = true) :
    ∃ x es, Emits s.Rep (s.analyzer.analyzeMember s.base name) x es ∧
      (∀ e ∈ es, s.OfProject name e) ∧
      ∀ text, s.savedText? name = some text → .save (s.resultsPlace name) text ∈ es := by
  -- the table is settled by the rows, and the rows by the files as they were at the start
  obtain ⟨x, es, hes, hx⟩ := steady_inspectAll hname
  have hfiles := (reads_sourceFiles hname).emits
  have hsaved : s.savedText? name = if s.canSave name then
      (x.filter fun rows => !rows.isEmpty).map Row.writtenCsv else none := by
    rw [savedText?, hmember, rows?, (hx [] s.start rep_start).1, Bool.true_and]
  have hnoting : ∀ e ∈ es, s.OfProject name e := by
    intro e he
    have := hes e he
    cases e <;> first | exact this | exact this.elim
  have hnone : s.savedText? name = none → ∀ text, s.savedText? name = some text →
      .save (s.resultsPlace name) text ∈ es := fun h text htext => by simp [h] at htext
  cases x with
  | none => exact ⟨none, es, hfiles.bind hx.bind_none, hnoting, hnone (by rw [hsaved]; simp)⟩
  | some rows =>
    by_cases hempty : rows = []
    · subst hempty
      exact ⟨_, es, hfiles.bind (hx.bind_reads (.pure _)), hnoting, hnone (by rw [hsaved]; simp)⟩
    · have hne : (!rows.isEmpty) = true := by simpa using hempty
      rw [Option.filter_some, if_pos hne, Option.map_some] at hsaved
      obtain ⟨y, hy⟩ := s.exists_emits_saveRows ⟨hname.isName.1.1.2, hname.isName.2.2⟩ rows
      obtain ⟨z, hz⟩ : ∃ z, Emits s.Rep (if !rows.isEmpty then do
            makeDirs s.details
            writeTexts (join s.details (resultsName name)) (Row.records rows)
            print s!"Detailed results saved to {Path.join s.details (resultsName name)}"
            pure rows.length
          else pure rows.length) z _ := by
        rw [if_pos hne, ← bind_assoc]
        cases y with
        | none => exact ⟨none, hy.bind_none⟩
        | some _ => exact ⟨_, hy.bind_reads ((reads_print _).bind (.pure _))⟩
      refine ⟨z, es ++ _, hfiles.bind (hx.bind hz), forall_mem_append.2 ⟨hnoting, ?_⟩, ?_⟩
      · refine forall_mem_cons.2 ⟨trivial, fun e he => ?_⟩
        split at he
        · next hcan =>
          cases mem_singleton.1 he
          exact ⟨rfl, by rw [hsaved, if_pos hcan]⟩
        · cases he
      · intro text htext
        rw [hsaved, Option.ite_none_right_eq_some] at htext
        obtain ⟨hcan, ⟨⟩⟩ := htext
        simp [hcan]

/-! ## Turns -/

/-- `name` is an entry of the folder: it can be a name, and no directory is made there on the way to
the output. -/
structure IsEntry (s : Scene) (name : String) : Prop where
  isName : IsName name
  isDir : s.memberPlace name ∈ s.dirsOf s.details → s.start.tree.isDir (s.memberPlace name) = true

theorem reads_isMember (hname : s.IsEntry name) :
    Reads s.Rep (Analyzer.isMember s.base name) (.ok (s.isMember name)) := by
  intro es w h
  refine ⟨w, ?_, h⟩
  have hresolve : w.tree.resolve w.place (join s.base name) = .ok (s.memberPlace name) :=
    h.resolve_base hname.isName
  have hdir : ((w.tree.find w.place (join s.base name)).toOption.any fun e => e.2.isDir)
      = s.start.tree.isDir (s.memberPlace name) :=
    (any_isDir_of_resolve hresolve).trans (h.isDir_eq_start hname.isDir)
  rw [Analyzer.isMember, isMember]
  cases name == "output" || name == "execution_log.txt" with
  | true => rfl
  | false =>
    refine (exec_isDir _ w).trans ?_
    rw [hdir]
    rfl

theorem IsEntry.isProject (h : s.IsEntry name) (hmember : s.isMember name = true) :
    s.IsProject name := by
  rw [isMember, Bool.and_eq_true] at hmember
  exact ⟨h.isName, hmember.2⟩

/-- Both ways to add the project `name` to the log have the same effects. -/
theorem emits_log_print (s : Scene) (name line : String) :
    Emits s.Rep (appendText (logPath s.base) (name ++ "\n") >>= fun _ =>
      print line) (if s.isLoggable name then some () else none) (s.logEffects name) := by
  have hlog := s.emits_log name
  cases hname : s.isLoggable name <;> rw [hname] at hlog
  · exact hlog.bind_none
  · exact hlog.bind_reads (reads_print line)

/-- `conclude` adds a project that has been analyzed to the log, and not one that has failed. -/
theorem emits_conclude {work : Run Nat} {log : Run Unit} (hwork : Emits s.Rep work x es)
    (hlog : Emits s.Rep log (if s.isLoggable name then some () else none) (s.logEffects name)) :
    Emits s.Rep (conclude name work log) (some (x.getD 0))
      (es ++ if x.isSome then s.logEffects name else []) := by
  have hreport : ∀ (e : Fault) (n : Nat), Emits s.Rep
      (reportFailure name e >>= fun _ => (pure n : Run Nat)) (some n) [] :=
    fun e n => (reads_print _).emits.bind (.pure n)
  cases x with
  | none => exact hwork.attempt_none fun e => hreport e 0
  | some count =>
    refine hwork.attempt ?_
    cases hloggable : s.isLoggable name with
    | true =>
      rw [logEffects, hloggable] at hlog ⊢
      exact hlog.attempt (.pure count)
    | false =>
      rw [logEffects, hloggable] at hlog ⊢
      exact hlog.attempt_none fun e => hreport e count

/-- Whether the entry `name` is a project that is logged. -/
def isLogged (s : Scene) (name : String) : Bool :=
  s.isMember name && s.analyzer.passes s.base s.start name

/-- The turn of the entry `name` gives `value` and has the effects `es`, in whatever order the
entries come. -/
structure IsTurn (s : Scene) (name : String) (value : Nat) (es : List Effect) : Prop where
  inTurn : ∀ {resume : Bool} {last : String}, (resume && decide (name ≤ last)) = false →
    Emits s.Rep (s.analyzer.takeTurn s.base resume last name) (some value) es
  beside : Emits s.Rep (s.analyzer.analyzeBeside s.base name) (some value) es
  noted : ∀ {text : String}, .note (some text) ∈ es → IsRecord text
  saved : ∀ {p : Place} {text : String}, .save p text ∈ es ↔
    p = s.resultsPlace name ∧ s.savedText? name = some text
  passed : s.isMember name = false → es = []
  logged : es.filterMap Effect.logged? = if s.isLogged name then [name] else []

/-- An entry that is no project is passed over. -/
theorem isTurn_of_not_isMember (hname : s.IsEntry name) (hmember : s.isMember name = false) :
    s.IsTurn name 0 [] := by
  have hreads := reads_isMember hname
  rw [hmember] at hreads
  refine ⟨fun hlast => ?_, ?_, fun h => absurd h not_mem_nil,
    by simp [savedText?, hmember], fun _ => rfl, ?_⟩
  · rw [takeTurn, hlast]
    exact hreads.emits.bind (.pure 0)
  · exact hreads.emits.bind (.pure 0)
  · rw [isLogged, hmember]
    rfl

theorem filterMap_logged_of_ofProject (hes : ∀ e ∈ es, s.OfProject name e) :
    es.filterMap Effect.logged? = [] := by
  refine filterMap_eq_nil_iff.2 fun e he => ?_
  cases e with
  | log n => exact (hes _ he).elim
  | _ => rfl

/-- Whether a project `passes`, seen from what `analyzeMember` emits. -/
theorem passes_eq (hx : Emits s.Rep (s.analyzer.analyzeMember s.base name) x es) :
    s.analyzer.passes s.base s.start name = (x.isSome && s.isLoggable name) := by
  have hisOk : ∀ {y : Option Unit} {es' : List Effect},
      Emits s.Rep (s.analyzer.analyzeMember s.base name >>= fun _ =>
        Log.append (logPath s.base) name) y es' →
      s.analyzer.passes s.base s.start name = y.isSome := by
    intro y es' h
    have hy := (h [] s.start rep_start).1
    rw [passes, ← hy]
    cases (exec _ _).1 <;> rfl
  cases x with
  | none => exact hisOk hx.bind_none
  | some count =>
    rw [hisOk (hx.bind (s.emits_log_print name _))]
    cases s.isLoggable name <;> rfl

theorem ofProject_or_log_of_mem (hes : ∀ e ∈ es, s.OfProject name e) {e : Effect}
    (he : e ∈ es ++ if x.isSome then s.logEffects name else []) :
    s.OfProject name e ∨ e = .log name := by
  rcases mem_append.1 he with he | he
  · exact .inl (hes e he)
  · refine .inr ?_
    split at he
    · rw [logEffects] at he
      split at he
      · exact mem_singleton.1 he
      · cases he
    · cases he

/-- A project does the same in turn and beside others, whatever happened before. -/
theorem exists_isTurn_of_isMember (hname : s.IsEntry name) (hmember : s.isMember name = true) :
    ∃ value es, s.IsTurn name value es := by
  obtain ⟨x, es, hx, hes, hsaved⟩ := exists_emits_analyzeMember (hname.isProject hmember) hmember
  have hreads := reads_isMember hname
  rw [hmember] at hreads
  -- the way through the log is the same for both kinds of turns
  have hconclude : ∀ {work : Run Nat} (line : String), Emits s.Rep work x es → Emits s.Rep
      (conclude name work (appendText (logPath s.base) (name ++ "\n") >>=
        fun _ => print line)) (some (x.getD 0))
      (es ++ if x.isSome then s.logEffects name else []) :=
    fun line hwork => emits_conclude hwork (s.emits_log_print name line)
  refine ⟨x.getD 0, es ++ if x.isSome then s.logEffects name else [], ?_⟩
  constructor
  case inTurn =>
    intro resume last hlast
    rw [takeTurn, hlast]
    refine hreads.emits.bind ((reads_print _).emits.bind (hconclude _ ?_))
    cases x with
    | none => exact hx.bind_none
    | some count => exact hx.bind_reads ((reads_print _).bind (.pure count))
  case beside => exact hreads.emits.bind ((reads_print _).emits.bind (hconclude _ hx))
  case noted =>
    intro record h
    rcases ofProject_or_log_of_mem hes h with h | h
    · exact h _ rfl
    · cases h
  case saved =>
    refine ⟨fun h => ?_, ?_⟩
    · rcases ofProject_or_log_of_mem hes h with h | h
      · exact h
      · cases h
    · rintro ⟨rfl, htext⟩
      exact mem_append_left _ (hsaved _ htext)
  case passed =>
    intro h
    rw [hmember] at h
    cases h
  case logged =>
    rw [filterMap_append, filterMap_logged_of_ofProject hes, isLogged, hmember, passes_eq hx]
    cases x with
    | none => rfl
    | some count =>
      rw [logEffects]
      cases s.isLoggable name <;> rfl

theorem exists_isTurn (hname : s.IsEntry name) : ∃ value es, s.IsTurn name value es := by
  cases hmember : s.isMember name with
  | false => exact ⟨0, [], isTurn_of_not_isMember hname hmember⟩
  | true => exact exists_isTurn_of_isMember hname hmember

end Scene

end SmellLint
