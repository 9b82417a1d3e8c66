import SmellLint.Proofs.Project.Folder

/-!
# What a resumed analysis attempts

All that a resumed analysis knows of earlier ones is the last line of the log.  It attempts the
projects whose names come after this line, and no others (`Analyzer.analyzeSequential_attempts`).
So a project that comes before is passed over, whether the log has it or not.
-/

namespace SmellLint

open Analyzer List Path Project Run

namespace Analyzer

/-- Those of the `names` in the folder at `p` that are projects and come after `last`. -/
def projectsAfter (w : Workspace) (p : Place) (last : String) (names : List String) : List String :=
  names.filter fun name =>
    decide (last < name) && (name != "output" && w.tree.isDir (p ++ [name]))

theorem mem_projectsAfter {w : Workspace} (hw : w.Sound) {p : Place} {last name : String}
    {names : List String} (hnames : names.Perm (w.tree.names p)) :
    name ∈ projectsAfter w p last names
      ↔ w.tree.isDir (p ++ [name]) = true ∧ name ≠ "output" ∧ last < name := by
  have hmem : w.tree.isDir (p ++ [name]) = true → name ∈ names := by
    intro hdir
    rw [hnames.mem_iff, hw.tree.mem_names, Tree.lookup_of_isDir hdir]
    rfl
  simp only [projectsAfter, mem_filter, Bool.and_eq_true, decide_eq_true_eq, bne_iff_ne]
  constructor
  · rintro ⟨-, hlast, hname, hdir⟩
    exact ⟨hdir, hname, hlast⟩
  · rintro ⟨hdir, hname, hlast⟩
    exact ⟨hmem hdir, hlast, hname, hdir⟩

theorem exec_isMember (base name : String) (w : Workspace) :
    ∃ x, (isMember base name).exec w = (.ok x, w) := by
  rw [isMember]
  split
  · exact ⟨_, rfl⟩
  · exact ⟨_, exec_isDir _ w⟩

/-- `reportTotal` depends on the sum of `counts` only. -/
theorem reportTotal_congr (kind : String) {counts counts' : List Nat}
    (h : counts.foldr (· + ·) 0 = counts'.foldr (· + ·) 0) :
    reportTotal kind counts = reportTotal kind counts' := by
  unfold reportTotal totalText
  rw [h]

end Analyzer

namespace Scene

variable {s : Scene}

theorem isMember_eq (hfile : s.log.isDir = false) (name : String) :
    s.isMember name = (name != "output" && s.start.tree.isDir (s.basePlace ++ [name])) := by
  rw [isMember, memberPlace]
  by_cases hlog : name = "execution_log.txt"
  · -- the log is a file
    have hdir : s.start.tree.isDir (s.basePlace ++ [name]) = false := by
      rw [hlog]
      exact s.isDir_logPlace.trans hfile
    rw [hdir, Bool.and_false, Bool.and_false]
  · rw [beq_false_of_ne hlog, Bool.or_false]
    rfl

/-- `takeTurn` of a resumed analysis is `analyzeInTurn` for a project it attempts, or does nothing.
-/
theorem Rep.exec_takeTurn {es : List Effect} {u : Workspace} (hu : s.Rep es u) {name : String}
    (hname : s.IsEntry name) (last : String) :
    (s.analyzer.takeTurn s.base true last name).exec u = if decide (last < name) && s.isMember name
        then (s.analyzer.analyzeInTurn s.base name).exec u else (.ok 0, u) := by
  have hmember : (Analyzer.isMember s.base name).exec u = (.ok (s.isMember name), u) := by
    obtain ⟨x, hx⟩ := exec_isMember s.base name u
    obtain ⟨u', hreads, -⟩ := reads_isMember hname es u hu
    rw [hx] at hreads ⊢
    cases hreads
    rfl
  rw [takeTurn]
  by_cases hlast : last < name
  · have hnot : (true && decide (name ≤ last)) = false := by
      rw [Bool.true_and, decide_eq_false_iff_not]
      exact String.not_le.2 hlast
    rw [hnot, decide_eq_true hlast, if_neg Bool.false_ne_true, exec_bind_ok _ hmember]
    cases s.isMember name <;> rfl
  · have hle : (true && decide (name ≤ last)) = true := by
      rw [Bool.true_and, decide_eq_true_eq]
      exact String.not_lt.1 hlast
    rw [hle, decide_eq_false hlast]
    rfl

/-- The turns of a resumed analysis are those of the projects that are attempted. -/
theorem Turns.exec_mapM_takeTurn (t : s.Turns) {names : List String}
    (h : ∀ name ∈ names, s.IsEntry name) (last : String) {es : List Effect} {u : Workspace}
    (hu : s.Rep es u) :
    ∃ counts counts' v,
      (names.mapM (s.analyzer.takeTurn s.base true last)).exec u = (.ok counts, v) ∧
      ((names.filter fun name => decide (last < name) && s.isMember name).mapM
        (s.analyzer.analyzeInTurn s.base)).exec u = (.ok counts', v) ∧
      counts.foldr (· + ·) 0 = counts'.foldr (· + ·) 0 := by
  induction names generalizing es u with
  | nil => exact ⟨[], [], u, rfl, rfl, rfl⟩
  | cons name names ih =>
    obtain ⟨hname, hnames⟩ := forall_mem_cons.1 h
    have hturn := hu.exec_takeTurn hname last
    rw [mapM_cons, filter_cons]
    cases hattempted : decide (last < name) && s.isMember name with
    | false =>
      rw [hattempted] at hturn
      obtain ⟨counts, counts', v, hrest, hrest', htotal⟩ := ih hnames hu
      rw [exec_bind_ok _ hturn, exec_bind_ok _ hrest]
      refine ⟨_, counts', v, rfl, hrest', ?_⟩
      rw [foldr_cons, htotal, Nat.zero_add]
    | true =>
      rw [hattempted] at hturn
      have hlast : (true && decide (name ≤ last)) = false := by
        rw [Bool.and_eq_true, decide_eq_true_eq] at hattempted
        rw [Bool.true_and, decide_eq_false_iff_not]
        exact String.not_le.2 hattempted.1
      obtain ⟨u', hexec, hu'⟩ := ((t.isTurn hname).inTurn hlast).exec_eq hu
      obtain ⟨counts, counts', v, hrest, hrest', htotal⟩ := ih hnames hu'
      rw [if_pos rfl, mapM_cons, exec_bind_ok _ hexec, exec_bind_ok _ hrest,
        exec_bind_ok _ (hturn.symm.trans hexec), exec_bind_ok _ hrest']
      refine ⟨_, _, v, rfl, rfl, ?_⟩
      rw [foldr_cons, foldr_cons, htotal]

end Scene

namespace Analyzer

variable {base text : String} {w : Workspace} {p : Place}

/-- A resumed analysis comes to the end that the projects after the last line of the log come to. -/
theorem exists_of_log (a : Analyzer) (hw : w.Sound)
    (hbase : w.tree.find w.place base = .ok (p, .dir))
    (hlog : w.tree.lookup (p ++ ["execution_log.txt"]) = some (.file (.text text)))
    {listing : List String → List String}
    (hlisting : (listing (w.tree.names p)).Perm (w.tree.names p)) :
    ∃ counts v, ((projectsAfter w p (lastLogged text) (listing (w.tree.names p))).mapM
        (a.analyzeInTurn base)).exec w = (.ok counts, v) ∧
      (a.analyzeSequential base true listing).exec w
        = (reportTotal "Sequential" counts).exec v := by
  let s : Scene := ⟨a, base, w, p, _, hw, hbase, hlog⟩
  obtain ⟨t⟩ := s.nonempty_turns
  have hentry : ∀ name ∈ listing (w.tree.names p), s.IsEntry name := fun name hname =>
    Scene.isEntry_of_mem_names (hlisting.mem_iff.1 hname)
  obtain ⟨counts, counts', v, hturns, hattempts, htotal⟩ :=
    t.exec_mapM_takeTurn hentry _ Scene.rep_start
  have hfilter : (fun name => decide (lastLogged text < name) && s.isMember name)
      = fun name => decide (lastLogged text < name) &&
        (name != "output" && w.tree.isDir (p ++ [name])) := by
    funext name
    rw [Scene.isMember_eq rfl]
  rw [hfilter] at hattempts
  refine ⟨counts', v, hattempts, ?_⟩
  rw [analyzeSequential, exec_bind_ok _ (exec_prepareLog_of_file hbase hlog),
    exec_bind_ok _ (exec_listDir_of_dir hbase), exec_bind_ok _ hturns,
    reportTotal_congr _ htotal]

/-- A resumed `analyzeSequential` attempts, one after the other in the order in which the folder is
listed, exactly the projects whose names come after the last line of the log, whatever the log and
the folder hold. -/
theorem analyzeSequential_attempts (a : Analyzer) (hw : w.Sound)
    (hbase : w.tree.find w.place base = .ok (p, .dir))
    (hlog : w.tree.lookup (p ++ ["execution_log.txt"]) = some (.file (.text text)))
    {listing : List String → List String}
    (hlisting : (listing (w.tree.names p)).Perm (w.tree.names p)) :
    (∃ counts v,
      ((projectsAfter w p (lastLogged text) (listing (w.tree.names p))).mapM
        (a.analyzeInTurn base)).exec w = (.ok counts, v) ∧
      (a.analyzeSequential base true listing).exec w
        = (reportTotal "Sequential" counts).exec v) ∧
    ∀ name, name ∈ projectsAfter w p (lastLogged text) (listing (w.tree.names p))
      ↔ w.tree.isDir (p ++ [name]) = true ∧ name ≠ "output" ∧ lastLogged text < name :=
  ⟨exists_of_log a hw hbase hlog hlisting, fun _ => mem_projectsAfter hw hlisting⟩

/-- A folder of two projects with the text `log` as its log.  The first project fails, as it has a
file that is no text. -/
def failingFirst (log : String) : Workspace where
  tree := ⟨[(["p"], .dir), (["p", "a"], .dir), (["p", "a", "m.py"], .file (.bytes [0xff])),
    (["p", "b"], .dir), (["p", "execution_log.txt"], .file (.text log))]⟩

theorem analyzeSequential_attempts_failingFirst :
    (∃ counts v,
      ((projectsAfter (failingFirst "a\n") ["p"] "a"
          ((failingFirst "a\n").tree.names ["p"]).reverse).mapM
        (analyzeInTurn { output := "out" } "p")).exec (failingFirst "a\n") = (.ok counts, v) ∧
      (analyzeSequential { output := "out" } "p" true reverse).exec (failingFirst "a\n")
        = (reportTotal "Sequential" counts).exec v) ∧
    ∀ name, name ∈ projectsAfter (failingFirst "a\n") ["p"] "a"
        ((failingFirst "a\n").tree.names ["p"]).reverse
      ↔ (failingFirst "a\n").tree.isDir ["p", name] = true ∧ name ≠ "output" ∧ "a" < name := by
  have hlog : (failingFirst "a\n").tree.lookup (["p"] ++ ["execution_log.txt"])
      = some (.file (.text "a\n")) := rfl
  have hlast : lastLogged "a\n" = "a" := by decide +kernel
  rw [← hlast]
  exact analyzeSequential_attempts { output := "out" } ⟨by decide +kernel, by decide, rfl⟩ rfl hlog
    (reverse_perm _)

/-- `failingFirst` after an analysis of both projects. -/
def failingFirstLogged : Workspace :=
  ((analyzeSequential { output := "out" } "p" false).exec (failingFirst "")).2

/-- The project that has failed is not in the log, but a resumed `analyzeSequential` attempts none.
-/
theorem exists_not_attempted : ∃ u,
    (analyzeSequential { output := "out" } "p" false).exec (failingFirst "") = (.ok (), u) ∧
    u.tree.isDir ["p", "a"] = true ∧
    u.tree.lookup ["p", "execution_log.txt"] = some (.file (.text "b\n")) ∧
    (analyzeSequential { output := "out" } "p" true).exec u
      = (reportTotal "Sequential" []).exec u := by
  have hexec : (analyzeSequential { output := "out" } "p" false).exec (failingFirst "")
      = (.ok (), failingFirstLogged) := exec_eq_of_toOption (by decide +kernel)
  have hsound : failingFirstLogged.Sound :=
    ⟨by decide +kernel, by decide +kernel, by decide +kernel⟩
  have hbase : failingFirstLogged.tree.find failingFirstLogged.place "p" = .ok (["p"], .dir) :=
    eq_ok_of_toOption (by decide +kernel)
  have hdir : failingFirstLogged.tree.isDir ["p", "a"] = true := by decide +kernel
  have hlog : failingFirstLogged.tree.lookup (["p"] ++ ["execution_log.txt"])
      = some (.file (.text "b\n")) := by decide +kernel
  have hnone : projectsAfter failingFirstLogged ["p"] (lastLogged "b\n")
      (failingFirstLogged.tree.names ["p"]) = [] := by decide +kernel
  -- from here on the workspace is not to be evaluated
  generalize failingFirstLogged = u at *
  obtain ⟨counts, v, hturns, hresumed⟩ :=
    exists_of_log { output := "out" } hsound hbase hlog (.refl (id _))
  rw [id_eq, hnone] at hturns
  cases hturns
  exact ⟨u, hexec, hdir, hlog, hresumed⟩

end Analyzer

end SmellLint
