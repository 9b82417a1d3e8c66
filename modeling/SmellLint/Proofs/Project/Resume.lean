import SmellLint.Proofs.Project.Folder

/-!
# Resuming an analysis

An analysis of projects in turn that has been cut can be resumed: the log tells which project was
the last one, and the resumed analysis leaves out the entries of the folder up to it.  As the
entries come in order, what is left out has been done before, and what is done again, projects that
have failed, has no effect that it did not have before.
-/

namespace SmellLint

open Path Run Tree Project.Log List

namespace Analyzer

/-- `analyzeSequential` of the folder `base`, cut after `k` entries. -/
def cutSequential (a : Analyzer) (base : String) (k : Nat) : Run (List Nat) := do
  let last ← prepareLog base false
  ((← listDir base).take k).mapM (a.takeTurn base false last)

/-- What makes it possible to resume the analysis of the folder `base`. -/
structure Resumable (a : Analyzer) (base : String) (w : Workspace) : Prop where
  /-- The output is outside the folder, -/
  outside : ¬w.placeOf base <+: w.placeOf a.output
  /-- and no directory has to be made in the folder on the way to it. -/
  way : ∀ ns, ns <+: names a.output →
    w.placeOf base <+: reach (origin w.place a.output) ns →
    w.tree.isDir (reach (origin w.place a.output) ns) = true
  /-- The name of a directory in the folder is one line, with no white space around it. -/
  lines : ∀ name, w.tree.isDir (w.placeOf base ++ [name]) = true → IsLine name

end Analyzer

/-! ## What is left to do -/

def namesAfter (last : String) (names : List String) : List String :=
  names.filter fun name => !decide (name ≤ last)

theorem namesAfter_append (last : String) (names names' : List String) :
    namesAfter last (names ++ names') = namesAfter last names ++ namesAfter last names' :=
  filter_append ..

theorem le_getLast?_of_sorted {l : List String} (h : l.Pairwise (· ≤ ·)) {name : String}
    (hname : name ∈ l) : name ≤ l.getLast?.getD "" := by
  obtain ⟨r, last, rfl⟩ := eq_nil_or_concat l |>.resolve_left (ne_nil_of_mem hname)
  rw [concat_eq_append] at h hname ⊢
  rw [getLast?_concat]
  rcases mem_append.1 hname with hname | hname
  · exact (pairwise_append.1 h).2.2 name hname last mem_cons_self
  · obtain rfl := mem_singleton.1 hname
    exact String.le_refl _

/-- Of `names` in order, all that come after the first `k` come after `last`, the last of these that
has been kept, and no name that has been kept does. -/
theorem namesAfter_of_sorted {names : List String} {p : String → Bool} {k : Nat} {last : String}
    (hsorted : names.Pairwise (· ≤ ·)) (hnodup : names.Nodup) (hne : "" ∉ names)
    (hlast : last = ((names.take k).filter p).getLast?.getD "") :
    namesAfter last (names.drop k) = names.drop k ∧
      (namesAfter last (names.take k)).filter p = [] := by
  constructor
  · refine filter_eq_self.2 fun name hname => ?_
    rw [Bool.not_eq_true', decide_eq_false_iff_not]
    intro hle
    -- the last name is from the first part, or it is empty and so before all names
    cases hl : ((names.take k).filter p).getLast? with
    | none =>
      rw [hl, Option.getD_none] at hlast
      have hempty : name = "" := String.le_antisymm (hlast ▸ hle) (nil_le name.toList)
      exact hne (hempty ▸ mem_of_mem_drop hname)
    | some n =>
      rw [hl] at hlast
      have hn : n ∈ names.take k := (mem_filter.1 (mem_of_getLast? hl)).1
      rw [← take_append_drop k names] at hsorted hnodup
      have hle' := (pairwise_append.1 hsorted).2.2 n hn name hname
      rw [hlast] at hle
      exact (nodup_append.1 hnodup).2.2 n hn name hname (String.le_antisymm hle' hle)
  · rw [namesAfter, filter_filter, filter_eq_nil_iff]
    intro name hname hboth
    rw [Bool.and_eq_true, Bool.not_eq_true', decide_eq_false_iff_not] at hboth
    refine hboth.2 ?_
    rw [hlast]
    refine le_getLast?_of_sorted ?_ (mem_filter.2 ⟨hname, hboth.1⟩)
    exact (hsorted.sublist (take_sublist k names)).sublist filter_sublist

namespace Scene

variable {s : Scene}

variable (h : s.analyzer.Resumable s.base s.start)
include h

theorem basePlace_ne_outputPlace : s.basePlace ≠ s.outputPlace := by
  intro heq
  refine h.outside ?_
  rw [← basePlace_eq, heq]
  exact prefix_rfl

/-- No directory is made in the folder. -/
theorem isDir_of_mem_dirsOf {name : String} (hmem : s.memberPlace name ∈ s.dirsOf s.details) :
    s.start.tree.isDir (s.memberPlace name) = true := by
  rcases mem_dirsOf_details_iff hmem with hmem | heq
  · obtain ⟨-, ns, hns, hreach⟩ := exists_of_mem_way hmem
    rw [hreach]
    refine h.way ns hns ?_
    rw [← hreach, ← basePlace_eq]
    exact prefix_append _ _
  · exact absurd (append_inj' heq rfl).1 (basePlace_ne_outputPlace h)

variable {es : List Effect}

/-- What is in the folder later is an entry as well. -/
theorem Rep.isEntry {w : Workspace} (hw : s.Rep es w) {name : String}
    (hname : name ∈ w.tree.names s.basePlace) :
    s.IsEntry name := by
  obtain ⟨e, he⟩ := Option.isSome_iff_exists.1 (hw.regular.mem_names.1 hname)
  refine ⟨?_, isDir_of_mem_dirsOf h⟩
  cases hl : s.start.tree.lookup (s.basePlace ++ [name]) with
  | some e' => exact s.sound.tree.isName hl name (mem_append_right _ mem_cons_self)
  | none =>
    rcases hw.kept.new hl with hnone | ⟨-, hmem⟩ | ⟨-, hwritten, -⟩
    · rw [hnone] at he
      cases he
    · have hdir := lookup_of_isDir (isDir_of_mem_dirsOf h hmem)
      rw [memberPlace, hl] at hdir
      cases hdir
    · -- a new file is a table of results, as the file for errors is not in the folder
      rcases hwritten with heq | heq | ⟨project, heq, hisName⟩
      · rw [heq, logPlace, s.started] at hl
        cases hl
      · exact absurd (append_inj' heq rfl).1 (basePlace_ne_outputPlace h)
      · rw [singleton_inj.1 (append_inj' heq rfl).2]
        exact hisName

omit h

/-- The projects in the folder are the same all the time. -/
theorem Rep.filter_names_eq {w : Workspace} (hw : s.Rep es w) :
    (w.tree.names s.basePlace).filter s.isMember
      = (s.start.tree.names s.basePlace).filter s.isMember := by
  have hmem : ∀ name, s.isMember name = true →
      name ∈ w.tree.names s.basePlace ∧ name ∈ s.start.tree.names s.basePlace := by
    intro name hmember
    rw [isMember, Bool.and_eq_true] at hmember
    have hdir := lookup_of_isDir hmember.2
    rw [hw.regular.mem_names, s.sound.tree.mem_names]
    refine ⟨?_, ?_⟩
    · rw [show w.tree.lookup (s.basePlace ++ [name]) = some .dir from hw.kept.dir hdir]
      rfl
    · rw [show s.start.tree.lookup (s.basePlace ++ [name]) = some .dir from hdir]
      rfl
  refine hw.regular.eq_of_sublist_names s.sound.tree.toRegular filter_sublist filter_sublist
    fun name => ?_
  rw [mem_filter, mem_filter]
  exact ⟨fun h => ⟨(hmem name h.2).2, h.2⟩, fun h => ⟨(hmem name h.2).1, h.2⟩⟩

/-- `prepareLog` gives the project that was logged last. -/
theorem Rep.exec_prepareLog {u : Workspace} (hu : s.Rep es u)
    (hes : s.Coherent es) (hempty : s.log = .file (.text ""))
    (hlines : ∀ name ∈ es.filterMap Effect.logged?, IsLine name) :
    (Analyzer.prepareLog s.base true).exec u
      = (.ok ((es.filterMap Effect.logged?).getLast?.getD ""), u) := by
  have hlog : u.tree.lookup (s.basePlace ++ ["execution_log.txt"])
      = some (.file (.text (textOf (es.filterMap Effect.logged?)))) := by
    rw [hu.lookup_eq]
    exact after_logPlace_of_empty hes hempty
  rw [Analyzer.exec_prepareLog_of_file hu.find_base hlog, Analyzer.lastLogged,
    unifyNewlines_textOf hlines, lastLine_textOf hlines]

namespace Turns

variable (t : s.Turns) {names : List String}

/-- Entries that are no projects do nothing. -/
theorem flatMap_filter_isMember (h : ∀ name ∈ names, s.IsEntry name) :
    (names.filter s.isMember).flatMap t.effects = names.flatMap t.effects :=
  flatMap_filter_of_nil fun name hname => (t.isTurn (h name hname)).passed

/-- A resumed analysis does what the names after `last` do. -/
theorem emits_resumed (h : ∀ name ∈ names, s.IsEntry name) (last : String) :
    Emits s.Rep (names.mapM (s.analyzer.takeTurn s.base true last))
      (some (names.map fun name => if name ≤ last then 0 else t.value name))
      ((namesAfter last names).flatMap t.effects) := by
  have heffects : names.flatMap (fun name => if name ≤ last then [] else t.effects name)
      = (namesAfter last names).flatMap t.effects := by
    rw [← flatMap_filter_of_nil (p := fun name => !decide (name ≤ last))]
    · refine congrArg flatten (map_congr_left fun name hname => ?_)
      have hafter := (mem_filter.1 hname).2
      rw [Bool.not_eq_true', decide_eq_false_iff_not] at hafter
      exact if_neg hafter
    · intro name _ hle
      rw [Bool.not_eq_false', decide_eq_true_eq] at hle
      exact if_pos hle
  rw [← heffects]
  refine .mapM fun name hname => ?_
  by_cases hle : name ≤ last
  · rw [if_pos hle, if_pos hle, Analyzer.takeTurn, decide_eq_true hle]
    exact .pure 0
  · rw [if_neg hle, if_neg hle]
    exact (t.isTurn (h name hname)).inTurn (by rw [decide_eq_false hle, Bool.and_false])

/-- What is left to do is the same in `w` as at the start. -/
theorem flatMap_namesAfter_eq (h : s.analyzer.Resumable s.base s.start) {es : List Effect}
    {w : Workspace} (hw : s.Rep es w) (last : String) :
    (namesAfter last (w.tree.names s.basePlace)).flatMap t.effects
      = (namesAfter last (s.start.tree.names s.basePlace)).flatMap t.effects := by
  have hcomm : ∀ l : List String,
      (namesAfter last l).filter s.isMember = namesAfter last (l.filter s.isMember) := by
    intro l
    rw [namesAfter, namesAfter, filter_filter, filter_filter]
    exact filter_congr fun name _ => Bool.and_comm _ _
  have hentry : ∀ name ∈ namesAfter last _, s.IsEntry name :=
    fun name hname => hw.isEntry h (mem_filter.1 hname).1
  have hentry' : ∀ name ∈ namesAfter last _, s.IsEntry name :=
    fun name hname => isEntry_of_mem_names (mem_filter.1 hname).1
  rw [← t.flatMap_filter_isMember hentry, ← t.flatMap_filter_isMember hentry', hcomm, hcomm,
    hw.filter_names_eq]

/-- The effects of the first `k` turns, and of all turns after the `last` one that was logged, come
to the same as those of all turns, apart from the file for errors. -/
theorem after_resumed (hentry : ∀ name ∈ names, s.IsEntry name)
    (hsorted : names.Pairwise (· ≤ ·)) (hnodup : names.Nodup) {k : Nat} {last : String}
    (hlast : last = ((names.take k).filter s.isLogged).getLast?.getD "") {q : Place}
    (hq : q ≠ s.errorPlace) :
    s.after ((names.take k).flatMap t.effects ++ (namesAfter last names).flatMap t.effects) q
      = s.after (names.flatMap t.effects) q := by
  have hne : "" ∉ names := fun hmem => (hentry "" hmem).isName.1.1.1 rfl
  obtain ⟨hdrop, htake⟩ := namesAfter_of_sorted hsorted hnodup hne hlast
  have hmem : ∀ e, e ∈ (names.take k).flatMap t.effects ++ (namesAfter last names).flatMap t.effects
      ↔ e ∈ names.flatMap t.effects := by
    intro e
    rw [mem_append, mem_flatMap, mem_flatMap, mem_flatMap]
    constructor
    · rintro (⟨name, hname, he⟩ | ⟨name, hname, he⟩)
      · exact ⟨name, mem_of_mem_take hname, he⟩
      · exact ⟨name, (mem_filter.1 hname).1, he⟩
    · rintro ⟨name, hname, he⟩
      rw [← take_append_drop k names] at hname
      rcases mem_append.1 hname with hname | hname
      · exact .inl ⟨name, hname, he⟩
      · rw [← hdrop] at hname
        obtain ⟨hmem, hafter⟩ := mem_filter.1 hname
        exact .inr ⟨name, mem_filter.2 ⟨mem_of_mem_drop hmem, hafter⟩, he⟩
  have hcoherent := t.coherent hentry
  -- what is done again was done before, so only the log could tell that it was done twice
  by_cases hlog : q = s.logPlace
  · have hlogged : (names.take k).filter s.isLogged ++ (namesAfter last names).filter s.isLogged
        = names.filter s.isLogged := by
      have hsplit := namesAfter_append last (names.take k) (names.drop k)
      rw [take_append_drop] at hsplit
      rw [hsplit, filter_append, htake, hdrop, nil_append, ← filter_append, take_append_drop]
    rw [hlog, after_logPlace hcoherent, after_logPlace (hcoherent.of_subset fun e => (hmem e).1),
      filterMap_append, t.filterMap_logged hentry, t.filterMap_logged, t.filterMap_logged,
      hlogged]
    · exact fun name hname => hentry name (mem_filter.1 hname).1
    · exact fun name hname => hentry name (mem_of_mem_take hname)
  · exact (after_eq_of_mem_iff hcoherent (fun e => (hmem e).symm) hlog fun h => absurd h hq).symm

end Turns

end Scene

namespace Analyzer

/-- `analyzeSequential`, cut after `k` entries of the folder and then resumed, comes to the same
results and the same log as if it is not cut; only the file for errors may differ. -/
theorem analyzeSequential_resumed (a : Analyzer) {base : String} {names : List String}
    {w w' : Workspace} (hw : w.Sound)
    (hstart : (prepareLog base false >>= fun _ => Run.listDir base).exec w = (.ok names, w'))
    (h : a.Resumable base w') (k : Nat) :
    ∃ counts u v v', (a.cutSequential base k).exec w = (.ok counts, u) ∧
      (a.analyzeSequential base true).exec u = (.ok (), v) ∧
      (a.analyzeSequential base false).exec w = (.ok (), v') ∧
      ∀ q, q ≠ w'.placeOf a.errorPath → v.tree.lookup q = v'.tree.lookup q := by
  obtain ⟨last, _, hprepare, hlist⟩ := Run.exec_bind_eq_ok hstart
  obtain ⟨s, rfl, rfl, rfl, hempty, hnames, rfl⟩ :=
    Scene.exists_of_prepareLog a hw hprepare hlist
  obtain ⟨t⟩ := s.nonempty_turns
  have hentry : ∀ name ∈ names, s.IsEntry name := fun name hname =>
    Scene.isEntry_of_mem_names (hnames ▸ hname)
  have hentry' : ∀ name ∈ names.take k, s.IsEntry name := fun name hname =>
    hentry name (List.mem_of_mem_take hname)
  obtain ⟨u, hu, hrep⟩ := (t.emits_inTurn hentry' last).exec_eq Scene.rep_start
  rw [List.nil_append] at hrep
  have hlines : ∀ name ∈ ((names.take k).flatMap t.effects).filterMap Effect.logged?,
      Project.Log.IsLine name := by
    intro name hname
    rw [t.filterMap_logged hentry', List.mem_filter, Scene.isLogged, Scene.isMember] at hname
    refine h.lines name ?_
    rw [← Scene.basePlace_eq]
    simp only [Bool.and_eq_true] at hname
    exact hname.2.1.2
  have hprepare' := hrep.exec_prepareLog (t.coherent hentry') hempty hlines
  obtain ⟨last', hlast⟩ : ∃ last', last' = ((names.take k).filter s.isLogged).getLast?.getD "" :=
    ⟨_, rfl⟩
  rw [t.filterMap_logged hentry', ← hlast] at hprepare'
  obtain ⟨v, hv, -, hrepv⟩ := exec_bind_reportTotal
    (t.emits_resumed (fun name hname => hrep.isEntry h hname) last') hrep "Sequential"
  obtain ⟨v', hv', -, hrepv'⟩ := exec_bind_reportTotal
    (t.emits_inTurn hentry last) Scene.rep_start "Sequential"
  refine ⟨(names.take k).map t.value, u, v, v', ?_, ?_, ?_, fun q hq => ?_⟩
  · rw [cutSequential, Run.exec_bind_ok _ hprepare, Run.exec_bind_ok _ hlist]
    exact hu
  · rw [analyzeSequential, Run.exec_bind_ok _ hprepare',
      Run.exec_bind_ok _ (Run.exec_listDir_of_dir hrep.find_base)]
    exact hv
  · rw [analyzeSequential, Run.exec_bind_ok _ hprepare, Run.exec_bind_ok _ hlist]
    exact hv'
  · rw [hrepv.lookup_eq, hrepv'.lookup_eq, t.flatMap_namesAfter_eq h hrep, ← hnames]
    refine t.after_resumed hentry ?_ ?_ hlast ?_
    · rw [hnames]
      exact Tree.sorted_names _ _
    · rw [hnames]
      exact s.sound.tree.nodup_names _
    · rw [Scene.errorPlace_eq]
      exact hq

/-- `someProjects` when the log has been started. -/
def someProjectsStarted : Workspace where
  tree := someProjects.tree.insert ["p", "execution_log.txt"] (.file (.text ""))
  printed := ["Execution log initialized: p/execution_log.txt\n"]

theorem resumable_someProjects : Resumable { output := "out" } "p" someProjectsStarted where
  outside := by decide +kernel
  way ns hns hbase := by
    have hnames : ns <+: ["out"] := hns
    rcases prefix_cons_iff.1 hnames with rfl | ⟨ms, rfl, hms⟩
    · exact absurd hbase (by decide +kernel)
    · rw [prefix_nil.1 hms] at hbase
      exact absurd hbase (by decide +kernel)
  lines name hdir := by
    have hlookup : someProjectsStarted.tree.lookup ["p", name] = some .dir :=
      lookup_of_isDir hdir
    have hsound : someProjectsStarted.tree.Sound := by decide +kernel
    have hmem := hsound.mem_entries.2 ⟨cons_ne_nil _ _, hlookup⟩
    have hname : name = "a" ∨ name = "b" ∨ name = "c" := by
      simpa [someProjectsStarted, someProjects, Tree.insert] using hmem
    rcases hname with rfl | rfl | rfl <;> constructor <;> decide

theorem analyzeSequential_resumed_someProjects :
    someProjects.Sound ∧ Resumable { output := "out" } "p" someProjectsStarted ∧
      ∃ counts u v v',
        (cutSequential { output := "out" } "p" 3).exec someProjects = (.ok counts, u) ∧
        (analyzeSequential { output := "out" } "p" true).exec u = (.ok (), v) ∧
        (analyzeSequential { output := "out" } "p" false).exec someProjects = (.ok (), v') ∧
        ∀ q, q ≠ ["out", "error.txt"] → v.tree.lookup q = v'.tree.lookup q := by
  have hstart : (prepareLog "p" false >>= fun _ => Run.listDir "p").exec someProjects
      = (.ok (someProjectsStarted.tree.names ["p"]), someProjectsStarted) := rfl
  exact ⟨sound_someProjects, resumable_someProjects,
    analyzeSequential_resumed { output := "out" } sound_someProjects hstart
      resumable_someProjects 3⟩

end Analyzer

end SmellLint
