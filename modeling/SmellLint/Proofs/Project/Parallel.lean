import Mathlib.Data.List.Perm.Basic
import SmellLint.Proofs.Project.Folder

/-!
# Projects beside each other

Analyzing the projects of a folder beside each other comes to the same as analyzing them in turn,
in whatever order they come to their end: the results and the total are the same, and the log and
the file for errors differ in the order of their lines and records only.
-/

namespace SmellLint

open Run

theorem Analyzer.totalText_eq_of_perm {counts counts' : List Nat} (h : counts.Perm counts') :
    totalText counts = totalText counts' := by
  unfold totalText
  rw [h.foldr_eq]

namespace Analyzer

/-- The folder `base`, once it is there, has no log.  What is asked is that no log is found when the
folder has been made, as a path to a missing folder may lead through other folders. -/
def HasNoLog (base : String) (w : Workspace) : Prop :=
  ((ensureBase base >>= fun _ => exists? (logPath base)).exec w).1 ≠ .ok true

/-- Whether the entry `name` of `base` is a project whose analysis does not fail. -/
def isLogged (a : Analyzer) (base : String) (w : Workspace) (name : String) : Bool :=
  ((isMember base name).exec w).1.toOption == some true && a.passes base w name

/-- The trees of `u` and `v` are what analyses of the folder `base` in the orders `names` and
`names'` make of that of `w`, up to the order. -/
structure SameUpToOrder (a : Analyzer) (base : String) (w u v : Workspace)
    (names names' : List String) : Prop where
  /-- The lines of a log are the projects that did not fail, in the order of the analysis. -/
  log : u.tree.lookup (w.placeOf (logPath base))
      = some (.file (.text (Project.Log.textOf (names.filter (a.isLogged base w))))) ∧
    v.tree.lookup (w.placeOf (logPath base))
      = some (.file (.text (Project.Log.textOf (names'.filter (a.isLogged base w)))))
  /-- The same records have been added to the file for errors. -/
  errors : v.tree.lookup (w.placeOf a.errorPath) = u.tree.lookup (w.placeOf a.errorPath) ∨
    ∃ records records', records.Perm records' ∧ (∀ r ∈ records, Scene.IsRecord r) ∧
      u.tree.lookup (w.placeOf a.errorPath) = some (.file (Scene.withRecords
        (Entry.contentOf (w.tree.lookup (w.placeOf a.errorPath))) records)) ∧
      v.tree.lookup (w.placeOf a.errorPath) = some (.file (Scene.withRecords
        (Entry.contentOf (w.tree.lookup (w.placeOf a.errorPath))) records'))
  /-- All else is the same. -/
  other : ∀ q, q ≠ w.placeOf (logPath base) → q ≠ w.placeOf a.errorPath →
    v.tree.lookup q = u.tree.lookup q

end Analyzer

namespace Scene

variable {s : Scene}

theorem isLogged_eq {name : String} (hname : s.IsEntry name) :
    s.isLogged name = s.analyzer.isLogged s.base s.start name := by
  obtain ⟨w, hexec, -⟩ := reads_isMember hname [] s.start rep_start
  rw [isLogged, Analyzer.isLogged, hexec]
  cases s.isMember name <;> rfl

/-- An `Effect.note` among `es` shows that the file for errors is no folder. -/
theorem errorPlace_not_mem {es : List Effect} (h : s.Coherent es)
    (hnote : es.any Effect.isNote = true) : s.errorPlace ∉ s.dirsOf s.details := by
  obtain ⟨e, he, hnote⟩ := List.any_eq_true.1 hnote
  cases e with
  | note record => exact (h.allowed _ he).1
  | _ => cases hnote

/-- Turns in the order of `names'` come to the same as in that of `names`, up to the order. -/
theorem Turns.sameUpToOrder (t : s.Turns) (hempty : s.log = .file (.text ""))
    {names names' : List String} {u v : Workspace} (h : ∀ name ∈ names, s.IsEntry name)
    (hperm : names.Perm names')
    (hu : s.Rep (names.flatMap t.effects) u) (hv : s.Rep (names'.flatMap t.effects) v) :
    s.analyzer.SameUpToOrder s.base s.start u v names names' := by
  have h' : ∀ name ∈ names', s.IsEntry name := fun name hname => h name (hperm.mem_iff.2 hname)
  have heffects : (names.flatMap t.effects).Perm (names'.flatMap t.effects) :=
    hperm.flatMap_right t.effects
  have hlog : ∀ {l : List String} {x : Workspace}, (∀ name ∈ l, s.IsEntry name) →
      s.Rep (l.flatMap t.effects) x → x.tree.lookup s.logPlace = some (.file (.text
        (Project.Log.textOf (l.filter (s.analyzer.isLogged s.base s.start))))) := by
    intro l x hl hx
    rw [hx.lookup_eq, after_logPlace_of_empty (t.coherent hl) hempty, t.filterMap_logged hl,
      List.filter_congr fun name hname => isLogged_eq (hl name hname)]
  have hother : ∀ q, q ≠ s.logPlace →
      (q = s.errorPlace → ∀ r, .note r ∉ names.flatMap t.effects) →
      v.tree.lookup q = u.tree.lookup q := by
    intro q hq herror
    rw [hu.lookup_eq, hv.lookup_eq]
    exact (after_eq_of_mem_iff (t.coherent h) (fun e => heffects.mem_iff) hq herror).symm
  refine ⟨?_, ?_, fun q hq herror => hother q ?_ fun heq => ?_⟩
  · rw [← logPlace_eq]
    exact ⟨hlog h hu, hlog h' hv⟩
  · rw [← errorPlace_eq]
    -- the file for errors is like any other place as long as nobody opens it
    cases hnote : (names.flatMap t.effects).any Effect.isNote with
    | false =>
      refine .inl (hother _ s.errorPlace_ne_logPlace fun _ r hr => ?_)
      exact List.any_eq_false.1 hnote _ hr rfl
    | true =>
      have hdirs := errorPlace_not_mem (t.coherent h) hnote
      refine .inr ⟨_, _, heffects.filterMap Effect.record?, fun r => t.isRecord_of_mem h, ?_, ?_⟩
      · rw [hu.lookup_eq, after_errorPlace (t.coherent h) hdirs, if_pos hnote]
      · rw [hv.lookup_eq, after_errorPlace (t.coherent h') hdirs, ← heffects.any_eq, if_pos hnote]
  · rw [logPlace_eq]
    exact hq
  · rw [errorPlace_eq] at heq
    exact absurd heq herror

end Scene

namespace Analyzer

variable {base : String} {w : Workspace}

/-- `keepLog` does what `prepareLog` does if there is no log to be kept. -/
theorem exec_keepLog (hlog : HasNoLog base w) {x : Except Fault String} {w' : Workspace}
    (h : (prepareLog base false).exec w = (x, w')) :
    (keepLog base).exec w = (x.map fun _ => (), w') := by
  obtain ⟨y, v, hbase⟩ : ∃ y v, (ensureBase base).exec w = (y, v) := ⟨_, _, rfl⟩
  rw [prepareLog] at h
  rw [keepLog]
  cases y with
  | error e =>
    rw [exec_bind_error _ hbase] at h ⊢
    cases h
    rfl
  | ok u =>
    rw [HasNoLog, exec_bind_ok _ hbase, exec_exists?] at hlog
    rw [exec_bind_ok _ hbase] at h ⊢
    have hnone : (v.tree.find v.place (logPath base)).toOption.isSome = false := by
      cases hsome : (v.tree.find v.place _).toOption.isSome with
      | false => rfl
      | true => exact absurd (by rw [hsome]) hlog
    rw [if_neg Bool.false_ne_true] at h
    rw [exec_bind_ok _ (exec_exists? _ v), hnone]
    obtain ⟨z, v', hstart⟩ : ∃ z v', (Project.Log.start (logPath base)).exec v = (z, v') :=
      ⟨_, _, rfl⟩
    cases z with
    | error e =>
      rw [exec_bind_error _ hstart] at h
      cases h
      exact hstart
    | ok u =>
      rw [exec_bind_ok _ hstart] at h
      cases h
      exact hstart

/-- `analyzeParallel`, in whatever order the projects come to their end, and `analyzeSequential`
fail alike before the first of them, or come to the same end up to this order and report the same
total. -/
theorem analyzeParallel_sameUpToOrder (a : Analyzer) {workers : Int}
    {schedule : List String → List String} (hw : w.Sound) (hlog : HasNoLog base w)
    (hworkers : 0 < workers) (hschedule : ∀ names, (schedule names).Perm names) :
    (∃ e w', (prepareLog base false >>= fun _ => listDir base).exec w = (.error e, w') ∧
      (a.analyzeSequential base false).exec w = (.error e, w') ∧
      (a.analyzeParallel base workers schedule).exec w = (.error e, w')) ∨
    ∃ w' names u v counts, (prepareLog base false).exec w = (.ok "", w') ∧
      (listDir base).exec w' = (.ok names, w') ∧ names.Nodup ∧
      (a.analyzeSequential base false).exec w = (.ok (), u) ∧
      (a.analyzeParallel base workers schedule).exec w = (.ok (), v) ∧
      u.printed.head? = some (totalText counts ++ "\n") ∧ v.printed.head? = u.printed.head? ∧
      a.SameUpToOrder base w' u v names (schedule names) := by
  obtain ⟨x, w', hprepare⟩ : ∃ x w', (prepareLog base false).exec w = (x, w') := ⟨_, _, rfl⟩
  have hkeep := exec_keepLog hlog hprepare
  have hpositive : ¬workers ≤ 0 := Int.not_le.2 hworkers
  rw [analyzeSequential, analyzeParallel, if_neg hpositive]
  cases x with
  | error e =>
    exact .inl ⟨e, w', exec_bind_error _ hprepare, exec_bind_error _ hprepare,
      exec_bind_error _ hkeep⟩
  | ok last =>
    rw [exec_bind_ok _ hprepare, exec_bind_ok _ hprepare, exec_bind_ok _ hkeep]
    obtain ⟨y, v, hlist⟩ : ∃ y v, (listDir base).exec w' = (y, v) := ⟨_, _, rfl⟩
    cases y with
    | error e =>
      exact .inl ⟨e, v, hlist, exec_bind_error _ hlist, exec_bind_error _ hlist⟩
    | ok names =>
      obtain ⟨s, rfl, rfl, rfl, hempty, hnames, rfl⟩ :=
        Scene.exists_of_prepareLog a hw hprepare hlist
      obtain ⟨t⟩ := s.nonempty_turns
      have hentry : ∀ name ∈ names, s.IsEntry name := fun name hname =>
        Scene.isEntry_of_mem_names (hnames ▸ hname)
      have hperm := (hschedule names).symm
      have hentry' : ∀ name ∈ schedule names, s.IsEntry name := fun name hname =>
        hentry name (hperm.mem_iff.2 hname)
      rw [exec_bind_ok _ hlist, exec_bind_ok _ hlist]
      obtain ⟨u, hu, htotal, hrep⟩ :=
        exec_bind_reportTotal (t.emits_inTurn hentry last) Scene.rep_start "Sequential"
      obtain ⟨v, hv, htotal', hrep'⟩ :=
        exec_bind_reportTotal (t.emits_beside hentry') Scene.rep_start "Parallel"
      obtain ⟨rfl, -⟩ := exec_prepareLog_eq_ok hw hprepare
      refine .inr ⟨_, names, u, v, _, hprepare, hlist, ?_, hu, hv, htotal, ?_,
        t.sameUpToOrder hempty hentry hperm hrep hrep'⟩
      · rw [hnames]
        exact s.sound.tree.nodup_names _
      · rw [htotal', htotal, totalText_eq_of_perm (hperm.map t.value)]

theorem analyzeParallel_sameUpToOrder_someProjects :
    someProjects.Sound ∧ HasNoLog "p" someProjects ∧ ∃ w' names u v,
      (Analyzer.analyzeSequential { output := "out" } "p" false).exec someProjects = (.ok (), u) ∧
      (Analyzer.analyzeParallel { output := "out" } "p" 2 List.reverse).exec someProjects
        = (.ok (), v) ∧
      SameUpToOrder { output := "out" } "p" w' u v names names.reverse := by
  have hsound : someProjects.Sound := sound_someProjects
  have hlog : HasNoLog "p" someProjects := fun h =>
    absurd (congrArg Except.toOption h) (by decide +kernel)
  refine ⟨hsound, hlog, ?_⟩
  rcases analyzeParallel_sameUpToOrder { output := "out" } hsound hlog (by decide : (0 : Int) < 2)
    List.reverse_perm with ⟨e, w', h, -⟩ | ⟨w', names, u, v, -, -, -, -, hu, hv, -, -, h⟩
  · have hok : ((prepareLog "p" false >>= fun _ => listDir "p").exec someProjects).1.isOk
        = true := by decide +kernel
    rw [h] at hok
    cases hok
  · exact ⟨w', names, u, v, hu, hv, h⟩

end Analyzer

end SmellLint
