import SmellLint.Proofs.Project.Outcomes
import SmellLint.Proofs.Project.Sound

/-!
# Analyzing a folder of projects

An analysis of a folder first makes the folder if it is missing and starts a log; a run that gets
this far and finds the folder is a scene (`Scene.exists_of_prepareLog`).  What follows is one turn
for each entry of the folder, and the effects of the turns add up (`Scene.Turns`).
-/

namespace SmellLint

open Analyzer Path Run Tree

/-! ## Preparing the log -/

/-- `start` succeeds by making an empty file. -/
theorem Project.Log.exec_start_eq_ok {base : String} {w w' : Workspace} {u : Unit}
    (h : (start (logPath base)).exec w = (.ok u, w')) :
    w.tree.isDir (w.placeOf (logPath base)) = false ∧
      ∃ lines, w' = { w.withTree
        (w.tree.insert (w.placeOf (logPath base)) (.file (.text ""))) with
          printed := lines } := by
  have hproper := Scene.isName_log.1
  have hslash := endsWith_slash_join base hproper.1
  rw [start] at h
  cases hr : w.tree.resolve w.place _ with
  | error f =>
    rw [exec_bind_error _ (exec_writeText_of_error hr "")] at h
    cases h
  | ok p =>
    obtain ⟨-, hp⟩ := open_of_lead_join hproper (lead_of_resolve hr)
    have hplace : p = w.placeOf (logPath base) := by
      rw [hp, logPath, w.placeOf_join base hproper]
      rfl
    rw [← hplace]
    cases hdir : w.tree.isDir p with
    | true =>
      rw [exec_bind_error _ (exec_writeText_of_isDir hr hdir "")] at h
      cases h
    | false =>
      rw [exec_bind_ok _ (exec_writeText hr hdir hslash rfl)] at h
      cases h
      exact ⟨rfl, _, rfl⟩

/-- `prepareLog` leaves an empty log for an analysis that is not resumed. -/
theorem Analyzer.exec_prepareLog_eq_ok {base last : String} {w w' : Workspace} (hw : w.Sound)
    (h : (prepareLog base false).exec w = (.ok last, w')) :
    last = "" ∧ w'.Sound ∧
      w'.tree.lookup (w'.placeOf (logPath base)) = some (.file (.text "")) := by
  have hsound := (respects_prepareLog congruence_sound base false).keeps.exec_eq h hw
  obtain ⟨u, v, -, h⟩ := exec_bind_eq_ok h
  obtain ⟨u', v', hstart, h⟩ := exec_bind_eq_ok h
  cases h
  obtain ⟨-, lines, rfl⟩ := Project.Log.exec_start_eq_ok hstart
  refine ⟨rfl, hsound, lookup_insert_self _ ?_ _⟩
  show v.placeOf (join base "execution_log.txt") ≠ []
  simp [v.placeOf_join base Scene.isName_log.1]

/-- The project that a log with `text` names last. -/
def Analyzer.lastLogged (text : String) : String := Project.Log.lastLine (Text.unifyNewlines text)

/-- `prepareLog` gives `lastLogged` for an analysis that is resumed. -/
theorem Analyzer.exec_prepareLog_of_file {base text : String} {w : Workspace} {p : Place}
    (hbase : w.tree.find w.place base = .ok (p, .dir))
    (hlog : w.tree.lookup (p ++ ["execution_log.txt"]) = some (.file (.text text))) :
    (prepareLog base true).exec w = (.ok (lastLogged text), w) := by
  have hensure : (ensureBase base).exec w = (.ok (), w) := by
    rw [ensureBase, exec_bind_ok _ (exec_exists? _ w), hbase]
    rfl
  have hfind : w.tree.find w.place (logPath base)
      = .ok (p ++ ["execution_log.txt"], .file (.text text)) :=
    find_of_resolve (resolve_join_of_find hbase Scene.isName_log) hlog
  rw [prepareLog, exec_bind_ok _ hensure, if_pos rfl, Project.Log.last,
    exec_bind_ok _ (exec_outcome _ w), exec_readText_of_file hfind]
  rfl

namespace Scene

variable {s : Scene}

/-- An analysis that gets as far as listing its folder is a `Scene`. -/
theorem exists_of_prepareLog (a : Analyzer) {base last : String} {w w' v : Workspace}
    {names : List String} (hw : w.Sound)
    (hprepare : (prepareLog base false).exec w = (.ok last, w'))
    (hlist : (listDir base).exec w' = (.ok names, v)) :
    ∃ s : Scene, s.analyzer = a ∧ s.base = base ∧ s.start = w' ∧ s.log = .file (.text "") ∧
      names = s.start.tree.names s.basePlace ∧ v = w' := by
  obtain ⟨-, hsound, hstarted⟩ := exec_prepareLog_eq_ok hw hprepare
  obtain ⟨p, hfound, hnames, hv⟩ := exec_listDir_eq_ok hlist
  have hplace : p = w'.placeOf base := (find_eq_dir_iff.1 hfound).2.2
  rw [logPath, Workspace.placeOf_join _ base isName_log.1, ← hplace] at hstarted
  exact ⟨⟨a, base, w', p, _, hsound, hfound, hstarted⟩, rfl, rfl, rfl, rfl, hnames, hv⟩

theorem basePlace_eq (s : Scene) : s.basePlace = s.start.placeOf s.base :=
  (find_eq_dir_iff.1 s.found).2.2

theorem logPlace_eq (s : Scene) : s.logPlace = s.start.placeOf (logPath s.base) := by
  rw [logPath, Workspace.placeOf_join _ _ isName_log.1, logPlace, basePlace_eq]

theorem errorPlace_eq (s : Scene) : s.errorPlace = s.start.placeOf s.analyzer.errorPath := by
  rw [errorPath, Workspace.placeOf_join _ _ isName_error.1]
  rfl

/-! ## Turns -/

/-- What is in the folder at the start is an entry. -/
theorem isEntry_of_mem_names {name : String} (h : name ∈ s.start.tree.names s.basePlace) :
    s.IsEntry name := by
  obtain ⟨e, he⟩ := Option.isSome_iff_exists.1 (s.sound.tree.mem_names.1 h)
  refine ⟨s.sound.tree.isName he name (List.mem_append_right _ List.mem_cons_self), fun hmem => ?_⟩
  rcases lookup_of_isFile_eq_false (isFile_of_mem_way hmem) with hnone | hdir
  · rw [memberPlace, he] at hnone
    cases hnone
  · exact isDir_of_lookup hdir

/-- What each entry of the folder does in its turn. -/
structure Turns (s : Scene) where
  value : String → Nat
  effects : String → List Effect
  isTurn : ∀ {name : String}, s.IsEntry name → s.IsTurn name (value name) (effects name)

theorem nonempty_turns (s : Scene) : Nonempty s.Turns := by
  have h : ∀ name, ∃ turn : Nat × List Effect, s.IsEntry name → s.IsTurn name turn.1 turn.2 := by
    intro name
    by_cases hname : s.IsEntry name
    · obtain ⟨value, es, hturn⟩ := exists_isTurn hname
      exact ⟨(value, es), fun _ => hturn⟩
    · exact ⟨(0, []), fun h => absurd h hname⟩
  obtain ⟨turn, hturn⟩ := Classical.axiomOfChoice h
  exact ⟨⟨fun name => (turn name).1, fun name => (turn name).2, hturn _⟩⟩

namespace Turns

variable (t : s.Turns) {names : List String} (h : ∀ name ∈ names, s.IsEntry name)
include h

theorem emits_inTurn (last : String) :
    Emits s.Rep (names.mapM (s.analyzer.takeTurn s.base false last))
      (some (names.map t.value)) (names.flatMap t.effects) :=
  .mapM fun name hname => (t.isTurn (h name hname)).inTurn rfl

theorem emits_beside : Emits s.Rep (names.mapM (s.analyzer.analyzeBeside s.base))
      (some (names.map t.value)) (names.flatMap t.effects) :=
  .mapM fun name hname => (t.isTurn (h name hname)).beside

/-- Projects save their results at places of their own. -/
theorem coherent : s.Coherent (names.flatMap t.effects) where
  allowed e he := by
    obtain ⟨name, hname, he⟩ := List.mem_flatMap.1 he
    exact ((t.isTurn (h name hname)).beside [] s.start rep_start).2.allowed e he
  saved {p text text'} hp hp' := by
    obtain ⟨name, hname, hp⟩ := List.mem_flatMap.1 hp
    obtain ⟨name', hname', hp'⟩ := List.mem_flatMap.1 hp'
    obtain ⟨rfl, htext⟩ := (t.isTurn (h name hname)).saved.1 hp
    obtain ⟨heq, htext'⟩ := (t.isTurn (h name' hname')).saved.1 hp'
    rw [← resultsPlace_inj heq, htext] at htext'
    exact Option.some.inj htext'

/-- The projects that are logged, in the order of their turns. -/
theorem filterMap_logged :
    (names.flatMap t.effects).filterMap Effect.logged? = names.filter s.isLogged := by
  induction names with
  | nil => rfl
  | cons name names ih =>
    obtain ⟨hname, hnames⟩ := List.forall_mem_cons.1 h
    rw [List.flatMap_cons, List.filterMap_append, ih hnames, (t.isTurn hname).logged,
      List.filter_cons]
    split <;> rfl

theorem isRecord_of_mem {record : String}
    (hrecord : record ∈ (names.flatMap t.effects).filterMap Effect.record?) : IsRecord record := by
  obtain ⟨e, he, hnote⟩ := List.mem_filterMap.1 hrecord
  obtain ⟨name, hname, he⟩ := List.mem_flatMap.1 he
  cases e with
  | note r =>
    obtain rfl : r = some record := hnote
    exact (t.isTurn (h name hname)).noted he
  | _ => cases hnote

end Turns

end Scene

/-- What `turns` have done stands when the total has been reported. -/
theorem Analyzer.exec_bind_reportTotal {s : Scene} {turns : Run (List Nat)} {counts : List Nat}
    {es es' : List Effect} {w : Workspace} (h : Emits s.Rep turns (some counts) es)
    (hw : s.Rep es' w) (kind : String) :
    ∃ u, (turns >>= reportTotal kind).exec w = (.ok (), u) ∧
      u.printed.head? = some (totalText counts ++ "\n") ∧ s.Rep (es' ++ es) u := by
  obtain ⟨v, hexec, hrep⟩ := h.exec_eq hw
  rw [exec_bind_ok _ hexec]
  exact ⟨_, rfl, rfl, hrep.of_printed _⟩

/-- A folder of three projects: one with a file that is no program, one with smells, and one with a
file that is no text, which fails. -/
def someProjects : Workspace where
  tree := ⟨[(["p"], .dir), (["p", "a"], .dir), (["p", "a", "m.py"], .file (.text "x = (")),
    (["p", "b"], .dir), (["p", "b", "n.py"], .file (.text
      "import pandas as pd\ndef f():\n    df = pd.DataFrame([])\n    return df.values\n")),
    (["p", "c"], .dir), (["p", "c", "o.py"], .file (.bytes [0xff]))]⟩

theorem sound_someProjects : someProjects.Sound := ⟨by decide +kernel, by decide, rfl⟩

end SmellLint
