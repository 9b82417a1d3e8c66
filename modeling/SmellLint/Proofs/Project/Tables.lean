import SmellLint.Proofs.Except
import SmellLint.Proofs.Project.Results

/-!
# The tables of a folder of projects

What a project saves depends on its source files and on what is in the way in the output folder, and
on nothing else (`Analyzer.Alike.savedText?_eq`).  The analysis of other projects changes neither,
so that all projects of a folder, analyzed in turn or beside each other, leave the tables that each
of them saves alone, and every other table as it was (`Analyzer.Ready.advanced_sequential`,
`Analyzer.Ready.advanced_parallel`).
-/

namespace SmellLint

open Project Run Scene Tree Workspace

namespace Project

variable {p : Place} {t t' : Tree}

/-- The same source files lie below `p` in `t` and `t'`. -/
def SameSources (p : Place) (t t' : Tree) : Prop :=
  ∀ ws name, isSource name = true → t.file? (p ++ (ws ++ [name])) = t'.file? (p ++ (ws ++ [name]))

theorem SameSources.symm (h : SameSources p t t') : SameSources p t' t :=
  fun ws name hname => (h ws name hname).symm

theorem SameSources.below (h : SameSources p t t') (name : String) :
    SameSources (p ++ [name]) t t' := by
  intro ws n hn
  have hfile := h (name :: ws) n hn
  rwa [List.cons_append, List.append_cons] at hfile

theorem SameSources.sourceWays_eq (hsame : SameSources p t t') (h : t.Sound) (h' : t'.Sound) :
    sourceWays t p = sourceWays t' p := by
  have hbelow : SameBelow isSource p t t' := h.sameBelow h' fun ws name hname => by
    rw [isFile_eq_isSome, isFile_eq_isSome, hsame ws name hname]
  exact hbelow.sources_eq h.toRegular h'.toRegular (by omega) (by omega) fun _ _ _ => rfl

end Project

namespace Analyzer

variable {a : Analyzer} {base name : String} {w w' u v : Workspace}

/-! ## What the rows of a project depend on -/

theorem found_congr (hw : w.Sound) (hw' : w'.Sound) (hcwd : w'.cwd = w.cwd) {f : String} {p : Place}
    {c : Content} (hat : IsSourceAt w f p name c)
    (hfile : w'.tree.file? (p ++ [name]) = some c) : a.found w' f = a.found w f := by
  have hat' : IsSourceAt w' f p name c :=
    ⟨by rw [hcwd]; exact hat.isPathTo, file?_eq_some_iff.1 hfile, hat.isSource⟩
  rw [found_eq hw hat, found_eq hw' hat']

theorem allRows_congr {files : List String} (h : ∀ f ∈ files, a.found w' f = a.found w f) :
    a.allRows w' files = a.allRows w files := by
  rw [allRows, allRows, mapM_congr fun f hf => ?_]
  rw [rowsOf, rowsOf, h f hf]

section Rows

variable (hw : w.Sound) (hw' : w'.Sound) (hcwd : w'.cwd = w.cwd) {path : String} {p : Place}
  (hfind : w.tree.find w.place path = .ok (p, .dir))
  (hfind' : w'.tree.find w'.place path = .ok (p, .dir))
  (hsame : SameSources p w.tree w'.tree)

include hw hw' hcwd hfind hfind' hsame

/-- With the same source files below `path`, the same files are analyzed, and found to be the same.
-/
theorem sourcesAt_congr (a : Analyzer) :
    ∃ files, sourcesAt w path = .ok files ∧ sourcesAt w' path = .ok files ∧
      ∀ f ∈ files, a.found w' f = a.found w f := by
  refine ⟨_, sourcesAt_of_dir hfind, ?_, fun f hf => ?_⟩
  · rw [sourcesAt_of_dir hfind', hcwd, hsame.sourceWays_eq hw.tree hw'.tree]
  · obtain ⟨ws, hws, rfl⟩ := List.mem_map.1 hf
    obtain ⟨q, name, c, hq, hat⟩ := isSourceAt_of_mem_sourceWays hw hfind hws
    obtain ⟨vs, n, hvs, hsource, -⟩ := exists_of_mem_sources hw.tree.toRegular hws
    have hfile := hsame vs n hsource
    rw [← show ws = vs ++ [n] from hvs, hq] at hfile
    exact found_congr hw hw' hcwd hat (hfile.symm.trans (file?_eq_some_iff.2 hat.lookup_eq))

/-- There are the same rows, if failures can be noted in both workspaces or in none. -/
theorem projectRows?_congr
    (herrors : w'.tree.isDir (w.placeOf a.errorPath) = w.tree.isDir (w.placeOf a.errorPath)) :
    a.projectRows? w' path = a.projectRows? w path := by
  obtain ⟨files, hfiles, hfiles', hfound⟩ := sourcesAt_congr hw hw' hcwd hfind hfind' hsame a
  have hcan : ∀ f ∈ files, a.CanNote w' f ↔ a.CanNote w f := by
    intro f hf
    rw [CanNote, CanNote, recordOf, recordOf, hfound f hf, placeOf_congr hcwd, herrors]
  rw [projectRows?, projectRows?, hfiles, hfiles']
  exact if_congr (forall₂_congr hcan) (congrArg Except.toOption (allRows_congr hfound)) rfl

/-- Rows that there are in both workspaces are the same. -/
theorem projectRows?_unique {rows rows' : List Row} (h : a.projectRows? w path = some rows)
    (h' : a.projectRows? w' path = some rows') : rows' = rows := by
  obtain ⟨files, hfiles, hfiles', hfound⟩ := sourcesAt_congr hw hw' hcwd hfind hfind' hsame a
  have hrows : ∀ {v : Workspace} {rows : List Row}, sourcesAt v path = .ok files →
      a.projectRows? v path = some rows → (a.allRows v files).toOption = some rows := by
    intro v rows hv h
    rw [projectRows?, hv] at h
    exact (Option.ite_none_right_eq_some.1 h).2
  have hall := hrows hfiles' h'
  rw [allRows_congr hfound, hrows hfiles h] at hall
  exact (Option.some.inj hall).symm

end Rows

/-! ## What the table of a project depends on -/

/-- `w` and `w'` do not differ in what the tables of the projects of `base` depend on. -/
structure Alike (a : Analyzer) (base : String) (w w' : Workspace) : Prop where
  cwd_eq : w'.cwd = w.cwd
  sources : SameSources (w.placeOf base) w.tree w'.tree
  isDir_errors : w'.tree.isDir (w.placeOf a.errorPath) = w.tree.isDir (w.placeOf a.errorPath)
  isFile_details :
    w'.tree.isFile (w.placeOf a.detailsPath) = w.tree.isFile (w.placeOf a.detailsPath)
  isDir_results : ∀ name,
    w'.tree.isDir (a.resultsPlace w name) = w.tree.isDir (a.resultsPlace w name)

theorem Alike.symm (h : a.Alike base w w') : a.Alike base w' w := by
  have hplace := placeOf_congr h.cwd_eq
  refine ⟨h.cwd_eq.symm, ?_, ?_, ?_, fun name => ?_⟩
  · rw [hplace]
    exact h.sources.symm
  · rw [hplace, h.isDir_errors]
  · rw [hplace, h.isFile_details]
  · rw [resultsPlace, hplace]
    exact (h.isDir_results name).symm

theorem Alike.canSave_eq (h : a.Alike base w w') (name : String) :
    a.canSave w' name = a.canSave w name := by
  rw [canSave, canSave, resultsPlace, placeOf_congr h.cwd_eq, ← resultsPlace,
    h.isFile_details, h.isDir_results]

/-- A project that is not there in `w'` has no source files in `w`. -/
theorem Alike.savedText?_eq_none (h : a.Alike base w w') (hw : a.Ready base w)
    (hw' : a.Ready base w') (hproject : isProject base w' name = false) :
    a.savedText? base w name = none := by
  cases hthere : isProject base w name with
  | false => exact savedText?_of_not_isProject hthere
  | true =>
    have hdir : w'.tree.isDir (w.placeOf base ++ [name]) = false := by
      rw [isProject, Bool.and_eq_true] at hthere
      rwa [isProject, hthere.1, Bool.true_and, placeOf_congr h.cwd_eq] at hproject
    have hways : sourceWays w.tree (w.placeOf base ++ [name]) = [] := by
      rw [(h.sources.below name).sourceWays_eq hw.sound.tree hw'.sound.tree]
      exact hw'.sound.tree.sources_of_not_isDir hdir _
    have hrows : a.projectRows? w (Path.join base name) = some [] := by
      rw [projectRows?, sourcesAt_of_dir (hw.find_project hthere), hways]
      rfl
    rw [savedText?_of_rows hthere hrows]
    split <;> rfl

theorem Alike.savedText?_eq (h : a.Alike base w w') (hw : a.Ready base w) (hw' : a.Ready base w')
    (name : String) : a.savedText? base w' name = a.savedText? base w name := by
  -- a project may be there in one of the workspaces only, as long as it has no source files
  cases hproject : isProject base w name with
  | false => rw [savedText?_of_not_isProject hproject, h.symm.savedText?_eq_none hw' hw hproject]
  | true =>
    cases hproject' : isProject base w' name with
    | false => rw [savedText?_of_not_isProject hproject', h.savedText?_eq_none hw hw' hproject']
    | true =>
      have hfind' := hw'.find_project hproject'
      rw [placeOf_congr h.cwd_eq] at hfind'
      rw [savedText?_of_rows hproject' rfl, savedText?_of_rows hproject rfl, h.canSave_eq,
        projectRows?_congr hw.sound hw'.sound h.cwd_eq (hw.find_project hproject) hfind'
          (h.sources.below name) h.isDir_errors]

/-! ## All projects of a folder -/

theorem Ready.of_printed (hw : a.Ready base w) (lines : List String) :
    a.Ready base { w with printed := lines } :=
  ⟨⟨⟨hw.sound.tree, hw.sound.isAbsolute, hw.sound.lookup_place⟩, hw.find_output⟩, hw.find_base⟩

theorem Ready.mono (hw : a.Ready base w) (h : w.DirsIn u) (hu : u.Sound) : a.Ready base u where
  sound := hu
  find_output := by
    rw [placeOf_congr h.cwd_eq]
    exact h.find_dir hw.find_output
  find_base := by
    rw [placeOf_congr h.cwd_eq]
    exact h.find_dir hw.find_base

/-- `v` is `w` when the log of `base` is there. -/
structure Started (base : String) (w v : Workspace) : Prop where
  sound : v.Sound
  cwd_eq : v.cwd = w.cwd
  exists_log : ∃ e, v.tree.lookup (w.placeOf (logPath base)) = some e
  isDir_eq : ∀ q, v.tree.isDir q = w.tree.isDir q
  lookup_eq : ∀ q, q ≠ w.placeOf (logPath base) → v.tree.lookup q = w.tree.lookup q

theorem started_of_start {x : Unit} (hv : v.Sound)
    (h : (Log.start (logPath base)).exec w = (.ok x, v)) : Started base w v := by
  obtain ⟨hfile, lines, rfl⟩ := Log.exec_start_eq_ok h
  have hne : w.placeOf (logPath base) ≠ [] := by simp [placeOf_logPath]
  refine ⟨hv, rfl, ⟨_, lookup_insert_self _ hne _⟩, fun q => ?_, fun q hq => ?_⟩
  · show (w.tree.insert _ _).isDir q = _
    rw [Tree.isDir, lookup_insert _ hne]
    split
    · next hq => rw [hq, hfile]; rfl
    · rfl
  · exact (lookup_insert _ hne _ q).trans (if_neg hq)

theorem Started.dirsIn (h : Started base w v) : w.DirsIn v where
  cwd_eq := h.cwd_eq
  lookup_dir {q} hq := by
    exact lookup_of_isDir ((h.isDir_eq _).trans (isDir_of_lookup hq))

/-- What the tables depend on is not in the log. -/
theorem Started.alike (h : Started base w v) : a.Alike base w v where
  cwd_eq := h.cwd_eq
  sources ws name hname := by
    rw [file?, file?, h.lookup_eq]
    rw [placeOf_logPath, ← List.append_assoc]
    intro heq
    rw [List.singleton_inj.1 (List.append_inj' heq rfl).2] at hname
    revert hname
    decide
  isDir_errors := h.isDir_eq _
  isFile_details := by
    rw [Tree.isFile, Tree.isFile, h.lookup_eq _ (a.logPath_ne_details base w).symm]
  isDir_results name := h.isDir_eq _

theorem Started.advanced (h : Started base w v) (hw : a.Ready base w) (hu : a.Advanced base v u) :
    a.Advanced base w u := by
  have hplace := placeOf_congr h.cwd_eq
  refine ⟨⟨hu.cwd_eq.trans h.cwd_eq, fun hq => hu.lookup_dir (h.dirsIn.lookup_dir hq)⟩,
    fun q hq => ?_, fun name => ?_⟩
  · have hwritten : ¬a.IsWritten base v q := by simpa [IsWritten, resultsPlace, hplace] using hq
    exact (hu.lookup_eq q hwritten).trans (h.lookup_eq q fun heq => hq (.inr (.inl heq)))
  · have hresults := hu.results name
    rwa [resultsPlace, hplace, ← resultsPlace, h.alike.savedText?_eq hw (hw.mono h.dirsIn h.sound),
      h.lookup_eq _ (a.resultsPlace_ne_logPath base w name)] at hresults

/-- All entries of `base` have their `turn` once the log is there. -/
theorem Ready.advanced_of_turns (hw : a.Ready base w) (hv : Started base w v)
    {turn : String → Run Nat} (hturn : ∀ (s : Scene) (t : s.Turns) (names : List String),
      s.analyzer = a → s.base = base → (∀ name ∈ names, s.IsEntry name) →
      Emits s.Rep (names.mapM turn) (some (names.map t.value)) (names.flatMap t.effects))
    {kind : String} {x : Unit} (h : (listDir base >>= fun names =>
      names.mapM turn >>= reportTotal kind).exec v = (.ok x, u)) : a.Advanced base w u := by
  have hready := hw.mono hv.dirsIn hv.sound
  obtain ⟨e, he⟩ := hv.exists_log
  rw [← placeOf_congr hv.cwd_eq, placeOf_logPath] at he
  let s : Scene := ⟨a, base, v, v.placeOf base, e, hv.sound, hready.find_base, he⟩
  obtain ⟨t⟩ := s.nonempty_turns
  obtain ⟨u', hu', -, hrep⟩ := exec_bind_reportTotal
    (hturn s t _ rfl rfl fun name hname => isEntry_of_mem_names hname) rep_start kind
  rw [exec_bind_ok _ (exec_listDir_of_dir hready.find_base)] at h
  cases hu'.symm.trans h
  exact hv.advanced hw (t.advanced hready.toHasOutput hrep)

theorem Ready.exec_ensureBase (hw : a.Ready base w) : (ensureBase base).exec w = (.ok (), w) := by
  rw [ensureBase, exec_bind_ok _ (exec_exists? _ w), hw.find_base]
  rfl

/-- `analyzeSequential` leaves the tables that the projects save. -/
theorem Ready.advanced_sequential (hw : a.Ready base w) {x : Unit}
    (h : (a.analyzeSequential base false).exec w = (.ok x, u)) : a.Advanced base w u := by
  obtain ⟨last, v, hprepare, h⟩ := exec_bind_eq_ok h
  have hsound := (respects_prepareLog congruence_sound base false).keeps.exec_eq hprepare hw.sound
  rw [prepareLog, exec_bind_ok _ hw.exec_ensureBase] at hprepare
  obtain ⟨_, v', hstart, hpure⟩ := exec_bind_eq_ok hprepare
  cases hpure
  refine hw.advanced_of_turns (started_of_start hsound hstart) ?_ h
  rintro s t names rfl rfl hentry
  exact t.emits_inTurn hentry ""

/-- `analyzeParallel` leaves the tables that the projects save. -/
theorem Ready.advanced_parallel (hw : a.Ready base w) {workers : Int} {x : Unit}
    (h : (a.analyzeParallel base workers).exec w = (.ok x, u)) : a.Advanced base w u := by
  obtain ⟨_, v, hkeep, h⟩ := exec_bind_eq_ok h
  have hsound := (respects_keepLog congruence_sound base).keeps.exec_eq hkeep hw.sound
  have hv : Started base w v := by
    rw [keepLog, exec_bind_ok _ hw.exec_ensureBase, exec_bind_ok _ (exec_exists? _ w)] at hkeep
    split at hkeep
    · exact started_of_start hsound hkeep
    · next hthere =>
      cases hkeep
      cases hlog : w.tree.lookup _ with
      | some e => exact ⟨hsound, rfl, ⟨e, hlog⟩, fun _ => rfl, fun _ _ => rfl⟩
      | none =>
        rw [placeOf_logPath] at hlog
        rw [logPath, find_of_resolve_none (resolve_join_of_find hw.find_base isName_log) hlog]
          at hthere
        exact absurd rfl hthere
  split at h
  · cases h
  · refine hw.advanced_of_turns hv ?_ h
    rintro s t names rfl rfl hentry
    exact t.emits_beside hentry

end Analyzer

end SmellLint
