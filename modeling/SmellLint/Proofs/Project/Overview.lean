import SmellLint.Proofs.Project.Single
import SmellLint.Proofs.Project.Tables
import SmellLint.Proofs.Workspace.Cleaning

/-!
# The overview of a new run

A run that is not resumed empties the folder `output` in the output folder, and nothing else there
(`Analyzer.Emptied`).  So an overview of an earlier run stays if the new one has no rows, and tables
that earlier runs have left among the details are joined with the new ones (`Analyzer.IsOverview`).
Apart from these, the overview is settled by the files that are analyzed
(`Analyzer.IsOverview.sameOverview`).
-/

namespace SmellLint

open List Path Project Run Tree Workspace

theorem CallGraph.keeps_loadFiles {P : Workspace → Prop} (g : CallGraph) (root : String)
    (paths : List String) : Keeps P (g.loadFiles root paths) :=
  (Keeps.mapM (fun _ => (keeps_readText _).outcome.bind fun _ =>
    .bind .get fun _ => .pure _) paths).bind fun _ => .pure _

namespace Analyzer

variable {a : Analyzer} {input : String} {w w' v v' u x : Workspace}

/-! ## Emptying the folder -/

/-- The place of the folder that `Analyzer.clean` empties before a run. -/
def emptiedPlace (a : Analyzer) (w : Workspace) : Place := w.placeOf a.output ++ [outputFolder]

/-- `v` is `w` after the folder at `emptiedPlace` has been emptied. -/
structure Emptied (a : Analyzer) (w v : Workspace) : Prop where
  cwd_eq : v.cwd = w.cwd
  sound : v.tree.Sound
  lookup_eq : ∀ q, v.tree.lookup q = if q = a.emptiedPlace w then some .dir
    else if a.emptiedPlace w <+: q then none else w.tree.lookup q

theorem Emptied.lookup_outside (h : a.Emptied w v) {q : Place}
    (hq : ¬a.emptiedPlace w <+: q) : v.tree.lookup q = w.tree.lookup q := by
  have hne : q ≠ a.emptiedPlace w := fun heq => hq (heq ▸ prefix_refl q)
  rw [h.lookup_eq, if_neg hne, if_neg hq]

/-- Where `w` and `w'` agree (on `f`), they agree after both have been emptied. -/
theorem Emptied.congr (h : a.Emptied w v) (h' : a.Emptied w' v') (hcwd : w'.cwd = w.cwd)
    {β : Type} (f : Option Entry → β) {q : Place}
    (hq : f (w'.tree.lookup q) = f (w.tree.lookup q)) :
    f (v'.tree.lookup q) = f (v.tree.lookup q) := by
  have hplace : a.emptiedPlace w' = a.emptiedPlace w := by
    rw [emptiedPlace, placeOf_congr hcwd, emptiedPlace]
  rw [h.lookup_eq, h'.lookup_eq, hplace]
  split
  · rfl
  · split
    · rfl
    · exact hq

/-- The way to `path` does not lead into the folder that is emptied. -/
def Avoids (a : Analyzer) (w : Workspace) (path : String) : Prop :=
  ∀ q ∈ w.tree.way (origin w.place path) (names path), ¬a.emptiedPlace w <+: q

/-- A run may start in `w`: the working directory, the output folder and `input` are there, and not
in the folder that is emptied. -/
structure Fresh (a : Analyzer) (input : String) (w : Workspace) : Prop
    extends Ready a input w where
  place : ¬a.emptiedPlace w <+: w.place
  output : a.Avoids w a.output
  input : a.Avoids w input

theorem Fresh.of_printed (hw : a.Fresh input w) (lines : List String) :
    a.Fresh input { w with printed := lines } :=
  ⟨hw.toReady.of_printed lines, hw.place, hw.output, hw.input⟩

/-- The output folder is not reached through what is taken away. -/
theorem Fresh.not_leadsThrough (hw : a.Fresh input w) (name : String) :
    ¬LeadsThrough w a.output (a.emptiedPlace w ++ [name]) := by
  rintro ⟨ms, hms, hbelow⟩
  have hin : a.emptiedPlace w <+: reach (origin w.place a.output) ms :=
    (prefix_append _ _).trans hbelow
  by_cases hnil : ms = []
  · rw [hnil, reach, foldl_nil, origin] at hin
    split at hin
    · simp [emptiedPlace] at hin
    · exact hw.place hin
  · obtain ⟨husable, hopen, -⟩ := find_eq_dir_iff.1 hw.find_output
    have hclear := hopen.isClear fun n hn => husable.2.of_mem_names hn
    exact hw.output _ (mem_way_of_isClear hclear hms hnil) hin

theorem Fresh.emptied (hw : a.Fresh input w) {y : Unit} (h : a.clean.exec w = (.ok y, v)) :
    a.Emptied w v := by
  obtain ⟨target, v', hclean, hpure⟩ := exec_bind_eq_ok h
  cases hpure
  have hlisting : ∀ l : List String, (id l).Perm l := Perm.refl
  obtain ⟨t, gone, kept, rfl, hsplit, ht⟩ :=
    exec_cleanDirectory_eq_ok hw.sound (by decide) hlisting hclean
  obtain ⟨hempty, -⟩ := ht.empty_of_not_leadsThrough hw.sound hlisting hsplit hw.not_leadsThrough
  refine ⟨rfl, ht.sound, fun q => ?_⟩
  by_cases hq : q = a.emptiedPlace w
  · rw [if_pos hq, hq]
    exact ht.lookup_folder
  · rw [if_neg hq]
    split
    · next hbelow => exact ht.sound.lookup_of_names_eq_nil hempty hbelow hq
    · next hout =>
      refine (ht.lookup_outside q hout).trans ?_
      rw [(find_eq_dir_iff.1 hw.find_output).2.1.lookup_made]

theorem Emptied.find_dir (h : a.Emptied w v) (hw : a.Fresh input w) {path : String} {p : Place}
    (hpath : a.Avoids w path) (hfind : w.tree.find w.place path = .ok (p, .dir)) :
    v.tree.find v.place path = .ok (p, .dir) := by
  obtain ⟨husable, hopen, hplace⟩ := find_eq_dir_iff.1 hfind
  have hclear := hopen.isClear fun n hn => husable.2.of_mem_names hn
  have horigin : v.tree.lookup (origin w.place path) = some .dir := by
    rw [origin]
    split
    · rfl
    · rw [h.lookup_outside hw.place, hw.sound.lookup_place]
  rw [place, h.cwd_eq]
  refine find_eq_dir_iff.2 ⟨husable, open_of_isClear hclear horigin fun q hq => ?_, hplace⟩
  rw [h.lookup_outside (hpath q hq), hopen.lookup_of_mem_way hq]

theorem Emptied.ready (h : a.Emptied w v) (hw : a.Fresh input w) : a.Ready input v where
  sound := by
    refine ⟨h.sound, ?_, ?_⟩
    · rw [h.cwd_eq]
      exact hw.sound.isAbsolute
    · rw [place, h.cwd_eq]
      exact (h.lookup_outside hw.place).trans hw.sound.lookup_place
  find_output := by
    rw [placeOf_congr h.cwd_eq]
    exact h.find_dir hw hw.output hw.find_output
  find_base := by
    rw [placeOf_congr h.cwd_eq]
    exact h.find_dir hw hw.input hw.find_base

/-- What has another `name` in the output folder is not in the folder that is emptied. -/
theorem Emptied.lookup_output (h : a.Emptied w v) {name : String} (hname : name ≠ "output")
    (ws : List String) : v.tree.lookup (w.placeOf a.output ++ name :: ws)
      = w.tree.lookup (w.placeOf a.output ++ name :: ws) := by
  refine h.lookup_outside fun hbelow => ?_
  rw [emptiedPlace, prefix_append_right_inj, cons_prefix_cons] at hbelow
  exact hname hbelow.1.symm

/-! ## One project -/

theorem exists_sources_of_ok {n : Nat} (h : (a.analyzeProject input).exec w = (.ok n, u)) :
    ∃ files, sourcesAt w input = .ok files ∧ files ≠ [] := by
  rw [analyzeProject, exec_bind_ok _ (exec_print _ w)] at h
  obtain ⟨files, v, hfiles, h⟩ := exec_bind_eq_ok h
  rw [exec_sourceFiles] at hfiles
  refine ⟨files, (Prod.mk.inj hfiles).1, ?_⟩
  rintro rfl
  cases h

/-- If `analyzeProject` comes to its end, it has saved the rows of the project. -/
theorem HasOutput.saved_of_ok (ho : a.HasOutput w) {n : Nat}
    (h : (a.analyzeProject input).exec w = (.ok n, u)) :
    ∃ records rows, a.projectRows? w input = some rows ∧ a.Saved w records rows u := by
  obtain ⟨files, hfiles, hne⟩ := exists_sources_of_ok h
  obtain ⟨hcan, rows, hrows, -, hsaved⟩ := ho.analyzeProject_eq_ok hfiles hne h
  refine ⟨_, rows, ?_, hsaved⟩
  rw [projectRows?, hfiles]
  exact (if_pos hcan).trans (congrArg Except.toOption hrows)

/-! ## Call graphs -/

/-- `v` differs from `w` at most in the files for the call graph. -/
structure OnlyGraph (a : Analyzer) (w v : Workspace) : Prop extends w.DirsIn v where
  lookup_eq : ∀ name, name ≠ "call_graph.json" → name ≠ "call_graph.dot" →
    v.tree.lookup (w.placeOf a.output ++ [name]) = w.tree.lookup (w.placeOf a.output ++ [name])

theorem OnlyGraph.keeps_print (line : String) : Keeps (a.OnlyGraph w) (print line) :=
  fun _ h => ⟨⟨h.cwd_eq, h.lookup_dir⟩, h.lookup_eq⟩

theorem HasOutput.keeps_writeGraph (ho : a.HasOutput w) {file : String} (hname : IsName file)
    (hfile : file = "call_graph.json" ∨ file = "call_graph.dot") (text : String) :
    Keeps (a.OnlyGraph w) (writeText (join a.output file) text) := by
  refine .writeText (fun c v h => ?_) text
  refine ⟨((congruence_dirsIn w).writeContent _ _).keeps v h.toDirsIn, fun name hjson hdot => ?_⟩
  rw [← h.lookup_eq name hjson hdot]
  rcases exec_writeContent_cases _ c v with hsame | ⟨p, hp, -, hexec⟩
  · rw [hsame]
  rw [resolve_join_of_find (h.find_dir ho.find_output) hname] at hp
  cases hp
  rw [hexec]
  refine lookup_insert_of_ne _ (fun heq => ?_) _
  obtain rfl := singleton_inj.1 (append_inj' heq rfl).2
  rcases hfile with rfl | rfl
  · exact hjson rfl
  · exact hdot rfl

theorem HasOutput.keeps_saveCallGraph (ho : a.HasOutput w) (path : String) :
    Keeps (a.OnlyGraph w) (a.saveCallGraph path) := by
  refine (OnlyGraph.keeps_print _).bind fun _ => (keeps_sourceFiles path).bind fun files =>
    (CallGraph.keeps_loadFiles _ _ _).bind fun graph => Keeps.bind (fun v h => ?_) fun _ =>
    (ho.keeps_writeGraph (by decide) (.inl rfl) _).bind fun _ =>
    (OnlyGraph.keeps_print _).bind fun _ =>
    (ho.keeps_writeGraph (by decide) (.inr rfl) _).bind fun _ => OnlyGraph.keeps_print _
  -- the output folder is there, so that nothing is made
  have hplace : v.tree.lookup v.place = some .dir := by
    rw [h.place_eq]
    exact h.lookup_dir ho.sound.lookup_place
  obtain ⟨t, hexec, hlookup, -⟩ := exec_makeDirs_of_find hplace (h.find_dir ho.find_output)
  rw [hexec]
  exact ⟨⟨h.cwd_eq, fun hq => (hlookup _).trans (h.lookup_dir hq)⟩,
    fun name hjson hdot => (hlookup _).trans (h.lookup_eq name hjson hdot)⟩

/-! ## Joining the tables -/

/-- After `mergeAll` the overview has the tables below the folder for details, and everything else
is as it was. -/
theorem Ready.lookup_mergeAll (hw : a.Ready input w) {y : Unit}
    (h : a.mergeAll.exec w = (.ok y, u)) : u.tree.Sound ∧
      ∀ q, u.tree.lookup q = if q = w.placeOf a.overviewPath
        then withSaved (mergedText? w.tree (w.placeOf a.detailsPath)) (w.tree.lookup q)
        else w.tree.lookup q := by
  have hresolve : w.tree.resolve w.place a.detailsPath = .ok (w.placeOf a.detailsPath) := by
    rw [placeOf_detailsPath]
    exact resolve_join_of_find hw.find_output isName_details
  have hsound := (respects_mergeResults congruence_sound _ _).keeps.exec_eq h hw.sound
  refine ⟨hsound.tree, ?_⟩
  rw [placeOf_overviewPath]
  exact exec_mergeResults_eq_ok hw.sound hresolve hw.find_output h

/-- `u` is what a run for all projects of `input` leaves, if `v` is `w` after its folder has been
emptied: tables of the projects, tables that were there, and all of them joined as the overview. -/
structure Joined (a : Analyzer) (input : String) (w v u : Workspace) : Prop where
  sound : u.tree.Sound
  saved : ∀ name, u.tree.lookup (a.resultsPlace w name)
    = withSaved (a.savedText? input v name) (w.tree.lookup (a.resultsPlace w name))
  left : ∀ ws name, isTable name = true →
    (∀ n, w.placeOf a.detailsPath ++ (ws ++ [name]) ≠ a.resultsPlace w n) →
    u.tree.lookup (w.placeOf a.detailsPath ++ (ws ++ [name]))
      = w.tree.lookup (w.placeOf a.detailsPath ++ (ws ++ [name]))
  overview : u.tree.lookup (w.placeOf a.overviewPath)
    = withSaved (mergedText? u.tree (w.placeOf a.detailsPath))
      (w.tree.lookup (w.placeOf a.overviewPath))

theorem overviewPath_ne_details (a : Analyzer) (w : Workspace) {ws : List String} (hws : ws ≠ []) :
    w.placeOf a.detailsPath ++ ws ≠ w.placeOf a.overviewPath := by
  intro heq
  have hlength := congrArg length heq
  have hpos := length_pos_iff.2 hws
  rw [placeOf_detailsPath, placeOf_overviewPath] at hlength
  simp only [length_append, length_singleton] at hlength
  omega

theorem not_isWritten_overviewPath (a : Analyzer) (base : String) (w : Workspace) :
    ¬a.IsWritten base w (w.placeOf a.overviewPath) := by
  rintro (h | h | h | ⟨n, h⟩)
  · exact a.placeOf_overviewPath_ne w h
  · rw [placeOf_overviewPath, placeOf_logPath] at h
    simp at h
  · rw [placeOf_overviewPath, placeOf_detailsPath] at h
    simp at h
  · exact a.overviewPath_ne_details w (cons_ne_nil _ _) h.symm

/-- Of the tables below the folder for details, only those of projects are written. -/
theorem not_isWritten_table {base : String} {ws : List String} {name : String}
    (hname : isTable name = true)
    (hresults : ∀ n, w.placeOf a.detailsPath ++ (ws ++ [name]) ≠ a.resultsPlace w n) :
    ¬a.IsWritten base w (w.placeOf a.detailsPath ++ (ws ++ [name])) := by
  rintro (h | h | h | ⟨n, h⟩)
  · have hlength := congrArg length h
    simp [placeOf_errorPath, placeOf_detailsPath] at hlength
  · rw [placeOf_logPath, ← append_assoc] at h
    obtain ⟨-, h⟩ := append_inj' h rfl
    rw [singleton_inj.1 h] at hname
    revert hname
    decide
  · have hlength := congrArg length h
    simp at hlength
  · exact hresults n h

/-- A run for all projects, from the emptied workspace `v` through the tables in `x` to the
overview. -/
theorem Advanced.joined (hv : a.Emptied w v) (hready : a.Ready input v)
    (h : a.Advanced input v x) (hx : x.Sound) {y : Unit}
    (hmerge : a.mergeAll.exec x = (.ok y, u)) : a.Joined input w v u := by
  have hplace := placeOf_congr hv.cwd_eq
  have hplace' : ∀ path, x.placeOf path = w.placeOf path := fun path =>
    (placeOf_congr h.cwd_eq path).trans (hplace path)
  obtain ⟨hsound, hlookup⟩ := (hready.mono h.toDirsIn hx).lookup_mergeAll hmerge
  simp only [hplace'] at hlookup
  have hdetails : ∀ ws, ws ≠ [] → u.tree.lookup (w.placeOf a.detailsPath ++ ws)
      = x.tree.lookup (w.placeOf a.detailsPath ++ ws) := fun ws hws =>
    (hlookup _).trans (if_neg (a.overviewPath_ne_details w hws))
  have hleft : ∀ ws, v.tree.lookup (w.placeOf a.detailsPath ++ ws)
      = w.tree.lookup (w.placeOf a.detailsPath ++ ws) := by
    intro ws
    rw [placeOf_detailsPath, append_assoc]
    exact hv.lookup_output (by decide) ws
  -- joining writes the overview only, so the tables that are joined are still there
  have hmerged : mergedText? x.tree (w.placeOf a.detailsPath)
      = mergedText? u.tree (w.placeOf a.detailsPath) :=
    mergedText?_congr hx.tree hsound fun ws name _ => by
      rw [file?, file?, hdetails _ (by simp)]
  refine ⟨hsound, fun name => ?_, fun ws name hname hresults => ?_, ?_⟩
  · have hsaved := h.results name
    rw [resultsPlace, hplace, hleft] at hsaved
    exact (hdetails _ (cons_ne_nil _ _)).trans hsaved
  · rw [hdetails _ (by simp), ← hleft, ← hplace]
    refine h.lookup_eq _ (not_isWritten_table hname fun n => ?_)
    rw [resultsPlace, hplace]
    exact hresults n
  · have hold : x.tree.lookup (w.placeOf a.overviewPath)
        = w.tree.lookup (w.placeOf a.overviewPath) := by
      rw [← hplace, h.lookup_eq _ (a.not_isWritten_overviewPath input v), hplace,
        placeOf_overviewPath]
      exact hv.lookup_output (by decide) []
    rw [hlookup, if_pos rfl, hmerged, hold]

/-! ## Two runs -/

/-- The same files are analyzed for `input` in `w` and `w'`. -/
structure SameInput (input : String) (w w' : Workspace) : Prop where
  cwd_eq : w'.cwd = w.cwd
  sources : SameSources (w.placeOf input) w.tree w'.tree

/-- Earlier runs have left the same among the details of `w` and `w'`: the same tables, and the same
in the way of new ones. -/
structure SameTables (a : Analyzer) (w w' : Workspace) : Prop where
  isDir_errors : w'.tree.isDir (w.placeOf a.errorPath) = w.tree.isDir (w.placeOf a.errorPath)
  isFile_details :
    w'.tree.isFile (w.placeOf a.detailsPath) = w.tree.isFile (w.placeOf a.detailsPath)
  tables : ∀ ws name, isTable name = true →
    w'.tree.lookup (w.placeOf a.detailsPath ++ (ws ++ [name]))
      = w.tree.lookup (w.placeOf a.detailsPath ++ (ws ++ [name]))

theorem Emptied.sameSources (h : a.Emptied w v) (h' : a.Emptied w' v') (hcwd : w'.cwd = w.cwd)
    {p : Place} (hsame : SameSources p w.tree w'.tree) :
    SameSources p v.tree v'.tree := fun ws name hname =>
  (h.congr h' hcwd Entry.content? (hsame ws name hname).symm).symm

theorem isTable_resultsName (name : String) : isTable (Scene.resultsName name) = true := by
  have hlist : (Scene.resultsName name).toList = name.toList ++ "_results.csv".toList :=
    String.toList_append
  have hsuffix : ".csv".toList <:+ "_results.csv".toList := by decide
  rw [isTable, endsWith_iff, hlist]
  exact hsuffix.trans (suffix_append _ _)

theorem Emptied.alike (h : a.Emptied w v) (h' : a.Emptied w' v') (hinput : SameInput input w w')
    (htables : a.SameTables w w') : a.Alike input v v' := by
  have hplace := placeOf_congr h.cwd_eq
  have hcwd := hinput.cwd_eq
  refine ⟨h'.cwd_eq.trans (hcwd.trans h.cwd_eq.symm), ?_, ?_, ?_, fun name => ?_⟩
  · rw [hplace]
    exact h.sameSources h' hcwd hinput.sources
  · rw [hplace]
    exact h.congr h' hcwd _ htables.isDir_errors
  · rw [hplace]
    exact h.congr h' hcwd _ htables.isFile_details
  · rw [resultsPlace, hplace]
    exact h.congr h' hcwd _
      (congrArg _ (htables.tables [] (Scene.resultsName name) (isTable_resultsName name)))

/-- Runs from `w` to `u` and from `w'` to `u'` end with the same overview, or neither has written
one. -/
def SameOverview (a : Analyzer) (w u w' u' : Workspace) : Prop :=
  u'.tree.lookup (w.placeOf a.overviewPath) = u.tree.lookup (w.placeOf a.overviewPath) ∨
    u.tree.lookup (w.placeOf a.overviewPath) = w.tree.lookup (w.placeOf a.overviewPath) ∧
    u'.tree.lookup (w.placeOf a.overviewPath) = w'.tree.lookup (w.placeOf a.overviewPath)

/-- Runs that are `Joined` and save the same tables have the same overview. -/
theorem Joined.sameOverview {u' : Workspace} (h : a.Joined input w v u)
    (h' : a.Joined input w' v' u') (hcwd : w'.cwd = w.cwd)
    (hsaved : ∀ name, a.savedText? input v' name = a.savedText? input v name)
    (htables : a.SameTables w w') : a.SameOverview w u w' u' := by
  have hplace := placeOf_congr hcwd
  have hmerged : mergedText? u'.tree (w.placeOf a.detailsPath)
      = mergedText? u.tree (w.placeOf a.detailsPath) := by
    refine mergedText?_congr h'.sound h.sound fun ws name hname => ?_
    refine congrArg Entry.content? ?_
    have htable := htables.tables ws name hname
    -- a table belongs to a project, or it was left by an earlier run
    by_cases hresults : ∃ n, w.placeOf a.detailsPath ++ (ws ++ [name]) = a.resultsPlace w n
    · obtain ⟨n, hn⟩ := hresults
      have hsaved' := h'.saved n
      rw [resultsPlace, hplace, ← resultsPlace, hsaved, ← hn, htable] at hsaved'
      rw [hsaved', hn, h.saved n]
    · have hne : ∀ n, w.placeOf a.detailsPath ++ (ws ++ [name]) ≠ a.resultsPlace w n :=
        fun n hn => hresults ⟨n, hn⟩
      have hleft' := h'.left ws name hname
      rw [hplace] at hleft'
      rw [h.left ws name hname hne, hleft' fun n => ?_, htable]
      rw [resultsPlace, hplace]
      exact hne n
  have hoverview := h.overview
  have hoverview' := h'.overview
  rw [hplace, hplace, hmerged] at hoverview'
  cases htext : mergedText? u.tree _ with
  | none =>
    rw [htext, withSaved_none] at hoverview hoverview'
    exact .inr ⟨hoverview, hoverview'⟩
  | some text =>
    rw [htext] at hoverview hoverview'
    exact .inl (hoverview'.trans hoverview.symm)

/-- What the overview is after a run from `w` to `u` that is not resumed.  For one project it has
the rows of its files, and it is what it was if there are none; if `multiple`, it has all tables. -/
def IsOverview (a : Analyzer) (input : String) (multiple : Bool) (w u : Workspace) : Prop :=
  ∃ v, a.Emptied w v ∧ if multiple then a.Joined input w v u
    else ∃ rows, a.projectRows? v input = some rows ∧
      u.tree.lookup (w.placeOf a.overviewPath) = if rows = []
        then w.tree.lookup (w.placeOf a.overviewPath) else some (.file (.text (Row.toCsv rows)))

theorem IsOverview.of_printed {multiple : Bool} {lines : List String}
    (h : a.IsOverview input multiple { w with printed := lines } u) :
    a.IsOverview input multiple w u := by
  obtain ⟨v, hv, h⟩ := h
  refine ⟨v, ⟨hv.cwd_eq, hv.sound, hv.lookup_eq⟩, ?_⟩
  cases multiple with
  | true =>
    obtain ⟨hsound, hsaved, hleft, hoverview⟩ := h
    exact ⟨hsound, hsaved, hleft, hoverview⟩
  | false => exact h

/-- The overview depends on the files that are analyzed and, if `multiple`, on the tables that were
there. -/
theorem IsOverview.sameOverview {multiple : Bool} {u' : Workspace} (hw : a.Fresh input w)
    (hw' : a.Fresh input w') (h : a.IsOverview input multiple w u)
    (h' : a.IsOverview input multiple w' u') (hinput : SameInput input w w')
    (htables : multiple = true → a.SameTables w w') : a.SameOverview w u w' u' := by
  obtain ⟨v, hv, h⟩ := h
  obtain ⟨v', hv', h'⟩ := h'
  have hready := hv.ready hw
  have hready' := hv'.ready hw'
  cases multiple with
  | true =>
    have htables := htables rfl
    exact Joined.sameOverview h h' hinput.cwd_eq
      ((hv.alike hv' hinput htables).savedText?_eq hready hready') htables
  | false =>
    obtain ⟨rows, hrows, hoverview⟩ := h
    obtain ⟨rows', hrows', hoverview'⟩ := h'
    have hcwd : v'.cwd = v.cwd := hv'.cwd_eq.trans (hinput.cwd_eq.trans hv.cwd_eq.symm)
    have hfind' := hready'.find_base
    rw [placeOf_congr hcwd] at hfind'
    have hsame : SameSources (v.placeOf input) v.tree v'.tree := by
      rw [placeOf_congr hv.cwd_eq]
      exact hv.sameSources hv' hinput.cwd_eq hinput.sources
    obtain rfl := projectRows?_unique hready.sound hready'.sound hcwd hready.find_base hfind' hsame
      hrows hrows'
    rw [placeOf_congr hinput.cwd_eq] at hoverview'
    by_cases hempty : rows' = []
    · rw [if_pos hempty] at hoverview hoverview'
      exact .inr ⟨hoverview, hoverview'⟩
    · rw [if_neg hempty] at hoverview hoverview'
      exact .inl (hoverview'.trans hoverview.symm)

end Analyzer

end SmellLint
