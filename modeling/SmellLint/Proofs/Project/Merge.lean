import SmellLint.Proofs.Project.Sources

/-!
# Joining the results of projects

All tables below the folder for details are joined, in the order in which a visit finds them, and
saved as the overview; if none of them has rows, the overview stays as it is
(`Project.exec_mergeResults_eq_ok`).
-/

namespace SmellLint

open Path Run Table Tree List

variable {p : Place}

/-- The names `ns` are `Open` from `p` to a directory below it. -/
theorem Tree.Sound.open_of_append {t : Tree} (h : t.Sound) {ns : List String}
    (hdir : t.lookup (p ++ ns) = some .dir) : t.Open p ns := by
  have hopen := h.open_of_lookup hdir
  have hreach : reach [] p = p := reach_of_isProper [] fun n hn =>
    (h.isName hdir n (mem_append_left _ hn)).1
  rw [open_append, hreach] at hopen
  exact hopen.2

/-- `find` gives a directory below that of `path` for the names `vs` on the way to it. -/
theorem Workspace.Sound.find_dir_joinAll {w : Workspace} (hw : w.Sound) {path : String}
    (hpath : w.tree.find w.place path = .ok (p, .dir)) {vs : List String}
    (hdir : w.tree.lookup (p ++ vs) = some .dir) :
    w.tree.find w.place (joinAll path vs) = .ok (p ++ vs, .dir) := by
  obtain ⟨husable, hopen, hplace⟩ := find_eq_dir_iff.1 hpath
  have hname : ∀ n ∈ vs, IsName n := fun n hn =>
    hw.tree.isName hdir n (mem_append_right p hn)
  have hplain : ∀ n ∈ vs, IsPlain n := fun n hn => (hname n hn).1.1
  have horigin : origin w.place (joinAll path vs) = origin w.place path := by
    rw [origin, isAbsolute_joinAll _ hplain, ← origin]
  refine find_eq_dir_iff.2 ⟨⟨?_, ?_⟩, ?_, ?_⟩
  · intro hempty
    have hnil := names_joinAll path hplain
    rw [hempty] at hnil
    obtain ⟨-, rfl⟩ := append_eq_nil_iff.1 hnil.symm
    exact husable.1 hempty
  · refine accepted_of_names fun n hn => ?_
    rw [names_joinAll _ hplain] at hn
    rcases mem_append.1 hn with hn | hn
    · exact husable.2.of_mem_names hn
    · exact (hname n hn).2.2
  · rw [horigin, names_joinAll _ hplain, open_append, ← hplace]
    exact ⟨hopen, hw.tree.open_of_append hdir⟩
  · rw [horigin, names_joinAll _ hplain, reach_append, ← hplace,
      reach_of_isProper _ fun n hn => (hname n hn).1]

/-- `find` gives a file below the directory of `path` for the names on the way to it. -/
theorem Workspace.Sound.find_joinAll {w : Workspace} (hw : w.Sound) {path : String}
    (hpath : w.tree.find w.place path = .ok (p, .dir)) {vs : List String} {name : String}
    {c : Content} (hfile : w.tree.lookup (p ++ (vs ++ [name])) = some (.file c)) :
    w.tree.find w.place (joinAll path (vs ++ [name])) = .ok (p ++ (vs ++ [name]), .file c) := by
  have hname := hw.tree.isName hfile name (by simp)
  have hdir : w.tree.lookup (p ++ vs) = some .dir := by
    rw [← append_assoc] at hfile
    exact hw.tree.parent hfile
  have hresolve := resolve_join_of_find (hw.find_dir_joinAll hpath hdir) hname
  rw [append_assoc] at hresolve
  rw [joinAll, foldl_append]
  exact find_of_resolve hresolve hfile

namespace Project

def isTable (name : String) : Bool := endsWith name ".csv"

/-- The ways from `p` to the tables below it. -/
def tableWays (t : Tree) (p : Place) : List (List String) :=
  if t.isDir p then t.sources isTable (fun _ => true) p (t.depth + 1) [] else []

/-- The table that a file with `c` holds, unless it cannot be read or has no rows. -/
def tableOf? (c : Content) : Option Table :=
  (c.rawText >>= read).toOption.filter fun t => t.height != 0

def tablesBelow (t : Tree) (p : Place) : List Table :=
  (tableWays t p).filterMap fun ws => (t.file? (p ++ ws)).bind tableOf?

/-- The text of the tables below `p` as one table, if there are any. -/
def mergedText? (t : Tree) (p : Place) : Option String :=
  if (tablesBelow t p).isEmpty then none else some (Table.concat (tablesBelow t p)).toCsv

/-! ## Finding the tables -/

variable {w : Workspace}

variable {t : Tree} {path : String}

theorem files_of_mem_visitFrom {enter : String → Bool} {start : Place} {fuel : Nat}
    {way : List String} {v : Visit} (h : v ∈ t.visitFrom enter start fuel way) :
    v.files = t.fileNames (start ++ v.way) := by
  induction fuel generalizing way with
  | zero => cases h
  | succ fuel ih =>
    rcases mem_cons.1 h with rfl | h
    · rfl
    · obtain ⟨d, -, h⟩ := mem_flatMap.1 h
      exact ih h

/-- Whether a path below a directory is that of a table is seen from its last `name`. -/
theorem endsWith_joinAll (path : String) (way : List String) {name : String} (h : IsPlain name) :
    endsWith (joinAll path (way ++ [name])) ".csv" = isTable name := by
  rw [joinAll, foldl_append]
  exact endsWith_join (by decide) _ h

/-- `filesBelow` finds the tables below `path` without changing anything. -/
theorem exec_filesBelow (hw : w.Sound) (hpath : w.tree.resolve w.place path = .ok p) :
    ∃ paths, (filesBelow path).exec w = (.ok paths, w) ∧
      paths.filter (endsWith · ".csv")
        = (tableWays w.tree p).map (joinAll path) := by
  rw [tableWays]
  cases hl : w.tree.lookup p with
  | none =>
    have hvisits := exec_visits_of_error (fun _ => true) (find_of_resolve_none hpath hl)
    rw [isDir_of_lookup hl]
    exact ⟨[], exec_bind_ok _ hvisits, rfl⟩
  | some e =>
    cases e with
    | file c =>
      have hvisits := exec_visits_of_file (fun _ => true) (find_of_resolve hpath hl)
      rw [isDir_of_lookup hl]
      exact ⟨[], exec_bind_ok _ hvisits, rfl⟩
    | dir =>
      have hvisits := exec_visits_of_dir (fun _ => true) (find_of_resolve hpath hl)
      have hdir : w.tree.isDir p = true := isDir_of_lookup hl
      rw [if_pos hdir, sources, map_flatMap]
      refine ⟨_, exec_bind_ok _ hvisits, ?_⟩
      rw [filter_flatMap]
      refine flatMap_congr fun v hv => ?_
      rw [filter_map, map_map]
      refine congrArg _ (filter_congr fun name hname => ?_)
      rw [files_of_mem_visitFrom hv, hw.tree.mem_fileNames] at hname
      obtain ⟨c, hc⟩ := exists_of_isFile hname
      exact endsWith_joinAll path v.way
        (hw.tree.isName hc name (mem_append_right _ mem_cons_self)).1.1

/-! ## Reading the tables -/

theorem exec_readTable {c : Content} (h : w.tree.find w.place path = .ok (p, .file c)) :
    (readRawText path >>= fun text => lift (read text)).exec w
      = (c.rawText >>= read, w) := exec_bind_lift _ (exec_bind_ok _ (exec_readContent h))

/-- What `readResults` gives is settled by what the file holds. -/
theorem exec_readResults {c : Content} (h : w.tree.find w.place path = .ok (p, .file c)) :
    ∃ printed, (readResults path).exec w = (.ok (tableOf? c), { w with printed }) := by
  rw [readResults, exec_bind_ok _ (exec_outcome_of (exec_readTable h)), tableOf?]
  cases c.rawText >>= read with
  | error e => exact ⟨_, rfl⟩
  | ok t =>
    by_cases hheight : t.height = 0
    · have hnone : (some t).filter (fun t => t.height != 0) = none := by
        rw [Option.filter_some, if_neg (by simp [hheight])]
      simp only [hheight]
      exact ⟨_, Prod.ext (congrArg Except.ok hnone.symm) rfl⟩
    · have hsome : (some t).filter (fun t => t.height != 0) = some t := by
        rw [Option.filter_some, if_pos (by simp [hheight])]
      simp only [hheight]
      exact ⟨w.printed, Prod.ext (congrArg Except.ok hsome.symm) rfl⟩

theorem exec_mapM_readResults (hw : w.Sound) (hpath : w.tree.find w.place path = .ok (p, .dir))
    {ways : List (List String)}
    (hways : ∀ ws ∈ ways, ∃ vs name, ws = vs ++ [name] ∧ w.tree.isFile (p ++ ws) = true) :
    ∃ printed, ((ways.map (joinAll path)).mapM readResults).exec w
      = (.ok (ways.map fun ws => (w.tree.file? (p ++ ws)).bind tableOf?), { w with printed }) := by
  induction ways generalizing w with
  | nil => exact ⟨w.printed, rfl⟩
  | cons ws ways ih =>
    obtain ⟨⟨vs, name, rfl, hfile⟩, hrest⟩ := forall_mem_cons.1 hways
    rw [isFile_eq_isSome, Option.isSome_iff_exists] at hfile
    obtain ⟨c, hc⟩ := hfile
    obtain ⟨printed, hread⟩ := exec_readResults (hw.find_joinAll hpath (file?_eq_some_iff.1 hc))
    obtain ⟨printed', hmap⟩ :=
      ih (w := { w with printed }) ⟨hw.tree, hw.isAbsolute, hw.lookup_place⟩ hpath hrest
    rw [map_cons, mapM_cons, exec_bind_ok _ hread, exec_bind_ok _ hmap, map_cons, hc]
    exact ⟨printed', rfl⟩

/-- What `readResults` gives for the tables below `path`. -/
theorem exec_readTables (hw : w.Sound) (hpath : w.tree.resolve w.place path = .ok p) :
    ∃ printed, (((tableWays w.tree p).map (joinAll path)).mapM readResults).exec w
      = (.ok ((tableWays w.tree p).map fun ws => (w.tree.file? (p ++ ws)).bind tableOf?),
        { w with printed }) := by
  cases hdir : w.tree.isDir p with
  | false =>
    rw [tableWays, if_neg (by simp [hdir])]
    exact ⟨w.printed, rfl⟩
  | true =>
    refine exec_mapM_readResults hw (find_of_resolve hpath (lookup_of_isDir hdir)) ?_
    intro ws hws
    rw [tableWays, if_pos hdir] at hws
    obtain ⟨vs, name, rfl, -, hfile, -⟩ := exists_of_mem_sources hw.tree.toRegular hws
    exact ⟨vs, name, rfl, hfile⟩

/-! ## Joining the tables -/

variable (hw : w.Sound) (hpath : w.tree.resolve w.place path = .ok p)
include hw hpath

/-- `mergeResults` saves the tables below `path`. -/
theorem exec_mergeResults (output : String) : ∃ printed, (mergeResults path output).exec w
      = (saveMerged output (tablesBelow w.tree p)).exec { w with printed } := by
  let w' : Workspace :=
    { w with printed := (s!"Looking for CSV files in directory: {path}" ++ "\n") :: w.printed }
  have hw' : w'.Sound := ⟨hw.tree, hw.isAbsolute, hw.lookup_place⟩
  obtain ⟨paths, hfiles, hpaths⟩ := exec_filesBelow hw' hpath
  obtain ⟨printed, htables⟩ := exec_readTables hw' hpath
  rw [mergeResults, exec_bind_ok _ (exec_print _ w), exec_bind_ok _ hfiles, hpaths,
    exec_bind_ok _ htables, filterMap_map]
  exact ⟨printed, rfl⟩

/-- After `mergeResults` the overview is the tables below `path` as one table; it stays as it was if
there are none. -/
theorem exec_mergeResults_eq_ok {output : String} {o : Place} {x : Unit} {u : Workspace}
    (houtput : w.tree.find w.place output = .ok (o, .dir))
    (h : (mergeResults path output).exec w = (.ok x, u)) (q : Place) :
    u.tree.lookup q = if q = o ++ ["overview.csv"]
      then ((mergedText? w.tree p).map fun text => .file (.text text)).or (w.tree.lookup q)
      else w.tree.lookup q := by
  obtain ⟨printed, hexec⟩ := exec_mergeResults hw hpath output
  rw [hexec, saveMerged] at h
  rw [mergedText?]
  split at h
  · next hempty =>
    rw [if_pos hempty, Option.map_none, Option.none_or, ite_self]
    cases h
    rfl
  · next hempty =>
    rw [if_neg hempty, Option.map_some, Option.some_or]
    obtain ⟨t, hmake, hlookup, -⟩ :=
      exec_makeDirs_of_find (w := { w with printed }) hw.lookup_place houtput
    rw [exec_bind_ok _ hmake] at h
    obtain ⟨y, v, hwrite, hprint⟩ := exec_bind_eq_ok h
    have hname : IsName "overview.csv" := by decide
    have hresolve := resolve_join_of_find (find_dir_mono (hlookup _).trans houtput) hname
    have hslash := endsWith_slash_join output hname.1.1
    obtain ⟨-, -, rfl⟩ :=
      exec_writeText_eq_ok (w := Workspace.withTree { w with printed } t) hresolve hslash hwrite
    cases hprint
    exact (lookup_insert t (by simp) _ q).trans (by rw [hlookup])

omit hw hpath

/-- Below what is no directory there are no tables. -/
theorem tableWays_eq (h : t.Sound) (p : Place) :
    tableWays t p = t.sources isTable (fun _ => true) p (t.depth + 1) [] := by
  rw [tableWays]
  split
  · rfl
  · next hdir => exact (h.sources_of_not_isDir (by simpa using hdir) _).symm

/-- The same tables below `p` are joined to the same text. -/
theorem mergedText?_congr {t' : Tree} (h : t.Sound) (h' : t'.Sound)
    (hfiles : ∀ ws name, isTable name = true →
      t.file? (p ++ (ws ++ [name])) = t'.file? (p ++ (ws ++ [name]))) :
    mergedText? t p = mergedText? t' p := by
  have hsame : SameBelow isTable p t t' := h.sameBelow h' fun ws name hname => by
    rw [isFile_eq_isSome, isFile_eq_isSome, hfiles ws name hname]
  have hways : tableWays t p = tableWays t' p := by
    rw [tableWays_eq h, tableWays_eq h']
    exact hsame.sources_eq h.toRegular h'.toRegular (by omega) (by omega) fun _ _ _ => rfl
  have htables : tablesBelow t p = tablesBelow t' p := by
    rw [tablesBelow, tablesBelow, ← hways]
    refine filterMap_congr fun ws hws => ?_
    rw [tableWays_eq h] at hws
    obtain ⟨vs, name, rfl, hname, -⟩ := exists_of_mem_sources h.toRegular hws
    exact congrArg (bind · tableOf?) (hfiles vs name hname)
  rw [mergedText?, mergedText?, htables]

end Project

end SmellLint
