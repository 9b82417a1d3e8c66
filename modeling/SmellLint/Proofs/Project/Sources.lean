import Mathlib.Data.List.Basic
import SmellLint.Project.Files
import SmellLint.Proofs.Workspace.Files
import SmellLint.Proofs.Workspace.Visits

/-!
# The files of a project

Which files are analyzed for a path (`Project.exec_sourceFiles`), and where they lie: the path of
each of them, from the root, leads to a file (`Project.exists_of_mem_sourcesAt`), so that it can be
read.  Those of a directory are all that are there, in order (`Project.sourceFiles_of_dir`).
-/

namespace SmellLint

open List Path Run Tree

namespace Project

/-! ## Finding the files -/

/-- The ways from `p` to the files that are analyzed. -/
def sourceWays (t : Tree) (p : Place) : List (List String) :=
  t.sources isSource (fun d => !isSkippedDir d) p (t.depth + 1) []

variable {p : Place} {path : String} {w : Workspace} {c : Content}

/-- The files that are analyzed for `path`, as it leads to a directory, to a file or nowhere. -/
def sourcesAt (w : Workspace) (path : String) : Except Fault (List String) :=
  match w.tree.find w.place path with
  | .ok (p, .dir) => .ok ((sourceWays w.tree p).map fun ws =>
      absolute w.cwd (joinAll path ws))
  | .ok (_, .file _) => .ok (if isSource path then [path] else [])
  | .error e => if e.isRefusal then .error e else .ok []

theorem sourcesAt_of_dir (h : w.tree.find w.place path = .ok (p, .dir)) :
    sourcesAt w path = .ok ((sourceWays w.tree p).map fun ws =>
      absolute w.cwd (joinAll path ws)) := by
  rw [sourcesAt, h]

theorem exec_dirAt? (h : w.tree.find w.place path = .ok (p, .dir)) :
    (dirAt? path).exec w = (.ok (some p), w) := by
  rw [dirAt?, exec_bind_ok _ (exec_outcome _ w), exec_find, h]
  rfl

theorem exec_visits_of_dir (enter : String → Bool) (h : w.tree.find w.place path = .ok (p, .dir)) :
    (visits path enter).exec w = (.ok (w.tree.visitFrom enter p (w.tree.depth + 1) []), w) := by
  have hdir : w.tree.isDir p = true := isDir_of_lookup (resolve_of_find h).2
  rw [visits, exec_bind_ok _ (exec_dirAt? h), exec_bind_ok _ (exec_get w), visit, if_pos hdir]
  rfl

theorem exec_visits_of_file (enter : String → Bool)
    (h : w.tree.find w.place path = .ok (p, .file c)) :
    (visits path enter).exec w = (.ok [], w) := by
  have hdirAt : (dirAt? path).exec w = (.ok none, w) := by
    rw [dirAt?, exec_bind_ok _ (exec_outcome _ w), exec_find, h]
    rfl
  exact exec_bind_ok _ hdirAt

/-- `visits` finds nothing where nothing is; only a path that is none is refused. -/
theorem exec_visits_of_error {e : Fault} (enter : String → Bool)
    (h : w.tree.find w.place path = .error e) :
    (visits path enter).exec w = (if e.isRefusal then .error e else .ok [], w) := by
  have hdirAt : (dirAt? path).exec w
      = (if e.isRefusal then .error e else .ok none, w) := by
    rw [dirAt?, exec_bind_ok _ (exec_outcome _ w), exec_find, h]
    cases e <;> rfl
  cases hrefused : e.isRefusal with
  | true =>
    rw [hrefused] at hdirAt
    exact exec_bind_error _ hdirAt
  | false =>
    rw [hrefused] at hdirAt
    exact exec_bind_ok _ hdirAt

/-- `sourceFiles` gives `sourcesAt` without changing anything. -/
theorem exec_sourceFiles (path : String) (w : Workspace) :
    (sourceFiles path).exec w = (sourcesAt w path, w) := by
  rw [sourceFiles, exec_bind_ok _ (exec_isFile path w), sourcesAt]
  cases hfind : w.tree.find w.place path with
  | ok found =>
    obtain ⟨p, e⟩ := found
    cases e with
    | dir =>
      dsimp only
      rw [if_neg (by simp [Except.toOption, Entry.isDir]),
        exec_bind_ok _ (exec_visits_of_dir _ hfind), exec_bind_ok _ (exec_get w),
        exec_pure, sourceWays, sources, map_flatMap]
      simp [Function.comp_def]
    | file c =>
      cases isSource path with
      | true => rfl
      | false => exact exec_bind_ok _ (exec_visits_of_file _ hfind)
  | error e =>
    have hvisits := exec_visits_of_error (fun d => !isSkippedDir d) hfind
    rw [if_neg (by simp [Except.toOption])]
    cases hrefused : e.isRefusal with
    | true =>
      rw [hrefused] at hvisits
      refine (exec_bind_error _ hvisits).trans ?_
      simp [hrefused]
    | false =>
      rw [hrefused] at hvisits
      refine (exec_bind_ok _ hvisits).trans ?_
      simp only [hrefused]
      rfl

/-! ## Where the files lie -/

/-- `path` leads, from the root, to the file `name` in `p`, which holds `c` and is analyzed. -/
structure IsSourceAt (w : Workspace) (path : String) (p : Place) (name : String) (c : Content) :
    Prop where
  isPathTo : IsPathTo (absolute w.cwd path) (p ++ [name])
  lookup_eq : w.tree.lookup (p ++ [name]) = some (.file c)
  isSource : isSource name = true

variable {f : String} {files : List String}

theorem isProper_of_isSource {name : String} (hplain : IsPlain name)
    (h : isSource name = true) : IsProper name := by
  refine ⟨hplain, ?_, ?_⟩
  · rintro rfl
    revert h
    decide
  · rintro rfl
    revert h
    decide

/-- A `path` that leads to a file leads there through directories. -/
theorem isSourceAt_of_find (hw : w.Sound) {q : Place}
    (hfind : w.tree.find w.place path = .ok (q, .file c)) (hsource : isSource path = true) :
    ∃ p name, IsSourceAt w path p name c := by
  obtain ⟨ms, name, hnames, hname⟩ := exists_names_of_endsWith (by decide) hsource
  have hplain : IsPlain name :=
    isPlain_of_mem_names (hnames ▸ mem_append_right ms mem_cons_self)
  have hproper := isProper_of_isSource hplain hname
  obtain ⟨hresolve, hlookup⟩ := resolve_of_find hfind
  have hlead := lead_of_resolve hresolve
  rw [lead_eq _ _ (usable_of_lead hlead), hnames] at hlead
  obtain ⟨-, hq⟩ := open_of_follow_concat hproper hlead
  have hplace : w.placeOf path = q := by
    rw [Workspace.placeOf, hnames, reach_append, hq]
    exact step_of_isProper _ hproper
  have hto := hw.isPathTo path
  rw [hplace, hq] at hto
  rw [hq] at hlookup
  exact ⟨_, name, hto, hlookup, hname⟩

variable {ws : List String}

/-- The path of what is among `sourceWays` leads to its place. -/
theorem placeOf_of_mem_sourceWays (hw : w.Sound) {q : Place}
    (hfind : w.tree.find w.place path = .ok (q, .dir))
    (hws : ws ∈ sourceWays w.tree q) :
    (∀ n ∈ q ++ ws, IsProper n) ∧ w.placeOf (joinAll path ws) = q ++ ws := by
  obtain ⟨-, -, -, -, hfile, -⟩ := exists_of_mem_sources hw.tree.toRegular hws
  obtain ⟨c, hc⟩ := exists_of_isFile hfile
  have hproper : ∀ n ∈ q ++ ws, IsProper n := fun n hn => (hw.tree.isName hc n hn).1
  refine ⟨hproper, ?_⟩
  rw [w.placeOf_joinAll path fun n hn => hproper n (mem_append_right q hn),
    (find_eq_dir_iff.1 hfind).2.2]
  rfl

/-- What is among `sourceWays` is there. -/
theorem isSourceAt_of_mem_sourceWays (hw : w.Sound) {q : Place}
    (hfind : w.tree.find w.place path = .ok (q, .dir))
    (hws : ws ∈ sourceWays w.tree q) :
    ∃ p name c, q ++ ws = p ++ [name] ∧
      IsSourceAt w (absolute w.cwd (joinAll path ws)) p name c := by
  obtain ⟨vs, name, hvs, hsource, hfile, -⟩ := exists_of_mem_sources hw.tree.toRegular hws
  obtain rfl : ws = vs ++ [name] := hvs
  obtain ⟨c, hc⟩ := exists_of_isFile hfile
  obtain ⟨hproper, hplace⟩ := placeOf_of_mem_sourceWays hw hfind hws
  -- the path of the file leads to its place, and so does the path from the root
  have hto := hw.isPathTo (absolute w.cwd (joinAll path (vs ++ [name])))
  rw [hw.placeOf_absolute (by rw [hplace]; exact hproper), hplace, ← append_assoc] at hto
  rw [← append_assoc] at hc
  exact ⟨q ++ vs, name, c, (append_assoc ..).symm, hto, hc, hsource⟩

/-! ## The files of a directory -/

/-- The files that are analyzed for `path` are there. -/
theorem exists_of_mem_sourcesAt (hw : w.Sound) (h : sourcesAt w path = .ok files) (hf : f ∈ files) :
    ∃ p name c, IsSourceAt w f p name c := by
  rw [sourcesAt] at h
  split at h
  · next q hfind =>
    cases h
    obtain ⟨ws, hws, rfl⟩ := mem_map.1 hf
    obtain ⟨p, name, c, -, hat⟩ := isSourceAt_of_mem_sourceWays hw hfind hws
    exact ⟨p, name, c, hat⟩
  · next q c hfind =>
    cases h
    split at hf
    · next hsource =>
      obtain rfl := mem_singleton.1 hf
      obtain ⟨p, name, hat⟩ := isSourceAt_of_find hw hfind hsource
      exact ⟨p, name, c, hat⟩
    · cases hf
  · split at h
    · cases h
    · cases h
      cases hf

/-- `readText` gives the text of a file that is analyzed in any workspace `v` that has what is
there. -/
theorem IsSourceAt.exec_readText (hw : w.Sound) {name : String} (h : IsSourceAt w f p name c)
    {v : Workspace} (hdirs : ∀ q, w.tree.lookup q = some .dir → v.tree.lookup q = some .dir)
    (hfile : v.tree.lookup (p ++ [name]) = some (.file c)) :
    (readText (absolute w.cwd f)).exec v = (c.readText, v) := by
  have hopen : v.tree.Open [] p :=
    (hw.tree.open_of_lookup (hw.tree.parent h.lookup_eq)).mono hdirs
  exact exec_readText_of_file
    (hopen.find_of_isPathTo (hw.tree.isName h.lookup_eq) hfile h.isPathTo v.place)

end Project

end SmellLint
