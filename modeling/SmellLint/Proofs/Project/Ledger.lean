import SmellLint.Project.Analysis
import SmellLint.Proofs.Workspace.Files

/-!
# The effects of analyzing a folder of projects

While the projects of a folder are analyzed, only a few things happen to the tree: the output folder
and its folder for details are made, a record is added to the file for errors, the results of a
project are saved, and a line is added to the log.  These are the effects (`Effect`); a workspace is
described by the effects that have led to it (`Scene.Rep`).

None of the effects changes what the analysis of a project reads, and none of them changes whether
another one can happen.  What a tree holds after some effects is what it held before, apart from the
places that were written (`Scene.Kept`).
-/

namespace SmellLint

open Analyzer List Path Run Text.Utf8 Tree

/-! ## Scenes -/

/-- The `analyzer` at work on the projects of the folder `base`, at the moment when its log is
there. -/
structure Scene where
  analyzer : Analyzer
  base : String
  start : Workspace
  basePlace : Place
  log : Entry
  sound : start.Sound
  found : start.tree.find start.place base = .ok (basePlace, .dir)
  started : start.tree.lookup (basePlace ++ ["execution_log.txt"]) = some log

/-- What can happen to the tree while projects are analyzed. -/
inductive Effect where
  /-- A folder is made, with the way to it, as far as possible. -/
  | make (path : String)
  /-- The file for errors is opened, and a record may be added to it. -/
  | note (record : Option String)
  /-- A file of results is written. -/
  | save (place : Place) (text : String)
  /-- A project is added to the log. -/
  | log (name : String)

/-- The project that an `Effect.log` adds. -/
def Effect.logged? : Effect → Option String
  | .log name => some name
  | _ => none

/-- The text that a file has after `writeTexts` has written `rows` to it, as far as that is
possible. -/
def Row.writtenCsv (rows : List Row) : String := String.join (writable (records rows))

namespace Scene

variable (s : Scene)

/-- The path of the folder for details. -/
def details : String := join s.analyzer.output "project_details"

def logPlace : Place := s.basePlace ++ ["execution_log.txt"]

def outputPlace : Place := reach (origin s.start.place s.analyzer.output) (names s.analyzer.output)

def errorPlace : Place := s.outputPlace ++ ["error.txt"]

def resultsName (name : String) : String := s!"{name}_results.csv"

def resultsPlace (name : String) : Place :=
  s.outputPlace ++ ["project_details"] ++ [resultsName name]

/-- The places on the way to `path`, as far as `makeDirs` can make them. -/
def dirsOf (path : String) : List Place := s.start.tree.way (origin s.start.place path) (names path)

/-- Whether `makeDirs path` succeeds. -/
def canMake (path : String) : Bool :=
  path != "" && s.start.tree.isClear (origin s.start.place path) (names path)

/-- What is at a place after an effect, if `f` says what was there before. -/
def apply (f : Place → Option Entry) : Effect → Place → Option Entry
  | .make path, q => if q ∈ s.dirsOf path then some ((f q).getD .dir) else f q
  | .note record, q =>
    if q = s.errorPlace then
      some (.file (record.elim (Entry.contentOf (f q)) (Entry.contentOf (f q)).append))
    else f q
  | .save p text, q => if q = p then some (.file (.text text)) else f q
  | .log name, q =>
    if q = s.logPlace then some (.file ((Entry.contentOf (f q)).append (name ++ "\n"))) else f q

/-- What is at a place after the effects `es`. -/
def after (es : List Effect) : Place → Option Entry := es.foldl s.apply s.start.tree.lookup

theorem after_append (es es' : List Effect) (q : Place) :
    s.after (es ++ es') q = es'.foldl s.apply (s.after es) q := by
  rw [after, foldl_append]
  rfl

/-- `p` is where the results of a project may be. -/
def IsResults (p : Place) : Prop := ∃ name, p = s.resultsPlace name ∧ IsName (resultsName name)

/-- An effect can happen: only the two folders are made, and nothing is written where a directory is
or will be. -/
def Allowed : Effect → Prop
  | .make path => path = s.analyzer.output ∨ path = s.details
  | .note _ => s.errorPlace ∉ s.dirsOf s.details ∧ s.start.tree.isDir s.errorPlace = false
  | .save p _ => s.IsResults p ∧ p ∉ s.dirsOf s.details ∧ s.start.tree.isDir p = false
  | .log _ => s.log.isDir = false

/-! ## Places -/

theorem isDir_logPlace : s.start.tree.isDir s.logPlace = s.log.isDir :=
  isDir_of_lookup s.started

theorem isPlain_details : IsPlain "project_details" := by decide

theorem names_details : names s.details = names s.analyzer.output ++ ["project_details"] :=
  names_join _ isPlain_details

theorem origin_details :
    origin s.start.place s.details = origin s.start.place s.analyzer.output := by
  rw [origin, origin, details, isAbsolute_join _ isPlain_details]

theorem reach_details : reach (origin s.start.place s.details) (names s.details)
      = s.outputPlace ++ ["project_details"] := by
  rw [origin_details, names_details, reach_append]
  exact step_of_isProper _ ⟨isPlain_details, by decide, by decide⟩

variable {q : Place} {path name : String} {f : Place → Option Entry} {w : Workspace}

/-- The way to `details` goes through the output folder. -/
theorem mem_dirsOf_details (h : q ∈ s.dirsOf s.analyzer.output) : q ∈ s.dirsOf s.details := by
  rw [dirsOf, origin_details, names_details, way_append]
  exact mem_append_left _ h

theorem mem_dirsOf_of_allowed (h : s.Allowed (.make path)) (hq : q ∈ s.dirsOf path) :
    q ∈ s.dirsOf s.details := by
  rcases h with rfl | rfl
  · exact s.mem_dirsOf_details hq
  · exact hq

/-- An effect may write to `q`. -/
def IsWritten (q : Place) : Prop := q = s.logPlace ∨ q = s.errorPlace ∨ s.IsResults q

/-! ## What effects leave as it is -/

/-- What `f` says is at places was there at the start, apart from folders that have been made and
files that have been written. -/
structure Kept (f : Place → Option Entry) : Prop where
  dir : ∀ {q : Place}, s.start.tree.lookup q = some .dir → f q = some .dir
  file : ∀ {q : Place} {c : Content}, s.start.tree.lookup q = some (.file c) →
    ∃ c', f q = some (.file c') ∧ (s.IsWritten q ∨ c' = c)
  new : ∀ {q : Place}, s.start.tree.lookup q = none →
    f q = none ∨ (f q = some .dir ∧ q ∈ s.dirsOf s.details) ∨
      ((∃ c, f q = some (.file c)) ∧ s.IsWritten q ∧ q ∉ s.dirsOf s.details)

theorem kept_start : s.Kept s.start.tree.lookup := ⟨id, fun h => ⟨_, h, .inr rfl⟩, .inl⟩

variable {s}

theorem Kept.make (h : s.Kept f) {dirs : List Place} (hdirs : ∀ q ∈ dirs, q ∈ s.dirsOf s.details) :
    s.Kept fun q => if q ∈ dirs then some ((f q).getD .dir) else f q where
  dir {q} hq := by
    rw [h.dir hq]
    split <;> rfl
  file {q c} hq := by
    obtain ⟨c', hc', hwritten⟩ := h.file hq
    refine ⟨c', ?_, hwritten⟩
    rw [hc']
    split <;> rfl
  new {q} hq := by
    by_cases hmem : q ∈ dirs
    · rw [if_pos hmem]
      rcases h.new hq with hf | ⟨hf, -⟩ | ⟨-, -, hnot⟩
      · exact .inr (.inl ⟨by rw [hf]; rfl, hdirs q hmem⟩)
      · exact .inr (.inl ⟨by rw [hf]; rfl, hdirs q hmem⟩)
      · exact absurd (hdirs q hmem) hnot
    · rw [if_neg hmem]
      exact h.new hq

theorem Kept.write (h : s.Kept f) {p : Place} (hp : s.IsWritten p)
    (hdir : s.start.tree.isDir p = false)
    (hnew : s.start.tree.lookup p = none → p ∉ s.dirsOf s.details) (content : Place → Content) :
    s.Kept fun q => if q = p then some (.file (content q)) else f q where
  dir {q} hq := by
    have hne : q ≠ p := by
      rintro rfl
      cases (isDir_of_lookup hq).symm.trans hdir
    rw [if_neg hne, h.dir hq]
  file {q c} hq := by
    by_cases heq : q = p
    · subst heq
      exact ⟨_, if_pos rfl, .inl hp⟩
    · rw [if_neg heq]
      exact h.file hq
  new {q} hq := by
    by_cases heq : q = p
    · subst heq
      rw [if_pos rfl]
      exact .inr (.inr ⟨⟨_, rfl⟩, hp, hnew hq⟩)
    · rw [if_neg heq]
      exact h.new hq

/-- An effect that is `Allowed` leaves what is `Kept`. -/
theorem Kept.apply (h : s.Kept f) {e : Effect} (he : s.Allowed e) : s.Kept (s.apply f e) := by
  cases e with
  | make path => exact h.make fun q hq => s.mem_dirsOf_of_allowed he hq
  | note record => exact h.write (.inr (.inl rfl)) he.2 (fun _ => he.1) _
  | save p text => exact h.write (.inr (.inr he.1)) he.2.2 (fun _ => he.2.1) _
  | log name =>
    refine h.write (.inl rfl) (s.isDir_logPlace.trans he) (fun hnone => ?_) _
    rw [logPlace, s.started] at hnone
    cases hnone

variable {es : List Effect}

theorem kept_after (hes : ∀ e ∈ es, s.Allowed e) : s.Kept (s.after es) := by
  have hrun : ∀ (es : List Effect) (f : Place → Option Entry), (∀ e ∈ es, s.Allowed e) →
      s.Kept f → s.Kept (es.foldl s.apply f) := by
    intro es
    induction es with
    | nil => exact fun _ _ h => h
    | cons e es ih =>
      intro f hes h
      obtain ⟨he, hes⟩ := forall_mem_cons.1 hes
      exact ih _ hes (h.apply he)
  exact hrun es _ hes s.kept_start

/-- The tree of `w` is what the effects `es` have made of the one at the start. -/
structure Rep (s : Scene) (es : List Effect) (w : Workspace) : Prop where
  cwd_eq : w.cwd = s.start.cwd
  regular : w.tree.Regular
  lookup_eq : ∀ q, w.tree.lookup q = s.after es q
  allowed : ∀ e ∈ es, s.Allowed e

theorem rep_start : s.Rep [] s.start :=
  ⟨rfl, s.sound.tree.toRegular, fun _ => rfl, forall_mem_nil _⟩

theorem Rep.place_eq (h : s.Rep es w) : w.place = s.start.place := congrArg Path.names h.cwd_eq

theorem Rep.kept (h : s.Rep es w) : s.Kept w.tree.lookup := by
  rw [show w.tree.lookup = s.after es from funext h.lookup_eq]
  exact kept_after h.allowed

theorem Rep.lookup_place (h : s.Rep es w) : w.tree.lookup w.place = some .dir := by
  rw [h.place_eq]
  exact h.kept.dir s.sound.lookup_place

theorem Rep.add (h : s.Rep es w) {e : Effect} (he : s.Allowed e) {t : Tree} (ht : t.Regular)
    (hlookup : ∀ q, t.lookup q = s.apply w.tree.lookup e q) : s.Rep (es ++ [e]) (w.withTree t) where
  cwd_eq := h.cwd_eq
  regular := ht
  lookup_eq q := by
    rw [s.after_append, ← funext h.lookup_eq]
    exact hlookup q
  allowed := forall_mem_append.2 ⟨h.allowed, by simpa using he⟩

theorem Rep.of_printed (h : s.Rep es w) (lines : List String) :
    s.Rep es { w with printed := lines } := ⟨h.cwd_eq, h.regular, h.lookup_eq, h.allowed⟩

/-! ## Making the folders -/

theorem Kept.isFile (h : s.Kept f) {t : Tree} (ht : ∀ q, t.lookup q = f q)
    (hq : s.start.tree.isFile q = true) :
    t.isFile q = true := by
  obtain ⟨c, hc⟩ := exists_of_isFile hq
  obtain ⟨c', hc', -⟩ := h.file hc
  exact isFile_of_lookup ((ht q).trans hc')

/-- No file gets in the way of `details`. -/
theorem Rep.isFile_of_mem_dirsOf (h : s.Rep es w) (hq : q ∈ s.dirsOf s.details) :
    w.tree.isFile q = false := by
  rw [Tree.isFile]
  rcases lookup_of_isFile_eq_false (isFile_of_mem_way hq) with hnone | hdir
  · rcases h.kept.new hnone with hl | ⟨hl, -⟩ | ⟨-, -, hnot⟩
    · rw [hl]
      rfl
    · rw [hl]
      rfl
    · exact absurd hq hnot
  · rw [h.kept.dir hdir]
    rfl

theorem emits_makeDirs (hpath : s.Allowed (.make path)) :
    Emits s.Rep (makeDirs path) (if s.canMake path then some () else none) [.make path] := by
  intro es w h
  obtain ⟨x, t, hexec, ht, hx⟩ := exec_makeDirs path h.lookup_place
  have hway : w.tree.way (origin w.place path) (names path) = s.dirsOf path ∧
      w.tree.isClear (origin w.place path) (names path)
        = s.start.tree.isClear (origin s.start.place path) (names path) := by
    rw [h.place_eq]
    refine way_eq_of (fun q hq => h.kept.isFile (fun _ => rfl) hq) fun q hq => ?_
    exact h.isFile_of_mem_dirsOf (s.mem_dirsOf_of_allowed hpath hq)
  rw [hway.1] at ht
  rw [hway.2] at hx
  rw [hexec]
  refine ⟨?_, h.add hpath (ht.regular h.regular) ht.lookup_eq⟩
  rw [hx, canMake]
  simp

theorem Rep.lookup_made (h : s.Rep (es ++ [.make path]) w) (hq : q ∈ s.dirsOf path) :
    w.tree.lookup q = some .dir := by
  have hpath : s.Allowed (.make path) := h.allowed _ (mem_append_right es mem_cons_self)
  rcases lookup_of_isFile_eq_false
    (h.isFile_of_mem_dirsOf (s.mem_dirsOf_of_allowed hpath hq)) with hnone | hdir
  · rw [h.lookup_eq, s.after_append, foldl_cons, foldl_nil, apply, if_pos hq] at hnone
    cases hnone
  · exact hdir

theorem Rep.open_made (h : s.Rep (es ++ [.make path]) w) (hcan : s.canMake path = true) :
    w.tree.Open (origin w.place path) (names path) := by
  rw [canMake, Bool.and_eq_true] at hcan
  rw [h.place_eq]
  exact open_of_isClear hcan.2 (h.kept.dir (s.sound.lookup_origin path))
    fun q hq => h.lookup_made hq

theorem accepted_of_canMake (h : s.canMake path = true) : Accepted path := by
  rw [canMake, Bool.and_eq_true] at h
  exact accepted_of_names (accepted_of_isClear h.2)

theorem mem_dirsOf_details_iff (hq : q ∈ s.dirsOf s.details) :
    q ∈ s.dirsOf s.analyzer.output ∨ q = s.outputPlace ++ ["project_details"] := by
  rw [dirsOf, names_details, origin_details, way_concat, nextPlace] at hq
  rcases mem_append.1 hq with hq | hq
  · exact .inl hq
  · split at hq
    · rw [mem_singleton.1 hq, step_of_isProper]
      · exact .inr rfl
      · exact ⟨isPlain_details, by decide, by decide⟩
    · cases hq

/-- A place `q` that is not made a directory is one if it was one at the start. -/
theorem Rep.isDir_eq_start (h : s.Rep es w)
    (hq : q ∈ s.dirsOf s.details → s.start.tree.isDir q = true) :
    w.tree.isDir q = s.start.tree.isDir q := by
  cases hl : s.start.tree.lookup q with
  | none =>
    have hdir : s.start.tree.isDir q = false := isDir_of_lookup hl
    rw [hdir]
    rcases h.kept.new hl with hn | ⟨-, hmem⟩ | ⟨⟨c, hn⟩, -⟩
    · exact isDir_of_lookup hn
    · rw [hq hmem] at hdir
      cases hdir
    · exact isDir_of_lookup hn
  | some e =>
    rw [isDir_of_lookup hl]
    cases e with
    | dir => exact isDir_of_lookup (h.kept.dir hl)
    | file c =>
      obtain ⟨c', hc', -⟩ := h.kept.file hl
      rw [isDir_of_lookup hc']
      rfl

/-- Once `path` has been made, whether `q` is a directory is settled by the start. -/
theorem Rep.isDir_eq (h : s.Rep (es ++ [.make path]) w)
    (hq : q ∈ s.dirsOf s.details → q ∈ s.dirsOf path) :
    w.tree.isDir q = (decide (q ∈ s.dirsOf path) || s.start.tree.isDir q) := by
  by_cases hmem : q ∈ s.dirsOf path
  · rw [Tree.isDir, h.lookup_made hmem]
    simp [hmem, Entry.isDir]
  · rw [decide_eq_false hmem]
    exact h.isDir_eq_start fun hdetails => absurd (hq hdetails) hmem

/-! ## Writing below a folder -/

/-- Whether `p`, below `path`, is or will be a directory. -/
def isBlocked (s : Scene) (path : String) (p : Place) : Bool :=
  decide (p ∈ s.dirsOf path) || s.start.tree.isDir p

/-- Whether the file `name` can be written below `path`: the folder can be made, a file can have the
name, and its place `p` is no directory. -/
def canWrite (s : Scene) (path name : String) (p : Place) : Bool :=
  s.canMake path && decide (IsName name) && !s.isBlocked path p

/-- `makeDirs path` and then `r`, which writes `name` below it, do the same whatever happened
before, if `r` does once it is clear where the file is and that it is no directory. -/
theorem emits_below {r : Run Unit} {p : Place} {x : Option Unit} {es' : List Effect}
    (hpath : s.Allowed (.make path)) (hname : IsProper name ∧ Accepted name)
    (hp : reach (origin s.start.place path) (names path) ++ [name] = p)
    (hdirs : p ∈ s.dirsOf s.details → p ∈ s.dirsOf path)
    (herror : ∀ w f, w.tree.resolve w.place (join path name) = .error f → r.exec w = (.error f, w))
    (hdir : ∀ w, w.tree.resolve w.place (join path name) = .ok p → w.tree.isDir p = true →
      ∃ f, r.exec w = (.error f, w))
    (hfree : IsName name → s.isBlocked path p = false →
      ∀ es w, s.Rep es w → w.tree.resolve w.place (join path name) = .ok p →
        w.tree.isDir p = false →
        (r.exec w).1.toOption = x ∧ s.Rep (es ++ es') (r.exec w).2) :
    Emits s.Rep (makeDirs path >>= fun _ => r) (if s.canWrite path name p then x else none)
      ([.make path] ++ if s.canWrite path name p then es' else []) := by
  have hmade := emits_makeDirs hpath
  -- writing that fails changes nothing, so it has no effects of its own
  have hfail : ∀ es w, s.Rep es w → (∃ f, r.exec w = (.error f, w)) →
      (r.exec w).1.toOption = none ∧ s.Rep (es ++ []) (r.exec w).2 := by
    rintro es w h ⟨f, hf⟩
    rw [hf, append_nil]
    exact ⟨rfl, h⟩
  rw [canWrite]
  cases hcan : s.canMake path with
  | false =>
    rw [hcan] at hmade
    exact hmade.bind_none
  | true =>
    rw [hcan] at hmade
    refine hmade.bind_after fun es w h => ?_
    have haccepted := accepted_of_canMake hcan
    by_cases hisName : IsName name
    · have hresolve : w.tree.resolve w.place (join path name) = .ok p := by
        rw [(h.open_made hcan).resolve_join haccepted hisName, h.place_eq, hp]
      have hisDir := h.isDir_eq hdirs
      rw [decide_eq_true hisName]
      cases hblocked : s.isBlocked path p with
      | true => exact hfail _ w h (hdir w hresolve (hisDir.trans hblocked))
      | false => exact hfree hisName hblocked _ w h hresolve (hisDir.trans hblocked)
    · -- a name that is too long leads nowhere
      have hlen : maxNameBytes < nameBytes name :=
        Nat.lt_of_not_le fun hlen => hisName ⟨hname.1, hlen, hname.2⟩
      obtain ⟨f, hf⟩ := (h.open_made hcan).resolve_join_of_lt haccepted hname.1 hname.2 hlen
      rw [decide_eq_false hisName]
      exact hfail _ w h ⟨f, herror w f hf⟩

/-! ## Noting a failure -/

/-- `text` is the record of a file that could not be analyzed. -/
def IsRecord (text : String) : Prop := ∃ path e, text = failureRecord path e

/-- Effects of `Analyzer.noteFailure`. -/
def IsNoting : Effect → Prop
  | .make _ => True
  | .note record => ∀ text, record = some text → IsRecord text
  | _ => False

theorem isName_error : IsName "error.txt" := by decide

/-- `errorPlace` is not on the way from the output folder to `details`. -/
theorem errorPlace_mem_dirsOf (h : s.errorPlace ∈ s.dirsOf s.details) :
    s.errorPlace ∈ s.dirsOf s.analyzer.output := by
  rcases mem_dirsOf_details_iff h with hmem | heq
  · exact hmem
  · obtain ⟨-, heq⟩ := append_inj' heq rfl
    simp at heq

theorem allowed_note (h : s.isBlocked s.analyzer.output s.errorPlace = false)
    (record : Option String) : s.Allowed (.note record) := by
  rw [isBlocked, Bool.or_eq_false_iff, decide_eq_false_iff_not] at h
  exact ⟨fun hmem => h.1 (errorPlace_mem_dirsOf hmem), h.2⟩

/-- Adding a `record` to the file for errors does the same whatever happened before. -/
theorem steady_note (s : Scene) {record : String} (hrecord : IsRecord record) :
    Steady s.Rep IsNoting (makeDirs s.analyzer.output >>= fun _ =>
      appendText s.analyzer.errorPath record) := by
  have hslash := endsWith_slash_join s.analyzer.output isName_error.1.1
  have hne : s.errorPlace ≠ [] := by simp [errorPlace]
  -- a record that cannot be written still makes the file
  obtain ⟨x, kept, hkept, hexec⟩ : ∃ (x : Option Unit) (kept : Option String),
      (∀ text, kept = some text → IsRecord text) ∧ ∀ w : Workspace,
        w.tree.resolve w.place _ = .ok s.errorPlace →
        w.tree.isDir s.errorPlace = false → w.tree.Regular →
        ∃ y t, (appendText s.analyzer.errorPath record).exec w = (y, w.withTree t) ∧
          y.toOption = x ∧ t.Regular ∧ ∀ q, t.lookup q = s.apply w.tree.lookup (.note kept) q := by
    cases htext : encodeFault? record with
    | none =>
      refine ⟨some (), some record, by rintro _ ⟨⟩; exact hrecord, fun w hresolve hdir hw => ?_⟩
      refine ⟨_, _, exec_appendText hresolve hdir hslash htext, rfl, hw.insert hne _, fun q => ?_⟩
      rw [lookup_insert _ hne, apply]
      split
      · next hq => rw [hq]; rfl
      · rfl
    | some fault =>
      refine ⟨none, none, by rintro _ ⟨⟩, fun w hresolve hdir hw => ?_⟩
      obtain ⟨t, hexec, hregular, ht⟩ := exec_appendText_of_fault hresolve hdir hslash htext
      refine ⟨_, t, hexec, rfl, hregular hw, fun q => ?_⟩
      rw [ht, apply]
      split
      · next hq => rw [hq]; rfl
      · rfl
  refine ⟨_, [.make s.analyzer.output] ++
      if s.canWrite s.analyzer.output "error.txt" s.errorPlace then [.note kept] else [], ?_,
    emits_below (x := x) (r := appendText s.analyzer.errorPath record) (.inl rfl)
      ⟨isName_error.1, isName_error.2.2⟩ rfl errorPlace_mem_dirsOf
      (fun w f hresolve => exec_appendText_of_error hresolve record) ?_ ?_⟩
  · split
    · simpa [IsNoting] using hkept
    · simp [IsNoting]
  · intro w hresolve hdir
    exact ⟨_, exec_appendText_of_isDir hresolve (lookup_of_isDir hdir) record⟩
  · intro _ hblocked es w h hresolve hdir
    obtain ⟨y, t, hexec, hy, ht, hlookup⟩ := hexec w hresolve hdir h.regular
    rw [hexec]
    exact ⟨hy, h.add (allowed_note hblocked _) ht hlookup⟩

/-! ## Saving results -/

/-- Whether the results of the project `name` can be saved. -/
def canSave (s : Scene) (name : String) : Bool :=
  s.canWrite s.details (resultsName name) (s.resultsPlace name)

theorem isProper_resultsName (h : '/' ∉ name.toList) :
    IsProper (resultsName name) ∧ (Accepted name → Accepted (resultsName name)) := by
  have hname : (resultsName name).toList = name.toList ++ "_results.csv".toList :=
    String.toList_append
  have hmem : '_' ∈ (resultsName name).toList := by
    rw [hname]
    exact mem_append_right _ (by decide)
  refine ⟨⟨⟨?_, ?_⟩, ?_, ?_⟩, ?_⟩
  · intro heq
    rw [heq] at hmem
    simp at hmem
  · rw [hname, mem_append, not_or]
    exact ⟨h, by decide⟩
  · intro heq
    rw [heq] at hmem
    revert hmem
    decide
  · intro heq
    rw [heq] at hmem
    revert hmem
    decide
  · exact fun haccepted => accepted_append.2 ⟨haccepted, by decide⟩

/-- Saving the `rows` of a project does the same whatever happened before. -/
theorem exists_emits_saveRows (s : Scene) (hname : '/' ∉ name.toList ∧ Accepted name)
    (rows : List Row) :
    ∃ x, Emits s.Rep (makeDirs s.details >>= fun _ =>
        writeTexts (join s.details (resultsName name)) (Row.records rows)) x
      ([.make s.details] ++ if s.canSave name
        then [.save (s.resultsPlace name) (Row.writtenCsv rows)] else []) := by
  obtain ⟨hproper, haccepted⟩ := isProper_resultsName hname.1
  have hslash := endsWith_slash_join s.details hproper.1
  have hne : s.resultsPlace name ≠ [] := by simp [resultsPlace]
  have htext : encodeFault? (Row.writtenCsv rows) = none := encodeFault?_join_writable _
  have hwrite : Emits s.Rep (makeDirs s.details >>= fun _ =>
        writeText (join s.details (resultsName name)) (Row.writtenCsv rows))
      (if s.canSave name then some () else none) ([.make s.details] ++ if s.canSave name
        then [.save (s.resultsPlace name) (Row.writtenCsv rows)] else []) := by
    refine emits_below (.inr rfl) ⟨hproper, haccepted hname.2⟩
      (by rw [reach_details, resultsPlace]) id
      (fun w f hresolve => exec_writeText_of_error hresolve _)
      (fun w hresolve hdir => ⟨_, exec_writeText_of_isDir hresolve hdir _⟩) ?_
    intro hisName hblocked es w h hresolve hdir
    rw [isBlocked, Bool.or_eq_false_iff, decide_eq_false_iff_not] at hblocked
    rw [exec_writeText hresolve hdir hslash htext]
    have hallowed : s.Allowed (.save (s.resultsPlace name) (Row.writtenCsv rows)) :=
      ⟨⟨name, rfl, hisName⟩, hblocked⟩
    exact ⟨rfl, h.add hallowed (h.regular.insert hne _) (lookup_insert _ hne _)⟩
  simp only [writeTexts]
  rw [← bind_assoc]
  cases hsave : s.canSave name <;> rw [hsave] at hwrite
  · exact ⟨none, hwrite.bind_none⟩
  · cases (Row.records rows).findSome? encodeFault? with
    | none => exact ⟨some (), hwrite.bind (.pure ())⟩
    | some fault => exact ⟨none, hwrite.bind (.throw _)⟩

/-! ## The log -/

theorem isName_log : IsName "execution_log.txt" := by decide

/-- The folder `base` is where it was. -/
theorem Rep.find_base (h : s.Rep es w) : w.tree.find w.place s.base = .ok (s.basePlace, .dir) := by
  rw [h.place_eq]
  exact find_dir_mono h.kept.dir s.found

theorem Rep.resolve_base (h : s.Rep es w) (hname : IsName name) :
    w.tree.resolve w.place (join s.base name) = .ok (s.basePlace ++ [name]) :=
  resolve_join_of_find h.find_base hname

/-- Whether a line for the project `name` can be written. -/
def isLoggable (s : Scene) (name : String) : Bool :=
  !s.log.isDir && (encodeFault? (name ++ "\n")).isNone

/-- The effects of adding the project `name` to the log. -/
def logEffects (s : Scene) (name : String) : List Effect :=
  if s.isLoggable name then [.log name] else []

/-- The project `name` is added to the log if it `isLoggable`. -/
theorem emits_log (s : Scene) (name : String) :
    Emits s.Rep (appendText (logPath s.base) (name ++ "\n"))
      (if s.isLoggable name then some () else none) (s.logEffects name) := by
  intro es w h
  have hresolve : w.tree.resolve w.place (logPath s.base) = .ok s.logPlace :=
    h.resolve_base isName_log
  have hslash := endsWith_slash_join s.base isName_log.1.1
  have hne : s.logPlace ≠ [] := by simp [logPlace]
  have hstart : s.start.tree.lookup s.logPlace = some s.log := s.started
  rw [logEffects, isLoggable]
  cases hlog : s.log with
  | dir =>
    rw [hlog] at hstart
    rw [exec_appendText_of_isDir hresolve (h.kept.dir hstart)]
    exact ⟨rfl, by simpa [Entry.isDir] using h⟩
  | file c =>
    rw [hlog] at hstart
    obtain ⟨c', hc', -⟩ := h.kept.file hstart
    have hdir : w.tree.isDir s.logPlace = false := isDir_of_lookup hc'
    cases htext : encodeFault? _ with
    | none =>
      rw [exec_appendText hresolve hdir hslash htext]
      refine ⟨rfl, h.add (e := .log name) ?_ (h.regular.insert hne _) fun q => ?_⟩
      · rw [Allowed, hlog]
        rfl
      · rw [lookup_insert _ hne, apply]
        split
        · next hq => rw [hq]
        · rfl
    | some fault =>
      -- the log is there already, so opening it is no effect
      obtain ⟨t, hexec, hregular, ht⟩ := exec_appendText_of_fault hresolve hdir hslash htext
      rw [hexec]
      refine ⟨rfl, ?_⟩
      rw [if_neg (by simp), append_nil]
      refine ⟨h.cwd_eq, hregular h.regular, fun q => ?_, h.allowed⟩
      rw [← h.lookup_eq]
      refine (ht q).trans ?_
      split
      · next hq => rw [hq, hc']; rfl
      · rfl

end Scene

end SmellLint
