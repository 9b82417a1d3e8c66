import SmellLint.Proofs.Project.Folder

/-!
# Inspecting the files of a project

A file that is missing or no program is noted in the file for errors and has no rows.  This changes
nothing that the inspection of the other files reads (`Analyzer.Noted`), so each file gives what it
gives alone, up to the first that fails in another way (`Analyzer.exec_inspectAll`).
-/

namespace SmellLint

open List Path Project Run Scene Tree

/-- Whether a fault is noted: a file is missing or no program. -/
def Fault.isInFile : Fault → Bool
  | .inFile _ _ => true
  | _ => false

namespace Analyzer

/-! ## What files add to the rows -/

/-- What inspecting `f` gives. -/
def found (a : Analyzer) (w : Workspace) (f : String) : Except Fault (List Row) :=
  ((a.inspect f).exec w).1

/-- The rows that a file adds to those of its project, by what inspecting it gives: none, if it is
missing or no program. -/
def addedRows : Except Fault (List Row) → Except Fault (List Row)
  | .ok rows => .ok rows
  | .error e => if e.isInFile then .ok [] else .error e

/-- The record that `f` adds to the file for errors, by what inspecting it gives. -/
def addedRecord (f : String) : Except Fault (List Row) → List String
  | .ok _ => []
  | .error e => if e.isInFile then [failureRecord f e] else []

/-- The rows that `f` adds to those of its project. -/
def rowsOf (a : Analyzer) (w : Workspace) (f : String) : Except Fault (List Row) :=
  addedRows (a.found w f)

/-- The record that `f` adds to the file for errors. -/
def recordOf (a : Analyzer) (w : Workspace) (f : String) : List String :=
  addedRecord f (a.found w f)

/-- `w` is sound and has the output folder of `a`. -/
structure HasOutput (a : Analyzer) (w : Workspace) : Prop where
  sound : w.Sound
  find_output : w.tree.find w.place a.output = .ok (w.placeOf a.output, .dir)

/-- The record of `f`, if it has one, can be added to the file for errors. -/
def CanNote (a : Analyzer) (w : Workspace) (f : String) : Prop :=
  ∀ record ∈ a.recordOf w f, w.tree.isDir (w.placeOf a.errorPath) = false ∧
    Text.Utf8.encodeFault? record = none

/-! ## Workspaces with records -/

/-- `v` differs from `w` at most in the file for errors. -/
structure OnlyErrors (a : Analyzer) (w v : Workspace) : Prop where
  cwd_eq : v.cwd = w.cwd
  regular : v.tree.Regular
  isDir_eq : v.tree.isDir (w.placeOf a.errorPath) = w.tree.isDir (w.placeOf a.errorPath)
  lookup_eq : ∀ q, q ≠ w.placeOf a.errorPath → v.tree.lookup q = w.tree.lookup q

/-- `v` is `w` after `records` have been added to the file for errors. -/
structure Noted (a : Analyzer) (w : Workspace) (records : List String) (v : Workspace) : Prop
    extends OnlyErrors a w v where
  lookup_error : v.tree.lookup (w.placeOf a.errorPath) = if records = []
    then w.tree.lookup (w.placeOf a.errorPath)
    else some (.file (withRecords
      (Entry.contentOf (w.tree.lookup (w.placeOf a.errorPath))) records))

variable {a : Analyzer} {w v : Workspace} {records : List String} {f : String}

theorem HasOutput.noted (ho : a.HasOutput w) : a.Noted w [] w :=
  ⟨⟨rfl, ho.sound.tree.toRegular, rfl, fun _ _ => rfl⟩, by rw [if_pos rfl]⟩

theorem placeOf_errorPath (a : Analyzer) (w : Workspace) :
    w.placeOf a.errorPath = w.placeOf a.output ++ ["error.txt"] :=
  w.placeOf_join _ isName_error.1

theorem OnlyErrors.of_printed (h : a.OnlyErrors w v) (lines : List String) :
    a.OnlyErrors w { v with printed := lines } :=
  ⟨h.cwd_eq, h.regular, h.isDir_eq, h.lookup_eq⟩

theorem Noted.of_printed (h : a.Noted w records v) (lines : List String) :
    a.Noted w records { v with printed := lines } :=
  ⟨h.toOnlyErrors.of_printed lines, h.lookup_error⟩

theorem OnlyErrors.of_lookup (h : a.OnlyErrors w v) {t : Tree} (ht : t.Regular)
    (hlookup : ∀ q, t.lookup q = v.tree.lookup q) : a.OnlyErrors w (v.withTree t) where
  cwd_eq := h.cwd_eq
  regular := ht
  isDir_eq := by
    rw [← h.isDir_eq, Tree.isDir]
    exact congrArg _ (hlookup _)
  lookup_eq q hq := (hlookup q).trans (h.lookup_eq q hq)

theorem Noted.of_lookup (h : a.Noted w records v) {t : Tree} (ht : t.Regular)
    (hlookup : ∀ q, t.lookup q = v.tree.lookup q) : a.Noted w records (v.withTree t) :=
  ⟨h.toOnlyErrors.of_lookup ht hlookup, (hlookup _).trans h.lookup_error⟩

theorem OnlyErrors.place_eq (h : a.OnlyErrors w v) : v.place = w.place :=
  congrArg Path.names h.cwd_eq

theorem OnlyErrors.lookup_dir (h : a.OnlyErrors w v) {q : Place}
    (hq : w.tree.lookup q = some .dir) : v.tree.lookup q = some .dir := by
  by_cases heq : q = w.placeOf a.errorPath
  · subst heq
    exact lookup_of_isDir (h.isDir_eq.trans (isDir_of_lookup hq))
  · rw [h.lookup_eq q heq, hq]

variable (ho : a.HasOutput w)
include ho

theorem OnlyErrors.find_output (h : a.OnlyErrors w v) :
    v.tree.find v.place a.output = .ok (w.placeOf a.output, .dir) := by
  rw [h.place_eq]
  exact find_dir_mono h.lookup_dir ho.find_output

theorem OnlyErrors.resolve_output (h : a.OnlyErrors w v) {name : String} (hname : IsName name) :
    v.tree.resolve v.place (join a.output name) = .ok (w.placeOf a.output ++ [name]) :=
  resolve_join_of_find (h.find_output ho) hname

theorem OnlyErrors.resolve_errorPath (h : a.OnlyErrors w v) :
    v.tree.resolve v.place a.errorPath = .ok (w.placeOf a.errorPath) := by
  rw [placeOf_errorPath]
  exact h.resolve_output ho isName_error

theorem OnlyErrors.lookup_place (h : a.OnlyErrors w v) : v.tree.lookup v.place = some .dir := by
  rw [h.place_eq]
  exact h.lookup_dir ho.sound.lookup_place

theorem Noted.exec_makeDirs (h : a.Noted w records v) :
    ∃ v', (makeDirs a.output).exec v = (.ok (), v') ∧ a.Noted w records v' := by
  obtain ⟨t, hexec, hlookup, ht⟩ := exec_makeDirs_of_find (h.lookup_place ho) (h.find_output ho)
  exact ⟨_, hexec, h.of_lookup (ht h.regular) hlookup⟩

/-! ## Noting a failure -/

omit ho in
theorem Noted.insert (h : a.Noted w records v) {record : String}
    (hdir : w.tree.isDir (w.placeOf a.errorPath) = false) :
    a.Noted w (records ++ [record]) (v.withTree (v.tree.insert (w.placeOf a.errorPath)
      (.file ((Entry.contentOf (v.tree.lookup (w.placeOf a.errorPath))).append record)))) := by
  have hne : w.placeOf a.errorPath ≠ [] := by
    rw [placeOf_errorPath]
    simp
  refine ⟨⟨h.cwd_eq, h.regular.insert hne _, ?_, fun q hq => ?_⟩, ?_⟩
  · rw [hdir, Tree.isDir]
    exact congrArg _ (lookup_insert_self _ hne _)
  · exact (lookup_insert_of_ne _ hq _).trans (h.lookup_eq q hq)
  · refine (lookup_insert_self _ hne _).trans ?_
    rw [if_neg (by simp), withRecords_append, h.lookup_error]
    split
    · next hnil => rw [hnil]; rfl
    · rfl

theorem Noted.exec_noteFailure (h : a.Noted w records v) {e : Fault}
    (hdir : w.tree.isDir (w.placeOf a.errorPath) = false)
    (htext : Text.Utf8.encodeFault? (failureRecord f e) = none) :
    ∃ v', (a.noteFailure f e).exec v = (.ok (), v') ∧
      a.Noted w (records ++ [failureRecord f e]) v' := by
  obtain ⟨v', hmake, h'⟩ := h.exec_makeDirs ho
  have happend := exec_appendText (h'.resolve_errorPath ho) (h'.isDir_eq.trans hdir)
    (endsWith_slash_join a.output isName_error.1.1) htext
  rw [noteFailure, exec_bind_ok _ hmake, exec_bind_ok _ happend]
  exact ⟨_, rfl, (h'.insert hdir).of_printed _⟩

variable {v' : Workspace}

/-- If `noteFailure` succeeds, the record can be written. -/
theorem Noted.noteFailure_eq_ok (h : a.Noted w records v) {e : Fault}
    {u : Unit} (hok : (a.noteFailure f e).exec v = (.ok u, v')) :
    w.tree.isDir (w.placeOf a.errorPath) = false ∧
      Text.Utf8.encodeFault? (failureRecord f e) = none := by
  obtain ⟨v₁, hmake, h₁⟩ := h.exec_makeDirs ho
  have hresolve := h₁.resolve_errorPath ho
  rw [noteFailure, exec_bind_ok _ hmake] at hok
  obtain ⟨_, v₂, happend, -⟩ := exec_bind_eq_ok hok
  cases hdir : w.tree.isDir _ with
  | true =>
    rw [← h₁.isDir_eq] at hdir
    rw [exec_appendText_of_isDir hresolve (lookup_of_isDir hdir)] at happend
    cases happend
  | false =>
    refine ⟨rfl, ?_⟩
    cases htext : Text.Utf8.encodeFault? _ with
    | none => rfl
    | some fault =>
      obtain ⟨t, hexec, -⟩ := exec_appendText_of_fault hresolve (h₁.isDir_eq.trans hdir)
        (endsWith_slash_join a.output isName_error.1.1) htext
      rw [hexec] at happend
      cases happend

/-! ## Inspecting files -/

omit ho in
/-- What `inspect` gives is settled by what is read. -/
theorem exec_inspect_of_read (a : Analyzer) {x : Except Fault String}
    (h : (readText (absolute v.cwd f)).exec v = (x, v)) :
    ∃ printed, (a.inspect f).exec v
      = ((Inspection.ofFile a.catalogue f x).result, { v with printed }) := by
  obtain ⟨printed, hprint⟩ := exec_printAll (Inspection.ofFile a.catalogue f x).messages v
  rw [inspect, exec_bind_ok _ (exec_get v), exec_bind_ok _ (exec_outcome_of h),
    exec_bind_ok _ hprint]
  exact ⟨printed, rfl⟩

variable {p : Place} {name : String} {c : Content}

omit ho in
theorem found_eq (hw : w.Sound) (hat : IsSourceAt w f p name c) :
    a.found w f = (Inspection.ofFile a.catalogue f c.readText).result := by
  have hread := hat.exec_readText hw (fun _ hq => hq) hat.lookup_eq
  obtain ⟨printed, hexec⟩ := a.exec_inspect_of_read hread
  rw [found, hexec]

omit ho in
/-- No file that is analyzed is the file for errors. -/
theorem placeOf_errorPath_ne (hat : IsSourceAt w f p name c) :
    p ++ [name] ≠ w.placeOf a.errorPath := by
  intro heq
  rw [placeOf_errorPath] at heq
  obtain ⟨-, heq⟩ := append_inj' heq rfl
  have hsource := hat.isSource
  rw [singleton_inj.1 heq] at hsource
  revert hsource
  decide

/-- `inspect` gives the same after records have been added. -/
theorem Noted.exec_inspect (h : a.Noted w records v) (hat : IsSourceAt w f p name c) :
    ∃ v', (a.inspect f).exec v = (a.found w f, v') ∧ a.Noted w records v' := by
  have hfile := (h.lookup_eq _ (placeOf_errorPath_ne hat)).trans hat.lookup_eq
  have hread := hat.exec_readText ho.sound (fun _ hq => h.lookup_dir hq) hfile
  rw [← h.cwd_eq] at hread
  obtain ⟨printed, hexec⟩ := a.exec_inspect_of_read hread
  rw [← found_eq ho.sound hat] at hexec
  exact ⟨_, hexec, h.of_printed _⟩

omit ho in
theorem exec_inspectNoted_of_ok {rows : List Row} (h : (a.inspect f).exec v = (.ok rows, v')) :
    ∃ printed, (a.inspectNoted f).exec v = (.ok rows, { v' with printed }) := by
  cases rows with
  | nil => exact ⟨v'.printed, exec_bind_ok _ (exec_outcome_of h)⟩
  | cons row rows => exact ⟨_ :: v'.printed, exec_bind_ok _ (exec_outcome_of h)⟩

omit ho in
theorem exec_inspectNoted_of_isInFile {e : Fault}
    (h : (a.inspect f).exec v = (.error e, v')) (he : e.isInFile = true) :
    (a.inspectNoted f).exec v
      = (a.noteFailure f e >>= fun _ => (pure [] : Run (List Row))).exec v' := by
  refine (exec_bind_ok _ (exec_outcome_of h)).trans ?_
  cases e with
  | inFile file cause => rfl
  | _ => cases he

omit ho in
theorem exec_inspectNoted_of_error {e : Fault}
    (h : (a.inspect f).exec v = (.error e, v')) (he : e.isInFile = false) :
    (a.inspectNoted f).exec v = (.error e, v') := by
  refine (exec_bind_ok _ (exec_outcome_of h)).trans ?_
  cases e with
  | inFile file cause => cases he
  | _ => rfl

omit ho in
/-- What `f` adds to the rows and to the file for errors. -/
theorem rowsOf_cases (a : Analyzer) (w : Workspace) (f : String) :
    (∃ rows, a.found w f = .ok rows ∧ a.rowsOf w f = .ok rows ∧ a.recordOf w f = []) ∨
    (∃ e, a.found w f = .error e ∧ e.isInFile = true ∧ a.rowsOf w f = .ok [] ∧
      a.recordOf w f = [failureRecord f e]) ∨
    ∃ e, a.found w f = .error e ∧ e.isInFile = false ∧ a.rowsOf w f = .error e ∧
      a.recordOf w f = [] := by
  rw [rowsOf, recordOf]
  cases a.found w f with
  | ok rows => exact .inl ⟨rows, rfl, rfl, rfl⟩
  | error e =>
    cases he : e.isInFile with
    | true => exact .inr (.inl ⟨e, rfl, he, if_pos he, if_pos he⟩)
    | false => exact .inr (.inr ⟨e, rfl, he, if_neg (by simp [he]), if_neg (by simp [he])⟩)

/-- `inspectNoted` gives `rowsOf` and adds `recordOf`, whatever was noted before. -/
theorem Noted.exec_inspectNoted (h : a.Noted w records v)
    (hat : IsSourceAt w f p name c) (hcan : a.CanNote w f) :
    ∃ v', (a.inspectNoted f).exec v = (a.rowsOf w f, v') ∧
      a.Noted w (records ++ a.recordOf w f) v' := by
  obtain ⟨v₁, hexec, h₁⟩ := h.exec_inspect ho hat
  rw [CanNote] at hcan
  rcases a.rowsOf_cases w f with ⟨rows, hfound, hrows, hrecord⟩ |
    ⟨e, hfound, he, hrows, hrecord⟩ | ⟨e, hfound, he, hrows, hrecord⟩ <;>
    rw [hfound] at hexec <;> rw [hrows, hrecord]
  · obtain ⟨printed, hok⟩ := exec_inspectNoted_of_ok hexec
    rw [append_nil]
    exact ⟨_, hok, h₁.of_printed _⟩
  · rw [hrecord, forall_mem_singleton] at hcan
    obtain ⟨v₂, hnote, h₂⟩ := h₁.exec_noteFailure ho hcan.1 hcan.2
    exact ⟨v₂, (exec_inspectNoted_of_isInFile hexec he).trans (exec_bind_ok _ hnote), h₂⟩
  · rw [append_nil]
    exact ⟨_, exec_inspectNoted_of_error hexec he, h₁⟩

/-- If `inspectNoted` succeeds, `f` could be noted. -/
theorem Noted.canNote (h : a.Noted w records v) (hat : IsSourceAt w f p name c) {rows : List Row}
    (hok : (a.inspectNoted f).exec v = (.ok rows, v')) : a.CanNote w f := by
  obtain ⟨v₁, hexec, h₁⟩ := h.exec_inspect ho hat
  rw [CanNote]
  rcases a.rowsOf_cases w f with ⟨rows, -, -, hrecord⟩ | ⟨e, hfound, he, -, hrecord⟩ |
    ⟨e, -, -, -, hrecord⟩ <;> rw [hrecord]
  · exact forall_mem_nil _
  · rw [hfound] at hexec
    rw [exec_inspectNoted_of_isInFile hexec he] at hok
    obtain ⟨u, v₂, hnote, -⟩ := exec_bind_eq_ok hok
    exact forall_mem_singleton.2 (h₁.noteFailure_eq_ok ho hnote)
  · exact forall_mem_nil _

variable {files : List String}

/-- `inspectNoted` goes through `files` up to the first that fails, if their records can be added.
-/
theorem Noted.exec_mapM (h : a.Noted w records v)
    (hat : ∀ f ∈ files, ∃ p name c, IsSourceAt w f p name c)
    (hcan : ∀ f ∈ files, a.CanNote w f) :
    ∃ v', (files.mapM a.inspectNoted).exec v = (files.mapM (a.rowsOf w), v') ∧
      a.Noted w (records ++ (files.takeWhile fun f => (a.rowsOf w f).isOk).flatMap (a.recordOf w))
        v' := by
  induction files generalizing records v with
  | nil => exact ⟨v, rfl, by rwa [takeWhile_nil, flatMap_nil, append_nil]⟩
  | cons f files ih =>
    obtain ⟨⟨p, name, c, hf⟩, hat⟩ := forall_mem_cons.1 hat
    obtain ⟨hcanf, hcan⟩ := forall_mem_cons.1 hcan
    obtain ⟨v₁, hexec, h₁⟩ := h.exec_inspectNoted ho hf hcanf
    rw [mapM_cons, mapM_cons, takeWhile_cons]
    cases hrows : a.rowsOf w f with
    | error e =>
      rw [hrows] at hexec
      have hrecord : a.recordOf w f = [] := by
        rcases a.rowsOf_cases w f with ⟨_, -, hok, -⟩ | ⟨_, -, -, hok, -⟩ | ⟨_, -, -, -, hnil⟩
        · rw [hok] at hrows
          cases hrows
        · rw [hok] at hrows
          cases hrows
        · exact hnil
      rw [hrecord] at h₁
      exact ⟨v₁, exec_bind_error _ hexec, h₁⟩
    | ok rows =>
      rw [hrows] at hexec
      obtain ⟨v₂, hmap, h₂⟩ := ih h₁ hat hcan
      have htake : (Except.ok rows : Except Fault (List Row)).isOk = true := rfl
      rw [exec_bind_ok _ hexec, if_pos htake, flatMap_cons, ← append_assoc]
      exact ⟨v₂, exec_bind_lift (fun rest => .ok (rows :: rest)) hmap, h₂⟩

/-- If `inspectNoted` succeeds for all `files`, they could be noted. -/
theorem Noted.canNote_of_mapM (h : a.Noted w records v)
    (hat : ∀ f ∈ files, ∃ p name c, IsSourceAt w f p name c) {rows : List (List Row)}
    (hok : (files.mapM a.inspectNoted).exec v = (.ok rows, v')) :
    ∀ f ∈ files, a.CanNote w f := by
  induction files generalizing records v rows v' with
  | nil => exact forall_mem_nil _
  | cons f files ih =>
    obtain ⟨⟨p, name, c, hf⟩, hat⟩ := forall_mem_cons.1 hat
    rw [mapM_cons] at hok
    obtain ⟨row, v₁, hexec, hok⟩ := exec_bind_eq_ok hok
    obtain ⟨rest, v₂, hmap, -⟩ := exec_bind_eq_ok hok
    have hcan := h.canNote ho hf hexec
    obtain ⟨v₁', hexec', h₁⟩ := h.exec_inspectNoted ho hf hcan
    obtain ⟨-, rfl⟩ := Prod.mk.inj (hexec.symm.trans hexec')
    exact forall_mem_cons.2 ⟨hcan, ih h₁ hat hmap⟩

def allRows (a : Analyzer) (w : Workspace) (files : List String) : Except Fault (List Row) :=
  (files.mapM (a.rowsOf w)).map flatten

/-- The records of `files`, up to the first that fails. -/
def allRecords (a : Analyzer) (w : Workspace) (files : List String) : List String :=
  (files.takeWhile fun f => (a.rowsOf w f).isOk).flatMap (a.recordOf w)

theorem exec_inspectAll (hat : ∀ f ∈ files, ∃ p name c, IsSourceAt w f p name c)
    (hcan : ∀ f ∈ files, a.CanNote w f) (hv : a.Noted w [] v) :
    ∃ v', (a.inspectAll files).exec v = (a.allRows w files, v') ∧
      a.Noted w (a.allRecords w files) v' := by
  obtain ⟨v', hexec, h'⟩ := hv.exec_mapM ho hat hcan
  exact ⟨v', exec_bind_lift _ hexec, h'⟩

end Analyzer

end SmellLint
