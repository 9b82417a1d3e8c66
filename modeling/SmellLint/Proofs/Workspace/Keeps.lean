import SmellLint.Proofs.Workspace.Files

/-!
# What runs keep

No step of a run looks at what has been printed.  So a relation between workspaces that differ in
the printed texts at most stays throughout a run if it stays when something is printed, when
directories are made and when files are written (`Run.Congruence`).  One such relation is that of a
workspace with a property to itself: a property that every step keeps is kept by the run
(`Run.Keeps`).  A workspace stays sound through all of these, and its directories stay directories.
-/

namespace SmellLint

/-- `w` as if nothing had been printed. -/
def Workspace.unprinted (w : Workspace) : Workspace := { w with printed := [] }

variable {w v : Workspace}

theorem Workspace.exists_printed_of_unprinted_eq (h : w.unprinted = v.unprinted) :
    ∃ lines, w = { v with printed := lines } := by
  cases w
  simp only [unprinted, mk.injEq] at h ⊢
  simp [h]

namespace Run

variable {α β : Type} {R : Workspace → Workspace → Prop} {P : Workspace → Prop}

/-! ## Runs from related workspaces -/

/-- Started in workspaces related by `R`, both runs have the same outcome and end in related
workspaces, failed or not. -/
def Lockstep (R : Workspace → Workspace → Prop) (r s : Run α) : Prop :=
  ∀ w v, R w v → (r.exec w).1 = (s.exec v).1 ∧ R (r.exec w).2 (s.exec v).2

/-- `r` does the same in workspaces related by `R`. -/
def Respects (R : Workspace → Workspace → Prop) (r : Run α) : Prop := Lockstep R r r

namespace Lockstep

theorem pure (a : α) : Lockstep R (pure a : Run α) (pure a) := fun _ _ h => ⟨rfl, h⟩

theorem throw (e : Fault) : Lockstep R (throw e : Run α) (throw e) := fun _ _ h => ⟨rfl, h⟩

theorem lift (x : Except Fault α) : Lockstep R (lift x) (lift x) := fun _ _ h => ⟨rfl, h⟩

theorem bind {r s : Run α} {f g : α → Run β} (h : Lockstep R r s)
    (hf : ∀ a, Lockstep R (f a) (g a)) : Lockstep R (r >>= f) (s >>= g) := by
  intro w v hwv
  obtain ⟨hx, hw'⟩ := h w v hwv
  obtain ⟨x, w', hr⟩ : ∃ x w', r.exec w = (x, w') := ⟨_, _, rfl⟩
  obtain ⟨y, v', hs⟩ : ∃ y v', s.exec v = (y, v') := ⟨_, _, rfl⟩
  rw [hr, hs] at hx hw'
  obtain rfl : x = y := hx
  cases x with
  | error e =>
    rw [exec_bind_error f hr, exec_bind_error g hs]
    exact ⟨rfl, hw'⟩
  | ok a =>
    rw [exec_bind_ok f hr, exec_bind_ok g hs]
    exact hf a w' v' hw'

/-- What follows `throw` does not matter. -/
theorem throw_bind (e : Fault) (f g : α → Run β) :
    Lockstep R ((MonadExcept.throw e : Run α) >>= f) ((MonadExcept.throw e : Run α) >>= g) := by
  intro w v h
  exact ⟨rfl, h⟩

theorem outcome {r s : Run α} (h : Lockstep R r s) : Lockstep R (outcome r) (outcome s) := by
  intro w v hwv
  obtain ⟨hx, hw⟩ := h w v hwv
  exact ⟨congrArg Except.ok hx, hw⟩

theorem mapM {f : α → Run β} (h : ∀ a, Respects R (f a)) (l : List α) : Respects R (l.mapM f) := by
  induction l with
  | nil => exact .pure []
  | cons a l ih =>
    rw [List.mapM_cons]
    exact (h a).bind fun b => ih.bind fun bs => .pure _

theorem forM {f : α → Run Unit} (h : ∀ a, Respects R (f a)) (l : List α) :
    Respects R (l.forM f) := by
  induction l with
  | nil => exact .pure ()
  | cons a l ih => exact (h a).bind fun _ => ih

/-- A step that is made or not. -/
theorem ite {r s r' s' : Run α} (c : Prop) [Decidable c] (h : Lockstep R r s)
    (h' : Lockstep R r' s') : Lockstep R (if c then r else r') (if c then s else s') := by
  split
  · exact h
  · exact h'

section

variable (hR : ∀ {w v}, R w v → w.unprinted = v.unprinted)

include hR

/-- What a run reads is the same, if `f` does not depend on the printed texts. -/
theorem reads {r : Run α} {f : Workspace → Except Fault α} (hr : ∀ w, r.exec w = (f w, w))
    (hf : ∀ w lines, f { w with printed := lines } = f w) : Respects R r := by
  intro w v hwv
  rw [hr, hr]
  refine ⟨?_, hwv⟩
  obtain ⟨lines, rfl⟩ := Workspace.exists_printed_of_unprinted_eq (hR hwv)
  exact hf v lines

/-- What follows `get` may use all of the workspace but the printed texts. -/
theorem get_bind {f g : Workspace → Run α}
    (hf : ∀ w lines, Lockstep R (f { w with printed := lines }) (g w)) :
    Lockstep R (get >>= f) (get >>= g) := by
  intro w v hwv
  obtain ⟨lines, rfl⟩ := Workspace.exists_printed_of_unprinted_eq (hR hwv)
  exact hf v lines _ v hwv

end

end Lockstep

/-! ## Relations that stay -/

/-- Workspaces related by `R` differ in the printed texts at most, and stay related whatever is
printed, made or written. -/
structure Congruence (R : Workspace → Workspace → Prop) : Prop where
  unprinted_eq : ∀ {w v}, R w v → w.unprinted = v.unprinted
  print : ∀ line, Respects R (print line)
  makeDir : ∀ path, Respects R (makeDir path)
  writeContent : ∀ path c, Respects R (writeContent path c)

namespace Congruence

variable (h : Congruence R) (path : String)

include h

theorem find : Respects R (find path) := .reads h.unprinted_eq (exec_find path) fun _ _ => rfl

theorem exists? : Respects R (exists? path) :=
  .reads h.unprinted_eq (exec_exists? path) fun _ _ => rfl

theorem isDir : Respects R (isDir path) := .reads h.unprinted_eq (exec_isDir path) fun _ _ => rfl

theorem isFile : Respects R (isFile path) := .reads h.unprinted_eq (exec_isFile path) fun _ _ => rfl

theorem readContent : Respects R (readContent path) := by
  refine (h.find path).bind fun found => ?_
  cases found.2 with
  | dir => exact .throw _
  | file c => exact .pure _

theorem readText : Respects R (readText path) := (h.readContent path).bind fun _ => .lift _

theorem listDir : Respects R (listDir path) := by
  refine (h.find path).bind fun found => ?_
  match found with
  | (_, .dir) => exact .get_bind h.unprinted_eq fun _ _ => .pure _
  | (_, .file _) => exact .throw _

theorem makeMissingDir : Respects R (makeMissingDir path) :=
  (h.exists? path).bind fun _ => .ite _ (h.makeDir path) (.pure ())

theorem makeNewDirs : Respects R (makeNewDirs path) := by
  refine Lockstep.bind ?_ fun _ => (Lockstep.forM h.makeMissingDir _).bind
    fun _ => .ite _ (h.makeDir path) (.pure ())
  rw [endsInMissingDir]
  cases (Path.heads path).getLast? with
  | none => exact .pure _
  | some head => exact (h.exists? head).bind fun _ => .pure _

theorem makeDirs : Respects R (makeDirs path) :=
  (Lockstep.forM h.makeMissingDir _).bind fun _ => (h.isDir path).bind fun _ =>
    .ite _ (h.makeDir path) (.pure ())

theorem printAll (lines : List String) : Respects R (printAll lines) := .forM h.print lines

theorem writeText (text : String) : Respects R (writeText path text) := by
  rw [Run.writeText]
  cases Text.Utf8.encodeFault? text with
  | none => exact h.writeContent path _
  | some fault => exact (h.writeContent path _).bind fun _ => .throw _

theorem writeTexts (texts : List String) : Respects R (writeTexts path texts) := by
  refine (h.writeText path _).bind fun _ => ?_
  cases texts.findSome? Text.Utf8.encodeFault? with
  | none => exact .pure ()
  | some fault => exact .throw _

theorem appendText (text : String) : Respects R (appendText path text) := by
  refine (Lockstep.reads h.unprinted_eq (exec_find? path) fun _ _ => rfl).bind fun found => ?_
  match found with
  | some (_, .file c) =>
    cases Text.Utf8.encodeFault? text with
    | none => exact h.writeContent path _
    | some fault => exact .throw _
  | some (_, .dir) => exact h.writeText path text
  | none => exact h.writeText path text

end Congruence

/-! ## Properties that every step keeps -/

/-- `r`, started in a workspace with `P`, ends in one, failed or not. -/
def Keeps (P : Workspace → Prop) (r : Run α) : Prop := ∀ w, P w → P (r.exec w).2

/-- Relates workspaces with `P` to themselves. -/
def Under (P : Workspace → Prop) (w v : Workspace) : Prop := v = w ∧ P w

theorem Lockstep.keeps {r : Run α} (h : Lockstep (Under P) r r) : Keeps P r :=
  fun w hw => (h w w ⟨rfl, hw⟩).2.2

theorem Keeps.respects {r : Run α} (h : Keeps P r) : Respects (Under P) r := by
  rintro w _ ⟨rfl, hw⟩
  exact ⟨rfl, rfl, h _ hw⟩

theorem Keeps.pure (a : α) : Keeps P (pure a : Run α) := fun _ h => h

theorem Keeps.throw (e : Fault) : Keeps P (throw e : Run α) := fun _ h => h

theorem Keeps.throw_bind (e : Fault) (f : α → Run β) :
    Keeps P ((MonadExcept.throw e : Run α) >>= f) := (Lockstep.throw_bind e f f).keeps

theorem Keeps.lift (x : Except Fault α) : Keeps P (lift x) := fun _ h => h

theorem Keeps.get : Keeps P (get : Run Workspace) := fun _ h => h

theorem Keeps.bind {r : Run α} {f : α → Run β} (h : Keeps P r) (hf : ∀ a, Keeps P (f a)) :
    Keeps P (r >>= f) := (h.respects.bind fun a => (hf a).respects).keeps

theorem Keeps.outcome {r : Run α} (h : Keeps P r) : Keeps P (outcome r) := fun w hw => h w hw

theorem Keeps.mapM {f : α → Run β} (h : ∀ a, Keeps P (f a)) (l : List α) :
    Keeps P (l.mapM f) := (Lockstep.mapM (fun a => (h a).respects) l).keeps

theorem Keeps.exec_eq {r : Run α} (h : Keeps P r) {w w' : Workspace} {x : Except Fault α}
    (hexec : r.exec w = (x, w')) (hw : P w) : P w' := by
  have hw' := h w hw
  rwa [hexec] at hw'

theorem keeps_readText (path : String) : Keeps P (readText path) :=
  .bind (.bind (.bind .get fun _ => .lift _) fun found => match found.2 with
    | .dir => .throw _
    | .file _ => .pure _) fun _ => .lift _

theorem Keeps.writeText {path : String} (h : ∀ c, Keeps P (writeContent path c)) (text : String) :
    Keeps P (writeText path text) := by
  rw [Run.writeText]
  cases Text.Utf8.encodeFault? text with
  | none => exact h _
  | some fault => exact (h _).bind fun _ => .throw _

/-- `writeContent` puts a file where no directory is, or changes nothing. -/
theorem exec_writeContent_cases (path : String) (c : Content) (w : Workspace) :
    ((writeContent path c).exec w).2 = w ∨ ∃ p, w.tree.resolve w.place path = .ok p ∧
      w.tree.isDir p = false ∧
      ((writeContent path c).exec w).2 = w.withTree (w.tree.insert p (.file c)) := by
  cases hr : w.tree.resolve w.place path with
  | error f => exact .inl (by rw [exec_writeContent_of_error hr])
  | ok p =>
    rw [writeContent, exec_bind_ok _ ((exec_resolve path w).trans (by rw [hr])),
      exec_bind_ok _ (exec_get w)]
    split
    · exact .inl rfl
    · next hfree =>
      simp only [Bool.or_eq_true, not_or, Bool.not_eq_true] at hfree
      exact .inr ⟨p, rfl, hfree.1, rfl⟩

/-! ## Soundness -/

/-- A path that leads to a place `p` with no directory there leads to a name in a directory. -/
theorem exists_of_resolve {w : Workspace} (hw : w.Sound) {path : String} {p : Place}
    (h : w.tree.resolve w.place path = .ok p) (hp : w.tree.isDir p = false) :
    ∃ d name, p = d ++ [name] ∧ w.tree.lookup d = some .dir ∧ Tree.IsName name := by
  cases hl : w.tree.lookup p with
  | none => exact hw.exists_of_lead (Tree.lead_of_resolve h) hl
  | some e =>
    obtain rfl | ⟨d, name, rfl⟩ := List.eq_nil_or_concat p
    · cases hp
    · rw [List.concat_eq_append] at hl ⊢
      exact ⟨d, name, rfl, hw.tree.parent hl,
        hw.tree.isName hl name (List.mem_append_right d List.mem_cons_self)⟩

theorem congruence_sound : Congruence (Under Workspace.Sound) where
  unprinted_eq h := h.1 ▸ rfl
  print _ := Keeps.respects fun _ h => ⟨h.tree, h.isAbsolute, h.lookup_place⟩
  makeDir path := Keeps.respects fun w hw => by
    rcases exec_makeDir_fails_or path w with ⟨f, hexec⟩ | ⟨p, hl, hp, hexec⟩ <;> rw [hexec]
    · exact hw
    · obtain ⟨d, name, rfl, hd, hname⟩ := hw.exists_of_lead hl hp
      exact hw.insert hd hname fun _ => rfl
  writeContent path c := Keeps.respects fun w hw => by
    rcases exec_writeContent_cases path c w with hsame | ⟨p, hr, hdir, hexec⟩
    · rwa [hsame]
    · rw [hexec]
      obtain ⟨d, name, rfl, hd, hname⟩ := exists_of_resolve hw hr hdir
      refine hw.insert hd hname fun hlookup => ?_
      cases (Tree.isDir_of_lookup hlookup).symm.trans hdir

end Run

/-- `readText` gives the text of the file at `placeOf path` for the path from the root. -/
theorem Workspace.Sound.exec_readText_absolute {path : String} (hw : w.Sound)
    {c : Content} (h : w.tree.lookup (w.placeOf path) = some (.file c)) :
    (Run.readText (Path.absolute w.cwd path)).exec w = (c.readText, w) := by
  have hpath := hw.isPathTo path
  rcases List.eq_nil_or_concat (w.placeOf path) with hroot | ⟨dir, name, hplace⟩
  · rw [hroot] at h
    cases h
  · rw [List.concat_eq_append] at hplace
    rw [hplace] at h hpath
    exact Run.exec_readText_of_file ((hw.tree.open_of_lookup (hw.tree.parent h)).find_of_isPathTo
      (hw.tree.isName h) h hpath w.place)

/-! ## Directories -/

/-- The directories of `w` are directories in `v`. -/
structure Workspace.DirsIn (w v : Workspace) : Prop where
  cwd_eq : v.cwd = w.cwd
  lookup_dir : ∀ {q : Place}, w.tree.lookup q = some .dir → v.tree.lookup q = some .dir

theorem Workspace.DirsIn.refl (w : Workspace) : w.DirsIn w := ⟨rfl, id⟩

theorem Workspace.DirsIn.place_eq (h : w.DirsIn v) : v.place = w.place :=
  congrArg Path.names h.cwd_eq

/-- `find` gives the directories of `w` in `v`, too. -/
theorem Workspace.DirsIn.find_dir (h : w.DirsIn v) {path : String} {p : Place}
    (hpath : w.tree.find w.place path = .ok (p, .dir)) :
    v.tree.find v.place path = .ok (p, .dir) := by
  rw [h.place_eq]
  exact Tree.find_dir_mono h.lookup_dir hpath

/-- `insert` may put something where `v` has no directory. -/
theorem Workspace.DirsIn.insert (h : w.DirsIn v) {p : Place}
    (hp : v.tree.isDir p = false) (e : Entry) : w.DirsIn (v.withTree (v.tree.insert p e)) where
  cwd_eq := h.cwd_eq
  lookup_dir {q} hq := by
    have hdir := h.lookup_dir hq
    have hne : q ≠ p := by
      rintro rfl
      cases (Tree.isDir_of_lookup hdir).symm.trans hp
    exact (Tree.lookup_insert_of_ne _ hne _).trans hdir

theorem Run.congruence_dirsIn (w : Workspace) : Congruence (Under w.DirsIn) where
  unprinted_eq h := h.1 ▸ rfl
  print _ := Keeps.respects fun _ h => ⟨h.cwd_eq, h.lookup_dir⟩
  makeDir path := Keeps.respects fun v h => by
    rcases exec_makeDir_fails_or path v with ⟨f, hexec⟩ | ⟨p, -, hp, hexec⟩ <;> rw [hexec]
    · exact h
    · exact h.insert (Tree.isDir_of_lookup hp) _
  writeContent path c := Keeps.respects fun v h => by
    rcases exec_writeContent_cases path c v with hsame | ⟨p, -, hdir, hexec⟩
    · rwa [hsame]
    · rw [hexec]
      exact h.insert hdir _

end SmellLint
