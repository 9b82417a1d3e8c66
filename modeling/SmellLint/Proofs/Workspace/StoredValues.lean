import SmellLint.Proofs.Json.RoundTrip
import SmellLint.Proofs.Workspace.Keeps
import SmellLint.Workspace.Stored

/-!
# Values in files

A path to a file stays one whatever is written elsewhere (`Workspace.IsFilePath.mono`).  An exact
value that was written is read back, and writing it changes nothing but the file.
-/

namespace SmellLint

open Path Text Tree

/-! ## What a run looks at -/

namespace Run

variable {α β γ : Type} {view : Workspace → γ}

/-- `r` changes nothing, and its outcome depends on `view` of the workspace only. -/
def LooksAt (view : Workspace → γ) (r : Run α) : Prop :=
  ∀ v w, view v = view w → r.exec v = ((r.exec w).1, v)

theorem LooksAt.exec_eq {r : Run α} (h : LooksAt view r) (w : Workspace) :
    r.exec w = ((r.exec w).1, w) := h w w rfl

theorem LooksAt.lift (x : Except Fault α) : LooksAt view (lift x) := fun _ _ _ => rfl

theorem LooksAt.pure (a : α) : LooksAt view (pure a : Run α) := fun _ _ _ => rfl

theorem LooksAt.throw (e : Fault) : LooksAt view (throw e : Run α) := fun _ _ _ => rfl

theorem LooksAt.bind {r : Run α} {f : α → Run β} (h : LooksAt view r)
    (hf : ∀ a, LooksAt view (f a)) : LooksAt view (r >>= f) := by
  intro v w hvw
  have hv := h v w hvw
  have hw := h.exec_eq w
  cases hx : (r.exec w).1 with
  | error e =>
    rw [hx] at hv hw
    rw [exec_bind_error f hv, exec_bind_error f hw]
  | ok a =>
    rw [hx] at hv hw
    rw [exec_bind_ok f hv, exec_bind_ok f hw]
    exact hf a v w hvw

theorem LooksAt.outcome {r : Run α} (h : LooksAt view r) : LooksAt view (outcome r) := by
  intro v w hvw
  rw [exec_outcome, exec_outcome, h v w hvw]

def found (path : String) (w : Workspace) : Except Fault (Place × Entry) := w.tree.find w.place path

theorem looksAt_find (path : String) : LooksAt (found path) (find path) := by
  intro v w hvw
  exact Prod.ext hvw rfl

theorem looksAt_exists? (path : String) : LooksAt (found path) (exists? path) := by
  intro v w hvw
  unfold found at hvw
  rw [exec_exists?, exec_exists?, hvw]

theorem looksAt_readJson (path : String) : LooksAt (found path) (readJson path) := by
  refine .bind (.bind (.bind (looksAt_find path) fun place => ?_) fun c => .lift _) fun text => ?_
  · cases place.2 with
    | dir => exact .throw _
    | file c => exact .pure c
  · cases Json.parse text with
    | ok j => exact .pure j
    | error fault => exact .throw _

end Run

/-! ## Paths to files -/

/-- `path` leads to `p`, where a file is or can be written. -/
structure Workspace.IsFilePath (w : Workspace) (path : String) (p : Place) : Prop where
  resolve_eq : w.tree.resolve w.place path = .ok p
  isDir_eq : w.tree.isDir p = false
  endsWith_eq : endsWith path "/" = false
  isProper_last : ∃ ms name, names path = ms ++ [name] ∧ IsProper name

namespace Workspace.IsFilePath

variable {w v : Workspace} {path : String} {p q : Place}

variable (h : w.IsFilePath path p)
include h

theorem follow_eq : Usable path ∧
    w.tree.follow path (origin w.place path) (names path) = .ok p := by
  have hlead := lead_of_resolve h.resolve_eq
  have husable := usable_of_lead hlead
  rw [lead_eq _ _ husable] at hlead
  exact ⟨husable, hlead⟩

theorem ne_nil : p ≠ [] := by
  obtain ⟨ms, name, hnames, hname⟩ := h.isProper_last
  have hfollow := h.follow_eq.2
  rw [hnames] at hfollow
  rw [(open_of_follow_concat hname hfollow).2]
  exact List.append_ne_nil_of_right_ne_nil _ (List.cons_ne_nil _ _)

/-- `path` still leads to a file as long as directories stay and none comes to `p`. -/
theorem mono (hdirs : w.DirsIn v) (hp : v.tree.isDir p = false) : v.IsFilePath path p := by
  refine ⟨?_, hp, h.endsWith_eq, h.isProper_last⟩
  obtain ⟨ms, name, hnames, hname⟩ := h.isProper_last
  obtain ⟨husable, hfollow⟩ := h.follow_eq
  refine resolve_of_lead ?_ (by simp [h.endsWith_eq])
  rw [lead_eq _ _ husable, hdirs.place_eq]
  rw [hnames] at hfollow ⊢
  have hname' : ¬(name = "" ∨ name = ".") := not_or.2 ⟨hname.1.1, hname.2.1⟩
  -- all names but the last lead to directories, and they still do
  have hopen := (open_of_follow_concat hname hfollow).1
  have hopen' := hopen.mono fun _ hq => hdirs.lookup_dir hq
  rw [hopen.follow_append, follow_name_cons _ path hopen.lookup_reach hname'] at hfollow
  rw [hopen'.follow_append, follow_name_cons _ path hopen'.lookup_reach hname']
  exact hfollow

/-- Nothing but the file is changed. -/
theorem insert (hq : w.tree.isDir q = false) (c : Content) :
    (w.withTree (w.tree.insert q (.file c))).IsFilePath path p := by
  refine h.mono ((DirsIn.refl w).insert hq _) ?_
  change (w.tree.insert q (.file c)).isDir p = false
  by_cases hpq : p = q
  · subst hpq
    exact isDir_of_lookup (lookup_insert_self _ h.ne_nil _)
  · exact (isDir_of_lookup (lookup_insert_of_ne _ hpq _)).trans h.isDir_eq

/-- `found` depends on what lies at `p` only. -/
theorem found_congr (h' : v.IsFilePath path p) (hp : v.tree.lookup p = w.tree.lookup p) :
    Run.found path v = Run.found path w := by
  unfold Run.found
  cases hl : w.tree.lookup p with
  | none =>
    rw [find_of_resolve_none h.resolve_eq hl, find_of_resolve_none h'.resolve_eq (hp.trans hl)]
  | some e =>
    rw [find_of_resolve h.resolve_eq hl, find_of_resolve h'.resolve_eq (hp.trans hl)]

end Workspace.IsFilePath

/-! ## Values -/

namespace Json.IsExact

variable {j : Json}

theorem encodeFault?_pretty (h : j.IsExact) (depth : Nat) :
    Utf8.encodeFault? (j.pretty depth) = none := by
  refine Utf8.encodeFault?_eq_none_iff.2 fun c hc => ?_
  rcases (h.readsAs_pretty depth).isPlain c hc with rfl | hplain
  · decide
  · exact isHalf_eq_false_of_lt (Nat.lt_succ_of_le (le_trans hplain.2 (by decide)))

theorem readText_pretty (h : j.IsExact) (depth : Nat) :
    (Content.text (j.pretty depth)).readText = .ok (j.pretty depth) := by
  have hreturn : '\r' ∉ (j.pretty depth).toList := by
    intro hmem
    rcases (h.readsAs_pretty depth).isPlain _ hmem with heq | hplain
    · cases heq
    · exact absurd hplain.1 (by decide)
  change Except.ok _ = _
  rw [unifyNewlines, unifyNewlineChars_of_not_mem hreturn, String.ofList_toList]

end Json.IsExact

namespace Run

variable {w : Workspace} {path : String} {p : Place} {j : Json}

theorem exec_modifyOutside (f : Outside → Outside) (w : Workspace) :
    (modifyOutside f).exec w = (.ok (), { w with outside := f w.outside }) := rfl

theorem exec_readJson_of_file {c : Content} {text : String}
    (h : w.tree.find w.place path = .ok (p, .file c)) (htext : c.readText = .ok text)
    (hparse : Json.parse text = .ok j) : (readJson path).exec w = (.ok j, w) := by
  rw [readJson, exec_bind_ok _ ((exec_readText_of_file h).trans (by rw [htext])), hparse]
  rfl

theorem exec_writeJson (h : w.IsFilePath path p) (hj : j.IsExact) : (writeJson path j).exec w
      = (.ok (), w.withTree (w.tree.insert p (.file (.text (j.pretty 0))))) :=
  exec_writeText h.resolve_eq h.isDir_eq h.endsWith_eq (hj.encodeFault?_pretty 0)

/-- `readJson` gives an exact value `j` if the file holds `j.pretty 0`. -/
theorem exec_readJson_pretty (h : w.IsFilePath path p) (hj : j.IsExact)
    (hp : w.tree.lookup p = some (.file (.text (j.pretty 0)))) :
    (readJson path).exec w = (.ok j, w) :=
  exec_readJson_of_file (find_of_resolve h.resolve_eq hp) (hj.readText_pretty 0)
    (hj.readsAs_pretty 0).parse_eq

/-- What is read from `path` does not change when another file is written. -/
theorem LooksAt.exec_insert {α : Type} {r : Run α} {a : α} {q : Place}
    (h : LooksAt (found path) r) (hpath : w.IsFilePath path p) (hq : w.tree.isDir q = false)
    (hne : p ≠ q) (c : Content) (hr : r.exec w = (.ok a, w)) :
    r.exec (w.withTree (w.tree.insert q (.file c)))
      = (.ok a, w.withTree (w.tree.insert q (.file c))) := by
  have hfound := hpath.found_congr (hpath.insert hq c) (lookup_insert_of_ne _ hne _)
  rw [h _ _ hfound, hr]

/-- `writeJson` changes nothing outside. -/
theorem keeps_outside_writeJson (Q : Outside → Prop) (path : String) (j : Json) :
    Keeps (fun v => Q v.outside) (writeJson path j) := by
  have hcontent : ∀ c, Keeps (fun v => Q v.outside) (writeContent path c) := by
    intro c v hv
    rcases exec_writeContent_cases path c v with heq | ⟨p, -, -, heq⟩
    · rw [heq]
      exact hv
    · rw [heq]
      exact hv
  exact .writeText hcontent _

end Run
end SmellLint
