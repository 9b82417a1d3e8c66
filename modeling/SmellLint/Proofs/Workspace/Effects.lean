import SmellLint.Proofs.Except
import SmellLint.Workspace.Basic

/-!
# What a run does to its workspace

Equations for running the steps a `Run` is made of, and a way to say what a run does without saying
where it starts.

A workspace is described by the *effects* that led to it: `rep s w` says that `w` is what the
effects `s`, in this order, have made of some first workspace.  `Emits rep r x es` says that `r`
gives `x` (nothing, if it fails) and adds the effects `es`, whatever happened before.  So a run that
emits something neither reads nor is disturbed by what other runs have done, and two of them may
change places.
-/

namespace SmellLint.Run

open List

variable {α β : Type}

/-! ## Running steps one after the other -/

theorem exec_pure (a : α) (w : Workspace) : (pure a : Run α).exec w = (.ok a, w) := rfl

theorem exec_throw (e : Fault) (w : Workspace) : (throw e : Run α).exec w = (.error e, w) := rfl

theorem exec_lift (x : Except Fault α) (w : Workspace) : (lift x).exec w = (x, w) := rfl

theorem exec_get (w : Workspace) : (get : Run Workspace).exec w = (.ok w, w) := rfl

theorem exec_outcome (r : Run α) (w : Workspace) :
    (outcome r).exec w = (.ok (r.exec w).1, (r.exec w).2) := rfl

theorem exec_print (line : String) (w : Workspace) :
    (print line).exec w = (.ok (), { w with printed := (line ++ "\n") :: w.printed }) := rfl

variable {r : Run α} {w w' : Workspace} {a : α} {f : α → Run β} {x : Option β}

theorem exec_bind_ok (f : α → Run β) (h : r.exec w = (.ok a, w')) :
    (r >>= f).exec w = (f a).exec w' := by
  simp only [exec, ExceptT.run, StateT.run] at h
  simp only [exec, ExceptT.run, StateT.run, bind, ExceptT.bind, ExceptT.mk, StateT.bind, h]
  rfl

theorem exec_bind_error {e : Fault} (f : α → Run β) (h : r.exec w = (.error e, w')) :
    (r >>= f).exec w = (.error e, w') := by
  simp only [exec, ExceptT.run, StateT.run] at h
  simp only [exec, ExceptT.run, StateT.run, bind, ExceptT.bind, ExceptT.mk, StateT.bind, h]
  rfl

theorem exec_bind_lift {x : Except Fault α} (g : α → Except Fault β) (h : r.exec w = (x, w')) :
    (r >>= fun a => lift (g a)).exec w = (x >>= g, w') := by
  cases x with
  | error e => exact exec_bind_error _ h
  | ok a => exact exec_bind_ok _ h

theorem exec_outcome_of {x : Except Fault α} (h : r.exec w = (x, w')) :
    (outcome r).exec w = (.ok x, w') := by rw [exec_outcome, h]

/-- What a run comes to if it gives `a`, as evaluating it shows. -/
theorem exec_eq_of_toOption (h : (r.exec w).1.toOption = some a) :
    r.exec w = (.ok a, (r.exec w).2) := Prod.ext (eq_ok_of_toOption h) rfl

/-- If `r >>= f` succeeds, both of its steps do. -/
theorem exec_bind_eq_ok {b : β} (h : (r >>= f).exec w = (.ok b, w')) :
    ∃ a v, r.exec w = (.ok a, v) ∧ (f a).exec v = (.ok b, w') := by
  obtain ⟨x, v, hr⟩ : ∃ x v, r.exec w = (x, v) := ⟨_, _, rfl⟩
  cases x with
  | error e =>
    rw [exec_bind_error f hr] at h
    cases h
  | ok a =>
    rw [exec_bind_ok f hr] at h
    exact ⟨a, v, hr, h⟩

theorem exec_printAll (lines : List String) (w : Workspace) :
    ∃ printed, (printAll lines).exec w = (.ok (), { w with printed }) := by
  induction lines generalizing w with
  | nil => exact ⟨w.printed, rfl⟩
  | cons line lines ih =>
    obtain ⟨printed, hexec⟩ := ih { w with printed := (line ++ "\n") :: w.printed }
    exact ⟨printed, (exec_bind_ok _ (exec_print line w)).trans hexec⟩

/-! ## Effects -/

variable {ε : Type} {rep : List ε → Workspace → Prop} {es es' : List ε}

/-- `r` gives `x` and adds the effects `es`, whatever effects came before. -/
def Emits (rep : List ε → Workspace → Prop) (r : Run α) (x : Option α) (es : List ε) : Prop :=
  ∀ s w, rep s w → (r.exec w).1.toOption = x ∧ rep (s ++ es) (r.exec w).2

theorem Emits.pure (a : α) : Emits rep (pure a : Run α) (some a) [] := by
  intro s w h
  rw [append_nil]
  exact ⟨rfl, h⟩

theorem Emits.throw (e : Fault) : Emits rep (throw e : Run α) none [] := by
  intro s w h
  rw [append_nil]
  exact ⟨rfl, h⟩

theorem Emits.exec_eq {s : List ε} (h : Emits rep r (some a) es) (hw : rep s w) :
    ∃ w', r.exec w = (.ok a, w') ∧ rep (s ++ es) w' := by
  obtain ⟨ha, hw'⟩ := h s w hw
  obtain ⟨y, w', hr⟩ : ∃ y w', r.exec w = (y, w') := ⟨_, _, rfl⟩
  rw [hr] at ha hw'
  cases y with
  | error e => cases ha
  | ok b =>
    cases ha
    exact ⟨w', hr, hw'⟩

theorem Emits.exec_eq_error {s : List ε} (h : Emits rep r none es) (hw : rep s w) :
    ∃ e w', r.exec w = (.error e, w') ∧ rep (s ++ es) w' := by
  obtain ⟨ha, hw'⟩ := h s w hw
  obtain ⟨y, w', hr⟩ : ∃ y w', r.exec w = (y, w') := ⟨_, _, rfl⟩
  rw [hr] at ha hw'
  cases y with
  | error e => exact ⟨e, w', hr, hw'⟩
  | ok b => cases ha

/-- `f a` may rely on the effects `es` that `r` has just added. -/
theorem Emits.bind_after (h : Emits rep r (some a) es) (hf : ∀ s w, rep (s ++ es) w →
      ((f a).exec w).1.toOption = x ∧ rep (s ++ es ++ es') ((f a).exec w).2) :
    Emits rep (r >>= f) x (es ++ es') := by
  intro s w hw
  obtain ⟨w', hr, hw'⟩ := h.exec_eq hw
  rw [exec_bind_ok f hr, ← append_assoc]
  exact hf s w' hw'

theorem Emits.bind (h : Emits rep r (some a) es) (hf : Emits rep (f a) x es') :
    Emits rep (r >>= f) x (es ++ es') :=
  h.bind_after fun s w hw => hf (s ++ es) w hw

theorem Emits.bind_none (h : Emits rep r none es) : Emits rep (r >>= f) none es := by
  intro s w hw
  obtain ⟨e, w', hr, hw'⟩ := h.exec_eq_error hw
  rw [exec_bind_error f hr]
  exact ⟨rfl, hw'⟩

/-- `f` goes on with the result `a` of a run that succeeds. -/
theorem Emits.attempt {f : Except Fault α → Run β} (h : Emits rep r (some a) es)
    (hf : Emits rep (f (.ok a)) x es') :
    Emits rep (outcome r >>= f) x (es ++ es') := by
  intro s w hw
  obtain ⟨w', hr, hw'⟩ := h.exec_eq hw
  rw [exec_bind_ok f (exec_outcome_of hr), ← append_assoc]
  exact hf _ _ hw'

/-- `f` must not depend on why `r` failed. -/
theorem Emits.attempt_none {f : Except Fault α → Run β} (h : Emits rep r none es)
    (hf : ∀ e, Emits rep (f (.error e)) x es') :
    Emits rep (outcome r >>= f) x (es ++ es') := by
  intro s w hw
  obtain ⟨e, w', hr, hw'⟩ := h.exec_eq_error hw
  rw [exec_bind_ok f (exec_outcome_of hr), ← append_assoc]
  exact hf e _ _ hw'

theorem Emits.mapM {value : α → β} {es : α → List ε} {l : List α}
    (h : ∀ a ∈ l, Emits rep (f a) (some (value a)) (es a)) :
    Emits rep (l.mapM f) (some (l.map value)) (l.flatMap es) := by
  induction l with
  | nil => exact .pure []
  | cons a l ih =>
    rw [mapM_cons]
    refine (h a mem_cons_self).bind ?_
    have := (ih fun b hb => h b (mem_cons_of_mem a hb)).bind
      (f := fun bs => (Pure.pure (value a :: bs) : Run (List β))) (.pure _)
    rwa [append_nil] at this

/-! ## Runs without effects -/

/-- `r` gives the outcome `x`, failed or not, and has no effects. -/
def Reads (rep : List ε → Workspace → Prop) (r : Run α) (x : Except Fault α) : Prop :=
  ∀ s w, rep s w → ∃ w', r.exec w = (x, w') ∧ rep s w'

theorem Reads.bind {y : Except Fault β} (h : Reads rep r (.ok a)) (hf : Reads rep (f a) y) :
    Reads rep (r >>= f) y := by
  intro s w hw
  obtain ⟨w', hr, hw'⟩ := h s w hw
  rw [exec_bind_ok f hr]
  exact hf s w' hw'

theorem Reads.outcome {x : Except Fault α} (h : Reads rep r x) : Reads rep (outcome r) (.ok x) := by
  intro s w hw
  obtain ⟨w', hr, hw'⟩ := h s w hw
  exact ⟨w', by rw [exec_outcome, hr], hw'⟩

theorem Reads.lift (x : Except Fault α) : Reads rep (lift x) x := fun _ w hw => ⟨w, rfl, hw⟩

theorem Reads.pure (a : α) : Reads rep (pure a : Run α) (.ok a) := fun _ w hw => ⟨w, rfl, hw⟩

theorem Reads.emits (h : Reads rep r (.ok a)) : Emits rep r (some a) [] := by
  intro s w hw
  obtain ⟨w', hr, hw'⟩ := h s w hw
  rw [hr, append_nil]
  exact ⟨rfl, hw'⟩

theorem Emits.bind_reads {b : β} (h : Emits rep r (some a) es) (hf : Reads rep (f a) (.ok b)) :
    Emits rep (r >>= f) (some b) es := by
  rw [← append_nil es]
  exact h.bind hf.emits

/-! ## Runs whose effects depend on nothing -/

/-- `r` always has the same result and effects, all of them of one `kind`. -/
def Steady (rep : List ε → Workspace → Prop) (kind : ε → Prop) (r : Run α) : Prop :=
  ∃ x es, (∀ e ∈ es, kind e) ∧ Emits rep r x es

variable {kind : ε → Prop}

theorem Steady.pure (a : α) : Steady rep kind (pure a : Run α) :=
  ⟨some a, [], forall_mem_nil _, .pure a⟩

theorem Steady.throw (e : Fault) : Steady rep kind (throw e : Run α) :=
  ⟨none, [], forall_mem_nil _, .throw e⟩

theorem Steady.bind (h : Steady rep kind r) (hf : ∀ a, Steady rep kind (f a)) :
    Steady rep kind (r >>= f) := by
  obtain ⟨x, es, hes, hr⟩ := h
  cases x with
  | none => exact ⟨none, es, hes, hr.bind_none⟩
  | some a =>
    obtain ⟨y, es', hes', hy⟩ := hf a
    exact ⟨y, es ++ es', forall_mem_append.2 ⟨hes, hes'⟩, hr.bind hy⟩

theorem Steady.of_reads (h : Reads rep r (.ok a)) : Steady rep kind r :=
  ⟨some a, [], forall_mem_nil _, h.emits⟩

theorem Steady.bind_reads (h : Reads rep r (.ok a)) (hf : Steady rep kind (f a)) :
    Steady rep kind (r >>= f) := by
  obtain ⟨x, es, hes, hx⟩ := hf
  exact ⟨x, es, hes, h.emits.bind hx⟩

theorem Steady.mapM {l : List α} (h : ∀ a ∈ l, Steady rep kind (f a)) :
    Steady rep kind (l.mapM f) := by
  induction l with
  | nil => exact .pure []
  | cons a l ih =>
    rw [mapM_cons]
    refine (h a mem_cons_self).bind fun b => ?_
    exact (ih fun c hc => h c (mem_cons_of_mem a hc)).bind fun bs => .pure _

end SmellLint.Run
