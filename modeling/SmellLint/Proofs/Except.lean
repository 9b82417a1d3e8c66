import SmellLint.Fault

/-!
# Steps that may fail

What follows from the success of a sequence of steps, and when a list of steps succeeds.
-/

namespace SmellLint

open List

variable {α β : Type}

variable {x : Except Fault α} {f : α → Except Fault β} {e : Fault} {l : List α}

theorem bind_eq_ok {b : β} : x >>= f = .ok b ↔ ∃ a, x = .ok a ∧ f a = .ok b := by
  cases x with
  | error e =>
    refine ⟨fun h => (by cases h), ?_⟩
    rintro ⟨_, h, _⟩
    cases h
  | ok a =>
    refine ⟨fun h => ⟨a, rfl, h⟩, ?_⟩
    rintro ⟨_, ha, h⟩
    cases ha
    exact h

theorem bind_eq_error : x >>= f = .error e ↔ x = .error e ∨ ∃ a, x = .ok a ∧ f a = .error e := by
  cases x with
  | error e' =>
    refine ⟨fun h => .inl (by cases h; rfl), ?_⟩
    rintro (h | ⟨_, h, _⟩)
    · cases h; rfl
    · cases h
  | ok a =>
    refine ⟨fun h => .inr ⟨a, rfl, h⟩, ?_⟩
    rintro (h | ⟨_, ha, h⟩)
    · cases h
    · cases ha; exact h

theorem eq_ok_of_toOption {a : α} (h : x.toOption = some a) : x = .ok a := by
  cases x with
  | error e => cases h
  | ok b => cases h; rfl

theorem mapM_congr {g : α → Except Fault β} (h : ∀ a ∈ l, f a = g a) : l.mapM f = l.mapM g := by
  induction l with
  | nil => rfl
  | cons a l ih =>
    obtain ⟨ha, hl⟩ := forall_mem_cons.1 h
    rw [mapM_cons, mapM_cons, ha, ih hl]

theorem mapM_eq_ok {g : α → β} (h : ∀ a ∈ l, f a = .ok (g a)) : l.mapM f = .ok (l.map g) := by
  induction l with
  | nil => rfl
  | cons a l ih =>
    obtain ⟨ha, hl⟩ := forall_mem_cons.1 h
    rw [mapM_cons, ha, ih hl]
    rfl

/-- `mapM` fails as the first step `b` does that fails. -/
theorem mapM_append_cons_eq_error {g : α → β} {r : List α} {b : α} (h : ∀ a ∈ l, f a = .ok (g a))
    (hb : f b = .error e) :
    (l ++ b :: r).mapM f = .error e := by
  induction l with
  | nil =>
    rw [nil_append, mapM_cons, hb]
    rfl
  | cons a l ih =>
    obtain ⟨ha, hl⟩ := forall_mem_cons.1 h
    rw [cons_append, mapM_cons, ha, ih hl]
    rfl

/-- `mapM` fails as one of its steps does. -/
theorem exists_of_mapM_eq_error (h : l.mapM f = .error e) : ∃ a ∈ l, f a = .error e := by
  induction l with
  | nil => cases h
  | cons a l ih =>
    rw [mapM_cons] at h
    rcases bind_eq_error.1 h with ha | ⟨b, _, h⟩
    · exact ⟨a, mem_cons_self, ha⟩
    · rcases bind_eq_error.1 h with hl | ⟨bs, _, h⟩
      · obtain ⟨a', ha', h'⟩ := ih hl
        exact ⟨a', mem_cons_of_mem a ha', h'⟩
      · cases h

end SmellLint
