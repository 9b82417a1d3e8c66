import Mathlib.Data.List.Basic

/-!
# Facts about lists

What the library does not say about lists: filters and ordered lists, and lists of results.
-/

namespace SmellLint

open List

/-! ## Filters and tests -/

theorem flatMap_filter {α β : Type} (p : α → Bool) (q : α → List β) (l : List α) :
    (l.filter p).flatMap q = l.flatMap fun a => if p a then q a else [] := by
  induction l with
  | nil => rfl
  | cons a l ih => by_cases h : p a = true <;> simp [h, ih]

theorem map_filter_eq_flatMap {α β : Type} (p : α → Bool) (q : α → β) (l : List α) :
    (l.filter p).map q = l.flatMap fun a => if p a then [q a] else [] := by
  rw [map_eq_flatMap, flatMap_filter]

theorem flatMap_filter_of_nil {α β : Type} {f : α → List β} {p : α → Bool} {l : List α}
    (h : ∀ a ∈ l, p a = false → f a = []) : (l.filter p).flatMap f = l.flatMap f := by
  rw [flatMap_filter]
  refine flatMap_congr fun a ha => ?_
  split
  · rfl
  · next hp => exact (h a ha (Bool.eq_false_iff.2 hp)).symm

/-- `p'` holds of what an element becomes by `g` if `p` holds of an element. -/
theorem any_map_congr {α β : Type} {g : α → β} {p : α → Bool} {p' : β → Bool} {l : List α}
    (h : ∀ a ∈ l, p' (g a) = p a) : (l.map g).any p' = l.any p := by
  induction l with
  | nil => rfl
  | cons a l ih =>
    obtain ⟨ha, hl⟩ := forall_mem_cons.1 h
    rw [map_cons, any_cons, any_cons, ha, ih hl]

/-- `q`, which `p` implies, counts the same if it accepts the same. -/
theorem countP_eq_countP_iff {α : Type} {p q : α → Bool} {l : List α}
    (h : ∀ a ∈ l, p a = true → q a = true) :
    l.countP q = l.countP p ↔ ∀ a ∈ l, q a = true → p a = true := by
  induction l with
  | nil => simp
  | cons a l ih =>
    obtain ⟨ha, hl⟩ := forall_mem_cons.1 h
    have hle := countP_mono_left hl
    rw [forall_mem_cons, ← ih hl, countP_cons, countP_cons]
    by_cases hp : p a = true
    · rw [if_pos (ha hp)]
      simp [hp]
    · by_cases hq : q a = true
      · -- only the weaker test accepts the head, and the rest cannot make up for it
        rw [if_pos hq, if_neg hp]
        exact ⟨fun heq => by omega, fun h => absurd (h.1 hq) hp⟩
      · rw [if_neg hp]
        simp [hq]

/-! ## Ordered lists -/

theorem pairwise_mergeSort_le {α : Type} (name : α → String) (l : List α) :
    (l.mergeSort fun a b => decide (name a ≤ name b)).Pairwise fun a b => name a ≤ name b := by
  refine (pairwise_mergeSort ?_ ?_ _).imp fun h => of_decide_eq_true h
  · intro a b c hab hbc
    exact decide_eq_true (String.le_trans (of_decide_eq_true hab) (of_decide_eq_true hbc))
  · intro a b
    rw [Bool.or_eq_true]
    exact (String.le_total (name a) (name b)).imp decide_eq_true decide_eq_true

/-- Lists in a strict order `r` are the same if they have the same elements. -/
theorem eq_of_pairwise_of_mem_iff {α : Type} {r : α → α → Prop} (hr : ∀ {a b}, r a b → ¬r b a)
    {l l' : List α} (h : l.Pairwise r) (h' : l'.Pairwise r) (hmem : ∀ a, a ∈ l ↔ a ∈ l') :
    l = l' := by
  have hnodup {l : List α} (h : l.Pairwise r) : l.Nodup := by
    refine Pairwise.imp ?_ h
    rintro a _ haa rfl
    exact hr haa haa
  exact ((perm_ext_iff_of_nodup (hnodup h) (hnodup h')).2 hmem).eq_of_pairwise
    (fun _ _ _ _ hab hba => absurd hba (hr hab)) h h'

/-- In a list in the order `r`, an element comes before the first one that fails `p` if it comes
before all of those. -/
theorem mem_takeWhile_iff {α : Type} {r : α → α → Prop} (hr : ∀ a b, r a b → ¬r b a) {p : α → Bool}
    {l : List α} (hl : l.Pairwise r) {a : α} :
    a ∈ l.takeWhile p ↔ a ∈ l ∧ ∀ b ∈ l, p b = false → r a b := by
  induction l with
  | nil => simp
  | cons c l ih =>
    obtain ⟨hc, hl⟩ := pairwise_cons.1 hl
    cases hp : p c with
    | false =>
      simp only [takeWhile_cons, hp, Bool.false_eq_true, if_false, not_mem_nil, false_iff, not_and]
      intro ha hall
      have hac := hall c mem_cons_self hp
      rcases mem_cons.1 ha with rfl | ha
      · exact hr a a hac hac
      · exact hr a c hac (hc a ha)
    | true =>
      simp only [takeWhile_cons, hp, if_true, mem_cons, ih hl, forall_eq_or_imp,
        Bool.true_eq_false, false_implies, true_and]
      constructor
      · rintro (rfl | ⟨ha, hall⟩)
        · exact ⟨.inl rfl, fun b hb _ => hc b hb⟩
        · exact ⟨.inr ha, hall⟩
      · rintro ⟨rfl | ha, hall⟩
        · exact .inl rfl
        · exact .inr ⟨ha, hall⟩

/-- The first of the things `found` at `places` is found at the first of the places. -/
theorem exists_first_of_find? {α β : Type} {R : α → α → Prop} {places : List α}
    (hplaces : places.Pairwise R) {found : α → Option β} {p : β → Bool} {b : β}
    (h : (places.filterMap found).find? p = some b) :
    ∃ a, found a = some b ∧
      ∀ a' ∈ places, ∀ b', found a' = some b' → p b' = true → a' = a ∨ R a a' := by
  obtain ⟨-, before, after, heq, hbefore⟩ := find?_eq_some_iff_append.1 h
  obtain ⟨as, rest, rfl, rfl, hrest⟩ := filterMap_eq_append_iff.1 heq
  obtain ⟨nones, a, others, rfl, hnones, ha, -⟩ := filterMap_eq_cons_iff.1 hrest
  refine ⟨a, ha, fun a' ha' b' hb' hp => ?_⟩
  rcases mem_append.1 ha' with hmem | hmem
  · have hnot := hbefore b' (mem_filterMap.2 ⟨a', hmem, hb'⟩)
    simp [hp] at hnot
  rcases mem_append.1 hmem with hmem | hmem
  · rw [hnones a' hmem] at hb'
    cases hb'
  rcases mem_cons.1 hmem with rfl | hmem
  · exact .inl rfl
  · have hlater := (pairwise_append.1 (pairwise_append.1 hplaces).2.1).2.1
    exact .inr (rel_of_pairwise_cons hlater hmem)

/-! ## Elements -/

theorem exists_cons_cons {α : Type} {l : List α} (h : 2 ≤ l.length) : ∃ a b r, l = a :: b :: r := by
  cases l with
  | nil => simp at h
  | cons a l =>
    cases l with
    | nil => simp at h
    | cons b r => exact ⟨a, b, r, rfl⟩

/-- No value is left twice when later repetitions are taken out. -/
theorem nodup_eraseDups {α : Type} [BEq α] [LawfulBEq α] (l : List α) : l.eraseDups.Nodup := by
  cases l with
  | nil => exact nodup_nil
  | cons a l =>
    rw [eraseDups_cons, nodup_cons]
    exact ⟨by simp, nodup_eraseDups _⟩
termination_by l.length
decreasing_by exact Nat.lt_succ_of_le (length_filter_le _ _)

theorem forall_mem_of_mapM {α β : Type} {f : α → Option β} {Q : β → Prop} {l : List α}
    {bs : List β} (h : l.mapM f = some bs) (hf : ∀ a ∈ l, ∀ b, f a = some b → Q b) :
    ∀ b ∈ bs, Q b := by
  induction l generalizing bs with
  | nil => cases h; exact forall_mem_nil _
  | cons a l ih =>
    rw [mapM_cons] at h
    obtain ⟨b, hb, h⟩ := Option.bind_eq_some_iff.1 h
    obtain ⟨rest, hrest, h⟩ := Option.bind_eq_some_iff.1 h
    cases h
    have ha := hf a mem_cons_self b hb
    have hl := ih hrest fun x hx => hf x (mem_cons_of_mem a hx)
    exact forall_mem_cons.2 ⟨ha, hl⟩

end SmellLint
