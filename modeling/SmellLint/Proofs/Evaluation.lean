import Mathlib.Data.Finset.Basic
import SmellLint.Proofs.Except
import SmellLint.Proofs.Lists
import SmellLint.Training.Evaluation

/-!
# The share of samples that are right

Samples are compared only in the labels that occur among the true ones of some sample.  So a sample
counts as right if its predicted labels, without those that never occur among the true ones, are its
true labels (`hits_of_samples`).  A sample whose two sets of labels are the same always counts, and
a sample with a wrong label counts too, if the label is the true one of no sample.
-/

namespace SmellLint.Evaluation

open List

def Labels.samples (l : Labels) : List (List String × List String) := l.expected.zip l.predicted

/-- The labels that occur among the true ones. -/
def Labels.occurring (l : Labels) : Finset String := l.expected.flatten.toFinset

/-- The two sets of labels of `s` are the same. -/
def IsExact (s : List String × List String) : Prop := s.2.toFinset = s.1.toFinset

instance : DecidablePred IsExact := fun s =>
  inferInstanceAs (Decidable (s.2.toFinset = s.1.toFinset))

/-- The predicted labels of `s` are its true ones, as far as they lie in `labels`. -/
def IsExactIn (labels : Finset String) (s : List String × List String) : Prop :=
  s.2.toFinset ∩ labels = s.1.toFinset

instance (labels : Finset String) : DecidablePred (IsExactIn labels) := fun s =>
  inferInstanceAs (Decidable (s.2.toFinset ∩ labels = s.1.toFinset))

/-! ## Rows -/

theorem row_beq_iff {labels own other : List String} :
    (row labels own == row labels other) = true ↔ ∀ l ∈ labels, l ∈ own ↔ l ∈ other := by
  rw [beq_iff_eq, row, row, map_inj_left]
  refine forall₂_congr fun l _ => ?_
  rw [Bool.eq_iff_iff, contains_iff_mem, contains_iff_mem]

variable {l : Labels}

theorem mem_counted {label : String} : label ∈ counted l.expected ↔ label ∈ l.occurring := by
  rw [counted, mem_eraseDups, Labels.occurring, mem_toFinset]

/-- The true labels of `s` all count. -/
theorem subset_occurring {s : List String × List String} (h : s ∈ l.samples) :
    s.1.toFinset ⊆ l.occurring := by
  intro label hlabel
  rw [mem_toFinset] at hlabel
  exact mem_toFinset.2 (mem_flatten.2 ⟨s.1, (of_mem_zip h).1, hlabel⟩)

/-- Rows are the same for samples whose labels are the same as far as they count. -/
theorem row_beq_iff_isExactIn {s : List String × List String} (h : s ∈ l.samples) :
    (row (counted l.expected) s.1 == row (counted l.expected) s.2) = true ↔
      IsExactIn l.occurring s := by
  rw [row_beq_iff, IsExactIn, Finset.ext_iff]
  refine forall_congr' fun label => ?_
  rw [mem_counted, Finset.mem_inter, mem_toFinset, mem_toFinset]
  have hcounts : label ∈ s.1 → label ∈ l.occurring := fun hlabel =>
    subset_occurring h (mem_toFinset.2 hlabel)
  tauto

/-! ## Hits -/

/-- `paired` goes row by row if there are as many rows. -/
theorem paired_of_length {width : Nat} {xs ys : List (List Bool)} (hlength : xs.length = ys.length)
    (hne : xs ≠ []) : paired width xs ys = .ok (xs.zip ys) := by
  cases xs with
  | nil => exact absurd rfl hne
  | cons x xs =>
    cases ys with
    | nil => cases hlength
    | cons y ys =>
      cases xs with
      | nil =>
        cases ys with
        | nil => rfl
        | cons _ _ => cases hlength
      | cons x' xs =>
        cases ys with
        | nil => cases hlength
        | cons y' ys => exact if_pos hlength

theorem hits_eq (hlength : l.expected.length = l.predicted.length) (hne : l.expected ≠ []) :
    hits l = .ok (l.samples.countP fun s => IsExactIn l.occurring s, l.expected.length) := by
  have hrows : (l.expected.map (row (counted l.expected))).length
      = (l.predicted.map (row (counted l.expected))).length := by
    rw [length_map, length_map, hlength]
  refine bind_eq_ok.2 ⟨_, paired_of_length hrows (by simpa using hne), ?_⟩
  rw [zip_map, countP_map, length_map, ← Labels.samples]
  have hcount : l.samples.length = l.expected.length := by
    rw [Labels.samples, length_zip, hlength, min_self]
  rw [hcount]
  refine congrArg (fun n => Except.ok (n, l.expected.length)) ?_
  refine countP_congr fun s hs => ?_
  rw [decide_eq_true_iff]
  exact row_beq_iff_isExactIn hs

/-- `hits` counts the samples whose predicted labels, without those that never occur among the true
ones, are the true labels (`IsExactIn`).  All samples with the same two sets (`IsExact`) are among
them, and no other ones exactly if none of them has a label more that is nowhere a true one. -/
theorem hits_of_samples {l : Labels} (hlength : l.expected.length = l.predicted.length)
    (hne : l.expected ≠ []) :
    ∃ right, hits l = .ok (right, l.expected.length) ∧
      accuracy l = .ok (Float.ofNat right / Float.ofNat l.expected.length) ∧
      right = l.samples.countP (fun s => IsExactIn l.occurring s) ∧
      l.samples.countP (fun s => IsExact s) ≤ right ∧
      (right = l.samples.countP (fun s => IsExact s) ↔
        ∀ s ∈ l.samples, IsExactIn l.occurring s → s.2.toFinset ⊆ l.occurring) := by
  have hexact : ∀ s ∈ l.samples, IsExact s → IsExactIn l.occurring s := by
    intro s hs h
    rw [IsExactIn, h, Finset.inter_eq_left]
    exact subset_occurring hs
  refine ⟨_, hits_eq hlength hne, ?_, rfl, ?_, ?_⟩
  · rw [accuracy, hits_eq hlength hne]
    rfl
  · exact List.countP_mono_left fun s hs h => by simpa using hexact s hs (by simpa using h)
  · rw [countP_eq_countP_iff fun s hs h => by simpa using hexact s hs (by simpa using h)]
    refine forall₂_congr fun s hs => ?_
    rw [decide_eq_true_iff, decide_eq_true_iff]
    refine forall_congr' fun hin => ?_
    rw [IsExact, ← hin, eq_comm, Finset.inter_eq_left]

/-- A label that is nowhere a true one makes no sample wrong. -/
theorem hits_of_samples_extraLabel :
    hits ⟨[["a"]], [["a", "b"]]⟩ = .ok (1, 1) ∧
      (Labels.mk [["a"]] [["a", "b"]]).samples.countP (fun s => IsExact s) = 0 := by
  obtain ⟨right, hhits, -, hright, -⟩ :=
    hits_of_samples (l := ⟨[["a"]], [["a", "b"]]⟩) rfl (by decide)
  have hone : right = 1 := by
    rw [hright]
    decide
  rw [hone] at hhits
  exact ⟨hhits, by decide⟩

end SmellLint.Evaluation
