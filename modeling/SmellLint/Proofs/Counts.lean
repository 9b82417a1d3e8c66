import SmellLint.Proofs.Workspace.Trees
import SmellLint.Service.Tally
import Mathlib.Algebra.BigOperators.Group.List.Lemmas
import Mathlib.Algebra.Order.BigOperators.Group.List
import Mathlib.Algebra.Order.Ring.Nat

/-!
# Counts of groups

Rows that are grouped by texts give every text once, in order, with its number of rows
(`tallies_countGroups`), so that the numbers add up to that of the rows (`Tallies.sum_eq`).
Projects in a request are counted by pairs of a smell and a file: all smells are counted only if no
project has more smells than files (`tallyProjects_of_pairs`).
-/

namespace SmellLint

open List

namespace Table

/-! ## Groups of texts -/

/-- `counts` tell how often each text of `keys` occurs there, each text once and in order. -/
def Tallies (keys : List String) (counts : List (Cell × Nat)) : Prop :=
  ∃ names : List String, names.Pairwise (· < ·) ∧ (∀ s, s ∈ names ↔ s ∈ keys) ∧
    counts = names.map fun s => (.text s, keys.count s)

theorem nodup_of_pairwise_lt {names : List String} (h : names.Pairwise (· < ·)) : names.Nodup := by
  refine h.imp ?_
  rintro s _ hlt rfl
  exact String.lt_irrefl s hlt

theorem Tallies.sum_eq {keys : List String} {counts : List (Cell × Nat)}
    (h : Tallies keys counts) : (counts.map Prod.snd).sum = keys.length := by
  obtain ⟨names, hsorted, hmem, rfl⟩ := h
  have hperm : names.Perm keys.dedup := by
    refine (perm_ext_iff_of_nodup (nodup_of_pairwise_lt hsorted) keys.nodup_dedup).2 fun s => ?_
    rw [hmem, mem_dedup]
  rw [map_map, ← sum_map_count_dedup_eq_length]
  exact (hperm.map keys.count).sum_eq

/-- `addToGroup` gives a text `k` that is counted its group or a new one at the end. -/
theorem addToGroup_text {names : List String} (hnodup : names.Nodup) (count : String → Nat)
    {k : String} (hk : k ∉ names → count k = 0) :
    addToGroup (.text k) 1 (names.map fun s => (.text s, count s))
      = (if k ∈ names then names else names ++ [k]).map fun s =>
          (.text s, count s + if k = s then 1 else 0) := by
  induction names with
  | nil => simp [addToGroup, hk]
  | cons s names ih =>
    obtain ⟨hs, hnames⟩ := nodup_cons.1 hnodup
    rw [map_cons, addToGroup]
    by_cases hsk : s = k
    · subst hsk
      have hrest : (names.map fun s' => ((.text s', count s') : Cell × Nat))
          = names.map fun s' => (.text s', count s' + if s = s' then 1 else 0) := by
        refine map_congr_left fun s' hs' => ?_
        have hne : s ≠ s' := by
          rintro rfl
          exact hs hs'
        rw [if_neg hne, add_zero]
      simp [Cell.sameKey, hrest]
    · have hrest := ih hnames fun hmem => hk fun hcons => (mem_cons.1 hcons).elim
        (fun h => hsk h.symm) hmem
      have hmem : k ∈ s :: names ↔ k ∈ names := by
        rw [mem_cons]
        exact or_iff_right (Ne.symm hsk)
      simp only [Cell.sameKey, beq_false_of_ne hsk, Bool.false_eq_true, if_false, hrest, hmem]
      split_ifs <;> simp [Ne.symm hsk]

/-- `addToGroup` of `keys` one after the other makes a group for each of them. -/
theorem exists_foldl_addToGroup (keys : List String) :
    ∃ names : List String, names.Nodup ∧ (∀ s, s ∈ names ↔ s ∈ keys) ∧
      keys.foldl (fun groups k => addToGroup (.text k) 1 groups) []
        = names.map fun s => (.text s, keys.count s) := by
  induction keys using reverseRecOn with
  | nil => exact ⟨[], nodup_nil, by simp, rfl⟩
  | append_singleton keys k ih =>
    obtain ⟨names, hnodup, hmem, hfold⟩ := ih
    have hnew : k ∉ names → keys.count k = 0 := fun hk => count_eq_zero.2 (mt (hmem k).2 hk)
    refine ⟨if k ∈ names then names else names ++ [k], ?_, fun s => ?_, ?_⟩
    · split_ifs with hk
      · exact hnodup
      · rw [← concat_eq_append]
        exact hnodup.concat hk
    · split_ifs with hk <;> grind
    · rw [foldl_concat, hfold, addToGroup_text hnodup _ hnew]
      simp [count_singleton]

/-- `countGroups` of `rows` grouped by texts gives every text once, in order, with its number of
rows. -/
theorem tallies_countGroups {α : Type} (rows : List α) (f g : α → String) :
    Tallies (rows.map f) (countGroups (rows.map fun r => (.text (f r), .text (g r)))) := by
  obtain ⟨names, hnodup, hmem, hfold⟩ := exists_foldl_addToGroup _
  have hsorted : (names.mergeSort fun a b => decide (a ≤ b)).Pairwise (· ≤ ·) :=
    pairwise_mergeSort_le id names
  have hperm := mergeSort_perm names fun a b => decide (a ≤ b)
  refine ⟨names.mergeSort fun a b => decide (a ≤ b), ?_, fun s => hperm.mem_iff.trans (hmem s), ?_⟩
  · refine (hsorted.and (hperm.nodup_iff.2 hnodup)).imp ?_
    rintro a b ⟨hle, hne⟩
    by_contra hlt
    exact hne (String.le_antisymm hle (String.not_lt.1 hlt))
  · rw [foldl_map] at hfold
    simp only [countGroups, foldl_map, Cell.isMissing, Bool.false_eq_true, if_false, hfold]
    refine (map_mergeSort fun a _ b _ => ?_).symm
    rfl

end Table

/-- Nothing is lost by `min` only if `f` is nowhere greater than `g`. -/
theorem sum_map_min_eq_iff {α : Type} (f g : α → Nat) (l : List α) :
    (l.map fun a => min (f a) (g a)).sum = (l.map f).sum ↔ ∀ a ∈ l, f a ≤ g a := by
  induction l with
  | nil => simp
  | cons a l ih =>
    have hle : (l.map fun a => min (f a) (g a)).sum ≤ (l.map f).sum :=
      sum_le_sum fun a _ => min_le_left (f a) (g a)
    rw [forall_mem_cons, ← ih, map_cons, map_cons, sum_cons, sum_cons]
    omega

namespace Service

/-! ## Smells of projects -/

def smellNames (projects : List ReportedProject) : List String :=
  projects.flatMap fun p => p.smells.map ReportedSmell.smell

/-- The names of the smells of `projects` that have a file at the same place. -/
def pairedNames (projects : List ReportedProject) : List String :=
  projects.flatMap fun p => (p.smells.take p.files.length).map ReportedSmell.smell

/-- Every smell of `projects` is counted; there are no counts only if there is no smell. -/
def CountsAll (projects : List ReportedProject) (counts? : Option (List (Cell × Nat))) : Prop :=
  (counts? = none ↔ smellNames projects = []) ∧
    ∀ counts, counts? = some counts → Table.Tallies (smellNames projects) counts

variable (projects : List ReportedProject)

theorem length_smellNames :
    (smellNames projects).length = (projects.map fun p => p.smells.length).sum := by
  simp [smellNames]

theorem length_pairedNames : (pairedNames projects).length
    = (projects.map fun p => min p.smells.length p.files.length).sum := by
  simp [pairedNames, min_comm]

/-- The smells of `p` beside its files. -/
def pairsOf (p : ReportedProject) : List (String × String) :=
  (p.smells.map ReportedSmell.smell).zip (p.files.map ReportedFile.name)

theorem tallyProjects_eq : tallyProjects projects = if projects.flatMap pairsOf = [] then none else
      some (Table.countGroups
        ((projects.flatMap pairsOf).map fun r => (.text r.1, .text r.2))) := by
  have hpairs : ∀ p : ReportedProject, smellPairs (p.smells.map fun s => some (.text s.smell))
      (p.files.map fun f => .text f.name) = (pairsOf p).map fun r => (.text r.1, .text r.2) := by
    intro p
    rw [smellPairs, pairsOf, zip_map, zip_map, filterMap_map, map_map]
    exact congrFun filterMap_eq_map _
  simp [tallyProjects, tally, flatMap_map, hpairs, ← map_flatMap]

theorem map_fst_pairsOf : (projects.flatMap pairsOf).map Prod.fst = pairedNames projects := by
  rw [map_flatMap]
  refine flatMap_congr fun p _ => ?_
  rw [pairsOf, zip_eq_zip_take_min, map_fst_zip (by simp), ← map_take]
  simp [min_comm]

/-- `tallyProjects` counts a smell if its project has a file at its place, and the counts are those
of these smells.  So all smells are counted if no project has more smells than files, and only then.
-/
theorem tallyProjects_of_pairs (projects : List ReportedProject) :
    (tallyProjects projects = none ↔ pairedNames projects = []) ∧
    (∀ counts, tallyProjects projects = some counts →
      Table.Tallies (pairedNames projects) counts ∧ (counts.map Prod.snd).sum
        = (projects.map fun p => min p.smells.length p.files.length).sum) ∧
    (CountsAll projects (tallyProjects projects) ↔
      ∀ p ∈ projects, p.smells.length ≤ p.files.length) := by
  have hnone : tallyProjects projects = none ↔ pairedNames projects = [] := by
    rw [tallyProjects_eq, ← map_fst_pairsOf, map_eq_nil_iff]
    split_ifs with h <;> simp [h]
  have hsome : ∀ counts, tallyProjects projects = some counts →
      Table.Tallies (pairedNames projects) counts := by
    intro counts h
    rw [tallyProjects_eq] at h
    split_ifs at h
    cases h
    rw [← map_fst_pairsOf]
    exact Table.tallies_countGroups _ Prod.fst Prod.snd
  refine ⟨hnone, fun counts h => ⟨hsome counts h, ?_⟩, fun hall => ?_, fun hle => ?_⟩
  · rw [(hsome counts h).sum_eq, length_pairedNames]
  · -- counts of all smells have the same sum as those of the pairs
    rw [← sum_map_min_eq_iff, ← length_pairedNames, ← length_smellNames]
    cases h : tallyProjects projects with
    | none => rw [hnone.1 h, hall.1.1 h]
    | some counts => rw [← (hsome counts h).sum_eq, (hall.2 counts h).sum_eq]
  · have hnames : pairedNames projects = smellNames projects :=
      flatMap_congr fun p hp => by rw [take_of_length_le (hle p hp)]
    exact ⟨hnames ▸ hnone, fun counts h => hnames ▸ hsome counts h⟩

end Service
end SmellLint
