import Mathlib.Algebra.Order.BigOperators.Group.Finset
import SmellLint.Dataset.Balance
import SmellLint.Proofs.Except
import SmellLint.Proofs.Workspace.Effects

/-!
# Balanced datasets

Samples are drawn label by label, so that how often a label is drawn depends on the draws for all
the labels that its samples carry.  A number bounds this for every way to draw exactly if it bounds
the worst one (`Balance.forall_countP_balance_iff`), and this is what can be said of a dataset that
is put together from well-formed entries (`Balance.buildFull_of_entries`).
-/

namespace SmellLint

open Atom List Run

/-! ## Drawing -/

namespace Draw

variable {α : Type}

/-- `d` gives so many items of a list, none more often than it is there. -/
def IsFair (d : Draw α) : Prop :=
  ∀ n (items : List α), n ≤ items.length →
    (d.pick n items).length = n ∧ (d.pick n items).Subperm items

theorem atMost_eq (d : Draw α) {count : Int} (h : 0 ≤ count) (items : List α) :
    d.atMost count items = .ok (d.pick (min count.toNat items.length) items) := by
  rw [atMost, sample, if_neg]
  · congr 2
    omega
  · simp only [Bool.or_eq_true, decide_eq_true_eq]
    omega

/-- The draw that takes the items with `p` first. -/
def preferring (p : α → Bool) : Draw α :=
  ⟨fun n items => (items.filter p ++ items.filter (!p ·)).take n⟩

theorem isFair_preferring (p : α → Bool) : (preferring p).IsFair := by
  intro n items hn
  have hperm := filter_append_perm p items
  refine ⟨?_, (take_sublist _ _).subperm.trans hperm.subperm⟩
  rw [preferring, length_take, hperm.length_eq]
  omega

theorem countP_preferring (p : α → Bool) (n : Nat) (items : List α) :
    ((preferring p).pick n items).countP p = min n (items.countP p) := by
  have hfirst : ((items.filter p).take n).countP p = min n (items.countP p) := by
    rw [countP_eq_length.2 fun a ha => (mem_filter.1 (mem_of_mem_take ha)).2, length_take,
      countP_eq_length_filter]
  have hlast : ∀ k, ((items.filter (!p ·)).take k).countP p = 0 := by
    intro k
    refine countP_eq_zero.2 fun a ha => ?_
    simpa using (mem_filter.1 (mem_of_mem_take ha)).2
  show (take n _).countP p = _
  rw [take_append, countP_append, hfirst, hlast, add_zero]

end Draw

namespace Balance

/-! ## Samples by label -/

def ofTexts (s : Sample String) : Sample Atom := ⟨s.code, s.labels.map .text⟩

def carries (label : String) (s : Sample Atom) : Bool := s.labels.any (same (.text label))

theorem same_text (l m : String) : same (.text l) (.text m) = (l == m) := rfl

theorem carries_ofTexts {label : String} {s : Sample String} :
    carries label (ofTexts s) = true ↔ label ∈ s.labels := by
  simp [carries, ofTexts, same_text]

theorem ofTexts_injective : ofTexts.Injective := by
  rintro ⟨c, l⟩ ⟨c', l'⟩ h
  simp only [ofTexts, Sample.mk.injEq] at h ⊢
  exact ⟨h.1, map_injective_iff.2 (fun _ _ => text.inj) h.2⟩

/-- The samples of `pool` for `label`: each as often as it carries it. -/
def samplesFor (pool : List (Sample String)) (label : String) : List (Sample Atom) :=
  pool.flatMap fun s => replicate (s.labels.count label) (ofTexts s)

/-- `gs` has each `group` that is not empty once, under its text. -/
def Lists (gs : List (Atom × List (Sample Atom))) (group : String → List (Sample Atom)) : Prop :=
  ∃ names : List String, names.Nodup ∧ (∀ m, m ∈ names ↔ group m ≠ []) ∧
    gs = names.map fun m => (.text m, group m)

variable {gs : List (Atom × List (Sample Atom))} {group : String → List (Sample Atom)}

theorem addTo_map {names : List String} (hnodup : names.Nodup) (label : String) (s : Sample Atom) :
    addTo (.text label) s (names.map fun m => (.text m, group m))
      = names.map (fun m => (.text m, group m ++ if m = label then [s] else []))
        ++ if label ∈ names then [] else [(.text label, [s])] := by
  induction names with
  | nil => rfl
  | cons m names ih =>
    obtain ⟨hm, hnodup⟩ := nodup_cons.1 hnodup
    rw [map_cons, addTo, same_text, ih hnodup]
    by_cases heq : m = label
    · subst heq
      have hrest : names.map (fun n => (text n, group n ++ if n = m then [s] else []))
          = names.map fun n => (.text n, group n) := by
        refine map_congr_left fun n hn => ?_
        rw [if_neg (ne_of_mem_of_not_mem hn hm), append_nil]
      simp [hrest]
    · simp [heq, Ne.symm heq]

theorem Lists.addTo (h : Lists gs group) (label : String) (s : Sample Atom) :
    Lists (addTo (.text label) s gs) fun m => group m ++ if m = label then [s] else [] := by
  obtain ⟨names, hnodup, hmem, rfl⟩ := h
  rw [addTo_map hnodup]
  by_cases hlabel : label ∈ names
  · refine ⟨names, hnodup, fun m => ?_, by simp [hlabel]⟩
    by_cases hm : m = label
    · simp [hm, hlabel]
    · simp [hm, hmem]
  · have hempty : group label = [] := by simpa [hmem] using hlabel
    refine ⟨names ++ [label], ?_, fun m => ?_, by simp [hlabel, hempty]⟩
    · exact nodup_append.2 ⟨hnodup, nodup_singleton _, by
        rintro a ha b hb rfl
        exact hlabel (mem_singleton.1 hb ▸ ha)⟩
    · by_cases hm : m = label
      · simp [hm]
      · simp [hm, hmem]

theorem Lists.addSample (h : Lists gs group) (s : Sample String) :
    Lists (addSample gs (labelled (ofTexts s)))
      fun m => group m ++ replicate (s.labels.count m) (ofTexts s) := by
  show Lists ((s.labels.map text).foldl _ gs) _
  induction s.labels generalizing gs group with
  | nil => simpa using h
  | cons label labels ih =>
    have hcount : ∀ m, (if m = label then [ofTexts s] else []) ++
        replicate (labels.count m) (ofTexts s)
        = replicate ((label :: labels).count m) (ofTexts s) := by
      intro m
      by_cases hm : m = label
      · simp [hm, replicate_succ]
      · simp [hm, Ne.symm hm]
    have := ih (h.addTo label (ofTexts s))
    simp only [append_assoc, hcount] at this
    exact this

theorem lists_byLabel (pool : List (Sample String)) :
    Lists (byLabel ((pool.map ofTexts).map labelled)) (samplesFor pool) := by
  have hfrom : ∀ gs group, Lists gs group →
      Lists (((pool.map ofTexts).map labelled).foldl addSample gs)
        fun m => group m ++ samplesFor pool m := by
    induction pool with
    | nil => simp [samplesFor]
    | cons s pool ih =>
      intro gs group h
      have := ih _ _ (h.addSample s)
      simp only [append_assoc] at this
      exact this
  exact hfrom _ (fun _ => []) ⟨[], nodup_nil, by simp, rfl⟩

variable {pool : List (Sample String)}

theorem carries_of_mem_samplesFor {label : String} {s : Sample Atom}
    (h : s ∈ samplesFor pool label) : carries label s = true := by
  obtain ⟨r, -, hs⟩ := mem_flatMap.1 h
  obtain ⟨hcount, rfl⟩ := mem_replicate.1 hs
  exact carries_ofTexts.2 (count_pos_iff.1 (pos_of_ne_zero hcount))

theorem samplesFor_ne_nil {label : String} :
    samplesFor pool label ≠ [] ↔ label ∈ pool.flatMap Sample.labels := by
  simp [samplesFor, count_eq_zero]

/-- The most samples of `pool` with `label` that can be drawn: for each label as many as there are
for it and carry `label`, up to `count`. -/
def most (count : Nat) (pool : List (Sample String)) (label : String) : Nat :=
  ∑ m ∈ (pool.flatMap Sample.labels).toFinset,
    min count ((samplesFor pool m).countP (carries label))

/-- The samples that `balance` draws, label by label. -/
theorem exists_balance (d : Draw (Sample Atom)) {perLabel : Int} (h : 0 ≤ perLabel)
    (pool : List (Sample String)) :
    ∃ drawn, balance d perLabel ((pool.map ofTexts).map labelled) = .ok drawn ∧
      ∀ p, drawn.countP p = ∑ m ∈ (pool.flatMap Sample.labels).toFinset,
        (d.pick (min perLabel.toNat (samplesFor pool m).length) (samplesFor pool m)).countP p := by
  obtain ⟨names, hnodup, hmem, heq⟩ := lists_byLabel pool
  have hnames : names.toFinset = (pool.flatMap Sample.labels).toFinset := by
    ext m
    rw [mem_toFinset, mem_toFinset, hmem, samplesFor_ne_nil]
  refine ⟨names.flatMap fun m =>
    d.pick (min perLabel.toNat (samplesFor pool m).length) (samplesFor pool m), ?_, fun p => ?_⟩
  · rw [balance, heq, mapM_eq_ok fun g _ => d.atMost_eq h g.2, map_map]
    rfl
  · rw [← hnames, sum_toFinset _ hnodup, countP_flatMap]
    rfl

theorem countP_pick_le {d : Draw (Sample Atom)} (hd : d.IsFair) (p : Sample Atom → Bool) (n : Nat)
    (items : List (Sample Atom)) :
    (d.pick (min n items.length) items).countP p ≤ min n (items.countP p) := by
  obtain ⟨hlength, hsub⟩ := hd _ items (min_le_right n _)
  refine Nat.le_min.2 ⟨?_, hsub.countP_le p⟩
  exact countP_le_length.trans (hlength.trans_le (min_le_left _ _))

/-- Of each label there are as many as wanted, as far as there are any. -/
theorem le_countP_balance {d : Draw (Sample Atom)} (hd : d.IsFair) {n : Nat}
    {drawn : List (Sample Atom)}
    (hcount : ∀ p, drawn.countP p = ∑ m ∈ (pool.flatMap Sample.labels).toFinset,
      (d.pick (min n (samplesFor pool m).length) (samplesFor pool m)).countP p) (label : String) :
    min n (samplesFor pool label).length ≤ drawn.countP (carries label) := by
  rw [hcount]
  by_cases hlabel : label ∈ pool.flatMap Sample.labels
  · obtain ⟨hlength, hsub⟩ := hd _ _ (min_le_right n _)
    refine le_trans ?_ (Finset.single_le_sum (fun _ _ => Nat.zero_le _) (mem_toFinset.2 hlabel))
    rw [countP_eq_length.2 fun s hs => carries_of_mem_samplesFor (hsub.subset hs), hlength]
  · rw [← samplesFor_ne_nil, not_not] at hlabel
    simp [hlabel]

/-- `bound` holds for every way to draw exactly if it holds for the worst one, `most`. -/
theorem forall_countP_balance_iff {perLabel : Int} (h : 0 ≤ perLabel) (pool : List (Sample String))
    (label : String) (bound : Nat) :
    (∀ d : Draw (Sample Atom), d.IsFair → ∀ drawn,
      balance d perLabel ((pool.map ofTexts).map labelled) = .ok drawn →
        drawn.countP (carries label) ≤ bound) ↔ most perLabel.toNat pool label ≤ bound := by
  constructor
  · intro hall
    obtain ⟨drawn, hdrawn, hcount⟩ := exists_balance (.preferring _) h pool
    refine le_trans (sum_le_sum fun m _ => ?_) ((hcount _).symm.trans_le
      (hall _ (Draw.isFair_preferring _) drawn hdrawn))
    rw [Draw.countP_preferring, min_assoc, min_eq_right countP_le_length]
  · intro hmost d hd drawn hdrawn
    obtain ⟨drawn', hdrawn', hcount⟩ := exists_balance d h pool
    obtain rfl := Except.ok.inj (hdrawn.symm.trans hdrawn')
    rw [hcount]
    exact (sum_le_sum fun m _ => countP_pick_le hd _ _ _).trans hmost

/-! ## Stored functions -/

/-- `j` is a stored function with a code and labels, which are texts. -/
def IsEntry (j : Json) : Prop := ∃ (code : String) (labels : List String),
  j.member "code" = .ok (.str code) ∧ j.member "labels" = .ok (.arr (labels.map .str))

theorem mapM_ofJson (labels : List String) :
    (labels.map Json.str).mapM ofJson = .ok (labels.map text) :=
  mapM_map.trans (mapM_eq_ok fun _ _ => rfl)

theorem map_readableLabel (labels : List String) :
    (labels.map text).map readableLabel = (labels.map Label.readable).map text := by
  rw [map_map, map_map]
  rfl

theorem exists_smellySample {j : Json} (h : IsEntry j) : ∃ s, smellySample j = .ok (ofTexts s) := by
  obtain ⟨code, labels, hcode, hlabels⟩ := h
  refine ⟨⟨.str code, labels.map Label.readable⟩, ?_⟩
  have : readableLabels (.arr (labels.map .str)) = .ok ((labels.map Label.readable).map .text) := by
    rw [← map_readableLabel]
    show ((labels.map Json.str).mapM ofJson >>= _) = _
    rw [mapM_ofJson]
    rfl
  rw [smellySample, hcode, hlabels]
  show (readableLabels _ >>= _) = _
  rw [this]
  rfl

theorem exists_distinct (labels : List String) :
    ∃ kept : List String, distinct (labels.map .text) = kept.map .text := by
  have hfrom : ∀ kept : List String, ∃ kept' : List String, (labels.map text).foldl
      (fun kept a => if kept.any (same a) then kept else kept ++ [a]) (kept.map .text)
        = kept'.map .text := by
    induction labels with
    | nil => exact fun kept => ⟨kept, rfl⟩
    | cons label labels ih =>
      intro kept
      rw [map_cons, foldl_cons]
      split
      · exact ih kept
      · have := ih (kept ++ [label])
        rwa [map_append] at this
  exact hfrom []

theorem exists_injectedSample {j : Json} (h : IsEntry j) :
    ∃ s, injectedSample j = .ok (ofTexts s) := by
  obtain ⟨code, labels, hcode, hlabels⟩ := h
  obtain ⟨kept, hkept⟩ := exists_distinct labels
  refine ⟨⟨.str (withoutComments (codeOf code)), kept.map Label.readable⟩, ?_⟩
  have : setOf (.arr (labels.map .str)) = .ok (kept.map .text) := by
    rw [← hkept]
    show ((labels.map Json.str).mapM ofJson >>= _) = _
    rw [mapM_ofJson]
    rfl
  rw [injectedSample, hcode, hlabels]
  show (Atom.setOf _ >>= _) = _
  rw [this]
  show Except.ok _ = _
  rw [map_readableLabel]
  rfl

theorem exists_mapM {f : Json → Except Fault (Sample Atom)} {js : List Json}
    (h : ∀ j ∈ js, ∃ s, f j = .ok (ofTexts s)) :
    ∃ ss : List (Sample String), js.mapM f = .ok (ss.map ofTexts) := by
  induction js with
  | nil => exact ⟨[], rfl⟩
  | cons j js ih =>
    obtain ⟨⟨s, hs⟩, hjs⟩ := forall_mem_cons.1 h
    obtain ⟨ss, hss⟩ := ih hjs
    exact ⟨s :: ss, by rw [mapM_cons, hs, hss]; rfl⟩

/-- From well-formed entries `buildFull` puts a dataset together and stores it, however samples are
drawn and in whatever order: all clean functions, and of each label at least as many samples as are
wanted, as far as there are any.  A label is not drawn more often than wanted, whatever is picked,
only if the samples for all labels that carry it are no more. -/
theorem buildFull_of_entries {targets : Targets} {entries : Draw Json} (hentries : entries.IsFair)
    (hperLabel : 0 ≤ targets.perLabel) (hlimit : 0 ≤ targets.injected)
    (clean : List Json) {smelly injected : List Json}
    (hsmelly : ∀ j ∈ smelly, IsEntry j) (hinjected : ∀ j ∈ injected, IsEntry j) :
    ∃ ss ts : List (Sample String), smellySamples (.arr smelly) = .ok (ss.map ofTexts) ∧
      injectedSamples entries targets.injected (.arr injected) = .ok (ts.map ofTexts) ∧
      (∀ samples : Draw (Sample Atom), samples.IsFair → ∃ drawn,
        balance samples targets.perLabel (((ss ++ ts).map ofTexts).map labelled) = .ok drawn ∧
        (∀ label, min targets.perLabel.toNat (samplesFor (ss ++ ts) label).length
          ≤ drawn.countP (carries label)) ∧
        ∀ (paths : Paths) (shuffle : List Json → List Json) (w v : Workspace),
          (readJson paths.clean).exec w = (.ok (.arr clean), w) →
          (readJson paths.smelly).exec w = (.ok (.arr smelly), w) →
          (readJson paths.injected).exec w = (.ok (.arr injected), w) →
          (writeJson paths.output (.arr (shuffle (clean ++ drawn.map Sample.toJson)))).exec w
            = (.ok (), v) →
          ∃ printed, (buildFull paths targets ⟨entries, samples, shuffle⟩).exec w
            = (.ok (), { v with printed })) ∧
      ∀ label bound, (∀ samples : Draw (Sample Atom), samples.IsFair → ∀ drawn,
          balance samples targets.perLabel (((ss ++ ts).map ofTexts).map labelled) = .ok drawn →
          drawn.countP (carries label) ≤ bound) ↔
        most targets.perLabel.toNat (ss ++ ts) label ≤ bound := by
  obtain ⟨ss, hss⟩ := exists_mapM fun j hj => exists_smellySample (hsmelly j hj)
  have hpicked : ∀ j ∈ entries.pick (min targets.injected.toNat injected.length) injected,
      IsEntry j := fun j hj =>
    hinjected j ((hentries _ _ (Nat.min_le_right _ _)).2.subset hj)
  obtain ⟨ts, hts⟩ := exists_mapM fun j hj => exists_injectedSample (hpicked j hj)
  have hsamples : smellySamples (.arr smelly) = .ok (ss.map ofTexts) := hss
  have hfew : injectedSamples entries targets.injected (.arr injected) = .ok (ts.map ofTexts) := by
    show (entries.atMost targets.injected injected >>= _) = _
    rw [entries.atMost_eq hlimit]
    exact hts
  refine ⟨ss, ts, hsamples, hfew, fun samples hfair => ?_,
    forall_countP_balance_iff hperLabel (ss ++ ts)⟩
  obtain ⟨drawn, hdrawn, hcount⟩ := exists_balance samples hperLabel (ss ++ ts)
  refine ⟨drawn, hdrawn, le_countP_balance hfair hcount, ?_⟩
  intro paths shuffle w v hclean hsmelly hinjected hwrite
  have hcompose : compose ⟨entries, samples, shuffle⟩ targets (.arr clean) (.arr smelly)
      (.arr injected) = .ok ⟨clean, ss.map ofTexts, ts.map ofTexts, drawn⟩ := by
    rw [map_append] at hdrawn
    rw [compose, hsamples]
    show (injectedSamples _ _ _ >>= _) = _
    rw [hfew]
    show (balance _ _ _ >>= _) = _
    rw [hdrawn]
    rfl
  rw [buildFull, exec_bind_ok _ hclean, exec_bind_ok _ hsmelly, exec_bind_ok _ hinjected, hcompose,
    exec_bind_ok _ (exec_lift _ w)]
  obtain ⟨printed, hprint⟩ := exec_printAll _ v
  exact ⟨printed, (exec_bind_ok _ hwrite).trans hprint⟩

/-- A function with two labels. -/
def doubleEntry : Json :=
  .obj [("code", .str "a"), ("labels", .arr [.str "A", .str "B"])]

theorem buildFull_of_entries_doubleEntry :
    (∀ j ∈ [doubleEntry], IsEntry j) ∧ ∃ samples : Draw (Sample Atom), samples.IsFair ∧ ∃ drawn,
      balance samples 1 (([⟨.str "a", ["A", "B"]⟩].map ofTexts).map labelled) = .ok drawn ∧
        1 < drawn.countP (carries "A") := by
  have hentries : ∀ j ∈ [doubleEntry], IsEntry j :=
    forall_mem_singleton.2 ⟨"a", ["A", "B"], rfl, rfl⟩
  let targets : Targets := ⟨0, 1, 0⟩
  obtain ⟨ss, ts, hss, hts, -, hiff⟩ := @buildFull_of_entries targets _
    (Draw.isFair_preferring fun _ => true) (by decide) (by decide) [] _ _ hentries
    (forall_mem_nil _)
  have hss' : ss = [⟨.str "a", ["A", "B"]⟩] :=
    map_injective_iff.2 ofTexts_injective (Except.ok.inj hss).symm
  have hts' : ts = [] := map_eq_nil_iff.1 (Except.ok.inj hts).symm
  subst hss' hts'
  have hmore := mt (hiff "A" 1).1 (show ¬ most 1 [⟨.str "a", ["A", "B"]⟩] "A" ≤ 1 by decide)
  push Not at hmore
  exact ⟨hentries, hmore⟩

end Balance
end SmellLint
