import Mathlib.Data.List.Nodup
import SmellLint.Dataset.Labelling
import SmellLint.Proofs.FileRules
import SmellLint.Proofs.Project.Noted

/-!
# Labels of a labelled dataset

Whatever datasets are labelled and whatever their files hold, the labels of a sample are those of
the rows that an inspection has found for its function.  A row becomes a label that models know
unless it was found by the rule for tensor arrays or by the rule for broadcasting, whose names stand
in no table (`Labelling.Reached.labels_known_iff`).
-/

namespace SmellLint

open Analyzer Label Run Smell List

/-! ## Rows and the rules that find them -/

/-- `row` is reported by `r` of some function. -/
def Smell.Rule.Found (r : Rule) (row : Row) : Prop :=
  ∃ filename functionName n facts, row ∈ (r.report filename functionName n facts).1

namespace Smell

variable {row : Row}

theorem Rule.Found.smell_eq {r : Rule} (h : r.Found row) : row.smell = r.smell := by
  obtain ⟨_, _, _, _, hrow⟩ := h
  exact smell_of_mem_report hrow

theorem tensorArray_mem_rules : tensorArray ∈ rules := by simp [rules]

theorem broadcasting_mem_rules : broadcasting ∈ rules := by simp [rules]

/-- No two `rules` report the same smell. -/
theorem Rule.Found.of_smell_eq {r q : Rule} (h : r.Found row) (hr : r ∈ rules) (hq : q ∈ rules)
    (hsmell : row.smell = q.smell) : q.Found row := by
  have heq : r = q := inj_on_of_nodup_map nodup_smells hr hq (h.smell_eq.symm.trans hsmell)
  rwa [← heq]

theorem exists_found_of_mem_check {filename functionName : String} {n : Syntax.Node} {facts : Facts}
    (h : row ∈ (check filename functionName n facts).1) :
    ∃ r ∈ rules, r.Found row := by
  rw [check, flatMap_map] at h
  obtain ⟨r, hr, hrow⟩ := mem_flatMap.1 h
  exact ⟨r, hr, filename, functionName, n, facts, hrow⟩

end Smell

variable {rows : List Row}

theorem Inspection.exists_found_ofTree {catalogue : Catalogue} {filename source : String}
    {tree : Syntax.Node} (h : (ofTree catalogue filename source tree).result = .ok rows) :
    ∀ row ∈ rows, ∃ r ∈ rules, r.Found row := by
  unfold ofTree at h
  simp only at h
  split at h
  · cases h
  · split at h
    · cases h
      exact forall_mem_nil _
    · cases h
    · cases h
      intro row hrow
      rw [flatMap_map] at hrow
      obtain ⟨f, -, hrow⟩ := mem_flatMap.1 hrow
      exact exists_found_of_mem_check hrow

theorem Inspection.exists_found_ofFile {catalogue : Catalogue} {filename : String}
    {content : Except Fault String} (h : (ofFile catalogue filename content).result = .ok rows) :
    ∀ row ∈ rows, ∃ r ∈ rules, r.Found row := by
  unfold ofFile ofSource at h
  split at h
  · split at h
    · cases h
    · exact exists_found_ofTree h
  · split at h <;> cases h

/-- What `inspect` gives has been found by `rules`. -/
theorem Analyzer.exists_found_of_inspect {a : Analyzer} {path : String} {w u : Workspace}
    (h : (a.inspect path).exec w = (.ok rows, u)) :
    ∀ row ∈ rows, ∃ r ∈ rules, r.Found row := by
  obtain ⟨v, _, -, h⟩ := exec_bind_eq_ok h
  obtain ⟨content, _, -, h⟩ := exec_bind_eq_ok h
  obtain ⟨_, _, -, h⟩ := exec_bind_eq_ok h
  exact Inspection.exists_found_ofFile (Prod.mk.inj h).1

/-! ## Names of smells as labels -/

namespace Label

/-- The names of all smells but two become labels that models know. -/
theorem readable_mem_known_iff : ∀ r ∈ rules, readable r.smell ∈ known ↔
    r.smell ≠ tensorArray.smell ∧ r.smell ≠ broadcasting.smell := by
  decide +kernel

theorem readable_ne_clean : ∀ r ∈ rules, readable r.smell ≠ clean := by
  decide +kernel

theorem readable_tensorArray : readable tensorArray.smell = tensorArray.smell := by
  decide +kernel

theorem readable_broadcasting : readable broadcasting.smell = broadcasting.smell := by
  decide +kernel

end Label

namespace Labelling

variable {own : List Row} {output : String} {s : Sample String}

theorem mem_labelsOf (hrows : rows ≠ []) {label : String} :
    label ∈ labelsOf rows ↔ ∃ row ∈ rows, readable row.smell = label := by
  have hnames : (rows.map Row.smell).eraseDups ≠ [] := by
    obtain ⟨row, hrow⟩ := exists_mem_of_ne_nil rows hrows
    exact ne_nil_of_mem (mem_eraseDups.2 (mem_map_of_mem hrow))
  rw [labelsOf]
  split
  · next hnil => exact absurd hnil hnames
  · simp

theorem mem_of_rowsOfFunction {function : Json} (h : rowsOfFunction rows function = .ok own) :
    ∀ row ∈ own, row ∈ rows := by
  unfold rowsOfFunction at h
  intro row hrow
  split at h
  · split at h
    · cases h
      obtain ⟨pair, hpair, rfl⟩ := mem_map.1 hrow
      exact (of_mem_zip (mem_filter.1 hpair).1).1
    · cases h
  · cases h
    exact (mem_filter.1 hrow).1

/-! ## Samples -/

/-- `rows` are what the inspection of `path` gives in some workspace. -/
def Inspected (output path : String) (rows : List Row) : Prop :=
  ∃ w u, (inspect { output } path).exec w = (.ok rows, u)

theorem exec_outcome_inspect (output path : String) (w : Workspace) :
    ∃ x u, (outcome (inspect { output } path)).exec w = (.ok x, u) ∧
      ∀ rows, x = .ok rows → Inspected output path rows := by
  generalize hr : inspect { output } path = r
  refine ⟨(r.exec w).1, (r.exec w).2, rfl, fun rows hrows => ⟨w, (r.exec w).2, ?_⟩⟩
  rw [hr]
  exact Prod.ext hrows rfl

/-- `s` has the labels of the rows `own` that the inspection of a file has found for a function. -/
def IsSample (output : String) (s : Sample String) (own : List Row) : Prop :=
  ∃ path rows function, Inspected output path rows ∧ rowsOfFunction rows function = .ok own ∧
    s.labels = labelsOf own

theorem IsSample.exists_found (h : IsSample output s own) :
    ∀ row ∈ own, ∃ r ∈ rules, r.Found row := by
  obtain ⟨path, rows, function, ⟨w, u, hinspect⟩, hown, -⟩ := h
  exact fun row hrow =>
    exists_found_of_inspect hinspect row (mem_of_rowsOfFunction hown row hrow)

theorem IsSample.readable_mem {row : Row} (h : IsSample output s own) (hrow : row ∈ own) :
    readable row.smell ∈ s.labels := by
  obtain ⟨_, _, _, -, -, hlabels⟩ := h
  rw [hlabels, mem_labelsOf (ne_nil_of_mem hrow)]
  exact ⟨row, hrow, rfl⟩

/-- `Label.clean` is given only where nothing has been found. -/
theorem IsSample.clean_mem_iff (h : IsSample output s own) : Label.clean ∈ s.labels ↔ own = [] := by
  have hfound := h.exists_found
  obtain ⟨_, _, _, -, -, hlabels⟩ := h
  rw [hlabels]
  refine ⟨fun hclean => ?_, ?_⟩
  · by_contra hne
    obtain ⟨row, hrow, hlabel⟩ := (mem_labelsOf hne).1 hclean
    obtain ⟨r, hr, hrfound⟩ := hfound row hrow
    rw [hrfound.smell_eq] at hlabel
    exact readable_ne_clean r hr hlabel
  · rintro rfl
    exact mem_cons_self

/-- The only labels that models do not know are the names of two smells. -/
theorem IsSample.mem_known_or (h : IsSample output s own) {label : String}
    (hlabel : label ∈ s.labels) :
    label ∈ known ∨ ∃ row ∈ own, label = row.smell ∧
      (tensorArray.Found row ∨ broadcasting.Found row) := by
  have hfound := h.exists_found
  obtain ⟨_, _, _, -, -, hlabels⟩ := h
  rw [hlabels] at hlabel
  by_cases hown : own = []
  · subst hown
    rw [mem_singleton.1 hlabel]
    exact .inl (by decide)
  · obtain ⟨row, hrow, rfl⟩ := (mem_labelsOf hown).1 hlabel
    obtain ⟨r, hr, hrfound⟩ := hfound row hrow
    have hsmell := hrfound.smell_eq
    by_cases hknown : readable row.smell ∈ known
    · exact .inl hknown
    · refine .inr ⟨row, hrow, ?_⟩
      rw [hsmell, readable_mem_known_iff r hr, not_and_or, not_not, not_not] at hknown
      rcases hknown with hr' | hr' <;> rw [hr'] at hsmell <;> rw [hsmell]
      · exact ⟨readable_tensorArray, .inl (hrfound.of_smell_eq hr tensorArray_mem_rules hsmell)⟩
      · exact ⟨readable_broadcasting, .inr (hrfound.of_smell_eq hr broadcasting_mem_rules hsmell)⟩

/-! ## Labelling in turn -/

/-- What holds of `l` at all times: the rows of a file that has been inspected are those of an
inspection, and the samples are samples, with and without smells apart. -/
structure Valid (l : Labelling) : Prop where
  inspected : ∀ path rows, l.inspected.get? path = some rows → Inspected l.output path rows
  clean : ∀ s ∈ l.clean, Label.clean ∈ s.labels ∧ ∃ own, IsSample l.output s own
  smelly : ∀ s ∈ l.smelly, Label.clean ∉ s.labels ∧ ∃ own, IsSample l.output s own

variable {l : Labelling}

theorem Valid.insert (hl : l.Valid) {path : String} (h : Inspected l.output path rows) :
    Valid { l with inspected := l.inspected.insert path rows } := by
  refine ⟨fun path' rows' hget => ?_, hl.clean, hl.smelly⟩
  rw [Keyed.get?_insert] at hget
  split at hget
  · next heq =>
    cases hget
    subst heq
    exact h
  · exact hl.inspected path' rows' hget

theorem Valid.exec_rowsOf (hl : l.Valid) (path : Atom) (w : Workspace) :
    ∃ l' found u, (l.rowsOf path).exec w = (.ok (l', found), u) ∧ l'.Valid ∧
      l'.output = l.output ∧ ∀ rows, found = some rows → ∃ path, Inspected l.output path rows := by
  have hnone : ∀ u, ∃ l' found u', (pure (l, none) : Run (Labelling × Option (List Row))).exec u
      = (.ok (l', found), u') ∧ l'.Valid ∧ l'.output = l.output ∧
        ∀ rows, found = some rows → ∃ path, Inspected l.output path rows :=
    fun u => ⟨l, none, u, rfl, hl, rfl, fun _ h => by cases h⟩
  rw [rowsOf.eq_def]
  split
  · next path =>
    split
    · next rows hget =>
      refine ⟨l, some rows, w, rfl, hl, rfl, fun rows' heq => ?_⟩
      cases heq
      exact ⟨path, hl.inspected path rows hget⟩
    · obtain ⟨x, u, houtcome, hx⟩ := exec_outcome_inspect l.output path w
      rw [exec_bind_ok _ houtcome]
      cases x with
      | error e => exact hnone u
      | ok rows =>
        refine ⟨_, some rows, u, rfl, hl.insert (hx rows rfl), rfl, fun rows' heq => ?_⟩
        cases heq
        exact ⟨path, hx rows rfl⟩
  · exact hnone w

theorem isSample_of_sampleOf {path : String} {entry : Json}
    (hinspected : Inspected output path rows) (h : sampleOf entry rows = .ok s) :
    ∃ own, IsSample output s own := by
  obtain ⟨function, -, h⟩ := bind_eq_ok.1 h
  obtain ⟨own, hown, h⟩ := bind_eq_ok.1 h
  obtain ⟨code, -, h⟩ := bind_eq_ok.1 h
  cases h
  exact ⟨own, path, rows, function, hinspected, hown, rfl⟩

theorem Valid.exec_label (hl : l.Valid) (entry : Json) (w : Workspace) :
    ∃ l' x u, (l.label entry).exec w = (.ok (l', x), u) ∧ l'.Valid ∧ l'.output = l.output ∧
      ∀ s, x = .ok (some s) → ∃ own, IsSample l.output s own := by
  rw [label.eq_def]
  split
  · next e _ => exact ⟨l, .error e, w, rfl, hl, rfl, fun _ h => by cases h⟩
  · next path _ =>
    obtain ⟨l', found, u, hexec, hl', houtput, hfound⟩ := hl.exec_rowsOf path w
    rw [exec_bind_ok _ hexec]
    cases found with
    | none => exact ⟨l', _, u, rfl, hl', houtput, fun _ h => by cases h⟩
    | some rows =>
      refine ⟨l', _, u, rfl, hl', houtput, fun s hs => ?_⟩
      obtain ⟨path, hinspected⟩ := hfound rows rfl
      cases hsample : sampleOf entry rows with
      | error e =>
        rw [hsample] at hs
        cases hs
      | ok s' =>
        rw [hsample] at hs
        cases hs
        exact isSample_of_sampleOf hinspected hsample

theorem Valid.exec_labelEach (hl : l.Valid) (entries : List Json) (w : Workspace) :
    ∃ l' xs u, (l.labelEach entries).exec w = (.ok (l', xs), u) ∧ l'.Valid ∧
      l'.output = l.output ∧ ∀ s, .ok (some s) ∈ xs → ∃ own, IsSample l.output s own := by
  induction entries generalizing l w with
  | nil => exact ⟨l, [], w, rfl, hl, rfl, fun _ h => by cases h⟩
  | cons entry rest ih =>
    obtain ⟨l₁, x, w₁, hfirst, hl₁, houtput₁, hx⟩ := hl.exec_label entry w
    obtain ⟨l₂, xs, w₂, hrest, hl₂, houtput₂, hxs⟩ := ih hl₁ w₁
    refine ⟨l₂, x :: xs, w₂, ?_, hl₂, houtput₂.trans houtput₁, fun s hs => ?_⟩
    · rw [labelEach, exec_bind_ok _ hfirst, exec_bind_ok _ hrest]
      rfl
    · rcases mem_cons.1 hs with heq | hs
      · exact hx s heq.symm
      · exact hxs s hs

theorem Valid.add (hl : l.Valid) (hs : IsSample l.output s own) :
    (l.add s).Valid ∧ (l.add s).output = l.output := by
  rw [Labelling.add]
  split
  · next hclean =>
    refine ⟨⟨hl.inspected, fun t ht => ?_, hl.smelly⟩, rfl⟩
    rcases mem_append.1 ht with ht | ht
    · exact hl.clean t ht
    · rw [mem_singleton.1 ht]
      exact ⟨contains_iff_mem.1 hclean, own, hs⟩
  · next hclean =>
    refine ⟨⟨hl.inspected, hl.clean, fun t ht => ?_⟩, rfl⟩
    rcases mem_append.1 ht with ht | ht
    · exact hl.smelly t ht
    · rw [mem_singleton.1 ht]
      exact ⟨fun hmem => hclean (contains_iff_mem.2 hmem), own, hs⟩

theorem Valid.addAll (hl : l.Valid) {xs : List (Json × Except Fault (Option (Sample String)))}
    (hxs : ∀ p ∈ xs, ∀ s, p.2 = .ok (some s) → ∃ own, IsSample l.output s own) :
    (l.addAll xs).1.Valid ∧ (l.addAll xs).1.output = l.output := by
  fun_induction Labelling.addAll l xs with
  | case1 l => exact ⟨hl, rfl⟩
  | case2 l entry s rest ih =>
    obtain ⟨hs, hrest⟩ := forall_mem_cons.1 hxs
    obtain ⟨own, hown⟩ := hs s rfl
    obtain ⟨hadd, houtput⟩ := hl.add hown
    exact (ih hadd hrest).imp_right fun h => h.trans houtput
  | case3 l entry rest ih => exact ih hl (forall_mem_cons.1 hxs).2
  | case4 l entry e rest _ _ ih => exact ih hl (forall_mem_cons.1 hxs).2
  | case5 l entry e rest _ _ => exact ⟨hl, rfl⟩

/-- `run` leaves a labelling valid, whatever the dataset and its files hold. -/
theorem Valid.exec_run (hl : l.Valid) (dataset : String) (workers : Int) (w : Workspace) :
    ∃ l' x u, (l.run dataset workers).exec w = (.ok (l', x), u) ∧ l'.Valid := by
  rw [run, exec_bind_ok _ (exec_outcome _ w)]
  split
  · next e _ => exact ⟨l, .error e, _, rfl, hl⟩
  · next entries _ =>
    obtain ⟨l₁, xs, w₁, heach, hl₁, houtput, hxs⟩ := hl.exec_labelEach entries _
    rw [exec_bind_ok _ heach]
    have hadd : (l₁.addAll (entries.zip xs)).1.Valid := by
      refine (hl₁.addAll fun p hp s hs => ?_).1
      exact hxs s (hs ▸ (of_mem_zip hp).2)
    simp only
    split
    · next l₂ e heq =>
      rw [heq] at hadd
      exact ⟨l₂, .error e, w₁, rfl, hadd⟩
    · next l₂ heq =>
      rw [heq] at hadd
      exact ⟨l₂, _, _, rfl, hadd⟩

/-! ## Any number of datasets -/

/-- The labellings that there can be: after the start, and after `run` on any dataset in any
workspace. -/
inductive Reached : Labelling → Prop
  | start {output : String} {l : Labelling} {w u : Workspace}
      (h : (start output).exec w = (.ok l, u)) : Reached l
  | run {l l' : Labelling} {dataset : String} {workers : Int} {x : Except Fault Unit}
      {w u : Workspace} (h : Reached l)
      (hrun : (l.run dataset workers).exec w = (.ok (l', x), u)) : Reached l'

theorem valid_empty (output : String) : Valid { output } :=
  ⟨fun _ _ hget => (by cases hget), forall_mem_nil _, forall_mem_nil _⟩

theorem Reached.valid (h : l.Reached) : l.Valid := by
  induction h with
  | start h =>
    obtain ⟨_, _, -, h⟩ := exec_bind_eq_ok h
    cases h
    exact valid_empty _
  | @run l l' dataset workers x w u _ hrun ih =>
    obtain ⟨l₂, x₂, u₂, hexec, hl₂⟩ := ih.exec_run dataset workers w
    cases hrun.symm.trans hexec
    exact hl₂

/-- A sample `s` has the labels of the rows that an inspection has found for its function, and each
of these rows was found by a rule.  All its labels are known to models if and only if neither
`Smell.tensorArray` nor `Smell.broadcasting` has found one of them; any other label is the name that
one of these two rules gives its smell. -/
theorem Reached.labels_known_iff (h : l.Reached) {s : Sample String}
    (hs : s ∈ l.clean ∨ s ∈ l.smelly) :
    ∃ own, IsSample l.output s own ∧ (∀ row ∈ own, ∃ r ∈ Smell.rules, r.Found row) ∧
      (s ∈ l.clean → own = []) ∧ (s ∈ l.smelly → own ≠ []) ∧
      ((∀ label ∈ s.labels, label ∈ Label.known) ↔
        ∀ row ∈ own, ¬Smell.tensorArray.Found row ∧ ¬Smell.broadcasting.Found row) ∧
      ∀ label ∈ s.labels, label ∉ Label.known →
        label = Smell.tensorArray.smell ∨ label = Smell.broadcasting.smell := by
  have hl := h.valid
  obtain ⟨own, hown⟩ : ∃ own, IsSample l.output s own := by
    rcases hs with hs | hs
    · exact (hl.clean s hs).2
    · exact (hl.smelly s hs).2
  refine ⟨own, hown, hown.exists_found, fun hs => hown.clean_mem_iff.1 (hl.clean s hs).1,
    fun hs hnil => (hl.smelly s hs).1 (hown.clean_mem_iff.2 hnil), ?_, ?_⟩
  · refine ⟨fun hknown row hrow => ?_, fun hnone label hlabel => ?_⟩
    · have hlabel := hknown _ (hown.readable_mem hrow)
      refine ⟨fun hfound => ?_, fun hfound => ?_⟩ <;> rw [hfound.smell_eq] at hlabel
      · exact ((Label.readable_mem_known_iff _ Smell.tensorArray_mem_rules).1 hlabel).1 rfl
      · exact ((Label.readable_mem_known_iff _ Smell.broadcasting_mem_rules).1 hlabel).2 rfl
    · rcases hown.mem_known_or hlabel with hknown | ⟨row, hrow, -, hfound⟩
      · exact hknown
      · exact absurd hfound (not_or.2 (hnone row hrow))
  · intro label hlabel hunknown
    rcases hown.mem_known_or hlabel with hknown | ⟨row, -, rfl, hrow | hrow⟩
    · exact absurd hknown hunknown
    · exact .inl hrow.smell_eq
    · exact .inr hrow.smell_eq

/-- A dataset of one function, in a file that tiles a tensor before an addition. -/
def tiledFunction : Workspace where
  tree := ⟨[(["a.py"], .file (.text
      "import tensorflow as tf\ndef f(a, b):\n    return tf.tile(a, [1, 3]) + b\n")),
    (["d.json"], .file (.text
      "[\x7b\"code\": \"c\", \"file_path\": \"/a.py\", \"function_name\": \"f\"\x7d]"))]⟩

/-- The labelling of one dataset from the start. -/
def runFirst (output dataset : String) : Run (Labelling × Except Fault Unit) := do
  (← start output).run dataset 4

theorem reached_of_runFirst {dataset : String} {w u : Workspace} {x : Except Fault Unit}
    (h : (runFirst output dataset).exec w = (.ok (l, x), u)) : l.Reached := by
  obtain ⟨l₀, v, hstart, hrun⟩ := exec_bind_eq_ok h
  exact .run (.start hstart) hrun

theorem smelly_tiledFunction :
    ((runFirst "out" "d.json").exec tiledFunction).1.toOption.map
      (fun p => p.1.smelly.map Sample.labels) = some [["Broadcasting_Feature_Not_Used"]] := by
  decide +kernel

theorem Reached.labels_known_iff_tiledFunction :
    ∃ l : Labelling, l.Reached ∧ ∃ s ∈ l.smelly, s.labels = ["Broadcasting_Feature_Not_Used"] ∧
      "Broadcasting_Feature_Not_Used" ∉ Label.known ∧ ∃ own, IsSample l.output s own ∧
        ∃ row ∈ own, Smell.tensorArray.Found row ∨ Smell.broadcasting.Found row := by
  have hsmelly := smelly_tiledFunction
  cases hexec : (runFirst "out" "d.json").exec tiledFunction with
  | mk x u =>
    rw [hexec] at hsmelly
    cases x with
    | error e => cases hsmelly
    | ok p =>
      have hreached : p.1.Reached := reached_of_runFirst hexec
      have hlabels : p.1.smelly.map Sample.labels = [["Broadcasting_Feature_Not_Used"]] :=
        Option.some.inj hsmelly
      obtain ⟨s, hs, hslabels⟩ := List.mem_map.1 (hlabels ▸ List.mem_cons_self)
      have hunknown : "Broadcasting_Feature_Not_Used" ∉ Label.known := by decide
      obtain ⟨own, hown, -, -, -, hiff, -⟩ := hreached.labels_known_iff (.inr hs)
      refine ⟨p.1, hreached, s, hs, hslabels, hunknown, own, hown, ?_⟩
      by_contra hnone
      refine hunknown (hiff.2 (fun row hrow => ?_) _ (hslabels ▸ List.mem_cons_self))
      exact not_or.1 fun hfound => hnone ⟨row, hrow, hfound⟩

end Labelling

end SmellLint
