import SmellLint.Proofs.Workspace.Effects
import SmellLint.Proofs.Workspace.Trees

/-!
# Making directories

Making a directory makes the directories on the way to it as well.  The way is made name by name, up
to the first name where it is blocked: by a file, or because nothing can have that name.  What has
been made by then stays.

The places on the way do not depend on what has been made before (`way`), so making the same
directories again changes nothing, and making directories has the same outcome whenever the same
files are there.
-/

namespace SmellLint.Tree

open Path List

/-! ## The way of a path -/

/-- Whether `name` cannot be a directory in `p`. -/
def blocked (t : Tree) (p : Place) (name : String) : Bool :=
  maxNameBytes < nameBytes name || (refusal? name).isSome || t.isFile (step p name)

/-- The places on the way of the names from `p`, up to the first name that is `blocked`. -/
def way (t : Tree) (p : Place) : List String → List Place
  | [] => []
  | n :: r => if t.blocked p n then [] else step p n :: t.way (step p n) r

/-- Whether none of the names is `blocked` on their way from `p`. -/
def isClear (t : Tree) (p : Place) : List String → Bool
  | [] => true
  | n :: r => !t.blocked p n && t.isClear (step p n) r

theorem isClear_append (t : Tree) (p : Place) (ms ns : List String) :
    t.isClear p (ms ++ ns) = (t.isClear p ms && t.isClear (reach p ms) ns) := by
  induction ms generalizing p with
  | nil => rfl
  | cons m ms ih =>
    rw [cons_append, isClear, isClear, ih, Bool.and_assoc]
    rfl

theorem way_append (t : Tree) (p : Place) (ms ns : List String) : t.way p (ms ++ ns)
      = t.way p ms ++ if t.isClear p ms then t.way (reach p ms) ns else [] := by
  induction ms generalizing p with
  | nil => simp [way, isClear, reach]
  | cons m ms ih =>
    rw [cons_append, way, way, isClear, ih]
    cases t.blocked p m <;> simp [reach]

/-- The place that `name` adds to the `way` of `ms`. -/
def nextPlace (t : Tree) (p : Place) (ms : List String) (name : String) : List Place :=
  if t.isClear p ms && !t.blocked (reach p ms) name then [step (reach p ms) name]
  else []

theorem way_concat (t : Tree) (p : Place) (ms : List String) (name : String) :
    t.way p (ms ++ [name]) = t.way p ms ++ t.nextPlace p ms name := by
  rw [way_append, nextPlace, way]
  cases t.isClear p ms <;> cases t.blocked _ name <;> rfl

theorem isClear_concat (t : Tree) (p : Place) (ms : List String) (name : String) :
    t.isClear p (ms ++ [name]) = (t.isClear p ms && !t.blocked (reach p ms) name) := by
  rw [isClear_append, isClear, isClear, Bool.and_true]

variable {t t' : Tree} {p q : Place} {ns : List String} {dirs : List Place}

/-- A place on the `way` of `ns` is where the first of them lead, and no file is there. -/
theorem exists_of_mem_way (h : q ∈ t.way p ns) :
    t.isFile q = false ∧ ∃ ms, ms <+: ns ∧ q = reach p ms := by
  induction ns generalizing p with
  | nil => cases h
  | cons n ns ih =>
    rw [way] at h
    split at h
    · cases h
    · next hn =>
      rcases mem_cons.1 h with rfl | h
      · simp only [blocked, Bool.or_eq_true, not_or] at hn
        exact ⟨by simpa using hn.2, [n], prefix_append [n] ns, rfl⟩
      · obtain ⟨hfile, ms, hms, rfl⟩ := ih h
        exact ⟨hfile, n :: ms, (prefix_cons_inj n).2 hms, rfl⟩

theorem isFile_of_mem_way (h : q ∈ t.way p ns) : t.isFile q = false := (exists_of_mem_way h).1

theorem blocked_congr (h : ∀ q, t'.isFile q = t.isFile q) (p : Place) (n : String) :
    t'.blocked p n = t.blocked p n := by
  rw [blocked, blocked, h]

/-- A `way` is the same in `t'` if the files of `t` are there and no others on it. -/
theorem way_eq_of (hfile : ∀ q, t.isFile q = true → t'.isFile q = true)
    (hway : ∀ q ∈ t.way p ns, t'.isFile q = false) :
    t'.way p ns = t.way p ns ∧ t'.isClear p ns = t.isClear p ns := by
  induction ns generalizing p with
  | nil => exact ⟨rfl, rfl⟩
  | cons n ns ih =>
    have hblocked : t'.blocked p n = t.blocked p n := by
      cases hn : t.blocked p n with
      | true =>
        rw [blocked, Bool.or_eq_true] at hn ⊢
        exact hn.imp_right (hfile _)
      | false =>
        rw [way, if_neg (by simp [hn]), forall_mem_cons] at hway
        rw [blocked, Bool.or_eq_false_iff] at hn ⊢
        exact ⟨hn.1, hway.1⟩
    rw [way, way, isClear, isClear, hblocked]
    cases hn : t.blocked p n with
    | true => exact ⟨rfl, rfl⟩
    | false =>
      rw [way, if_neg (by simp [hn]), forall_mem_cons] at hway
      obtain ⟨h₁, h₂⟩ := ih hway.2
      rw [h₁, h₂]
      exact ⟨rfl, rfl⟩

theorem way_congr (h : ∀ q, t'.isFile q = t.isFile q) (p : Place) (ns : List String) :
    t'.way p ns = t.way p ns ∧ t'.isClear p ns = t.isClear p ns :=
  way_eq_of (fun q hq => (h q).trans hq) fun q hq => (h q).trans (isFile_of_mem_way hq)

theorem nextPlace_congr (h : ∀ q, t'.isFile q = t.isFile q) (p : Place) (ms : List String)
    (name : String) : t'.nextPlace p ms name = t.nextPlace p ms name := by
  rw [nextPlace, nextPlace, (way_congr h p ms).2, blocked_congr h]

/-- A way that `isClear` is `Open` once its places are directories. -/
theorem open_of_isClear (h : t.isClear p ns = true) (hp : t'.lookup p = some .dir)
    (hway : ∀ q ∈ t.way p ns, t'.lookup q = some .dir) :
    t'.Open p ns := by
  induction ns generalizing p with
  | nil => exact hp
  | cons n ns ih =>
    rw [isClear, Bool.and_eq_true, Bool.not_eq_true'] at h
    rw [way, if_neg (by simp [h.1]), forall_mem_cons] at hway
    have hlen : nameBytes n ≤ maxNameBytes := by
      have := h.1
      simp only [blocked, Bool.or_eq_false_iff, decide_eq_false_iff_not] at this
      omega
    exact ⟨hp, hlen, ih h.2 hway.1 hway.2⟩

/-- The places that a clear way leads to are on it. -/
theorem mem_way_of_isClear {ms : List String} (h : t.isClear p ns = true) (hms : ms <+: ns)
    (hne : ms ≠ []) : reach p ms ∈ t.way p ns := by
  induction ns generalizing p ms with
  | nil => exact absurd (prefix_nil.1 hms) hne
  | cons n ns ih =>
    rw [isClear, Bool.and_eq_true, Bool.not_eq_true'] at h
    obtain ⟨m, ms, rfl⟩ := exists_cons_of_ne_nil hne
    obtain ⟨rfl, hrest⟩ := cons_prefix_cons.1 hms
    rw [way, if_neg (by simp [h.1])]
    by_cases hnil : ms = []
    · subst hnil
      exact mem_cons_self
    · exact mem_cons_of_mem _ (ih h.2 hrest hnil)

theorem Open.lookup_of_mem_way (h : t.Open p ns) (hq : q ∈ t.way p ns) :
    t.lookup q = some .dir := by
  obtain ⟨-, ms, ⟨rs, rfl⟩, rfl⟩ := exists_of_mem_way hq
  exact (open_append.1 h).1.lookup_reach

/-- A way that is `Open` is clear, if no name on it is refused. -/
theorem Open.isClear (h : t.Open p ns) (haccepted : ∀ n ∈ ns, Accepted n) :
    t.isClear p ns = true := by
  induction ns generalizing p with
  | nil => rfl
  | cons n ns ih =>
    obtain ⟨hn, hns⟩ := forall_mem_cons.1 haccepted
    have hstep : t.isFile (step p n) = false := isFile_of_lookup h.2.2.lookup_start
    have hlen := h.2.1
    rw [isClear, ih h.2.2 hns, blocked, hstep, hn]
    simpa using hlen

theorem accepted_of_blocked {n : String} (h : t.blocked p n = false) : Accepted n := by
  simp only [blocked, Bool.or_eq_false_iff] at h
  exact Option.isNone_iff_eq_none.1 (Option.isSome_eq_false_iff.1 h.1.2)

theorem accepted_of_isClear (h : t.isClear p ns = true) : ∀ n ∈ ns, Accepted n := by
  induction ns generalizing p with
  | nil => exact forall_mem_nil _
  | cons n ns ih =>
    rw [isClear, Bool.and_eq_true, Bool.not_eq_true'] at h
    exact forall_mem_cons.2 ⟨accepted_of_blocked h.1, ih h.2⟩

theorem follow_of_isFile (hp : t.isFile p = true) (path : String) (hns : ns ≠ []) :
    ∃ f, t.follow path p ns = .error f := by
  induction ns with
  | nil => exact absurd rfl hns
  | cons n ns ih =>
    by_cases hn : n = "" ∨ n = "."
    · rw [follow_empty_cons t path p hn]
      by_cases hr : ns = []
      · exact ⟨_, if_pos ⟨hr, hp⟩⟩
      · rw [if_neg (by simp [hr])]
        exact ih hr
    · have htest : (n.isEmpty || n == ".") = false := by simpa using hn
      rw [follow.eq_def]
      simp only [htest]
      cases hl : t.lookup p with
      | none => exact ⟨_, rfl⟩
      | some e =>
        cases e with
        | dir => simp [isFile, hl, Entry.isDir] at hp
        | file c => exact ⟨_, rfl⟩

/-- `follow` fails behind names `ms` whose way is not clear. -/
theorem follow_of_not_isClear {ms : List String} (h : t.isClear p ms = false)
    (haccepted : ∀ m ∈ ms, Accepted m) (path : String) (hns : ns ≠ []) :
    ∃ f, t.follow path p (ms ++ ns) = .error f := by
  induction ms generalizing p with
  | nil => cases h
  | cons m ms ih =>
    obtain ⟨hm, hms⟩ := forall_mem_cons.1 haccepted
    rw [isClear, Bool.and_eq_false_iff, Bool.not_eq_false'] at h
    have hne : ms ++ ns ≠ [] := by simp [hns]
    -- what is left of the way is followed in vain, either here or further on
    have hrest : nameBytes m ≤ maxNameBytes →
        ∃ f, t.follow path (step p m) (ms ++ ns) = .error f := by
      intro hlen
      rcases h with h | h
      · have hfile : t.isFile (step p m) = true := by
          rw [blocked, hm] at h
          simp only [Bool.or_eq_true, decide_eq_true_eq, Option.isSome_none, Bool.or_false] at h
          exact h.resolve_left (by omega)
        exact follow_of_isFile hfile path hne
      · exact ih h hms
    rw [cons_append]
    by_cases hstay : m = "" ∨ m = "."
    · have hstep : step p m = p := if_pos hstay
      have hlen : nameBytes m ≤ maxNameBytes := by rcases hstay with rfl | rfl <;> decide
      rw [follow_empty_cons t path p hstay, if_neg (by simp [hns])]
      exact hstep ▸ hrest hlen
    · cases hp : t.lookup p with
      | some e =>
        cases e with
        | dir =>
          rw [follow_name_cons t path hp hstay]
          split
          · exact ⟨_, rfl⟩
          · exact hrest (by omega)
        | file c =>
          exact follow_of_isFile (by simp [isFile, hp, Entry.isDir]) path (cons_ne_nil _ _)
      | none =>
        have htest : (m.isEmpty || m == ".") = false := by simpa using hstay
        rw [follow.eq_def]
        simp only [htest, hp]
        exact ⟨_, rfl⟩

/-! ## Trees with more directories -/

/-- `t'` is `t` with directories at those of the places `dirs` where nothing was. -/
structure WithDirs (t : Tree) (dirs : List Place) (t' : Tree) : Prop where
  lookup_eq : ∀ q, t'.lookup q = if q ∈ dirs then some ((t.lookup q).getD .dir) else t.lookup q
  regular : t.Regular → t'.Regular

theorem WithDirs.refl (t : Tree) : t.WithDirs [] t := ⟨fun _ => rfl, id⟩

theorem WithDirs.trans {t'' : Tree} {dirs' : List Place} (h : t.WithDirs dirs t')
    (h' : t'.WithDirs dirs' t'') : t.WithDirs (dirs ++ dirs') t'' := by
  refine ⟨fun q => ?_, fun ht => h'.regular (h.regular ht)⟩
  rw [h'.lookup_eq q, h.lookup_eq q]
  by_cases hq : q ∈ dirs <;> by_cases hq' : q ∈ dirs' <;> simp [hq]

/-- Nothing is added if all of `dirs` are directories. -/
theorem WithDirs.of_dirs (h : ∀ q ∈ dirs, t.lookup q = some .dir) : t.WithDirs dirs t := by
  refine ⟨fun q => ?_, id⟩
  split
  · next hq => rw [h q hq]; rfl
  · rfl

theorem WithDirs.of_append {dirs' : List Place} (h : t.WithDirs (dirs ++ dirs') t')
    (hdirs : ∀ q ∈ dirs, t.lookup q = some .dir) :
    t.WithDirs dirs' t' := by
  refine ⟨fun q => ?_, h.regular⟩
  rw [h.lookup_eq]
  by_cases hq : q ∈ dirs
  · simp [hdirs q hq]
  · simp [hq]

theorem WithDirs.insert (hnone : t.lookup p = none) : t.WithDirs [p] (t.insert p .dir) := by
  have hne : p ≠ [] := by
    rintro rfl
    cases hnone
  refine ⟨fun q => ?_, fun ht => ht.insert hne .dir⟩
  rw [lookup_insert t hne]
  by_cases hq : q = p
  · simp [hq, hnone]
  · simp [hq]

theorem WithDirs.isFile (h : t.WithDirs dirs t') (q : Place) : t'.isFile q = t.isFile q := by
  rw [Tree.isFile, Tree.isFile, h.lookup_eq q]
  split
  · cases t.lookup q <;> rfl
  · rfl

theorem WithDirs.lookup_dir (h : t.WithDirs dirs t') (hq : t.lookup q = some .dir) :
    t'.lookup q = some .dir := by
  rw [h.lookup_eq q, hq]
  split <;> rfl

theorem lookup_of_isFile_eq_false (h : t.isFile q = false) :
    t.lookup q = none ∨ t.lookup q = some .dir := by
  cases hq : t.lookup q with
  | none => exact .inl rfl
  | some e =>
    cases e with
    | dir => exact .inr rfl
    | file c => cases (isFile_of_lookup hq).symm.trans h

/-- All places on a `way` that has been made are directories. -/
theorem WithDirs.lookup_way (h : t.WithDirs (t.way p ns) t') (hq : q ∈ t.way p ns) :
    t'.lookup q = some .dir := by
  rw [h.lookup_eq q, if_pos hq]
  rcases lookup_of_isFile_eq_false (isFile_of_mem_way hq) with h | h <;> rw [h] <;> rfl

/-- A `way` that has been made and is clear is `Open`. -/
theorem WithDirs.open_way (h : t.WithDirs (t.way p ns) t') (hp : t.lookup p = some .dir)
    (hclear : t'.isClear p ns = true) :
    t'.Open p ns := by
  rw [(way_congr h.isFile p ns).2] at hclear
  exact open_of_isClear hclear (h.lookup_dir hp) fun q hq => h.lookup_way hq

/-! ## The last name of a path -/

section LastName

variable {cwd : Place} {path name : String} {ms : List String}

variable (hpath : Path.names path = ms ++ [name])
include hpath

theorem lead_of_not_isClear (h : t.isClear (origin cwd path) ms = false) :
    ∃ f, t.lead cwd path = .error f := by
  cases hl : t.lead cwd path with
  | error f => exact ⟨f, rfl⟩
  | ok p =>
    have husable := usable_of_lead hl
    have haccepted : ∀ m ∈ ms, Accepted m := fun m hm =>
      husable.2.of_mem_names (hpath ▸ mem_append_left _ hm)
    rw [lead_eq t cwd husable, hpath] at hl
    obtain ⟨f, hf⟩ := follow_of_not_isClear h haccepted path (cons_ne_nil name [])
    rw [hf] at hl
    cases hl

theorem lead_of_blocked (hopen : t.Open (origin cwd path) ms)
    (h : t.blocked (reach (origin cwd path) ms) name = true) :
    (∃ f, t.lead cwd path = .error f) ∨ ∃ p, t.lead cwd path = .ok p ∧ t.isFile p = true := by
  cases hl : t.lead cwd path with
  | error f => exact .inl ⟨f, rfl⟩
  | ok p =>
    refine .inr ⟨p, rfl, ?_⟩
    have husable := usable_of_lead hl
    have haccepted : Accepted name :=
      husable.2.of_mem_names (hpath ▸ mem_append_right ms mem_cons_self)
    rw [lead_eq t cwd husable, hpath, hopen.follow_append] at hl
    have hdir := hopen.lookup_reach
    rw [blocked, haccepted] at h
    simp only [Bool.or_eq_true, decide_eq_true_eq, Option.isSome_none, Bool.or_false] at h
    -- only a file blocks a name that leads somewhere, as no such name is too long or refused
    by_cases hstay : name = "" ∨ name = "."
    · rw [step, if_pos hstay] at h
      rcases h with h | h
      · rcases hstay with rfl | rfl <;> exact absurd h (by decide)
      · simp [isFile, hdir, Entry.isDir] at h
    · rw [follow_name_cons t path hdir hstay] at hl
      split at hl
      · cases hl
      · cases hl
        rcases h with h | h
        · contradiction
        · exact h

theorem lead_of_not_blocked (hne : path ≠ "") (hclear : t.isClear (origin cwd path) ms = true)
    (hopen : t.Open (origin cwd path) ms)
    (h : t.blocked (reach (origin cwd path) ms) name = false) :
    t.lead cwd path = .ok (step (reach (origin cwd path) ms) name) := by
  have husable : Usable path := by
    refine ⟨hne, accepted_of_names fun n hn => ?_⟩
    rw [hpath] at hn
    rcases mem_append.1 hn with hn | hn
    · exact accepted_of_isClear hclear n hn
    · rw [mem_singleton.1 hn]
      exact accepted_of_blocked h
  have hdir := hopen.lookup_reach
  rw [lead_eq t cwd husable, hpath, hopen.follow_append]
  by_cases hstay : name = "" ∨ name = "."
  · rw [follow_empty_cons t path _ hstay, if_neg (by simp [isFile, hdir, Entry.isDir]), step,
      if_pos hstay]
    rfl
  · have hlen : ¬maxNameBytes < nameBytes name := by
      simp only [blocked, Bool.or_eq_false_iff, decide_eq_false_iff_not] at h
      exact h.1.1
    rw [follow_name_cons t path hdir hstay, if_neg hlen]
    rfl

/-- Where the last `name` of `path` leads, if the way of `ms` to it has been made as far as
possible. -/
theorem lead_cases (hne : path ≠ "")
    (hopen : t.isClear (origin cwd path) ms = true → t.Open (origin cwd path) ms) :
    (t.isClear (origin cwd path) (ms ++ [name]) = false ∧
      ((∃ f, t.lead cwd path = .error f) ∨ ∃ p, t.lead cwd path = .ok p ∧ t.isFile p = true)) ∨
    (t.isClear (origin cwd path) ms = true ∧
      t.blocked (reach (origin cwd path) ms) name = false ∧
      t.lead cwd path = .ok (step (reach (origin cwd path) ms) name)) := by
  rw [isClear_append]
  cases hclear : t.isClear _ ms with
  | false => exact .inl ⟨rfl, .inl (lead_of_not_isClear hpath hclear)⟩
  | true =>
    have hopen := hopen hclear
    cases hblocked : t.blocked _ name with
    | true => exact .inl ⟨by simp [isClear, hblocked], lead_of_blocked hpath hopen hblocked⟩
    | false =>
      exact .inr ⟨rfl, rfl, lead_of_not_blocked hpath hne hclear hopen hblocked⟩

end LastName

end SmellLint.Tree

namespace SmellLint

open Path Tree List

def Workspace.withTree (w : Workspace) (t : Tree) : Workspace := { w with tree := t }

namespace Run

/-! ## Asking about paths -/

theorem exec_resolve (path : String) (w : Workspace) :
    (resolve path).exec w = (w.tree.resolve w.place path, w) := rfl

theorem exec_find (path : String) (w : Workspace) :
    (find path).exec w = (w.tree.find w.place path, w) := rfl

theorem exec_find? (path : String) (w : Workspace) :
    (find? path).exec w = (.ok (w.tree.find w.place path).toOption, w) := rfl

theorem exec_exists? (path : String) (w : Workspace) :
    (exists? path).exec w = (.ok (w.tree.find w.place path).toOption.isSome, w) := rfl

theorem exec_isDir (path : String) (w : Workspace) : (isDir path).exec w
      = (.ok ((w.tree.find w.place path).toOption.any fun e => e.2.isDir), w) := rfl

theorem exec_isFile (path : String) (w : Workspace) : (isFile path).exec w
      = (.ok ((w.tree.find w.place path).toOption.any fun e => !e.2.isDir), w) := rfl

/-! ## Making directories -/

variable {path : String} {w : Workspace} {p : Place}

theorem exec_makeDir_of_error {f : Fault} (h : w.tree.lead w.place path = .error f) :
    (makeDir path).exec w = (.error f, w) := by
  rw [makeDir, exec_bind_ok _ (exec_get w), exec_bind_error _ ((exec_lift _ w).trans (by rw [h]))]

theorem exec_makeDir_of_isSome (h : w.tree.lead w.place path = .ok p)
    (hp : (w.tree.lookup p).isSome = true) :
    (makeDir path).exec w = (.error (.fileExists path), w) := by
  rw [makeDir, exec_bind_ok _ (exec_get w),
    exec_bind_ok _ ((exec_lift _ w).trans (by rw [h])), if_pos hp, exec_throw]

theorem exec_makeDir_of_none (h : w.tree.lead w.place path = .ok p) (hp : w.tree.lookup p = none) :
    (makeDir path).exec w = (.ok (), w.withTree (w.tree.insert p .dir)) := by
  rw [makeDir, exec_bind_ok _ (exec_get w),
    exec_bind_ok _ ((exec_lift _ w).trans (by rw [h])), if_neg (by simp [hp])]
  rfl

/-- `makeDir` makes a directory where nothing is, or changes nothing. -/
theorem exec_makeDir_fails_or (path : String) (w : Workspace) :
    (∃ f, (makeDir path).exec w = (.error f, w)) ∨
      ∃ p, w.tree.lead w.place path = .ok p ∧ w.tree.lookup p = none ∧
        (makeDir path).exec w = (.ok (), w.withTree (w.tree.insert p .dir)) := by
  cases hl : w.tree.lead w.place path with
  | error f => exact .inl ⟨f, exec_makeDir_of_error hl⟩
  | ok p =>
    cases hp : w.tree.lookup p with
    | some e => exact .inl ⟨_, exec_makeDir_of_isSome hl (by rw [hp]; rfl)⟩
    | none => exact .inr ⟨p, rfl, hp, exec_makeDir_of_none hl hp⟩

theorem exec_ensureDir_eq (path : String) (w : Workspace) : (ensureDir path).exec w
    = if (w.tree.find w.place path).toOption.any fun e => e.2.isDir then (.ok (), w)
      else (makeDir path).exec w := by
  rw [ensureDir, exec_bind_ok _ (exec_isDir path w)]
  cases (w.tree.find w.place path).toOption.any fun e => e.2.isDir <;> rfl

section Step

variable {name : String} {ms : List String} (hpath : names path = ms ++ [name]) (hne : path ≠ "")
  (hopen : w.tree.isClear (origin w.place path) ms = true → w.tree.Open (origin w.place path) ms)
include hpath hne hopen

/-- What `makeDir` does once the way of `ms` has been made as far as possible: nothing where it is
blocked. -/
theorem exec_makeDir_cases : (w.tree.isClear (origin w.place path) (ms ++ [name]) = false ∧
      w.tree.nextPlace (origin w.place path) ms name = [] ∧
      (∀ q, w.tree.find w.place path ≠ .ok (q, .dir)) ∧
      ∃ f, (makeDir path).exec w = (.error f, w)) ∨
    (w.tree.isClear (origin w.place path) (ms ++ [name]) = true ∧
      ((∃ t, (∃ f, w.tree.find w.place path = .error f) ∧
          (makeDir path).exec w = (.ok (), w.withTree t) ∧
          w.tree.WithDirs (w.tree.nextPlace (origin w.place path) ms name) t) ∨
        ((∃ q, w.tree.find w.place path = .ok (q, .dir)) ∧
          w.tree.WithDirs (w.tree.nextPlace (origin w.place path) ms name) w.tree))) := by
  rcases lead_cases hpath hne hopen with ⟨hclear, hlead⟩ | ⟨hms, hname, hlead⟩
  · left
    rw [isClear_concat] at hclear
    refine ⟨by rw [isClear_concat, hclear], by rw [nextPlace, if_neg (by simp [hclear])], ?_⟩
    rcases hlead with ⟨f, hf⟩ | ⟨p, hp, hfile⟩
    · refine ⟨fun q hq => ?_, f, exec_makeDir_of_error hf⟩
      rw [lead_of_resolve (resolve_of_find hq).1] at hf
      cases hf
    · refine ⟨fun q hq => ?_, _, exec_makeDir_of_isSome hp ?_⟩
      · obtain ⟨hr, hq⟩ := resolve_of_find hq
        rw [lead_of_resolve hr] at hp
        cases hp
        cases (isFile_of_lookup hq).symm.trans hfile
      · cases hl : w.tree.lookup p with
        | none => cases (isFile_of_lookup hl).symm.trans hfile
        | some e => rfl
  · right
    have hfile : w.tree.isFile (step (reach (origin w.place path) ms) name)
        = false := by
      simp only [blocked, Bool.or_eq_false_iff] at hname
      exact hname.2
    have hresolve := resolve_of_lead hlead fun _ => hfile
    rw [isClear_concat, nextPlace, hms, hname]
    refine ⟨rfl, ?_⟩
    rcases lookup_of_isFile_eq_false hfile with hnone | hsome
    · exact .inl ⟨_, ⟨_, find_of_resolve_none hresolve hnone⟩, exec_makeDir_of_none hlead hnone,
        .insert hnone⟩
    · exact .inr ⟨⟨_, find_of_resolve hresolve hsome⟩, .of_dirs (by simpa using hsome)⟩

theorem exec_makeMissingDir : ∃ x t, (makeMissingDir path).exec w = (x, w.withTree t) ∧
      w.tree.WithDirs (w.tree.nextPlace (origin w.place path) ms name) t ∧
      (w.tree.isClear (origin w.place path) (ms ++ [name]) = true → x = .ok ()) := by
  have hexec : (makeMissingDir path).exec w
      = if (w.tree.find w.place path).toOption.isSome then (.ok (), w)
        else (makeDir path).exec w := by
    rw [makeMissingDir, exec_bind_ok _ (exec_exists? path w)]
    cases (w.tree.find w.place path).toOption.isSome <;> rfl
  rw [hexec]
  rcases exec_makeDir_cases hpath hne hopen with ⟨hclear, hnext, -, f, hf⟩ | ⟨-, h⟩
  · rw [hclear, hnext]
    split
    · exact ⟨_, w.tree, rfl, .refl _, by simp⟩
    · exact ⟨_, w.tree, hf, .refl _, by simp⟩
  · rcases h with ⟨t, ⟨f, hf⟩, hmake, ht⟩ | ⟨⟨q, hq⟩, ht⟩
    · rw [hf]
      exact ⟨_, t, hmake, ht, fun _ => rfl⟩
    · rw [hq]
      exact ⟨_, w.tree, rfl, ht, fun _ => rfl⟩

theorem exec_ensureDir : ∃ x t, (ensureDir path).exec w = (x, w.withTree t) ∧
      w.tree.WithDirs (w.tree.nextPlace (origin w.place path) ms name) t ∧
      x.toOption = if w.tree.isClear (origin w.place path) (ms ++ [name]) then some ()
        else none := by
  rw [exec_ensureDir_eq]
  rcases exec_makeDir_cases hpath hne hopen with ⟨hclear, hnext, hfind, f, hmake⟩ | ⟨hclear, h⟩
  · have hany : ¬(w.tree.find w.place path).toOption.any (fun e => e.2.isDir) = true := by
      cases hf : w.tree.find w.place path with
      | error f => simp [Except.toOption]
      | ok r =>
        obtain ⟨q, e⟩ := r
        cases e with
        | dir => exact absurd hf (hfind q)
        | file c => simp [Except.toOption, Entry.isDir]
    rw [if_neg hany, hmake, hclear, hnext]
    exact ⟨_, w.tree, rfl, .refl _, rfl⟩
  · rw [hclear]
    rcases h with ⟨t, ⟨f, hf⟩, hmake, ht⟩ | ⟨⟨q, hq⟩, ht⟩
    · rw [hf, hmake]
      exact ⟨_, t, rfl, ht, rfl⟩
    · rw [hq]
      exact ⟨_, w.tree, rfl, ht, rfl⟩

end Step

/-- `makeMissingDir` along the paths to `xs` makes the `way` of their names, up to the last one. -/
theorem exec_forM_makeMissingDir {t : Tree} {before xs : List String} {o : Place}
    (hparts : ∀ part ∈ before ++ xs, '/' ∉ part.toList)
    (ho : o = if (before ++ xs).head? = some "" then [] else w.place)
    (hdir : t.lookup o = some .dir) (ht : t.WithDirs (t.way o (before.filter (· != ""))) w.tree) :
    ∃ x t', ((waysFrom before xs).forM makeMissingDir).exec w = (x, w.withTree t') ∧
      t.WithDirs (t.way o ((before ++ xs).filter (· != ""))) t' ∧
      (t.isClear o ((before ++ xs).filter (· != "")) = true → x = .ok ()) := by
  induction xs generalizing before w with
  | nil =>
    rw [append_nil]
    exact ⟨_, w.tree, rfl, ht, fun _ => rfl⟩
  | cons part xs ih =>
    have hsplit : before ++ part :: xs = (before ++ [part]) ++ xs := by simp
    by_cases hempty : part = ""
    · subst hempty
      rw [hsplit] at hparts ho ⊢
      refine ih hparts ho ?_
      rwa [filter_append, filter_cons_of_neg (by simp), filter_nil, append_nil]
    · -- the path to this name leads through the names before it
      have hbefore : ∀ p ∈ before ++ [part], '/' ∉ p.toList := by
        intro p hp
        exact hparts p (hsplit ▸ mem_append_left xs hp)
      have hnames := names_intercalate_concat hbefore hempty
      have horigin : origin w.place ("/".intercalate (before ++ [part])) = o := by
        rw [ho, origin_intercalate_concat hbefore hempty]
        cases before <;> rfl
      have hne : "/".intercalate (before ++ [part]) ≠ "" := by
        intro h
        rw [h, names_empty] at hnames
        simp at hnames
      have hways : waysFrom before (part :: xs)
          = "/".intercalate (before ++ [part]) :: waysFrom (before ++ [part]) xs := by
        rw [waysFrom, if_neg (by simpa using hempty)]
      have hfilter : (before ++ [part]).filter (· != "") = before.filter (· != "") ++ [part] := by
        rw [filter_append, filter_cons_of_pos (by simpa using hempty), filter_nil]
      have hopen : w.tree.isClear (origin w.place ("/".intercalate (before ++ [part])))
          (before.filter (· != "")) = true →
          w.tree.Open (origin w.place ("/".intercalate (before ++ [part])))
            (before.filter (· != "")) := by
        rw [horigin]
        exact ht.open_way hdir
      obtain ⟨x, t₁, hexec, ht₁, hx⟩ := exec_makeMissingDir hnames hne hopen
      rw [horigin, nextPlace_congr ht.isFile] at ht₁
      rw [horigin, (way_congr ht.isFile o _).2] at hx
      replace ht₁ := ht.trans ht₁
      rw [← way_concat] at ht₁
      rw [hways, List.forM]
      cases x with
      | ok u =>
        rw [exec_bind_ok _ hexec]
        rw [hsplit] at hparts ho ⊢
        exact ih hparts ho (by rwa [hfilter])
      | error f =>
        have hblocked : t.isClear o (before.filter (· != "") ++ [part]) = false := by
          cases hclear : t.isClear o _ with
          | false => rfl
          | true => cases hx hclear
        rw [exec_bind_error _ hexec, hsplit, filter_append, hfilter, way_append,
          isClear_append t o (before.filter (· != "") ++ [part]), hblocked]
        exact ⟨_, t₁, rfl, by simpa using ht₁, by simp⟩

/-- `makeMissingDir` along the `heads` of `path` makes the `way` of the names `ms` before its last
one. -/
theorem exec_forM_heads {name : String} {ms : List String} (hpath : names path = ms ++ [name])
    (hdir : w.tree.lookup (origin w.place path) = some .dir) :
    ∃ x t, ((heads path).forM makeMissingDir).exec w = (x, w.withTree t) ∧
      w.tree.WithDirs (w.tree.way (origin w.place path) ms) t ∧
      (w.tree.isClear (origin w.place path) ms = true → x = .ok ()) := by
  have hne : path ≠ "" := by
    rintro rfl
    rw [names_empty] at hpath
    simp at hpath
  obtain ⟨xs, es, hparts, hxs, hheads⟩ := heads_eq hpath
  have hslash : ∀ part ∈ [] ++ xs, '/' ∉ part.toList := by
    intro part hpart
    exact not_mem_of_mem_splitOn (hparts ▸ mem_append_left _ hpart)
  have horigin : origin w.place path
      = if ([] ++ xs).head? = some "" then [] else w.place := by
    refine if_congr ?_ rfl rfl
    rw [← head?_splitOn hne, hparts]
    cases xs with
    | nil =>
      have := (isPlain_of_mem_names (hpath ▸ mem_append_right ms mem_cons_self)).1
      simp [this]
    | cons x xs => rfl
  obtain ⟨x, t, hexec, ht, hx⟩ := exec_forM_makeMissingDir hslash horigin hdir (.refl w.tree)
  rw [nil_append, hxs] at ht hx
  exact ⟨x, t, hheads ▸ hexec, ht, hx⟩

/-- `makeDirs` of a path without names makes nothing, and fails if the path is empty. -/
theorem exec_makeDirs_of_names_eq_nil (hnil : names path = [])
    (hdir : w.tree.lookup (origin w.place path) = some .dir) :
    ∃ x t, (makeDirs path).exec w = (x, w.withTree t) ∧
      w.tree.WithDirs (w.tree.way (origin w.place path) []) t ∧
      x.toOption = if path ≠ "" ∧ w.tree.isClear (origin w.place path) [] = true
        then some () else none := by
  rw [makeDirs, heads_of_names_eq_nil hnil,
    exec_bind_ok _ (rfl : (([] : List String).forM makeMissingDir).exec w = (.ok (), w)),
    exec_ensureDir_eq]
  by_cases hempty : path = ""
  · subst hempty
    exact ⟨_, w.tree, exec_makeDir_of_error rfl, .refl _, rfl⟩
  · have hfind : w.tree.find w.place path = .ok (origin w.place path, .dir) := by
      refine find_eq_dir_iff.2 ⟨⟨hempty, accepted_of_names fun n hn => ?_⟩,
        by rw [hnil]; exact hdir, by rw [hnil]; rfl⟩
      rw [hnil] at hn
      cases hn
    rw [hfind]
    exact ⟨_, w.tree, rfl, .refl _, by simp [hempty, isClear, Except.toOption]⟩

/-- `makeDirs` makes the places on the `way` of the names of `path`, up to where it is blocked; it
succeeds if it is blocked nowhere. -/
theorem exec_makeDirs (path : String) (hcwd : w.tree.lookup w.place = some .dir) :
    ∃ x t, (makeDirs path).exec w = (x, w.withTree t) ∧
      w.tree.WithDirs (w.tree.way (origin w.place path) (names path)) t ∧
      x.toOption = if path ≠ "" ∧ w.tree.isClear (origin w.place path) (names path) = true
        then some () else none := by
  have hdir : w.tree.lookup (origin w.place path) = some .dir := by
    rw [origin]
    split
    · rfl
    · exact hcwd
  obtain hnil | ⟨ms, name, hpath⟩ := eq_nil_or_concat (names path)
  · rw [hnil]
    exact exec_makeDirs_of_names_eq_nil hnil hdir
  · rw [concat_eq_append] at hpath
    have hne : path ≠ "" := by
      rintro rfl
      rw [names_empty] at hpath
      simp at hpath
    obtain ⟨x, t, hexec, ht, hx⟩ := exec_forM_heads hpath hdir
    rw [makeDirs, hpath]
    -- a head that fails shows that the way is blocked, and then the last name is not reached
    cases x with
    | error f =>
      have hblocked : w.tree.isClear (origin w.place path) ms = false := by
        cases hclear : w.tree.isClear _ ms with
        | false => rfl
        | true => cases hx hclear
      rw [exec_bind_error _ hexec, way_append, isClear_append, hblocked]
      exact ⟨_, t, rfl, by simpa using ht, by simp [Except.toOption]⟩
    | ok u =>
      obtain ⟨x, t', hlast, ht', hx'⟩ :=
        exec_ensureDir (w := w.withTree t) hpath hne (ht.open_way hdir)
      refine ⟨x, t', (exec_bind_ok _ hexec).trans hlast, ?_, ?_⟩
      · rw [way_concat, ← nextPlace_congr ht.isFile]
        exact ht.trans ht'
      · rw [hx', ← (way_congr ht.isFile _ _).2]
        simp only [ne_eq, hne, not_false_eq_true, true_and]
        rfl

/-- `makeDirs` changes nothing if the directory is there. -/
theorem exec_makeDirs_of_find (hcwd : w.tree.lookup w.place = some .dir)
    (h : w.tree.find w.place path = .ok (p, .dir)) :
    ∃ t, (makeDirs path).exec w = (.ok (), w.withTree t) ∧
      (∀ q, t.lookup q = w.tree.lookup q) ∧ (w.tree.Regular → t.Regular) := by
  obtain ⟨husable, hopen, -⟩ := find_eq_dir_iff.1 h
  obtain ⟨x, t, hexec, ht, hx⟩ := exec_makeDirs path hcwd
  have hclear := hopen.isClear fun n hn => husable.2.of_mem_names hn
  rw [if_pos ⟨husable.1, hclear⟩] at hx
  cases x with
  | error f => cases hx
  | ok u =>
    rw [← append_nil (w.tree.way _ _)] at ht
    exact ⟨t, hexec, (ht.of_append fun q hq => hopen.lookup_of_mem_way hq).lookup_eq, ht.regular⟩

end Run

end SmellLint
