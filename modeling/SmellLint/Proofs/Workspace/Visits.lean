import SmellLint.Proofs.Workspace.Trees

/-!
# Visiting a directory

A visit finds the files below a directory, in an order of its own (`ComesBefore`).  It finds the
same files of one kind in two trees that have the same files of that kind, whatever else is in them
(`SameBelow.sources_eq`); so it does after more has been put into the tree, as long as nothing of
that kind was added and nothing was taken away.
-/

namespace SmellLint.Tree

open List

/-! ## Directories and files in a directory -/

theorem filterMap_children {f : String × Entry → Option String} (p : Entry → Bool)
    (hf : ∀ n e, f (n, e) = if p e then some n else none) (t : Tree) (dir : Place) :
    (t.children dir).filterMap f = ((t.children dir).filter fun x => p x.2).map Prod.fst := by
  induction t.children dir with
  | nil => rfl
  | cons x l ih =>
    obtain ⟨n, e⟩ := x
    rw [filterMap_cons, ih, hf]
    cases h : p e <;> simp [h]

theorem dirNames_eq (t : Tree) (dir : Place) :
    t.dirNames dir = ((t.children dir).filter fun x => x.2.isDir).map Prod.fst :=
  filterMap_children Entry.isDir (fun _ _ => rfl) t dir

theorem fileNames_eq (t : Tree) (dir : Place) :
    t.fileNames dir = ((t.children dir).filter fun x => !x.2.isDir).map Prod.fst :=
  filterMap_children (!·.isDir) (fun _ e => by cases e <;> rfl) t dir

theorem dirNames_sublist (t : Tree) (dir : Place) : (t.dirNames dir).Sublist (t.names dir) := by
  rw [dirNames_eq]
  exact filter_sublist.map _

theorem fileNames_sublist (t : Tree) (dir : Place) : (t.fileNames dir).Sublist (t.names dir) := by
  rw [fileNames_eq]
  exact filter_sublist.map _

theorem Regular.mem_filter_children {t : Tree} (h : t.Regular) {dir : Place} {name : String}
    (p : Entry → Bool) : name ∈ ((t.children dir).filter fun x => p x.2).map Prod.fst ↔
      (t.lookup (dir ++ [name])).any p = true := by
  rw [mem_map, Option.any_eq_true]
  constructor
  · rintro ⟨⟨n, e⟩, hmem, rfl⟩
    obtain ⟨hmem, he⟩ := mem_filter.1 hmem
    exact ⟨e, h.mem_children.1 hmem, he⟩
  · rintro ⟨e, hlookup, he⟩
    exact ⟨(name, e), mem_filter.2 ⟨h.mem_children.2 hlookup, he⟩, rfl⟩

theorem Regular.mem_dirNames {t : Tree} (h : t.Regular) {dir : Place} {name : String} :
    name ∈ t.dirNames dir ↔ t.isDir (dir ++ [name]) = true := by
  rw [dirNames_eq]
  exact h.mem_filter_children Entry.isDir

theorem Regular.mem_fileNames {t : Tree} (h : t.Regular) {dir : Place} {name : String} :
    name ∈ t.fileNames dir ↔ t.isFile (dir ++ [name]) = true := by
  rw [fileNames_eq]
  exact h.mem_filter_children (!·.isDir)

theorem length_le_depth {t : Tree} {p : Place} {e : Entry} (h : t.lookup p = some e) :
    p.length ≤ t.depth := by
  by_cases hp : p = []
  · subst hp
    exact Nat.zero_le _
  · rw [lookup_eq t hp, lookup_eq_some_iff] at h
    obtain ⟨before, after, heq, -⟩ := h
    rw [depth, heq]
    clear heq
    induction before with
    | nil => exact Nat.le_max_left _ _
    | cons x before ih => exact Nat.le_trans ih (Nat.le_max_right _ _)

/-! ## Files below a directory -/

/-- The ways from `start` to the files that `visitFrom` finds and whose names `keep` accepts. -/
def sources (t : Tree) (keep enter : String → Bool) (start : Place) (fuel : Nat)
    (way : List String) : List (List String) :=
  (t.visitFrom enter start fuel way).flatMap fun v =>
    (v.files.filter keep).map fun n => v.way ++ [n]

section Sources

variable {t t' : Tree} {keep enter : String → Bool} {start : Place}

theorem sources_succ (fuel : Nat) (way : List String) : t.sources keep enter start (fuel + 1) way
      = ((t.fileNames (start ++ way)).filter keep).map (fun n => way ++ [n]) ++
        ((t.dirNames (start ++ way)).filter enter).flatMap fun d =>
          t.sources keep enter start fuel (way ++ [d]) := by
  rw [sources, visitFrom, flatMap_cons, flatMap_assoc]
  rfl

variable {fuel : Nat} {way ws : List String}

/-- What is among `sources` is a file below `way`, in directories that `enter` accepts. -/
theorem exists_of_mem_sources (h : t.Regular) (hws : ws ∈ t.sources keep enter start fuel way) :
    ∃ ms n, ws = way ++ ms ++ [n] ∧ keep n = true ∧ t.isFile (start ++ ws) = true ∧
      ∀ d ∈ ms, enter d = true := by
  induction fuel generalizing way with
  | zero => cases hws
  | succ fuel ih =>
    rw [sources_succ, mem_append] at hws
    rcases hws with hws | hws
    · obtain ⟨n, hn, rfl⟩ := mem_map.1 hws
      obtain ⟨hn, hkeep⟩ := mem_filter.1 hn
      refine ⟨[], n, by rw [append_nil], hkeep, ?_, forall_mem_nil _⟩
      rw [← append_assoc]
      exact h.mem_fileNames.1 hn
    · obtain ⟨d, hd, hws⟩ := mem_flatMap.1 hws
      obtain ⟨ms, n, rfl, hkeep, hfile, hms⟩ := ih hws
      exact ⟨d :: ms, n, by simp, hkeep, hfile, forall_mem_cons.2 ⟨(mem_filter.1 hd).2, hms⟩⟩

/-- `sources` has all files in directories that `enter` accepts, if `fuel` is enough. -/
theorem Regular.mem_sources (h : t.Regular) {ms : List String} {n : String}
    (hkeep : keep n = true) (hfile : t.isFile (start ++ (way ++ ms ++ [n])) = true)
    (hdirs : ∀ ds, ds <+: ms → t.isDir (start ++ (way ++ ds)) = true)
    (hms : ∀ d ∈ ms, enter d = true) (hfuel : ms.length < fuel) :
    way ++ ms ++ [n] ∈ t.sources keep enter start fuel way := by
  induction ms generalizing way fuel with
  | nil =>
    obtain ⟨fuel, rfl⟩ := Nat.exists_eq_add_of_lt hfuel
    rw [append_nil, ← append_assoc] at hfile
    rw [append_nil]
    refine mem_append_left _ (mem_map_of_mem (mem_filter.2 ⟨?_, hkeep⟩))
    exact h.mem_fileNames.2 hfile
  | cons d ms ih =>
    obtain ⟨hd, hms⟩ := forall_mem_cons.1 hms
    obtain ⟨fuel, rfl⟩ := Nat.exists_eq_add_of_lt hfuel
    have hdir := hdirs [d] (prefix_append [d] ms)
    have hbelow : ∀ ds, ds <+: ms → t.isDir (start ++ (way ++ [d] ++ ds)) = true := by
      intro ds hds
      rw [← append_cons]
      exact hdirs (d :: ds) ((prefix_cons_inj d).2 hds)
    rw [append_cons way d ms] at hfile ⊢
    rw [← append_assoc] at hdir
    rw [sources_succ]
    refine mem_append_right _ (mem_flatMap.2
      ⟨d, mem_filter.2 ⟨h.mem_dirNames.2 hdir, hd⟩, ih hfile hbelow hms ?_⟩)
    rw [length_cons]
    omega

/-- One way to a file comes before another in a visit: where they part, a file comes before what is
in a directory, and of two files or two directories the one with the lesser name. -/
def ComesBefore : List String → List String → Prop
  | [a], b :: bs => bs = [] → a < b
  | a :: as, b :: bs => bs ≠ [] ∧ (a < b ∨ a = b ∧ ComesBefore as bs)
  | _, _ => False

theorem ComesBefore.asymm {as bs : List String} (h : ComesBefore as bs) : ¬ComesBefore bs as := by
  induction as generalizing bs with
  | nil => cases h
  | cons a as ih =>
    cases bs with
    | nil => cases as <;> cases h
    | cons b bs =>
      cases as with
      | nil =>
        cases bs with
        | nil => exact fun h' => String.lt_asymm (h rfl) (h' rfl)
        | cons c bs => exact fun h' => h'.1 rfl
      | cons c as =>
        obtain ⟨hne, h⟩ := h
        obtain ⟨d, bs, rfl⟩ := exists_cons_of_ne_nil hne
        rintro ⟨-, h'⟩
        rcases h with h | ⟨rfl, h⟩
        · rcases h' with h' | ⟨rfl, -⟩
          · exact String.lt_asymm h h'
          · exact String.lt_irrefl _ h
        · rcases h' with h' | ⟨-, h'⟩
          · exact String.lt_irrefl _ h'
          · exact ih h h'

theorem Regular.exists_comesBefore (h : t.Regular) (fuel : Nat) (way : List String) :
    (t.sources keep enter start fuel way).Pairwise fun x y =>
      ∃ as bs, x = way ++ as ∧ y = way ++ bs ∧ ComesBefore as bs := by
  induction fuel generalizing way with
  | zero => exact .nil
  | succ fuel ih =>
    -- what is found in a directory of the place where the visit is
    have hbelow : ∀ {d x}, x ∈ t.sources keep enter start fuel (way ++ [d]) →
        ∃ c cs, x = way ++ d :: c :: cs := by
      intro d x hx
      obtain ⟨ms, n, rfl, -⟩ := exists_of_mem_sources h hx
      obtain ⟨c, cs, hcs⟩ := exists_cons_of_ne_nil (show ms ++ [n] ≠ [] by simp)
      exact ⟨c, cs, by rw [← hcs]; simp⟩
    rw [sources_succ, pairwise_append, pairwise_map, pairwise_flatMap]
    refine ⟨?_, ⟨fun d _ => ?_, ?_⟩, ?_⟩
    · refine ((h.names_pairwise_lt _).sublist
        (filter_sublist.trans (t.fileNames_sublist _))).imp fun {a b} hab => ?_
      exact ⟨[a], [b], rfl, rfl, fun _ => hab⟩
    · refine (ih _).imp ?_
      rintro x y ⟨as, bs, rfl, rfl, hab⟩
      refine ⟨d :: as, d :: bs, by simp, by simp, ?_⟩
      cases as with
      | nil => cases hab
      | cons a as =>
        cases bs with
        | nil => cases as <;> cases hab
        | cons b bs => exact ⟨cons_ne_nil _ _, .inr ⟨rfl, hab⟩⟩
    · refine ((h.names_pairwise_lt _).sublist
        (filter_sublist.trans (t.dirNames_sublist _))).imp fun {d e} hde x hx y hy => ?_
      obtain ⟨a, as, rfl⟩ := hbelow hx
      obtain ⟨b, bs, rfl⟩ := hbelow hy
      exact ⟨_, _, rfl, rfl, cons_ne_nil _ _, .inl hde⟩
    · intro x hx y hy
      obtain ⟨n, -, rfl⟩ := mem_map.1 hx
      obtain ⟨d, -, hy⟩ := mem_flatMap.1 hy
      obtain ⟨b, bs, rfl⟩ := hbelow hy
      exact ⟨[n], _, rfl, rfl, fun hnil => absurd hnil (cons_ne_nil _ _)⟩

/-- `sources` are in the order of `ComesBefore`. -/
theorem Regular.pairwise_sources (h : t.Regular) (fuel : Nat) :
    (t.sources keep enter start fuel []).Pairwise ComesBefore := by
  refine (h.exists_comesBefore fuel []).imp ?_
  rintro _ _ ⟨as, bs, rfl, rfl, hab⟩
  exact hab

theorem sources_eq_nil (h : t.Regular)
    (hnone : ∀ ms n, keep n = true → t.isFile (start ++ (way ++ ms ++ [n])) = false) :
    t.sources keep enter start fuel way = [] := by
  refine eq_nil_iff_forall_not_mem.2 fun ws hws => ?_
  obtain ⟨ms, n, rfl, hkeep, hfile, -⟩ := exists_of_mem_sources h hws
  rw [hnone ms n hkeep] at hfile
  cases hfile

/-- `t` and `t'` have the same files whose names `keep` accepts below `start`, and all of them lie
in directories. -/
structure SameBelow (keep : String → Bool) (start : Place) (t t' : Tree) : Prop where
  isFile : ∀ ws n, keep n = true →
    t.isFile (start ++ (ws ++ [n])) = t'.isFile (start ++ (ws ++ [n]))
  isDir : ∀ ws n, keep n = true → t.isFile (start ++ (ws ++ [n])) = true → ∀ ms, ms <+: ws →
    t.isDir (start ++ ms) = true ∧ t'.isDir (start ++ ms) = true

theorem SameBelow.symm (h : SameBelow keep start t t') : SameBelow keep start t' t where
  isFile ws n hkeep := (h.isFile ws n hkeep).symm
  isDir ws n hkeep hfile ms hms :=
    (h.isDir ws n hkeep ((h.isFile ws n hkeep).trans hfile) ms hms).symm

/-- What is among the `sources` of `t` is among those of `t'`, where the same directories are
entered. -/
theorem SameBelow.mem_sources (hsame : SameBelow keep start t t') (h : t.Regular) (h' : t'.Regular)
    {enter' : String → Bool} {fuel' : Nat} (hfuel : t'.depth < start.length + fuel')
    (henter : ∀ ws d, t.isDir (start ++ (ws ++ [d])) = true →
      t'.isDir (start ++ (ws ++ [d])) = true → enter d = true → enter' d = true)
    (hws : ws ∈ t.sources keep enter start fuel []) :
    ws ∈ t'.sources keep enter' start fuel' [] := by
  obtain ⟨ms, n, rfl, hkeep, hfile, hms⟩ := exists_of_mem_sources h hws
  have hfile' : t'.isFile _ = true :=
    (hsame.isFile ms n hkeep).symm.trans hfile
  have hdirs := hsame.isDir ms n hkeep hfile
  refine h'.mem_sources hkeep hfile' (fun ds hds => (hdirs ds hds).2) (fun d hd => ?_) ?_
  · obtain ⟨as, bs, rfl⟩ := append_of_mem hd
    obtain ⟨hdir, hdir'⟩ := hdirs _ (append_cons as d bs ▸ prefix_append _ bs)
    exact henter as d hdir hdir' (hms d hd)
  · -- what is at the end of the way is no further from the root than the deepest place
    obtain ⟨c, hc⟩ := exists_of_isFile hfile'
    have hdepth := length_le_depth hc
    simp only [length_append] at hdepth
    omega

/-- The `sources` are the same if both fuels are enough. -/
theorem SameBelow.sources_eq (hsame : SameBelow keep start t t') (h : t.Regular) (h' : t'.Regular)
    {enter' : String → Bool} {fuel' : Nat} (hfuel : t.depth < start.length + fuel)
    (hfuel' : t'.depth < start.length + fuel')
    (henter : ∀ ws d, t.isDir (start ++ (ws ++ [d])) = true → enter d = enter' d) :
    t.sources keep enter start fuel [] = t'.sources keep enter' start fuel' [] := by
  refine eq_of_pairwise_of_mem_iff ComesBefore.asymm (h.pairwise_sources fuel)
    (h'.pairwise_sources fuel') fun ws => ⟨?_, ?_⟩
  · exact hsame.mem_sources h h' hfuel' fun ws d hd _ => (henter ws d hd).symm.trans
  · exact hsame.symm.mem_sources h' h hfuel fun ws d _ hd => (henter ws d hd).trans

/-- `t'` has everything that is in `t`, and what is new in it are directories and files whose names
`keep` refuses. -/
structure Extends (keep : String → Bool) (t t' : Tree) : Prop where
  isDir : ∀ {q : Place}, t.isDir q = true → t'.isDir q = true
  isFile : ∀ {q : Place}, t.isFile q = true → t'.isFile q = true
  isNew : ∀ {q : Place} {n : String}, keep n = true → t.lookup (q ++ [n]) = none →
    t'.isFile (q ++ [n]) = false

theorem isFile_eq_false_of_isDir {p : Place} (h : t.isDir p = true) : t.isFile p = false :=
  isFile_of_lookup (lookup_of_isDir h)

theorem Sound.isDir_of_isFile (h : t.Sound) {ms : List String} {n : String}
    (hfile : t.isFile (start ++ (ws ++ [n])) = true) (hms : ms <+: ws) :
    t.isDir (start ++ ms) = true := by
  obtain ⟨c, hc⟩ := exists_of_isFile hfile
  obtain ⟨rs, rfl⟩ := hms
  rw [append_assoc, ← append_assoc] at hc
  exact isDir_of_lookup (h.lookup_of_append (by simp) hc)

/-- There are no `sources` below what is no directory. -/
theorem Sound.sources_of_not_isDir (h : t.Sound) (hdir : t.isDir start = false) (fuel : Nat) :
    t.sources keep enter start fuel [] = [] := by
  refine sources_eq_nil h.toRegular fun ms n _ => ?_
  by_contra hfile
  rw [Bool.not_eq_false] at hfile
  have hstart := h.isDir_of_isFile hfile (prefix_append [] ms)
  rw [append_nil, hdir] at hstart
  cases hstart

/-- `SameBelow` holds for trees with the same files below `start`, as things lie in directories. -/
theorem Sound.sameBelow (h : t.Sound) (h' : t'.Sound) (hfile : ∀ ws n, keep n = true →
    t.isFile (start ++ (ws ++ [n])) = t'.isFile (start ++ (ws ++ [n]))) :
    SameBelow keep start t t' where
  isFile := hfile
  isDir ws n hkeep htrue _ hms :=
    ⟨h.isDir_of_isFile htrue hms, h'.isDir_of_isFile ((hfile ws n hkeep).symm.trans htrue) hms⟩

theorem Extends.sameBelow (hext : Extends keep t t') (h : t.Sound) (start : Place) :
    SameBelow keep start t t' where
  isFile ws n hkeep := by
    rw [← append_assoc]
    cases hl : t.lookup _ with
    | none =>
      rw [hext.isNew hkeep hl, Tree.isFile, hl]
      rfl
    | some e =>
      cases e with
      | file c =>
        have hfile : t.isFile (start ++ ws ++ [n]) = true := isFile_of_lookup hl
        rw [hfile, hext.isFile hfile]
      | dir =>
        have hdir : t.isDir (start ++ ws ++ [n]) = true := isDir_of_lookup hl
        rw [isFile_eq_false_of_isDir hdir, isFile_eq_false_of_isDir (hext.isDir hdir)]
  isDir _ _ _ hfile _ hms := by
    have hdir := h.isDir_of_isFile hfile hms
    exact ⟨hdir, hext.isDir hdir⟩

end Sources

end SmellLint.Tree
