import Mathlib.Data.List.Induction
import Mathlib.Data.List.Sort
import SmellLint.Proofs.Lists
import SmellLint.Proofs.Workspace.Paths
import SmellLint.Workspace.Basic

/-!
# Places and paths in a tree

What a tree holds after something has been put into it, what it lists, and where a path leads.  The
last question has a simple answer for a path to a directory: every place on the way has to be a
directory (`Open`), and then the path leads where its names lead.
-/

namespace SmellLint

open List Path Text.Utf8

namespace Tree

/-! ## Putting things into a tree -/

variable {p q dir cwd : Place} {t : Tree} {e : Entry} {name n path : String} {ns ms : List String}

theorem lookup_eq (t : Tree) (h : p ≠ []) : t.lookup p = t.entries.lookup p := by
  rw [lookup, if_neg (by simpa using h)]

/-- `lookup` among the entries at places that `f` accepts. -/
theorem lookup_filter (f : Place → Bool) (q : Place) (entries : List (Place × Entry)) :
    (entries.filter fun x => f x.1).lookup q = if f q then entries.lookup q else none := by
  induction entries with
  | nil => simp
  | cons x entries ih =>
    obtain ⟨r, e⟩ := x
    rw [filter_cons, lookup_cons]
    by_cases hq : q = r
    · subst hq
      cases hf : f q with
      | true => simp
      | false => simp [ih, hf]
    · rw [beq_false_of_ne hq]
      split
      · rw [lookup_cons, beq_false_of_ne hq, ih]
      · rw [ih]

theorem lookup_insert_of_ne (t : Tree) (h : q ≠ p) (e : Entry) :
    (t.insert p e).lookup q = t.lookup q := by
  by_cases hq : q = []
  · subst hq
    rfl
  · rw [lookup_eq _ hq, lookup_eq _ hq, insert, lookup_append, lookup_filter (· != p),
      if_pos (by simpa using h), lookup_cons, beq_false_of_ne h, lookup_nil,
      Option.or_none]

theorem lookup_insert_self (t : Tree) (h : p ≠ []) (e : Entry) :
    (t.insert p e).lookup p = some e := by
  rw [lookup_eq _ h, insert, lookup_append, lookup_filter (· != p), if_neg (by simp),
    Option.none_or, lookup_cons, beq_self_eq_true]

theorem lookup_insert (t : Tree) (h : p ≠ []) (e : Entry) (q : Place) :
    (t.insert p e).lookup q = if q = p then some e else t.lookup q := by
  split
  · next hq => rw [hq, lookup_insert_self t h]
  · next hq => rw [lookup_insert_of_ne t hq]

theorem isDir_of_lookup {o : Option Entry} (h : t.lookup p = o) : t.isDir p = o.any Entry.isDir :=
  congrArg (Option.any _) h

theorem isFile_of_lookup {o : Option Entry} (h : t.lookup p = o) : t.isFile p = o.any (!·.isDir) :=
  congrArg (Option.any _) h

theorem lookup_of_isDir (h : t.isDir p = true) : t.lookup p = some .dir := by
  obtain ⟨e, he, hdir⟩ := Option.any_eq_true _ _ |>.1 h
  cases e with
  | dir => exact he
  | file c => cases hdir

theorem exists_of_isFile (h : t.isFile p = true) : ∃ c, t.lookup p = some (.file c) := by
  obtain ⟨e, he, hfile⟩ := Option.any_eq_true _ _ |>.1 h
  cases e with
  | dir => cases hfile
  | file c => exact ⟨c, he⟩

/-- The list of `t` holds each place once, and not the root. -/
structure Regular (t : Tree) : Prop where
  nodup : (t.entries.map Prod.fst).Nodup
  root : ∀ x ∈ t.entries, x.1 ≠ []

theorem lookup_of_mem {entries : List (Place × Entry)} (hnodup : (entries.map Prod.fst).Nodup)
    (h : (p, e) ∈ entries) : entries.lookup p = some e := by
  induction entries with
  | nil => cases h
  | cons x entries ih =>
    rw [map_cons, nodup_cons] at hnodup
    obtain ⟨q, f⟩ := x
    rcases mem_cons.1 h with heq | hmem
    · cases heq
      rw [lookup_cons, beq_self_eq_true]
    · have hne : p ≠ q := by
        rintro rfl
        exact hnodup.1 (mem_map.2 ⟨_, hmem, rfl⟩)
      rw [lookup_cons, beq_false_of_ne hne]
      exact ih hnodup.2 hmem

theorem Regular.mem_entries (h : t.Regular) :
    (p, e) ∈ t.entries ↔ p ≠ [] ∧ t.lookup p = some e := by
  constructor
  · intro hmem
    have hp := h.root _ hmem
    exact ⟨hp, (lookup_eq t hp).trans (lookup_of_mem h.nodup hmem)⟩
  · rintro ⟨hp, hlookup⟩
    rw [lookup_eq t hp, lookup_eq_some_iff] at hlookup
    obtain ⟨before, after, heq, -⟩ := hlookup
    rw [heq]
    exact mem_append_right before mem_cons_self

theorem Regular.insert (h : t.Regular) (hp : p ≠ []) (e : Entry) : (t.insert p e).Regular := by
  have hsub : (t.entries.filter (·.1 != p)).Sublist t.entries := filter_sublist
  constructor
  · rw [Tree.insert, map_append, nodup_append]
    refine ⟨h.nodup.sublist (hsub.map _), by simp, ?_⟩
    intro q hq r hr
    obtain ⟨x, hx, rfl⟩ := mem_map.1 hq
    have := (mem_filter.1 hx).2
    obtain rfl : r = p := by simpa using hr
    simpa using this
  · intro x hx
    rcases mem_append.1 hx with hx | hx
    · exact h.root x (hsub.subset hx)
    · rw [mem_singleton.1 hx]
      exact hp

/-! ## Listing a directory -/

theorem childName?_eq_some_iff : childName? dir p = some name ↔ p = dir ++ [name] := by
  rw [childName?]
  constructor
  · intro h
    split at h
    · next hp =>
      obtain ⟨hlen, hsub⟩ := Bool.and_eq_true_iff.1 hp
      obtain ⟨rest, rfl⟩ := isPrefixOf_iff_prefix.1 hsub
      have hrest : rest.length = 1 := by simpa using hlen
      obtain ⟨n, rfl⟩ := length_eq_one_iff.1 hrest
      simpa using h
    · cases h
  · rintro rfl
    simp

/-- The names in the directory `dir`, in order. -/
def names (t : Tree) (dir : Place) : List String := (t.children dir).map Prod.fst

theorem insertChild_eq_orderedInsert :
    insertChild = orderedInsert fun a b => a.1 ≤ b.1 := by
  funext x l
  induction l with
  | nil => rfl
  | cons y l ih => rw [insertChild, orderedInsert_cons, ih]

theorem children_perm (t : Tree) (dir : Place) : (t.children dir).Perm
      (t.entries.filterMap fun x => (childName? dir x.1).map fun n => (n, x.2)) := by
  rw [children, insertChild_eq_orderedInsert]
  exact perm_insertionSort _ _

theorem Regular.mem_children (h : t.Regular) :
    (name, e) ∈ t.children dir ↔ t.lookup (dir ++ [name]) = some e := by
  rw [(t.children_perm dir).mem_iff, mem_filterMap]
  constructor
  · rintro ⟨⟨p, f⟩, hx, hp⟩
    obtain ⟨n, hn, heq⟩ := Option.map_eq_some_iff.1 hp
    cases heq
    rw [← childName?_eq_some_iff.1 hn]
    exact (h.mem_entries.1 hx).2
  · intro hlookup
    refine ⟨(dir ++ [name], e), h.mem_entries.2 ⟨by simp, hlookup⟩, ?_⟩
    rw [childName?_eq_some_iff.2 rfl]
    rfl

theorem Regular.mem_names (h : t.Regular) :
    name ∈ t.names dir ↔ (t.lookup (dir ++ [name])).isSome := by
  rw [names, mem_map, Option.isSome_iff_exists]
  constructor
  · rintro ⟨⟨n, e⟩, hmem, rfl⟩
    exact ⟨e, h.mem_children.1 hmem⟩
  · rintro ⟨e, he⟩
    exact ⟨(name, e), h.mem_children.2 he, rfl⟩

theorem Regular.nodup_names (h : t.Regular) (dir : Place) : (t.names dir).Nodup := by
  refine ((t.children_perm dir).map Prod.fst).nodup_iff.2 ?_
  have heq : (t.entries.filterMap fun x => (childName? dir x.1).map fun n => (n, x.2)).map Prod.fst
      = (t.entries.map Prod.fst).filterMap (childName? dir) := by
    rw [map_filterMap, filterMap_map]
    congr 1
    funext x
    cases h : childName? dir x.1 <;> simp [h]
  rw [heq]
  refine Pairwise.filterMap _ ?_ h.nodup
  intro p q hpq n hn m hm hnm
  rw [childName?_eq_some_iff.1 hn, childName?_eq_some_iff.1 hm, hnm] at hpq
  exact hpq rfl

theorem sorted_names (t : Tree) (dir : Place) : (t.names dir).Pairwise (· ≤ ·) := by
  let r (a b : String × Entry) := a.1 ≤ b.1
  have : Std.Total r := ⟨fun a b => String.le_total a.1 b.1⟩
  have : IsTrans _ r := ⟨fun _ _ _ => String.le_trans⟩
  rw [names, pairwise_map, children, insertChild_eq_orderedInsert]
  exact pairwise_insertionSort r _

theorem Regular.names_pairwise_lt (h : t.Regular) (dir : Place) :
    (t.names dir).Pairwise (· < ·) := by
  refine ((t.sorted_names dir).and (h.nodup_names dir)).imp fun hab => ?_
  exact String.not_le.1 fun hba => hab.2 (String.le_antisymm hab.1 hba)

/-- Sublists `l` and `l'` of `names` are the same if they have the same elements. -/
theorem Regular.eq_of_sublist_names {t' : Tree} (h : t.Regular) (h' : t'.Regular)
    {l l' : List String} (hl : l.Sublist (t.names dir)) (hl' : l'.Sublist (t'.names dir))
    (hmem : ∀ n, n ∈ l ↔ n ∈ l') : l = l' :=
  eq_of_pairwise_of_mem_iff String.lt_asymm ((h.names_pairwise_lt dir).sublist hl)
    ((h'.names_pairwise_lt dir).sublist hl') hmem

/-! ## Following a path -/

/-- The names can be followed from `p` to a directory: every place on the way is one, and no name is
too long. -/
def Open (t : Tree) (p : Place) : List String → Prop
  | [] => t.lookup p = some .dir
  | n :: r => t.lookup p = some .dir ∧ nameBytes n ≤ maxNameBytes ∧ t.Open (step p n) r

theorem Open.lookup_start (h : t.Open p ns) : t.lookup p = some .dir := by
  cases ns with
  | nil => exact h
  | cons n ns => exact h.1

theorem open_append : t.Open p (ms ++ ns) ↔ t.Open p ms ∧ t.Open (reach p ms) ns := by
  induction ms generalizing p with
  | nil => exact ⟨fun h => ⟨h.lookup_start, h⟩, fun h => h.2⟩
  | cons m ms ih =>
    rw [cons_append, Open, Open, ih]
    simp only [and_assoc]
    rfl

theorem Open.lookup_reach (h : t.Open p ns) : t.lookup (reach p ns) = some .dir := by
  rw [← append_nil ns, open_append] at h
  exact h.2

theorem Open.mono {t' : Tree} (hdirs : ∀ q, t.lookup q = some .dir → t'.lookup q = some .dir)
    (h : t.Open p ns) : t'.Open p ns := by
  induction ns generalizing p with
  | nil => exact hdirs p h
  | cons n ns ih => exact ⟨hdirs p h.1, h.2.1, ih h.2.2⟩

theorem follow_empty_cons (t : Tree) (path : String) (p : Place) (hn : n = "" ∨ n = ".")
    (r : List String) :
    t.follow path p (n :: r)
      = if r = [] ∧ t.isFile p then .error (.notADirectory path) else t.follow path p r := by
  have htest : (n.isEmpty || n == ".") = true := by
    rcases hn with rfl | rfl <;> rfl
  rw [follow.eq_def]
  simp only [htest]
  cases r with
  | nil =>
    cases h : t.lookup p with
    | none => simp [isFile, h]
    | some e => cases e <;> simp [isFile, Entry.isDir, h]
  | cons m r => simp

theorem follow_name_cons (t : Tree) (path : String) (hp : t.lookup p = some .dir)
    (hn : ¬(n = "" ∨ n = ".")) (r : List String) :
    t.follow path p (n :: r) = if maxNameBytes < nameBytes n then .error (.nameTooLong path)
        else t.follow path (step p n) r := by
  have htest : ¬(n.isEmpty || n == ".") = true := by
    simpa using hn
  rw [follow.eq_def]
  simp only [htest, hp, step, if_neg hn]
  by_cases hup : n = ".." <;> simp

theorem Open.follow_append (h : t.Open p ms) (path : String) (ns : List String) :
    t.follow path p (ms ++ ns) = t.follow path (reach p ms) ns := by
  induction ms generalizing p with
  | nil => rfl
  | cons m ms ih =>
    obtain ⟨hp, hlen, hms⟩ := h
    rw [cons_append]
    by_cases hm : m = "" ∨ m = "."
    · have hstep : step p m = p := if_pos hm
      rw [hstep] at hms
      rw [follow_empty_cons t path p hm, if_neg (by simp [isFile, hp, Entry.isDir]), ih hms,
        reach, reach, foldl_cons, hstep]
    · rw [follow_name_cons t path hp hm, if_neg (by omega), ih hms]
      rfl

theorem Open.follow (h : t.Open p ns) (path : String) : t.follow path p ns = .ok (reach p ns) := by
  rw [← append_nil ns, h.follow_append path [], append_nil]
  rfl

/-- What the first name `n` does when `follow` comes to its end. -/
theorem follow_cons_eq_ok {r : List String} (h : t.follow path p (n :: r) = .ok q) :
    ((n = "" ∨ n = ".") ∧ t.follow path p r = .ok q) ∨
      (¬(n = "" ∨ n = ".") ∧ t.lookup p = some .dir ∧ nameBytes n ≤ maxNameBytes ∧
        t.follow path (step p n) r = .ok q) := by
  by_cases hn : n = "" ∨ n = "."
  · rw [follow_empty_cons t path p hn] at h
    split at h
    · cases h
    · exact .inl ⟨hn, h⟩
  · have hp : t.lookup p = some .dir := by
      have htest : ¬(n.isEmpty || n == ".") = true := by simpa using hn
      rw [follow.eq_def] at h
      simp only [htest] at h
      cases hp : t.lookup p with
      | none => simp [hp] at h
      | some e => cases e <;> simp [hp] at h ⊢
    rw [follow_name_cons t path hp hn] at h
    split at h
    · cases h
    · exact .inr ⟨hn, hp, by omega, h⟩

/-- The names `ms` that `follow` has passed were `Open`, if there is a directory at their end. -/
theorem open_of_follow_append (hend : ∀ p', t.follow path p' ns = .ok q → t.lookup p' = some .dir)
    (h : t.follow path p (ms ++ ns) = .ok q) : t.Open p ms := by
  induction ms generalizing p with
  | nil => exact hend p h
  | cons n ms ih =>
    rcases follow_cons_eq_ok h with ⟨hn, h⟩ | ⟨-, hp, hlen, h⟩
    · have hstep : step p n = p := if_pos hn
      refine ⟨(ih h).lookup_start, ?_, ?_⟩
      · rcases hn with rfl | rfl <;> decide
      · rw [hstep]
        exact ih h
    · exact ⟨hp, hlen, ih h⟩

/-- The names `ns` that `follow` has passed on its way to a directory were `Open`. -/
theorem open_of_follow (h : t.follow path p ns = .ok q) (hq : t.lookup q = some .dir) :
    t.Open p ns := by
  rw [← append_nil ns] at h
  refine open_of_follow_append (fun p' hp' => ?_) h
  cases hp'
  exact hq

/-- The names `ms` that `follow` has passed before the last one were `Open`. -/
theorem open_of_follow_concat (hname : IsProper name) (h : t.follow path p (ms ++ [name]) = .ok q) :
    t.Open p ms ∧ q = reach p ms ++ [name] := by
  have hopen : t.Open p ms := by
    refine open_of_follow_append (fun p' hp' => ?_) h
    rcases follow_cons_eq_ok hp' with ⟨hn, -⟩ | ⟨-, hp', -⟩
    · exact absurd hn (not_or.2 ⟨hname.1.1, hname.2.1⟩)
    · exact hp'
  refine ⟨hopen, ?_⟩
  rw [hopen.follow_append] at h
  rcases follow_cons_eq_ok h with ⟨hn, -⟩ | ⟨-, -, -, h⟩
  · exact absurd hn (not_or.2 ⟨hname.1.1, hname.2.1⟩)
  · cases h
    rw [step_of_isProper _ hname]

theorem lead_eq (t : Tree) (cwd : Place) (h : Usable path) :
    t.lead cwd path = t.follow path (origin cwd path) (Path.names path) := by
  have hempty : ¬path.isEmpty = true := mt String.isEmpty_iff.1 h.1
  rw [lead, if_neg hempty, h.2]
  rfl

theorem usable_of_lead (h : t.lead cwd path = .ok p) : Usable path := by
  rw [lead] at h
  split at h
  · cases h
  · next hempty =>
    split at h
    · cases h
    · next haccepted => exact ⟨mt String.isEmpty_iff.2 hempty, haccepted⟩

theorem resolve_of_lead (h : t.lead cwd path = .ok p)
    (hp : endsWith path "/" = true → t.isFile p = false) :
    t.resolve cwd path = .ok p := by
  rw [resolve, h]
  cases hslash : endsWith path "/" with
  | false => simp [bind, Except.bind, pure, Except.pure]
  | true => simp [bind, Except.bind, pure, Except.pure, hp hslash]

variable (h : t.resolve cwd path = .ok p)
include h

theorem lead_of_resolve : t.lead cwd path = .ok p := by
  rw [resolve] at h
  cases hl : t.lead cwd path with
  | error f =>
    rw [hl] at h
    cases h
  | ok q =>
    rw [hl] at h
    simp only [bind, Except.bind] at h
    split at h
    · cases h
    · cases h
      rfl

theorem find_of_resolve (he : t.lookup p = some e) : t.find cwd path = .ok (p, e) := by
  rw [find, h]
  simp [bind, Except.bind, he, pure, Except.pure]

theorem find_of_resolve_none (he : t.lookup p = none) :
    t.find cwd path = .error (.fileNotFound path) := by
  rw [find, h]
  simp [bind, Except.bind, he, throw, throwThe, MonadExceptOf.throw]

theorem any_isDir_of_resolve : ((t.find cwd path).toOption.any fun e => e.2.isDir) = t.isDir p := by
  rw [isDir]
  cases hl : t.lookup p with
  | none =>
    rw [find_of_resolve_none h hl]
    rfl
  | some e =>
    rw [find_of_resolve h hl]
    rfl

omit h

theorem find_of_resolve_error {f : Fault} (h : t.resolve cwd path = .error f) :
    t.find cwd path = .error f := by
  rw [find, h]
  rfl

theorem resolve_of_find (h : t.find cwd path = .ok (p, e)) :
    t.resolve cwd path = .ok p ∧ t.lookup p = some e := by
  cases hr : t.resolve cwd path with
  | error f =>
    rw [find_of_resolve_error hr] at h
    cases h
  | ok q =>
    cases hq : t.lookup q with
    | none =>
      rw [find_of_resolve_none hr hq] at h
      cases h
    | some f =>
      rw [find_of_resolve hr hq] at h
      cases h
      exact ⟨rfl, hq⟩

/-- `find` gives a directory for a path that is `Open` all the way. -/
theorem find_eq_dir_iff : t.find cwd path = .ok (q, .dir) ↔ Usable path ∧
      t.Open (origin cwd path) (Path.names path) ∧
      q = reach (origin cwd path) (Path.names path) := by
  constructor
  · intro h
    obtain ⟨hr, hq⟩ := resolve_of_find h
    have hl := lead_of_resolve hr
    have hpath := usable_of_lead hl
    rw [lead_eq t cwd hpath] at hl
    have hopen := open_of_follow hl hq
    rw [hopen.follow] at hl
    cases hl
    exact ⟨hpath, hopen, rfl⟩
  · rintro ⟨hpath, hopen, rfl⟩
    have hdir := hopen.lookup_reach
    refine find_of_resolve (resolve_of_lead ?_ ?_) hdir
    · rw [lead_eq t cwd hpath, hopen.follow]
    · simp [isFile, hdir, Entry.isDir]

/-! ## Names in a directory -/

/-- `name` can be the name of something in a directory. -/
def IsName (name : String) : Prop :=
  IsProper name ∧ nameBytes name ≤ maxNameBytes ∧ Accepted name

instance (name : String) : Decidable (IsName name) :=
  inferInstanceAs (Decidable (IsProper name ∧ nameBytes name ≤ maxNameBytes ∧ Accepted name))

variable {base : String}

/-- `join base name` leads to the place of `name` where `base` is `Open`. -/
theorem Open.resolve_join (h : t.Open (origin cwd base) (Path.names base))
    (hbase : Accepted base) (hname : IsName name) :
    t.resolve cwd (join base name) = .ok (reach (origin cwd base) (Path.names base) ++ [name]) := by
  obtain ⟨hproper, hlen, haccepted⟩ := hname
  have hplain := hproper.1
  refine resolve_of_lead ?_ (by simp [endsWith_slash_join base hplain])
  rw [lead_eq t cwd (usable_join hbase hplain haccepted), names_join base hplain,
    origin, isAbsolute_join base hplain, ← origin, h.follow_append,
    follow_name_cons t _ h.lookup_reach (not_or.2 ⟨hplain.1, hproper.2.1⟩), if_neg (by omega),
    step_of_isProper _ hproper, Tree.follow]

theorem resolve_join_of_find (h : t.find cwd base = .ok (p, .dir))
    (hname : IsName name) : t.resolve cwd (join base name) = .ok (p ++ [name]) := by
  obtain ⟨husable, hopen, rfl⟩ := find_eq_dir_iff.1 h
  exact hopen.resolve_join husable.2 hname

/-- `base` is `Open` if `join base name` leads somewhere. -/
theorem open_of_lead_join (hname : IsProper name) (h : t.lead cwd (join base name) = .ok q) :
    t.Open (origin cwd base) (Path.names base) ∧
      q = reach (origin cwd base) (Path.names base) ++ [name] := by
  rw [lead_eq _ _ (usable_of_lead h), origin, isAbsolute_join _ hname.1, names_join _ hname.1] at h
  exact open_of_follow_concat hname h

/-- `find` gives the same directory in a tree `t'` with at least the directories of `t`. -/
theorem find_dir_mono {t' : Tree} (hdirs : ∀ {q}, t.lookup q = some .dir → t'.lookup q = some .dir)
    (h : t.find cwd path = .ok (p, .dir)) : t'.find cwd path = .ok (p, .dir) := by
  obtain ⟨husable, hopen, hplace⟩ := find_eq_dir_iff.1 h
  exact find_eq_dir_iff.2 ⟨husable, hopen.mono fun _ hq => hdirs hq, hplace⟩

theorem Open.resolve_join_of_lt
    (h : t.Open (origin cwd base) (Path.names base)) (hbase : Accepted base)
    (hproper : IsProper name) (haccepted : Accepted name)
    (hlen : maxNameBytes < nameBytes name) :
    ∃ f, t.resolve cwd (join base name) = .error f := by
  have hplain := hproper.1
  refine ⟨.nameTooLong (join base name), ?_⟩
  rw [resolve, lead_eq t cwd (usable_join hbase hplain haccepted), names_join base hplain,
    origin, isAbsolute_join base hplain, ← origin, h.follow_append,
    follow_name_cons t _ h.lookup_reach (not_or.2 ⟨hplain.1, hproper.2.1⟩), if_pos hlen]
  rfl

/-- A tree as a file system holds it: everything lies in a directory and has a name. -/
structure Sound (t : Tree) : Prop extends Regular t where
  parent : ∀ {p : Place} {name : String} {e : Entry}, t.lookup (p ++ [name]) = some e →
    t.lookup p = some .dir
  isName : ∀ {p : Place} {e : Entry}, t.lookup p = some e → ∀ name ∈ p, IsName name

theorem Sound.isName_of_mem_names (h : t.Sound) (hname : name ∈ t.names dir) : IsName name := by
  obtain ⟨e, he⟩ := Option.isSome_iff_exists.1 (h.mem_names.1 hname)
  exact h.isName he name (mem_append_right _ mem_cons_self)

theorem Sound.lookup_of_append (h : t.Sound) (hns : ns ≠ []) (he : t.lookup (p ++ ns) = some e) :
    t.lookup p = some .dir := by
  induction ns generalizing p with
  | nil => exact absurd rfl hns
  | cons n ns ih =>
    rw [← singleton_append, ← append_assoc] at he
    by_cases hnil : ns = []
    · rw [hnil, append_nil] at he
      exact h.parent he
    · exact h.parent (ih hnil he)

/-- Nothing lies below a place `p` where nothing is. -/
theorem Sound.lookup_below_none (h : t.Sound) (hp : t.lookup p = none) (hq : p <+: q) :
    t.lookup q = none := by
  obtain ⟨ns, rfl⟩ := hq
  by_cases hns : ns = []
  · rwa [hns, append_nil]
  · cases hl : t.lookup (p ++ ns) with
    | none => rfl
    | some e =>
      rw [h.lookup_of_append hns hl] at hp
      cases hp

theorem Sound.open_of_lookup (h : t.Sound) (hp : t.lookup p = some .dir) : t.Open [] p := by
  induction p using reverseRecOn with
  | nil => exact hp
  | append_singleton q name ih =>
    have hq := h.parent hp
    have hname := h.isName hp name (mem_append_right q mem_cons_self)
    rw [open_append, reach_of_isProper [] fun n hn => (h.isName hq n hn).1]
    refine ⟨ih hq, hq, hname.2.1, ?_⟩
    rw [step_of_isProper _ hname.1]
    exact hp

/-- Where the path from the root to `name` in the directory `q` leads. -/
theorem Open.lead_of_isPathTo (h : t.Open [] q) (hq : ∀ n ∈ q, IsName n)
    (hname : IsProper name) (hpath : IsPathTo path (q ++ [name])) (haccepted : Accepted path)
    (cwd : Place) :
    t.lead cwd path =
      if maxNameBytes < nameBytes name then .error (.nameTooLong path) else .ok (q ++ [name]) := by
  have hplain : ∀ n ∈ q ++ [name], IsPlain n := by
    intro n hn
    rcases mem_append.1 hn with hn | hn
    · exact (hq n hn).1.1
    · exact mem_singleton.1 hn ▸ hname.1
  have hreach : reach [] q = q := reach_of_isProper [] fun n hn => (hq n hn).1
  rw [lead_eq t cwd ⟨hpath.ne_empty, haccepted⟩, hpath.names_eq hplain, origin,
    if_pos hpath.isAbsolute, h.follow_append, hreach,
    follow_name_cons t _ (hreach ▸ h.lookup_reach) (not_or.2 ⟨hname.1.1, hname.2.1⟩),
    step_of_isProper _ hname, Tree.follow]

/-- `find` gives what is at `q ++ [name]` for the path to it from the root. -/
theorem Open.find_of_isPathTo (h : t.Open [] q) (hnames : ∀ n ∈ q ++ [name], IsName n)
    (he : t.lookup (q ++ [name]) = some e) (hpath : IsPathTo path (q ++ [name])) (cwd : Place) :
    t.find cwd path = .ok (q ++ [name], e) := by
  obtain ⟨hproper, hlen, -⟩ := hnames name (mem_append_right q mem_cons_self)
  have hq : ∀ n ∈ q, IsName n := fun n hn => hnames n (mem_append_left _ hn)
  have haccepted := hpath.accepted fun n hn => (hnames n hn).2.2
  refine find_of_resolve (resolve_of_lead ?_ (by simp [hpath.endsWith_slash hproper.1])) he
  rw [h.lead_of_isPathTo hq hproper hpath haccepted cwd, if_neg (Nat.not_lt.2 hlen)]

theorem Sound.insert (h : t.Sound) (hq : t.lookup q = some .dir) (hname : IsName name)
    (he : t.lookup (q ++ [name]) = some .dir → e = .dir) : (t.insert (q ++ [name]) e).Sound where
  toRegular := h.toRegular.insert (by simp) e
  parent {p n f} hlookup := by
    have hp : t.lookup p = some .dir := by
      by_cases heq : p ++ [n] = q ++ [name]
      · obtain ⟨rfl, -⟩ := append_inj' heq rfl
        exact hq
      · rw [lookup_insert_of_ne t heq] at hlookup
        exact h.parent hlookup
    rw [lookup_insert t (by simp)]
    split
    · next hpq => rw [he (hpq ▸ hp)]
    · exact hp
  isName {p f} hlookup n hn := by
    by_cases heq : p = q ++ [name]
    · subst heq
      rcases mem_append.1 hn with hn | hn
      · exact h.isName hq n hn
      · rw [mem_singleton.1 hn]
        exact hname
    · rw [lookup_insert_of_ne t heq] at hlookup
      exact h.isName hlookup n hn

/-- `follow` stays at `p` if no directory is there. -/
theorem eq_of_follow_of_ne (hp : t.lookup p ≠ some .dir) (h : t.follow path p ns = .ok q) :
    q = p := by
  induction ns with
  | nil =>
    cases h
    rfl
  | cons n ns ih =>
    rcases follow_cons_eq_ok h with ⟨-, h⟩ | ⟨-, hdir, -⟩
    · exact ih h
    · exact absurd hdir hp

/-- Where `follow` ends at a place `q` with nothing there, `q` is a new name in a directory. -/
theorem Sound.exists_of_follow (ht : t.Sound) (hns : ∀ n ∈ ns, IsPlain n ∧ Accepted n)
    (hp : t.lookup p = some .dir) (h : t.follow path p ns = .ok q) (hq : t.lookup q = none) :
    ∃ d name, q = d ++ [name] ∧ t.lookup d = some .dir ∧ IsName name := by
  induction ns generalizing p with
  | nil =>
    cases h
    rw [hp] at hq
    cases hq
  | cons n ns ih =>
    obtain ⟨hn, hns⟩ := forall_mem_cons.1 hns
    rcases follow_cons_eq_ok h with ⟨-, h⟩ | ⟨hstay, -, hlen, h⟩
    · exact ih hns hp h
    · by_cases hs : t.lookup (step p n) = some .dir
      · exact ih hns hs h
      · -- the path ends here; it does not go up, since what is above is there
        obtain rfl := eq_of_follow_of_ne hs h
        have hup : n ≠ ".." := by
          rintro rfl
          rw [step, if_neg hstay, if_pos rfl] at hq
          obtain hnil | ⟨d, m, rfl⟩ := eq_nil_or_concat p
          · rw [hnil] at hq
            cases hq
          · rw [concat_eq_append] at hp hq
            rw [dropLast_concat, ht.parent hp] at hq
            cases hq
        have hproper : IsProper n := ⟨hn.1, fun hdot => hstay (.inr hdot), hup⟩
        exact ⟨p, n, step_of_isProper p hproper, hp, hproper, hlen, hn.2⟩

end Tree

end SmellLint
