import SmellLint.Project.Analysis
import SmellLint.Proofs.Workspace.Keeps

/-!
# Emptying a folder

A folder below a directory is emptied, or made if it is missing.  Nothing else in the tree changes
but for directories that were missing on the way (`Project.Cleaned`).  The entries of the folder are
taken away one after the other; when one of them is on the way of the path itself, the others are no
longer found and stay (`Project.cleanDirectory_leaves`).
-/

namespace SmellLint

open List Path Run Tree

namespace Tree

variable {t : Tree} {p q : Place}

/-! ## Taking things away -/

theorem lookup_erase (t : Tree) (hp : p ≠ []) (q : Place) :
    (t.erase p).lookup q = if p <+: q then none else t.lookup q := by
  by_cases hq : q = []
  · subst hq
    rw [if_neg (by simpa using hp)]
    rfl
  · rw [lookup_eq _ hq, lookup_eq _ hq, erase, lookup_filter fun r => !p.isPrefixOf r]
    by_cases hbelow : p <+: q
    · rw [if_pos hbelow, if_neg (by simpa using hbelow)]
    · rw [if_neg hbelow, if_pos]
      rw [Bool.not_eq_true', ← Bool.not_eq_true, isPrefixOf_iff_prefix]
      exact hbelow

theorem Regular.erase (h : t.Regular) (p : Place) : (t.erase p).Regular :=
  ⟨h.nodup.sublist (filter_sublist.map _), fun x hx => h.root x (mem_filter.1 hx).1⟩

theorem Sound.erase (h : t.Sound) (hp : p ≠ []) : (t.erase p).Sound where
  toRegular := h.toRegular.erase p
  parent {q name e} hlookup := by
    rw [lookup_erase t hp] at hlookup ⊢
    split at hlookup
    · cases hlookup
    · next hnot =>
      rw [if_neg fun hq => hnot (hq.trans (prefix_append q [name]))]
      exact h.parent hlookup
  isName {q e} hlookup := by
    rw [lookup_erase t hp] at hlookup
    split at hlookup
    · cases hlookup
    · exact h.isName hlookup

/-- Takes away what lies in `dir` under `names`. -/
def eraseAll (t : Tree) (dir : Place) (names : List String) : Tree :=
  names.foldl (fun t name => t.erase (dir ++ [name])) t

theorem lookup_eraseAll (t : Tree) (dir : Place) (names : List String) (q : Place) :
    (t.eraseAll dir names).lookup q
      = if ∃ name ∈ names, dir ++ [name] <+: q then none else t.lookup q := by
  induction names generalizing t with
  | nil => simp [eraseAll]
  | cons name names ih =>
    refine (ih _).trans ?_
    rw [lookup_erase t (by simp)]
    by_cases hname : dir ++ [name] <+: q
    · simp [hname]
    · simp [hname]

theorem Sound.eraseAll (h : t.Sound) (dir : Place) (names : List String) :
    (t.eraseAll dir names).Sound := by
  induction names generalizing t with
  | nil => exact h
  | cons name names ih => exact ih (h.erase (by simp))

/-- Below a directory `p` that is empty there is nothing. -/
theorem Sound.lookup_of_names_eq_nil (h : t.Sound) (hempty : t.names p = []) (hbelow : p <+: q)
    (hne : q ≠ p) : t.lookup q = none := by
  obtain ⟨rest, rfl⟩ := hbelow
  cases rest with
  | nil => exact absurd (append_nil p) hne
  | cons name rest =>
    -- what lies further below lies in something that has a name in the directory
    have hnone : t.lookup (p ++ [name]) = none := by
      rw [← Option.not_isSome_iff_eq_none, ← h.mem_names, hempty]
      exact not_mem_nil
    rw [← singleton_append, ← append_assoc]
    exact h.lookup_below_none hnone (prefix_append _ _)

/-- The names `ns` are `Open` if all of them lead to directories. -/
theorem open_iff {ns : List String} : t.Open p ns ↔ (∀ n ∈ ns, nameBytes n ≤ maxNameBytes) ∧
      ∀ ms, ms <+: ns → t.lookup (reach p ms) = some .dir := by
  induction ns generalizing p with
  | nil =>
    simp only [prefix_nil, forall_eq, not_mem_nil, false_implies, implies_true, true_and]
    rfl
  | cons n ns ih =>
    rw [Open, ih, forall_mem_cons]
    constructor
    · rintro ⟨hp, hn, hns, hways⟩
      refine ⟨⟨hn, hns⟩, fun ms hms => ?_⟩
      cases ms with
      | nil => exact hp
      | cons m ms =>
        obtain ⟨rfl, hrest⟩ := cons_prefix_cons.1 hms
        exact hways ms hrest
    · rintro ⟨⟨hn, hns⟩, hways⟩
      exact ⟨hways [] nil_prefix, hn, hns,
        fun ms hms => hways (n :: ms) (cons_prefix_cons.2 ⟨rfl, hms⟩)⟩

/-- A way stays `Open` if it leads through nothing that `eraseAll` takes away. -/
theorem Open.eraseAll_iff {ns names : List String} (h : t.Open p ns) (dir : Place) :
    (t.eraseAll dir names).Open p ns ↔
      ∀ name ∈ names, ∀ ms, ms <+: ns → ¬dir ++ [name] <+: reach p ms := by
  rw [open_iff] at h ⊢
  constructor
  · rintro ⟨-, hdirs⟩ name hname ms hms hbelow
    have hdir := hdirs ms hms
    rw [lookup_eraseAll, if_pos ⟨name, hname, hbelow⟩] at hdir
    cases hdir
  · intro hout
    refine ⟨h.1, fun ms hms => ?_⟩
    rw [lookup_eraseAll, if_neg, h.2 ms hms]
    rintro ⟨name, hname, hbelow⟩
    exact hout name hname ms hms hbelow

end Tree

namespace Run

variable {w w' : Workspace} {u : Unit} {base name : String}

theorem exec_endsInMissingDir_join (hname : IsProper name) (w : Workspace) :
    (endsInMissingDir (join base name)).exec w = (.ok false, w) := by
  have hlast : (lastName (join base name) == ".") = false := by
    rw [lastName, names_join _ hname.1, getLast?_concat, beq_eq_false_iff_ne]
    exact hname.2.1
  rw [endsInMissingDir, hlast]
  cases (heads _).getLast? <;> rfl

theorem exec_makeDir_eq_ok {path : String} (h : (makeDir path).exec w = (.ok u, w')) :
    ∃ p, w.tree.lead w.place path = .ok p ∧ w.tree.lookup p = none ∧
      w' = w.withTree (w.tree.insert p .dir) := by
  rcases exec_makeDir_fails_or path w with ⟨f, hexec⟩ | ⟨p, hl, hp, hexec⟩ <;> rw [hexec] at h <;>
    cases h
  exact ⟨p, hl, hp, rfl⟩

/-- `makeNewDirs` makes `name` in the directory that `base` leads to once its way has been made. -/
theorem exec_makeNewDirs_join_eq_ok (hw : w.Sound) (hname : IsProper name)
    (h : (makeNewDirs (join base name)).exec w = (.ok u, w')) :
    Usable (join base name) ∧ ∃ t, t.Sound ∧
      w.tree.WithDirs (w.tree.way (origin w.place base) (names base)) t ∧
      t.Open (origin w.place base) (names base) ∧ t.lookup (w.placeOf base ++ [name]) = none ∧
      w' = w.withTree (t.insert (w.placeOf base ++ [name]) .dir) := by
  obtain ⟨x, t, hheads, ht, -⟩ := exec_forM_heads (names_join base hname.1) (hw.lookup_origin _)
  have hsound := (Lockstep.forM congruence_sound.makeMissingDir _).keeps.exec_eq hheads hw
  rw [origin, isAbsolute_join _ hname.1] at ht
  rw [makeNewDirs, exec_bind_ok _ (exec_endsInMissingDir_join hname w)] at h
  obtain ⟨y, v, hheads', hmake⟩ := exec_bind_eq_ok h
  obtain ⟨-, rfl⟩ := Prod.mk.inj (hheads.symm.trans hheads')
  obtain ⟨p, hlead, hnone, rfl⟩ := exec_makeDir_eq_ok hmake
  obtain ⟨hopen, rfl⟩ := open_of_lead_join hname hlead
  exact ⟨usable_of_lead hlead, t, hsound.tree, ht, hopen, hnone, rfl⟩

end Run

/-- Making the directories of an `Open` way changes nothing. -/
theorem Tree.Open.lookup_made {t : Tree} {p : Place} {ns : List String} (h : t.Open p ns)
    (q : Place) : (if q ∈ t.way p ns then some ((t.lookup q).getD .dir) else t.lookup q)
      = t.lookup q := by
  split
  · next hq =>
    rw [h.lookup_of_mem_way hq]
    rfl
  · rfl

namespace Project

variable {path folder base name target : String} {w w' : Workspace} {p : Place}

/-! ## Taking away the entries of a folder -/

theorem exec_clearEntry_of_find {e : Entry} (h : w.tree.find w.place path = .ok (p, e)) :
    (clearEntry path).exec w = (.ok (), w.withTree (w.tree.erase p)) := by
  have hremove : (remove path).exec w = (.ok (), w.withTree (w.tree.erase p)) := by
    rw [remove, exec_bind_ok _ ((exec_find path w).trans (by rw [h]))]
    rfl
  have hentry : (removeEntry path).exec w = (.ok (), w.withTree (w.tree.erase p)) := by
    rw [removeEntry, exec_bind_ok _ (exec_isFile path w), h]
    cases e with
    | file c => exact hremove
    | dir =>
      refine (exec_bind_ok _ (exec_isDir path w)).trans ?_
      rw [h]
      exact hremove
  rw [clearEntry, exec_bind_ok _ (exec_outcome_of hentry)]
  rfl

/-- `clearEntry` passes over what is not found. -/
theorem exec_clearEntry_of_error {f : Fault} (h : w.tree.find w.place path = .error f) :
    (clearEntry path).exec w = (.ok (), w) := by
  have hentry : (removeEntry path).exec w = (.ok (), w) := by
    rw [removeEntry, exec_bind_ok _ (exec_isFile path w), h]
    refine (exec_bind_ok _ (exec_isDir path w)).trans ?_
    rw [h]
    rfl
  rw [clearEntry, exec_bind_ok _ (exec_outcome_of hentry)]
  rfl

/-- `clearEntry` takes nothing away where the way of `base` is not `Open`. -/
theorem exec_forM_clearEntry_of_not_open
    (hclosed : ¬w.tree.Open (origin w.place base) (names base)) {entries : List String}
    (hentries : ∀ n ∈ entries, IsName n) :
    (entries.forM fun n => clearEntry (join base n)).exec w = (.ok (), w) := by
  induction entries with
  | nil => rfl
  | cons n entries ih =>
    obtain ⟨hn, hrest⟩ := forall_mem_cons.1 hentries
    have hmissing : ∃ f, w.tree.find w.place (join base n) = .error f := by
      cases hf : w.tree.find w.place (join base n) with
      | error f => exact ⟨f, rfl⟩
      | ok found =>
        obtain ⟨q, e⟩ := found
        exact absurd (open_of_lead_join hn.1 (lead_of_resolve (resolve_of_find hf).1)).1 hclosed
    obtain ⟨f, hf⟩ := hmissing
    exact (exec_bind_ok _ (exec_clearEntry_of_error hf)).trans (ih hrest)

/-- `clearEntry` takes `entries` away in turn as long as the way of `base` is `Open`. -/
theorem exec_forM_clearEntry (hbase : Accepted base) {entries : List String}
    (hnodup : entries.Nodup) (hentries : ∀ n ∈ entries, IsName n)
    (hsome : ∀ n ∈ entries, (w.tree.lookup (w.placeOf base ++ [n])).isSome = true) :
    ∃ gone kept, entries = gone ++ kept ∧
      (entries.forM fun n => clearEntry (join base n)).exec w
        = (.ok (), w.withTree (w.tree.eraseAll (w.placeOf base) gone)) ∧
      (kept ≠ [] → ¬(w.tree.eraseAll (w.placeOf base) gone).Open (origin w.place base)
        (names base)) ∧
      ∀ g, g <+: gone → g ≠ gone →
        (w.tree.eraseAll (w.placeOf base) g).Open (origin w.place base) (names base) := by
  induction entries generalizing w with
  | nil => exact ⟨[], [], rfl, rfl, fun h => absurd rfl h,
      fun g hg hne => absurd (prefix_nil.1 hg) hne⟩
  | cons n entries ih =>
    by_cases hopen : w.tree.Open (origin w.place base) (names base)
    · obtain ⟨hn, hrest⟩ := forall_mem_cons.1 hentries
      obtain ⟨hfirst, hothers⟩ := forall_mem_cons.1 hsome
      obtain ⟨hnotMem, hnodup⟩ := nodup_cons.1 hnodup
      obtain ⟨e, he⟩ := Option.isSome_iff_exists.1 hfirst
      have hfind := find_of_resolve (hopen.resolve_join hbase hn) he
      have hothers' : ∀ m ∈ entries, ((w.tree.erase (w.placeOf base ++ [n])).lookup
          (w.placeOf base ++ [m])).isSome = true := by
        intro m hm
        rw [lookup_erase _ (by simp), if_neg, hothers m hm]
        intro hbelow
        obtain ⟨-, heq⟩ := append_inj' (hbelow.eq_of_length (by simp)) rfl
        exact hnotMem (singleton_inj.1 heq ▸ hm)
      obtain ⟨gone, kept, hsplit, hexec, hkept, hgone⟩ :=
        ih (w := w.withTree (w.tree.erase (w.placeOf base ++ [n]))) hnodup hrest hothers'
      refine ⟨n :: gone, kept, by rw [hsplit, cons_append], ?_, hkept, fun g hg hne => ?_⟩
      · exact (exec_bind_ok _ (exec_clearEntry_of_find hfind)).trans hexec
      · cases g with
        | nil => exact hopen
        | cons m g =>
          obtain ⟨rfl, hbefore⟩ := cons_prefix_cons.1 hg
          exact hgone g hbefore fun heq => hne (by rw [heq])
    · exact ⟨[], n :: entries, rfl, exec_forM_clearEntry_of_not_open hopen hentries, fun _ => hopen,
        fun g hg hne => absurd (prefix_nil.1 hg) hne⟩

/-! ## Cleaning a folder -/

/-- `path` leads, on its way from where it starts, to `q` or to something below it. -/
def LeadsThrough (w : Workspace) (path : String) (q : Place) : Prop :=
  ∃ ms, ms <+: names path ∧ q <+: reach (origin w.place path) ms

/-- `join path folder` leads through something in the folder only if `path` does. -/
theorem leadsThrough_join (hfolder : IsProper folder) :
    LeadsThrough w (join path folder) (w.placeOf path ++ [folder] ++ [name]) ↔
      LeadsThrough w path (w.placeOf path ++ [folder] ++ [name]) := by
  rw [LeadsThrough, LeadsThrough, names_join path hfolder.1, origin, isAbsolute_join path hfolder.1,
    ← origin]
  constructor
  · rintro ⟨ms, hms, hbelow⟩
    rcases prefix_concat_iff.1 hms with rfl | hms
    · have hlength := hbelow.length_le
      rw [reach_append, ← Workspace.placeOf, reach_of_isProper _ (forall_mem_singleton.2 hfolder)]
        at hlength
      simp at hlength
    · exact ⟨ms, hms, hbelow⟩
  · rintro ⟨ms, hms, hbelow⟩
    exact ⟨ms, hms.trans (prefix_append _ _), hbelow⟩

/-- The tree `t` after `folder` of `path` has been cleaned: `gone` are the entries that have been
taken away, and `kept` are those that come after them. -/
structure Cleaned (w : Workspace) (path folder : String) (gone kept : List String) (t : Tree) :
    Prop where
  sound : t.Sound
  accepted : Accepted path
  lookup_folder : t.lookup (w.placeOf path ++ [folder]) = some .dir
  lookup_below : ∀ q, w.placeOf path ++ [folder] <+: q → q ≠ w.placeOf path ++ [folder] →
    t.lookup q = if ∃ name ∈ gone, w.placeOf path ++ [folder] ++ [name] <+: q then none
      else w.tree.lookup q
  lookup_outside : ∀ q, ¬w.placeOf path ++ [folder] <+: q → t.lookup q =
    if q ∈ w.tree.way (origin w.place path) (names path)
      then some ((w.tree.lookup q).getD .dir) else w.tree.lookup q
  kept_eq_nil : (∀ name ∈ gone, ¬LeadsThrough w path (w.placeOf path ++ [folder] ++ [name])) →
    kept = [] ∧ t.Open (origin w.place path) (names path)
  not_leadsThrough : ∀ name ∈ gone.dropLast,
    ¬LeadsThrough w path (w.placeOf path ++ [folder] ++ [name])

/-- A `folder` that is missing is made. -/
theorem cleaned_of_makeNewDirs (hw : w.Sound) (hfolder : IsName folder) {u : Unit}
    (h : (makeNewDirs (join path folder)).exec w = (.ok u, w')) :
    ∃ t, w' = w.withTree t ∧ w.tree.names (w.placeOf path ++ [folder]) = [] ∧
      Cleaned w path folder [] [] t := by
  obtain ⟨husable, t, hsound, ht, hopen, hnone, rfl⟩ := exec_makeNewDirs_join_eq_ok hw hfolder.1 h
  have hinsert := lookup_insert t (p := w.placeOf path ++ [folder]) (by simp) .dir
  -- there was nothing in the folder before the way to it was made
  have hbefore : w.tree.lookup (w.placeOf path ++ [folder]) ≠ some .dir := by
    intro hdir
    rw [ht.lookup_dir hdir] at hnone
    cases hnone
  refine ⟨_, rfl, ?_, hsound.insert hopen.lookup_reach hfolder fun _ => rfl,
    ((accepted_join hfolder.1.1).1 husable.2).1, by rw [hinsert, if_pos rfl], ?_, ?_,
    fun _ => ⟨rfl, hopen.mono fun q hq => ?_⟩, forall_mem_nil _⟩
  · refine eq_nil_iff_forall_not_mem.2 fun n hn => ?_
    obtain ⟨e, he⟩ := Option.isSome_iff_exists.1 (hw.tree.mem_names.1 hn)
    exact hbefore (hw.tree.parent he)
  · intro q hbelow hne
    rw [hinsert, if_neg hne, hsound.lookup_below_none hnone hbelow, if_neg (by simp)]
    obtain ⟨rest, rfl⟩ := hbelow
    have hrest : rest ≠ [] := by
      rintro rfl
      exact hne (append_nil _)
    cases he : w.tree.lookup (w.placeOf path ++ [folder] ++ rest) with
    | none => rfl
    | some e => exact absurd (hw.tree.lookup_of_append hrest he) hbefore
  · intro q hq
    have hne : q ≠ w.placeOf path ++ [folder] := fun heq => hq (heq ▸ prefix_refl q)
    rw [hinsert, if_neg hne, ht.lookup_eq]
  · rw [hinsert]
    split
    · rfl
    · exact hq

/-- The entries of a `folder` that is there are taken away in turn. -/
theorem cleaned_of_clearEntries (hw : w.Sound) (hfolder : IsName folder)
    (hfind : w.tree.find w.place (join path folder) = .ok (p, .dir)) {entries : List String}
    (hperm : entries.Perm (w.tree.names p)) {u : Unit}
    (h : (entries.forM fun n => clearEntry (join (join path folder) n)).exec w = (.ok u, w')) :
    ∃ t gone kept, w' = w.withTree t ∧ p = w.placeOf path ++ [folder] ∧ entries = gone ++ kept ∧
      Cleaned w path folder gone kept t := by
  obtain ⟨hresolve, hdir⟩ := resolve_of_find hfind
  have hlead := lead_of_resolve hresolve
  obtain ⟨hopen, hp⟩ := open_of_lead_join hfolder.1 hlead
  obtain ⟨-, hopen', -⟩ := find_eq_dir_iff.1 hfind
  rw [← Workspace.placeOf] at hp
  subst hp
  have hplace := w.placeOf_join path hfolder.1
  obtain ⟨gone, kept, hsplit, hexec, hkept, hgone⟩ := exec_forM_clearEntry
    (usable_of_lead hlead).2 (hperm.nodup_iff.2 (hw.tree.nodup_names _))
    (fun n hn => hw.tree.isName_of_mem_names (hperm.mem_iff.1 hn))
    fun n hn => hplace ▸ hw.tree.mem_names.1 (hperm.mem_iff.1 hn)
  rw [hexec] at h
  cases h
  rw [hplace] at hkept hgone ⊢
  -- a way is open after some entries are gone if it leads through none of them
  have hiff : ∀ g, (w.tree.eraseAll (w.placeOf path ++ [folder]) g).Open
      (origin w.place (join path folder)) (names (join path folder)) ↔
      ∀ n ∈ g, ¬LeadsThrough w path (w.placeOf path ++ [folder] ++ [n]) := by
    intro g
    rw [hopen'.eraseAll_iff]
    refine forall₂_congr fun n _ => ?_
    rw [← leadsThrough_join hfolder.1, LeadsThrough]
    push Not
    rfl
  refine ⟨_, gone, kept, rfl, rfl, hsplit, hw.tree.eraseAll _ _,
    ((accepted_join hfolder.1.1).1 (usable_of_lead hlead).2).1, ?_,
    fun q _ _ => lookup_eraseAll _ _ _ q, fun q hq => ?_, fun hout => ?_, fun n hn => ?_⟩
  · rw [lookup_eraseAll, if_neg, hdir]
    rintro ⟨n, -, hbelow⟩
    have hlength := hbelow.length_le
    simp at hlength
  · rw [hopen.lookup_made, lookup_eraseAll, if_neg]
    rintro ⟨n, -, hbelow⟩
    exact hq ((prefix_append _ _).trans hbelow)
  · refine ⟨by_contra fun hne => hkept hne ((hiff gone).2 hout), ?_⟩
    have hafter := (hiff gone).2 hout
    rw [names_join _ hfolder.1.1, origin, isAbsolute_join _ hfolder.1.1, ← origin,
      open_append] at hafter
    exact hafter.1
  · have hne : gone.dropLast ≠ gone := by
      intro heq
      have hlength := congrArg length heq
      have hpos := length_pos_of_mem hn
      rw [length_dropLast] at hlength hpos
      omega
    exact (hiff _).1 (hgone _ ( dropLast_prefix gone) hne) n hn

/-- What `cleanDirectory` leaves: `gone` are the entries that it takes away. -/
theorem exec_cleanDirectory_eq_ok {listing : List String → List String} (hw : w.Sound)
    (hfolder : IsName folder) (hlisting : ∀ l, (listing l).Perm l)
    (h : (cleanDirectory path folder listing).exec w = (.ok target, w')) :
    ∃ t gone kept, w' = w.withTree t ∧
      listing (w.tree.names (w.placeOf path ++ [folder])) = gone ++ kept ∧
      Cleaned w path folder gone kept t := by
  rw [cleanDirectory, exec_bind_ok _ (exec_exists? _ w)] at h
  cases hf : w.tree.find w.place _ with
  | error f =>
    rw [hf] at h
    obtain ⟨u, v, hmake, hpure⟩ := exec_bind_eq_ok h
    cases hpure
    obtain ⟨t, rfl, hempty, ht⟩ := cleaned_of_makeNewDirs hw hfolder hmake
    exact ⟨t, [], [], rfl, by rw [hempty]; exact (hlisting []).eq_nil, ht⟩
  | ok found =>
    rw [hf] at h
    obtain ⟨ns, v, hlist, h⟩ := exec_bind_eq_ok h
    obtain ⟨u, v', hclear, hpure⟩ := exec_bind_eq_ok h
    cases hpure
    obtain ⟨p, hfind, rfl, hv⟩ := exec_listDir_eq_ok hlist
    rw [hv] at hclear
    obtain ⟨t, gone, kept, hv', rfl, hsplit, ht⟩ :=
      cleaned_of_clearEntries hw hfolder hfind (hlisting _) hclear
    exact ⟨t, gone, kept, hv', hsplit, ht⟩

/-- A folder is empty after it has been cleaned, if `path` leads through nothing in it. -/
theorem Cleaned.empty_of_not_leadsThrough {listing : List String → List String}
    {gone kept : List String} {t : Tree} (h : Cleaned w path folder gone kept t) (hw : w.Sound)
    (hlisting : ∀ l, (listing l).Perm l)
    (hsplit : listing (w.tree.names (w.placeOf path ++ [folder])) = gone ++ kept)
    (hout : ∀ name, ¬LeadsThrough w path (w.placeOf path ++ [folder] ++ [name])) :
    t.names (w.placeOf path ++ [folder]) = [] ∧ t.Open (origin w.place path) (names path) := by
  obtain ⟨rfl, hopen⟩ := h.kept_eq_nil fun name _ => hout name
  refine ⟨eq_nil_iff_forall_not_mem.2 fun name hname => ?_, hopen⟩
  have hsome := h.sound.mem_names.1 hname
  rw [h.lookup_below _ (prefix_append _ _) (by simp)] at hsome
  split at hsome
  · cases hsome
  · next hnot =>
    have hmem : name ∈ gone := by
      rw [← append_nil gone, ← hsplit, (hlisting _).mem_iff]
      exact hw.tree.mem_names.2 hsome
    exact hnot ⟨name, hmem, prefix_refl _⟩

end Project

end SmellLint
