import Mathlib.Algebra.Ring.Nat
import Mathlib.Data.List.Nodup
import Mathlib.Data.List.Perm.Subperm
import SmellLint.Proofs.Workspace.Cleaning

/-!
# Temporary files

A path for temporary use has the first number from the counter on at which nothing is; there is one
among the numbers that are tried (`Run.exec_tempPath`).  Taking away a file where nothing was before
gives back the tree (`Tree.Sound.erase_insert`).
-/

namespace SmellLint

open Path Run Tree List

/-! ## Trees -/

namespace Tree

variable {t : Tree}

/-- Places `ps` without repetition at which something is are not more than the entries of `t`. -/
theorem length_le_of_isSome {ps : List Place} (hnodup : ps.Nodup)
    (h : ∀ p ∈ ps, p ≠ [] ∧ (t.lookup p).isSome = true) : ps.length ≤ t.entries.length := by
  have hsub : ps ⊆ t.entries.map Prod.fst := by
    intro p hp
    obtain ⟨hne, hsome⟩ := h p hp
    obtain ⟨e, he⟩ := Option.isSome_iff_exists.1 hsome
    rw [lookup_eq t hne, lookup_eq_some_iff] at he
    obtain ⟨before, after, heq, -⟩ := he
    rw [heq]
    simp
  simpa using (subperm_of_subset hnodup hsub).length_le

variable {p : Place}

/-- All places on the way to `p` are entries of `t`, so there are at least as many. -/
theorem Sound.length_le (h : t.Sound) {e : Entry} (hp : t.lookup p = some e) :
    p.length ≤ t.entries.length := by
  have hlength : (ancestors p).length = p.length := by simp [ancestors]
  rw [← hlength]
  refine length_le_of_isSome (Nodup.map_on ?_ nodup_range) ?_
  · intro i hi j hj heq
    have := congrArg length heq
    simp only [mem_range, length_take] at hi hj this
    omega
  · intro q hq
    obtain ⟨i, hi, rfl⟩ := mem_map.1 hq
    rw [mem_range] at hi
    refine ⟨fun hnil => ?_, ?_⟩
    · have := congrArg length hnil
      simp only [length_take, length_nil] at this
      omega
    · by_cases hdrop : p.drop (i + 1) = []
      · rw [← append_nil (p.take (i + 1)), ← hdrop, take_append_drop, hp]
        rfl
      · rw [← take_append_drop (i + 1) p] at hp
        rw [h.lookup_of_append hdrop hp]
        rfl

theorem Sound.depth_le (h : t.Sound) : t.depth ≤ t.entries.length := by
  have hlength : ∀ x ∈ t.entries, x.1.length ≤ t.entries.length := fun x hx =>
    h.length_le (h.mem_entries.1 hx).2
  rw [depth]
  generalize t.entries.length = bound at hlength ⊢
  generalize t.entries = entries at hlength ⊢
  induction entries with
  | nil => exact Nat.zero_le _
  | cons x entries ih =>
    obtain ⟨hx, hl⟩ := forall_mem_cons.1 hlength
    exact Nat.max_le.2 ⟨hx, ih hl⟩

theorem Sound.not_below_of_lookup (h : t.Sound) (hp : t.lookup p = none) :
    ∀ x ∈ t.entries, ¬p <+: x.1 := by
  intro x hx hprefixed
  have hlookup := (h.mem_entries.1 hx).2
  rw [h.lookup_below_none hp hprefixed] at hlookup
  cases hlookup

/-- What is put at a place `p` where nothing was comes last. -/
theorem Sound.entries_insert (h : t.Sound) (hp : t.lookup p = none) (e : Entry) :
    (t.insert p e).entries = t.entries ++ [(p, e)] := by
  have hother : t.entries.filter (·.1 != p) = t.entries := by
    refine filter_eq_self.2 fun x hx => bne_iff_ne.2 ?_
    rintro rfl
    exact h.not_below_of_lookup hp x hx (prefix_refl _)
  rw [Tree.insert, hother]

/-- `erase` undoes `insert` where nothing was. -/
theorem Sound.erase_insert (h : t.Sound) (hp : t.lookup p = none) (e : Entry) :
    (t.insert p e).erase p = t := by
  have hkept : t.entries.filter (fun x => !p.isPrefixOf x.1) = t.entries :=
    filter_eq_self.2 fun x hx => by
      rw [Bool.not_eq_true', Bool.eq_false_iff, ne_eq, isPrefixOf_iff_prefix]
      exact h.not_below_of_lookup hp x hx
  rw [Tree.erase, h.entries_insert hp, filter_append, hkept]
  simp

/-- `insert` at a place `p` where nothing was leaves everything else. -/
theorem lookup_insert_of_free {q : Place} {e e' : Entry} (hp : t.lookup p = none)
    (hq : t.lookup q = some e) : (t.insert p e').lookup q = some e := by
  refine (lookup_insert_of_ne _ ?_ _).trans hq
  rintro rfl
  rw [hp] at hq
  cases hq

end Tree

namespace Run

/-! ## Temporary names -/

def tempName (suffix : String) (n : Nat) : String := "tmp" ++ eightDigits n ++ suffix

theorem toList_eightDigits (n : Nat) : (eightDigits n).toList
    = replicate (8 - (Nat.toDigits 10 n).length) '0' ++ Nat.toDigits 10 n :=
  String.toList_ofList

theorem isDigit_of_mem_eightDigits {n : Nat} {c : Char} (h : c ∈ (eightDigits n).toList) :
    c.isDigit = true := by
  rw [toList_eightDigits, mem_append] at h
  rcases h with h | h
  · rw [eq_of_mem_replicate h]
    decide
  · exact Nat.isDigit_of_mem_toDigits (by decide) (by decide) h

theorem eightDigits_injective : Function.Injective eightDigits := by
  intro m n h
  have hvalue : ∀ k, Nat.ofDigitChars 10 (eightDigits k).toList 0 = k := by
    intro k
    rw [toList_eightDigits, Nat.ofDigitChars_append, Nat.ofDigitChars_replicate_zero, mul_zero,
      Nat.ofDigitChars_ten_toDigits]
  rw [← hvalue m, h, hvalue]

theorem tempName_injective (suffix : String) : Function.Injective (tempName suffix) := by
  intro m n h
  have hlist := congrArg String.toList h
  simp only [tempName, String.toList_append] at hlist
  exact eightDigits_injective (String.toList_inj.1 (append_cancel_left (append_cancel_right hlist)))

theorem toList_tempName (suffix : String) (n : Nat) :
    (tempName suffix n).toList = 't' :: 'm' :: 'p' :: (eightDigits n).toList ++ suffix.toList := by
  simp [tempName]

variable {suffix : String}

theorem not_mem_tempName {c : Char} (hsuffix : c ∉ suffix.toList)
    (hdigit : c.isDigit = false) (hc : c ∉ ['t', 'm', 'p']) (n : Nat) :
    c ∉ (tempName suffix n).toList := by
  rw [toList_tempName]
  intro hmem
  rcases mem_append.1 hmem with hmem | hmem
  · have hsplit : c ∈ ['t', 'm', 'p'] ++ (eightDigits n).toList := hmem
    rcases mem_append.1 hsplit with hmem | hmem
    · exact hc hmem
    · rw [isDigit_of_mem_eightDigits hmem] at hdigit
      cases hdigit
  · exact hsuffix hmem

theorem isProper_tempName (hsuffix : '/' ∉ suffix.toList) (n : Nat) :
    IsProper (tempName suffix n) := by
  have hne : ∀ s : String, s.toList.head? ≠ some 't' → tempName suffix n ≠ s := by
    rintro s hs rfl
    rw [toList_tempName] at hs
    exact hs rfl
  exact ⟨⟨hne _ (by decide), not_mem_tempName hsuffix (by decide) (by decide) n⟩,
    hne _ (by decide), hne _ (by decide)⟩

theorem accepted_tempName (n : Nat) : Accepted (tempName ".py" n) := by
  have hdigits : Accepted (eightDigits n) := by
    refine accepted_iff.2 fun c hc => ?_
    have hdigit := isDigit_of_mem_eightDigits hc
    rw [Char.isDigit, Bool.and_eq_true, decide_eq_true_eq, decide_eq_true_eq] at hdigit
    have hle : c.toNat ≤ 57 := hdigit.2
    refine ⟨by rw [isStray, Text.isHalf_eq_false_of_lt (by omega), Bool.false_and], ?_⟩
    rintro rfl
    exact absurd hdigit.1 (by decide)
  exact accepted_append.2 ⟨accepted_append.2 ⟨by decide, hdigits⟩, by decide⟩

/-- The largest number of temporary names that are sure to be short enough. -/
def maxTempNames : Nat := 10 ^ 200

theorem isName_tempName {n : Nat} (hn : n < maxTempNames) : IsName (tempName ".py" n) := by
  refine ⟨isProper_tempName (by decide) n, le_trans (Nat.sub_le _ _) ?_, accepted_tempName n⟩
  -- digits take one byte each, and there are at most 200 of them
  have hdigits : (Nat.toDigits 10 n).length ≤ 200 :=
    (Nat.length_toDigits_le_iff (by decide) (by decide)).2 hn
  have hlength : (eightDigits n).toList.length ≤ 208 := by
    rw [toList_eightDigits, length_append, length_replicate]
    omega
  have hbytes : ∀ cs : List Char, (∀ c ∈ cs, c.isDigit = true) →
      (String.ofList cs).utf8ByteSize = cs.length := by
    intro cs
    induction cs with
    | nil => exact fun _ => rfl
    | cons c cs ih =>
      intro h
      obtain ⟨hc, hcs⟩ := forall_mem_cons.1 h
      have hsize : c.utf8Size = 1 := by
        rw [Char.isDigit, Bool.and_eq_true, decide_eq_true_eq, decide_eq_true_eq] at hc
        rw [Char.utf8Size, if_pos]
        exact UInt32.le_trans hc.2 (by decide)
      rw [String.ofList_cons, String.utf8ByteSize_append, String.utf8ByteSize_singleton, hsize,
        ih hcs, length_cons, add_comm]
  have height : (eightDigits n).utf8ByteSize ≤ 208 := by
    have hsize := hbytes _ fun c hc => isDigit_of_mem_eightDigits (n := n) hc
    rw [String.ofList_toList] at hsize
    omega
  have htmp : ("tmp".utf8ByteSize = 3) ∧ (".py".utf8ByteSize = 3) := by decide
  rw [tempName, String.utf8ByteSize_append, String.utf8ByteSize_append, maxNameBytes]
  omega

theorem names_tempPathAt (dir : String) (hsuffix : '/' ∉ suffix.toList)
    (n : Nat) : names (tempPathAt dir suffix n) = names dir ++ [tempName suffix n] :=
  names_join _ (isProper_tempName hsuffix n).1

/-! ## Temporary paths -/

/-- `tempPath` gives a path at which nothing is: its number `n` is the first such from the counter
on. -/
theorem exec_tempPath (hsuffix : '/' ∉ suffix.toList) (w : Workspace) :
    ∃ n, (tempPath suffix).exec w
        = (.ok (tempPathAt w.tempDir suffix n), { w with tempCount := n + 1 }) ∧
      w.tempCount ≤ n ∧ n ≤ w.tempCount + w.tree.entries.length ∧
      w.tree.lookup (names w.tempDir ++ [tempName suffix n]) = none ∧
      ∀ m, w.tempCount ≤ m → m < n →
        w.tree.lookup (names w.tempDir ++ [tempName suffix m]) ≠ none := by
  let isFree (n : Nat) : Bool :=
    (w.tree.lookup (names (tempPathAt w.tempDir suffix n))).isNone
  have hfree : ∀ n, isFree n = true ↔
      w.tree.lookup (names w.tempDir ++ [tempName suffix n]) = none := by
    intro n
    simp [isFree, names_tempPathAt _ hsuffix]
  -- if none of the numbers were free, the tree would have more places than it has
  have hsome : ∃ i, (range (w.tree.entries.length + 1)).find?
      (fun i => isFree (w.tempCount + i)) = some i := by
    refine Option.isSome_iff_exists.1 ?_
    rw [Option.isSome_iff_ne_none]
    intro hnone
    have hlength : ((range (w.tree.entries.length + 1)).map fun i =>
        names w.tempDir ++ [tempName suffix (w.tempCount + i)]).length ≤ w.tree.entries.length := by
      refine length_le_of_isSome (nodup_range.map fun i j hij => ?_) fun p hp => ?_
      · have := tempName_injective suffix (singleton_inj.1 (append_cancel_left hij))
        omega
      · obtain ⟨i, hi, rfl⟩ := mem_map.1 hp
        refine ⟨by simp, Option.isSome_iff_ne_none.2 fun hlookup => ?_⟩
        exact find?_eq_none.1 hnone i hi ((hfree _).2 hlookup)
    rw [length_map, length_range] at hlength
    omega
  obtain ⟨i, hi⟩ := hsome
  obtain ⟨hfound, hmem, hbefore⟩ := find?_range_eq_some.1 hi
  have hle : i ≤ w.tree.entries.length := Nat.lt_succ_iff.1 (mem_range.1 hmem)
  refine ⟨w.tempCount + i, ?_, Nat.le_add_right _ _, Nat.add_le_add_left hle _,
    (hfree _).1 hfound, ?_⟩
  · have hn : ((range (w.tree.entries.length + 1)).map (w.tempCount + ·)).find? isFree
        = some (w.tempCount + i) := by
      rw [find?_map, Function.comp_def, hi]
      rfl
    rw [tempPath, exec_bind_ok _ (exec_get w)]
    dsimp only
    rw [hn]
    rfl
  · intro m hle hlt hlookup
    have hm := hbefore (m - w.tempCount) (by omega)
    rw [Nat.add_sub_cancel' hle, (hfree m).2 hlookup] at hm
    cases hm

end Run

/-! ## New files -/

/-- `base` leads to the directory `dir`, and nothing is in it under `name`. -/
structure Workspace.IsFree (w : Workspace) (base name : String) (dir : Place) : Prop where
  find_base : w.tree.find w.place base = .ok (dir, .dir)
  isName : IsName name
  lookup_eq : w.tree.lookup (dir ++ [name]) = none

namespace Workspace.IsFree

variable {w : Workspace} {base name : String} {dir : Place}

def put (w : Workspace) (dir : Place) (name text : String) : Workspace :=
  w.withTree (w.tree.insert (dir ++ [name]) (.file (.text text)))

variable (h : w.IsFree base name dir) (text : String)
include h

theorem find_put : (put w dir name text).tree.find w.place (join base name)
    = .ok (dir ++ [name], .file (.text text)) :=
  find_of_resolve (resolve_join_of_find
    (find_dir_mono (lookup_insert_of_free h.lookup_eq) h.find_base) h.isName)
    (lookup_insert_self _ (by simp) _)

/-- `writeText` writes `text`, or leaves the file empty if the text cannot be encoded. -/
theorem exec_writeText : (writeText (join base name) text).exec w
    = match Text.Utf8.encodeFault? text with
      | none => (.ok (), put w dir name text)
      | some fault => (.error (.unencodable fault), put w dir name "") := by
  have hresolve := resolve_join_of_find h.find_base h.isName
  have hdir : w.tree.isDir (dir ++ [name]) = false := Tree.isDir_of_lookup h.lookup_eq
  have hslash := endsWith_slash_join base h.isName.1.1
  cases htext : Text.Utf8.encodeFault? text with
  | none => exact Run.exec_writeText hresolve hdir hslash htext
  | some fault => exact exec_writeText_of_fault hresolve hdir hslash htext

variable (hw : w.Sound)
include hw

theorem sound : (put w dir name text).Sound where
  tree := hw.tree.insert (resolve_of_find h.find_base).2 h.isName fun hdir => by
    rw [h.lookup_eq] at hdir
    cases hdir
  isAbsolute := hw.isAbsolute
  lookup_place := lookup_insert_of_free h.lookup_eq hw.lookup_place

/-- `readText` gives the text that was put, for the path from the root. -/
theorem exec_readText : (readText (absolute w.cwd (join base name))).exec (put w dir name text)
      = (.ok (Text.unifyNewlines text), put w dir name text) := by
  have hplace : (put w dir name text).placeOf (join base name) = dir ++ [name] := by
    rw [placeOf_join _ _ h.isName.1, (find_eq_dir_iff.1 h.find_base).2.2]
    rfl
  have hlookup := (resolve_of_find (h.find_put text)).2
  rw [← hplace] at hlookup
  exact (h.sound text hw).exec_readText_absolute hlookup

/-- `remove` leaves no trace of a file that was put. -/
theorem exec_remove (printed : List String) :
    (remove (join base name)).exec { put w dir name text with printed }
      = (.ok (), { w with printed }) := by
  rw [remove, exec_bind_ok _ ((exec_find _ _).trans
    (congrArg (fun x => (x, { put w dir name text with printed })) (h.find_put text)))]
  show (Except.ok (), { put w dir name text with
    printed, tree := (put w dir name text).tree.erase (dir ++ [name]) }) = _
  rw [put, withTree, hw.tree.erase_insert h.lookup_eq]

end Workspace.IsFree

/-! ## Workspaces with a directory for temporary files -/

/-- `w` has its directory for temporary files, which has a path from the root. -/
structure Workspace.HasTempDir (w : Workspace) : Prop where
  isAbsolute : isAbsolute w.tempDir = true
  find_tempDir : w.tree.find w.place w.tempDir = .ok (names w.tempDir, .dir)

/-- The place of the temporary program with the number `n`. -/
def Workspace.tempPlace (w : Workspace) (n : Nat) : Place :=
  names w.tempDir ++ [tempName ".py" n]

namespace Workspace.HasTempDir

variable {w : Workspace}

theorem lookup_tempDir (h : w.HasTempDir) : w.tree.lookup (names w.tempDir) = some .dir :=
  (resolve_of_find h.find_tempDir).2

end Workspace.HasTempDir

/-! ## Copies -/

/-- The next temporary program gets the number `n`: the first from the counter on that is free. -/
structure Workspace.NextTemp (w : Workspace) (n : Nat) : Prop where
  exec_tempPath : (tempPath ".py").exec w
    = (.ok (tempPathAt w.tempDir ".py" n), { w with tempCount := n + 1 })
  le : w.tempCount ≤ n
  le_length : n ≤ w.tempCount + w.tree.entries.length
  free : w.tree.lookup (w.tempPlace n) = none
  first : ∀ m, w.tempCount ≤ m → m < n → w.tree.lookup (w.tempPlace m) ≠ none

theorem Workspace.exists_nextTemp (w : Workspace) : ∃ n, w.NextTemp n := by
  have hsuffix : '/' ∉ ".py".toList := by decide
  obtain ⟨n, hexec, hle, hlength, hfree, hfirst⟩ := exec_tempPath hsuffix w
  exact ⟨n, hexec, hle, hlength, hfree, hfirst⟩

/-- `w` with `text` in the temporary program with the number `n`. -/
def Workspace.withCopy (w : Workspace) (n : Nat) (text : String) : Workspace :=
  { w with tree := w.tree.insert (w.tempPlace n) (.file (.text text)), tempCount := n + 1 }

namespace Workspace.NextTemp

variable {w : Workspace} {n : Nat}

theorem tempPlace_ne (w : Workspace) (n : Nat) : w.tempPlace n ≠ [] := by simp [tempPlace]

variable (h : w.NextTemp n)
include h

theorem lookup_old (text : String) {q : Place} {e : Entry}
    (hq : w.tree.lookup q = some e) : (w.withCopy n text).tree.lookup q = some e :=
  lookup_insert_of_free h.free hq

theorem hasTempDir (ht : w.HasTempDir) (text : String) : (w.withCopy n text).HasTempDir :=
  ⟨ht.isAbsolute, find_dir_mono (h.lookup_old text) ht.find_tempDir⟩

theorem isFree (ht : w.HasTempDir) (hname : n < maxTempNames) :
    IsFree { w with tempCount := n + 1 } w.tempDir (tempName ".py" n) (names w.tempDir) :=
  ⟨ht.find_tempDir, isName_tempName hname, h.free⟩

theorem sound (hw : w.Sound) (ht : w.HasTempDir) (hname : n < maxTempNames)
    (text : String) : (w.withCopy n text).Sound :=
  (h.isFree ht hname).sound text ⟨hw.tree, hw.isAbsolute, hw.lookup_place⟩

theorem entries_withCopy (hw : w.Sound) (text : String) :
    (w.withCopy n text).tree.entries = w.tree.entries ++ [(w.tempPlace n, .file (.text text))] :=
  hw.tree.entries_insert h.free _

/-- `tempTextFile` makes a copy of `text`, which is empty if the text cannot be encoded. -/
theorem exec_tempTextFile (ht : w.HasTempDir) (hname : n < maxTempNames) (text : String) :
    (tempTextFile ".py" text).exec w = match Text.Utf8.encodeFault? text with
      | none => (.ok (tempPathAt w.tempDir ".py" n), w.withCopy n text)
      | some fault => (.error (.unencodable fault), w.withCopy n "") := by
  have hwrite := (h.isFree ht hname).exec_writeText text
  rw [tempTextFile, exec_bind_ok _ h.exec_tempPath]
  cases htext : Text.Utf8.encodeFault? text with
  | none =>
    rw [htext] at hwrite
    exact exec_bind_ok _ hwrite
  | some fault =>
    rw [htext] at hwrite
    exact exec_bind_error _ hwrite

/-- `readText` gives the text of a copy, for the path from the root. -/
theorem exec_readText (hw : w.Sound) (ht : w.HasTempDir)
    (hname : n < maxTempNames) (text : String) :
    (readText (absolute w.cwd (tempPathAt w.tempDir ".py" n))).exec (w.withCopy n text)
      = (.ok (Text.unifyNewlines text), w.withCopy n text) :=
  (h.isFree ht hname).exec_readText text ⟨hw.tree, hw.isAbsolute, hw.lookup_place⟩

/-- `remove` leaves no trace of a copy but its number. -/
theorem exec_remove (hw : w.Sound) (ht : w.HasTempDir)
    (hname : n < maxTempNames) (text : String) (printed : List String) :
    (remove (tempPathAt w.tempDir ".py" n)).exec { w.withCopy n text with printed }
      = (.ok (), { w with tempCount := n + 1, printed }) :=
  (h.isFree ht hname).exec_remove text ⟨hw.tree, hw.isAbsolute, hw.lookup_place⟩ printed

end Workspace.NextTemp

end SmellLint
