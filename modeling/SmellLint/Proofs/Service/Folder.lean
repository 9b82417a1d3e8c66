import SmellLint.Proofs.Project.Overview
import SmellLint.Proofs.Service.Snippet

/-!
# Folders that are analyzed on request

On request the programs of a folder are copied to temporary files and inspected there.  A copy that
is no program stays behind, and is met again if the directory for temporary files is in the folder
(`Service.Litter`).  The smells are still those that the analysis of the folder as a project saves
(`Service.analyzeFolder_of_analyzeProject`).
-/

namespace SmellLint

open Syntax (Node)
open Analyzer Path Project Run Text Tree Text.Utf8 List

/-! ## Texts -/

namespace Text

theorem unifyNewlines_unifyNewlines (s : String) :
    unifyNewlines (unifyNewlines s) = unifyNewlines s := by
  rw [unifyNewlines, unifyNewlines, String.toList_ofList,
    unifyNewlineChars_of_not_mem (not_mem_unifyNewlineChars _)]

end Text

theorem Content.unifyNewlines_of_readText {c : Content} {text : String}
    (h : c.readText = .ok text) : unifyNewlines text = text := by
  rw [readText] at h
  cases hraw : c.rawText with
  | error e =>
    rw [hraw] at h
    cases h
  | ok raw =>
    rw [hraw] at h
    cases h
    exact unifyNewlines_unifyNewlines raw

def Tree.programNames (t : Tree) (dir : Place) : List String := (t.fileNames dir).filter isSource

theorem Tree.Regular.mem_programNames {t : Tree} (h : t.Regular) {dir : Place} {name : String} :
    name ∈ t.programNames dir ↔ t.isFile (dir ++ [name]) = true ∧ isSource name = true := by
  rw [programNames, mem_filter, h.mem_fileNames]

theorem Tree.programNames_sublist (t : Tree) (dir : Place) :
    (t.programNames dir).Sublist (t.names dir) :=
  filter_sublist.trans (t.fileNames_sublist dir)

namespace Service

open Run (maxTempNames tempName)

/-! ## Smells of files -/

def SmellRecord.marked (way : Option String) (s : SmellRecord) : SmellRecord :=
  { s with file := way }

/-- `c` is text that can be written again. -/
def Readable (c : Content) : Prop := ∃ text, c.readText = .ok text ∧ encodeFault? text = none

/-! ## What is left behind -/

/-- `v` is `w` with temporary files left behind that are no programs.  From `limit` on, all numbers
are free for temporary files. -/
structure Litter (w : Workspace) (limit : Nat) (v : Workspace) : Prop where
  cwd_eq : v.cwd = w.cwd
  tempDir_eq : v.tempDir = w.tempDir
  sound : v.tree.Sound
  tempCount_le : v.tempCount ≤ limit
  lookup_free : ∀ n, limit ≤ n → w.tree.lookup (w.tempPlace n) = none
  lookup_old : ∀ {q : Place} {e : Entry}, w.tree.lookup q = some e → v.tree.lookup q = some e
  lookup_new : ∀ {q : Place} {e : Entry}, v.tree.lookup q = some e → w.tree.lookup q = some e ∨
    ∃ n text, n < v.tempCount ∧ q = w.tempPlace n ∧ e = .file (.text text) ∧
      Node.ofSource? text = none ∧ unifyNewlines text = text ∧
      encodeFault? text = none

variable {w v : Workspace} {limit : Nat}

theorem tempPlace_inj {m n : Nat} : w.tempPlace m = w.tempPlace n ↔ m = n := by
  refine ⟨fun h => ?_, fun h => congrArg _ h⟩
  exact tempName_injective ".py" (singleton_inj.1 (append_cancel_left h))

/-- The smells of the file that `ws` leads to from `start`, marked with the way to it. -/
def fileSmells (w : Workspace) (root : String) (start : Place) (ws : List String) :
    List SmellRecord :=
  (((w.tree.file? (start ++ ws)).bind fun c => c.readText.toOption).elim [] smellsIn).map
    (SmellRecord.marked (relative? w.cwd (joinAll root ws) root))

/-- How many temporary names there are at most after a walk through `places` that would have given
out `n` if it met nothing that it leaves behind.  What it has left is met at most once. -/
def budget (w : Workspace) (places : List Place) (n : Nat) : Nat :=
  if ∃ p ∈ places, p <+: names w.tempDir then 2 * n else n

theorem le_budget (w : Workspace) (places : List Place) (n : Nat) : n ≤ budget w places n := by
  rw [budget]
  split <;> omega

/-- At most one of the directories in `place` leads to that for temporary files. -/
theorem budget_cons (w : Workspace) (place : Place) {d : String} {dirs : List String}
    (hd : d ∉ dirs) (m n : Nat) : budget w (dirs.map (place ++ [·])) (budget w [place ++ [d]] m + n)
      ≤ budget w ((d :: dirs).map (place ++ [·])) (m + n) := by
  by_cases hfirst : place ++ [d] <+: names w.tempDir
  · have hothers : ¬∃ p ∈ dirs.map (place ++ [·]), p <+: names w.tempDir := by
      rintro ⟨p, hp, hother⟩
      obtain ⟨d', hd', rfl⟩ := mem_map.1 hp
      have hsame := (prefix_of_prefix_length_le hfirst hother (by simp)).eq_of_length (by simp)
      obtain rfl := singleton_inj.1 (append_cancel_left hsame)
      exact hd hd'
    simp only [budget, if_neg hothers, map_cons, mem_cons,
      exists_eq_or_imp, hfirst, true_or, if_true]
    omega
  · simp only [budget, map_cons, mem_cons, exists_eq_or_imp, hfirst, false_or]
    exact le_refl _

/-- What has been left behind is met in the directory for temporary files only. -/
theorem budget_dirs (w : Workspace) (place : Place) (dirs : List String) {m n k : Nat}
    (hk : k ≤ n + if place = names w.tempDir then m else 0) (r : Nat) :
    budget w (dirs.map (place ++ [·])) (m + k + r) ≤ budget w [place] (m + (n + r)) := by
  by_cases hplace : place = names w.tempDir
  · have hbelow : ¬∃ p ∈ dirs.map (place ++ [·]), p <+: names w.tempDir := by
      rintro ⟨p, hp, hlong⟩
      obtain ⟨d, -, rfl⟩ := mem_map.1 hp
      have := hlong.length_le
      rw [hplace, length_append, length_singleton] at this
      omega
    rw [if_pos hplace] at hk
    rw [budget, if_neg hbelow, budget, if_pos ⟨place, by simp, hplace ▸ prefix_refl _⟩]
    omega
  · rw [if_neg hplace] at hk
    by_cases hbelow : ∃ p ∈ dirs.map (place ++ [·]), p <+: names w.tempDir
    · have habove : ∃ p ∈ [place], p <+: names w.tempDir := by
        obtain ⟨p, hp, hlong⟩ := hbelow
        obtain ⟨d, -, rfl⟩ := mem_map.1 hp
        exact ⟨place, by simp, (prefix_append _ _).trans hlong⟩
      rw [budget, if_pos hbelow, budget, if_pos habove]
      omega
    · rw [budget, if_neg hbelow]
      have := le_budget w [place] (m + (n + r))
      omega

/-- The ways from `start` to the programs below `way`. -/
def programWays (t : Tree) (start : Place) (fuel : Nat) (way : List String) : List (List String) :=
  t.sources isSource (fun _ => true) start fuel way

theorem programWays_succ (t : Tree) (start : Place) (fuel : Nat) (way : List String) :
    programWays t start (fuel + 1) way
      = (t.programNames (start ++ way)).map (fun n => way ++ [n]) ++
        (t.dirNames (start ++ way)).flatMap fun d => programWays t start fuel (way ++ [d]) := by
  rw [programWays, sources_succ, filter_true]
  rfl

theorem programsBelow_succ (root : String) (fuel : Nat) (way : List String) {place : Place}
    (hdir : (dirAt? (joinAll root way)).exec v = (.ok (some place), v)) :
    (programsBelow root (fuel + 1) way).exec v = (do
      let programs ← (v.tree.programNames place).mapM (programIn root way)
      let below ← (v.tree.dirNames place).mapM fun name => programsBelow root fuel (way ++ [name])
      return programs ++ below.flatten : Run (List (String × List SmellRecord))).exec v := by
  rw [programsBelow, exec_bind_ok _ hdir]
  rfl

namespace Litter

variable (h : Litter w limit v)
include h

theorem mono {limit' : Nat} (hle : limit ≤ limit') : Litter w limit' v :=
  { h with
    tempCount_le := le_trans h.tempCount_le hle
    lookup_free := fun n hn => h.lookup_free n (le_trans hle hn) }

theorem dirsIn : w.DirsIn v := ⟨h.cwd_eq, h.lookup_old⟩

theorem workspace_sound (hw : w.Sound) : v.Sound where
  tree := h.sound
  isAbsolute := by
    rw [h.cwd_eq]
    exact hw.isAbsolute
  lookup_place := by
    rw [h.dirsIn.place_eq]
    exact h.lookup_old hw.lookup_place

theorem hasTempDir (ht : w.HasTempDir) : v.HasTempDir where
  isAbsolute := by
    rw [h.tempDir_eq]
    exact ht.isAbsolute
  find_tempDir := by
    rw [h.tempDir_eq]
    exact h.dirsIn.find_dir ht.find_tempDir

theorem tempPlace_eq (n : Nat) : v.tempPlace n = w.tempPlace n := by
  rw [Workspace.tempPlace, h.tempDir_eq]
  rfl

/-- Numbers from `limit` on are still free. -/
theorem lookup_tempPlace {n : Nat} (hn : limit ≤ n) : v.tree.lookup (w.tempPlace n) = none := by
  cases hl : v.tree.lookup _ with
  | none => rfl
  | some e =>
    rcases h.lookup_new hl with hold | ⟨m, -, hm, heq, -⟩
    · rw [h.lookup_free n hn] at hold
      cases hold
    · have := tempPlace_inj.1 heq
      have := h.tempCount_le
      omega

/-- The number `n` has been given out, and nothing is left. -/
theorem count {n : Nat} (hn : v.tempCount ≤ n) (hle : n ≤ limit)
    (printed : List String) : Litter w (limit + 1) { v with tempCount := n + 1, printed } where
  cwd_eq := h.cwd_eq
  tempDir_eq := h.tempDir_eq
  sound := h.sound
  tempCount_le := Nat.succ_le_succ hle
  lookup_free m hm := h.lookup_free m (by omega)
  lookup_old := h.lookup_old
  lookup_new hq := by
    rcases h.lookup_new hq with hold | ⟨m, text, hm, hrest⟩
    · exact .inl hold
    · exact .inr ⟨m, text, by dsimp only; omega, hrest⟩

/-- A `text` that is no program has been left at a place where nothing was. -/
theorem leave (ht : w.HasTempDir) {n : Nat} (hn : v.tempCount ≤ n)
    (hle : n ≤ limit) (hname : n < maxTempNames) (hfree : v.tree.lookup (w.tempPlace n) = none)
    {text : String} (hprogram : Node.ofSource? text = none)
    (hlines : unifyNewlines text = text) (htext : encodeFault? text = none)
    (printed : List String) : Litter w (limit + 1) { v with
      tree := v.tree.insert (w.tempPlace n) (.file (.text text))
      tempCount := n + 1, printed } := by
  have hne : w.tempPlace n ≠ [] := by simp [Workspace.tempPlace]
  have hold : ∀ {q : Place} {e : Entry}, v.tree.lookup q = some e → q ≠ w.tempPlace n := by
    rintro q e hq rfl
    rw [hfree] at hq
    cases hq
  have hcount := h.count hn hle printed
  refine { hcount with sound := ?_, lookup_old := ?_, lookup_new := ?_ }
  · refine h.sound.insert (h.lookup_old ht.lookup_tempDir) (isName_tempName hname) fun hdir => ?_
    exact absurd rfl (hold hdir)
  · intro q e hq
    have hv := h.lookup_old hq
    exact (lookup_insert_of_ne _ (hold hv) _).trans hv
  · intro q e hq
    by_cases heq : q = w.tempPlace n
    · subst heq
      rw [lookup_insert_self _ hne] at hq
      cases hq
      exact .inr ⟨n, text, Nat.lt_succ_self n, rfl, rfl, hprogram, hlines, htext⟩
    · rw [lookup_insert_of_ne _ heq] at hq
      exact hcount.lookup_new hq

/-! ## One program -/

/-- The next number is at most `limit`, which is free itself. -/
theorem nextTemp_le {n : Nat} (hn : v.NextTemp n) : n ≤ limit := by
  by_contra hlt
  refine hn.first limit h.tempCount_le (Nat.lt_of_not_le hlt) ?_
  rw [h.tempPlace_eq]
  exact h.lookup_tempPlace (le_refl limit)

/-- `smellsOf` gives the smells of `text`, and leaves a copy behind only if it is no program. -/
theorem exec_smellsOf (hw : w.Sound) (ht : w.HasTempDir)
    (hlimit : limit < maxTempNames) {text : String} (hlines : unifyNewlines text = text)
    (htext : encodeFault? text = none) :
    ∃ v', (smellsOf (some text)).exec v = (.ok (smellsIn text), v') ∧ Litter w (limit + 1) v' ∧
      ∀ {q : Place} {e : Entry}, v.tree.lookup q = some e → v'.tree.lookup q = some e := by
  obtain ⟨n, hn⟩ := v.exists_nextTemp
  have hle := h.nextTemp_le hn
  have hname := lt_of_le_of_lt hle hlimit
  obtain ⟨printed, hexec⟩ :=
    Service.exec_smellsOf hn (h.workspace_sound hw) (h.hasTempDir ht) hname _
  have hfault : fileFault? (some text) = none := by
    rw [fileFault?, htext]
    rfl
  have hread : readProgram (some text) = text := hlines
  rw [remains, hfault, hread] at hexec
  cases hparse : Node.ofSource? text with
  | none =>
    rw [hparse] at hexec
    have hfree := hn.free
    rw [h.tempPlace_eq] at hfree
    have hleave := h.leave ht hn.le hle hname hfree hparse hlines htext printed
    rw [← h.tempPlace_eq] at hleave
    exact ⟨_, hexec, hleave, hn.lookup_old text⟩
  | some tree =>
    rw [hparse] at hexec
    exact ⟨_, hexec, h.count hn.le hle printed, id⟩

/-! ## Files of a folder -/

variable {root : String} {start : Place} {way : List String}

/-- `smellsInFolder` gives the smells that a file has in `w`; what has been left behind has none. -/
theorem exec_smellsInFolder (hw : w.Sound) (ht : w.HasTempDir)
    (hlimit : limit < maxTempNames) (hroot : w.tree.find w.place root = .ok (start, .dir))
    {name : String} (hfile : v.tree.isFile (start ++ (way ++ [name])) = true)
    (hread : ∀ c, w.tree.file? (start ++ (way ++ [name])) = some c → Readable c) :
    ∃ v', (smellsInFolder root (joinAll root (way ++ [name]))).exec v
        = (.ok (fileSmells w root start (way ++ [name])), v') ∧ Litter w (limit + 1) v' ∧
      ∀ {q : Place} {e : Entry}, v.tree.lookup q = some e → v'.tree.lookup q = some e := by
  rw [isFile_eq_isSome] at hfile
  obtain ⟨c, hc⟩ := Option.isSome_iff_exists.1 hfile
  have hlookup := file?_eq_some_iff.1 hc
  -- an old file is as it was, and a new one is no program
  obtain ⟨text, htext, hencode, hsmells⟩ : ∃ text, c.readText = .ok text ∧
      encodeFault? text = none ∧
      fileSmells w root start _ = (smellsIn text).map (SmellRecord.marked _) := by
    cases hfile? : w.tree.file? _ with
    | some c' =>
      have hsame := (h.lookup_old (file?_eq_some_iff.1 hfile?)).symm.trans hlookup
      cases hsame
      obtain ⟨text, htext, hencode⟩ := hread c hfile?
      refine ⟨text, htext, hencode, ?_⟩
      rw [fileSmells, hfile?, Option.bind_some, htext]
      rfl
    | none =>
      rcases h.lookup_new hlookup with hold | ⟨n, text, -, -, heq, hprogram, hlines, hencode⟩
      · rw [file?_eq_some_iff.2 hold] at hfile?
        cases hfile?
      · cases heq
        refine ⟨text, congrArg Except.ok hlines, hencode, ?_⟩
        rw [fileSmells, hfile?, smellsIn_of_not_program hprogram]
        rfl
  have hv := h.workspace_sound hw
  have hfind := hv.find_joinAll (h.dirsIn.find_dir hroot) hlookup
  obtain ⟨v', hexec, h', hkept⟩ :=
    h.exec_smellsOf hw ht hlimit (Content.unifyNewlines_of_readText htext) hencode
  have hreads : (readText (joinAll root (way ++ [name]))).exec v = (.ok text, v) := by
    rw [exec_readText_of_file hfind, htext]
  refine ⟨v', ?_, h', hkept⟩
  rw [smellsInFolder, exec_bind_ok _ hreads, exec_bind_ok _ hexec,
    exec_bind_ok _ (exec_get v'), h'.cwd_eq, hsmells]
  rfl

/-- `smellsInFolder` for the programs of one directory. -/
theorem exec_mapM_programs (hw : w.Sound) (ht : w.HasTempDir)
    (hroot : w.tree.find w.place root = .ok (start, .dir)) {names : List String}
    (hlimit : limit + names.length ≤ maxTempNames)
    (hfile : ∀ n ∈ names, v.tree.isFile (start ++ (way ++ [n])) = true)
    (hread : ∀ n ∈ names, ∀ c, w.tree.file? (start ++ (way ++ [n])) = some c → Readable c) :
    ∃ programs v', (names.mapM (programIn root way)).exec v = (.ok programs, v') ∧
      Litter w (limit + names.length) v' ∧
      programs.flatMap Prod.snd = names.flatMap fun n => fileSmells w root start (way ++ [n]) := by
  induction names generalizing limit v with
  | nil => exact ⟨[], v, rfl, h, rfl⟩
  | cons name names ih =>
    obtain ⟨hname, hnames⟩ := forall_mem_cons.1 hfile
    obtain ⟨hfirst, hothers⟩ := forall_mem_cons.1 hread
    rw [length_cons] at hlimit
    obtain ⟨v₁, hexec, h₁, hkept⟩ := h.exec_smellsInFolder hw ht (by omega) hroot hname hfirst
    have hfile₁ : ∀ n ∈ names, v₁.tree.isFile (start ++ (way ++ [n])) = true := by
      intro n hn
      obtain ⟨c, hc⟩ := exists_of_isFile (hnames n hn)
      exact isFile_of_lookup (hkept hc)
    obtain ⟨programs, v₂, hmap, h₂, hflat⟩ := ih h₁ (by omega) hfile₁ hothers
    refine ⟨(joinAll root (way ++ [name]), fileSmells w root start (way ++ [name])) :: programs,
      v₂, ?_, h₂.mono (by rw [length_cons]; omega), ?_⟩
    · rw [mapM_cons, programIn, bind_assoc, exec_bind_ok _ hexec, pure_bind, exec_bind_ok _ hmap]
      rfl
    · rw [flatMap_cons, flatMap_cons, hflat]

/-! ## Directories -/

theorem isDir_eq (q : Place) : v.tree.isDir q = w.tree.isDir q := by
  rw [Bool.eq_iff_iff]
  constructor
  · intro hdir
    rcases h.lookup_new (lookup_of_isDir hdir) with hold | ⟨_, _, -, -, heq, -⟩
    · exact isDir_of_lookup hold
    · cases heq
  · intro hdir
    exact isDir_of_lookup (h.lookup_old (lookup_of_isDir hdir))

theorem dirNames_eq (hw : w.Sound) (dir : Place) : v.tree.dirNames dir = w.tree.dirNames dir := by
  refine h.sound.eq_of_sublist_names hw.tree.toRegular (v.tree.dirNames_sublist dir)
    (w.tree.dirNames_sublist dir) fun n => ?_
  rw [h.sound.mem_dirNames, hw.tree.mem_dirNames, h.isDir_eq]

/-- Of the programs in `dir`, those that were there before. -/
theorem filter_programNames (hw : w.Sound) (dir : Place) :
    (v.tree.programNames dir).filter (fun n => w.tree.isFile (dir ++ [n]))
      = w.tree.programNames dir := by
  refine h.sound.eq_of_sublist_names hw.tree.toRegular
    (filter_sublist.trans (v.tree.programNames_sublist dir)) (w.tree.programNames_sublist dir)
    fun n => ?_
  rw [mem_filter, h.sound.mem_programNames, hw.tree.mem_programNames]
  constructor
  · rintro ⟨⟨-, hsource⟩, hfile⟩
    exact ⟨hfile, hsource⟩
  · rintro ⟨hfile, hsource⟩
    obtain ⟨c, hc⟩ := exists_of_isFile hfile
    exact ⟨⟨isFile_of_lookup (h.lookup_old hc), hsource⟩, hfile⟩

/-- At most as many programs have come to `dir` as temporary names have been given out, and none if
it is not the directory for temporary files. -/
theorem length_programNames_le (hw : w.Sound) (dir : Place) :
    (v.tree.programNames dir).length ≤ (w.tree.programNames dir).length +
      if dir = names w.tempDir then limit else 0 := by
  let isNew (n : String) : Bool := !w.tree.isFile (dir ++ [n])
  have hnew : ∀ n ∈ (v.tree.programNames dir).filter isNew,
      dir = names w.tempDir ∧ n ∈ (range limit).map (tempName ".py") := by
    intro n hn
    obtain ⟨hmem, hnot⟩ := mem_filter.1 hn
    obtain ⟨c, hc⟩ := exists_of_isFile (h.sound.mem_programNames.1 hmem).1
    rcases h.lookup_new hc with hold | ⟨i, text, hi, heq, -⟩
    · simp [isNew, isFile_of_lookup hold, Entry.isDir] at hnot
    · obtain ⟨hdir, hname⟩ := append_inj' heq rfl
      have hle := h.tempCount_le
      exact ⟨hdir, mem_map.2 ⟨i, mem_range.2 (by omega), (singleton_inj.1 hname).symm⟩⟩
  have hcount : ((v.tree.programNames dir).filter isNew).length
      ≤ if dir = names w.tempDir then limit else 0 := by
    split
    · have hnodup : ((v.tree.programNames dir).filter isNew).Nodup :=
        (h.sound.nodup_names dir).sublist (filter_sublist.trans (v.tree.programNames_sublist dir))
      simpa using (subperm_of_subset hnodup fun n hn => (hnew n hn).2).length_le
    · next hdir =>
      have hnil : (v.tree.programNames dir).filter isNew = [] :=
        eq_nil_iff_forall_not_mem.2 fun n hn => hdir (hnew n hn).1
      rw [hnil]
      exact le_refl _
  have hsplit := length_eq_length_filter_add (l := v.tree.programNames dir)
    fun n => w.tree.isFile (dir ++ [n])
  rw [h.filter_programNames hw] at hsplit
  exact hsplit ▸ Nat.add_le_add_left hcount _

omit h

/-! ## The walk -/

/-- The directories in `place`, one after the other.  At most one of them leads to the directory for
temporary files. -/
theorem exec_mapM_dirs {place : Place} {dirs : List String} (hnodup : dirs.Nodup)
    (walk : String → Run (List (String × List SmellRecord))) (count : String → Nat)
    (smells : String → List SmellRecord)
    (hwalk : ∀ d ∈ dirs, ∀ {limit : Nat} {v : Workspace}, Litter w limit v →
      budget w [place ++ [d]] (limit + count d) ≤ maxTempNames → ∃ programs v',
        (walk d).exec v = (.ok programs, v') ∧
        Litter w (budget w [place ++ [d]] (limit + count d)) v' ∧
        programs.flatMap Prod.snd = smells d)
    (h : Litter w limit v)
    (hlimit : budget w (dirs.map (place ++ [·])) (limit + (dirs.map count).sum) ≤ maxTempNames) :
    ∃ below v', (dirs.mapM walk).exec v = (.ok below, v') ∧
      Litter w (budget w (dirs.map (place ++ [·])) (limit + (dirs.map count).sum)) v' ∧
      below.flatten.flatMap Prod.snd = dirs.flatMap smells := by
  induction dirs generalizing limit v with
  | nil => exact ⟨[], v, rfl, h.mono (le_budget _ _ _), rfl⟩
  | cons d dirs ih =>
    obtain ⟨hd, hdirs⟩ := nodup_cons.1 hnodup
    obtain ⟨hfirst, hothers⟩ := forall_mem_cons.1 hwalk
    have hbudget := budget_cons w place hd (limit + count d) (dirs.map count).sum
    have hsum : limit + ((d :: dirs).map count).sum = limit + count d + (dirs.map count).sum := by
      rw [map_cons, sum_cons, add_assoc]
    rw [hsum] at hlimit ⊢
    have hown : budget w [place ++ [d]] (limit + count d) ≤ maxTempNames := by
      have := le_budget w (dirs.map (place ++ [·]))
        (budget w [place ++ [d]] (limit + count d) + (dirs.map count).sum)
      omega
    obtain ⟨programs, v₁, hexec, h₁, hsmells⟩ := hfirst h hown
    obtain ⟨below, v₂, hmap, h₂, hflat⟩ := ih hdirs hothers h₁ (le_trans hbudget hlimit)
    refine ⟨programs :: below, v₂, ?_, h₂.mono hbudget, ?_⟩
    · rw [mapM_cons, exec_bind_ok _ hexec, exec_bind_ok _ hmap]
      rfl
    · rw [flatten_cons, flatMap_append, hsmells, hflat, flatMap_cons]

/-- `programsBelow` gives the smells that the programs below `way` have in `w`. -/
theorem exec_programsBelow (hw : w.Sound) (ht : w.HasTempDir)
    (hroot : w.tree.find w.place root = .ok (start, .dir)) {fuel : Nat} (h : Litter w limit v)
    (hdir : w.tree.isDir (start ++ way) = true)
    (hread : ∀ ws ∈ programWays w.tree start fuel way, ∀ c, w.tree.file? (start ++ ws) = some c →
      Readable c)
    (hlimit : budget w [start ++ way] (limit + (programWays w.tree start fuel way).length)
      ≤ maxTempNames) :
    ∃ programs v', (programsBelow root fuel way).exec v = (.ok programs, v') ∧
      Litter w (budget w [start ++ way] (limit + (programWays w.tree start fuel way).length)) v' ∧
      programs.flatMap Prod.snd
        = (programWays w.tree start fuel way).flatMap (fileSmells w root start) := by
  induction fuel generalizing way limit v with
  | zero => exact ⟨[], v, rfl, h.mono (le_budget _ _ _), rfl⟩
  | succ fuel ih =>
    have hv := h.workspace_sound hw
    have hlookup := h.lookup_old (lookup_of_isDir hdir)
    have hat := exec_dirAt? (hv.find_dir_joinAll (h.dirsIn.find_dir hroot) hlookup)
    rw [programWays_succ] at hread hlimit ⊢
    rw [length_append, length_map, length_flatMap] at hlimit ⊢
    have hbudget := budget_dirs w (start ++ way) (w.tree.dirNames (start ++ way))
      (h.length_programNames_le hw _) ((w.tree.dirNames (start ++ way)).map
        fun d => (programWays w.tree start fuel (way ++ [d])).length).sum
    have hprograms : limit + (v.tree.programNames (start ++ way)).length ≤ maxTempNames := by
      have := le_budget w ((w.tree.dirNames (start ++ way)).map (start ++ way ++ [·]))
        (limit + (v.tree.programNames (start ++ way)).length + ((w.tree.dirNames (start ++ way)).map
            fun d => (programWays w.tree start fuel (way ++ [d])).length).sum)
      omega
    have hfiles : ∀ n ∈ v.tree.programNames (start ++ way),
        v.tree.isFile (start ++ (way ++ [n])) = true := by
      intro n hn
      rw [← append_assoc]
      exact (h.sound.mem_programNames.1 hn).1
    have hown : ∀ n ∈ v.tree.programNames (start ++ way), ∀ c,
        w.tree.file? (start ++ (way ++ [n])) = some c → Readable c := by
      intro n hn c hc
      refine hread _ (mem_append_left _ (mem_map.2 ⟨n, ?_, rfl⟩)) c hc
      refine hw.tree.mem_programNames.2 ⟨?_, (h.sound.mem_programNames.1 hn).2⟩
      rw [append_assoc, isFile_eq_isSome, hc]
      rfl
    obtain ⟨programs, v₁, hexec, h₁, hsmells⟩ :=
      h.exec_mapM_programs hw ht hroot hprograms hfiles hown
    have hnodup : (w.tree.dirNames (start ++ way)).Nodup :=
      (hw.tree.nodup_names _).sublist (w.tree.dirNames_sublist _)
    obtain ⟨below, v₂, hmap, h₂, hflat⟩ := exec_mapM_dirs hnodup
      (fun name => programsBelow root fuel _)
      (fun d => (programWays w.tree start fuel _).length)
      (fun d => (programWays w.tree start fuel _).flatMap _)
      (fun d hd limit v h hlimit => by
        rw [append_assoc] at hlimit ⊢
        refine ih h ?_ (fun ws hws => hread ws (mem_append_right _
          (mem_flatMap.2 ⟨d, hd, hws⟩))) hlimit
        rw [← append_assoc]
        exact hw.tree.mem_dirNames.1 hd)
      h₁ (le_trans hbudget hlimit)
    refine ⟨programs ++ below.flatten, v₂, ?_, h₂.mono hbudget, ?_⟩
    · rw [programsBelow_succ root fuel way hat, exec_bind_ok _ hexec, h.dirNames_eq hw,
        exec_bind_ok _ hmap]
      rfl
    · -- a program that was not there before has no smells
      have hold : (v.tree.programNames (start ++ way)).flatMap
          (fun n => fileSmells w root start (way ++ [n]))
          = (w.tree.programNames (start ++ way)).flatMap
            fun n => fileSmells w root start (way ++ [n]) := by
        rw [← h.filter_programNames hw]
        refine (flatMap_filter_of_nil fun n _ hn => ?_).symm
        rw [append_assoc, isFile_eq_isSome, Option.isSome_eq_false_iff,
          Option.isNone_iff_eq_none] at hn
        rw [fileSmells, hn]
        rfl
      rw [flatMap_append, hsmells, hflat, hold, flatMap_append, flatMap_map, flatMap_assoc]

end Litter

/-! ## Folders -/

variable {root : String} {start : Place}

/-- Where no directory is left out of an analysis, `programsBelow` meets the files of the project.
-/
theorem programWays_eq_sourceWays (hw : w.Sound)
    (hskip : ∀ ws d, w.tree.isDir (start ++ (ws ++ [d])) = true → isSkippedDir d = false) :
    programWays w.tree start (w.tree.entries.length + 1) [] = sourceWays w.tree start := by
  have hsame : SameBelow isSource start w.tree w.tree :=
    hw.tree.sameBelow hw.tree fun _ _ _ => rfl
  have hdepth := hw.tree.depth_le
  refine hsame.sources_eq hw.tree.toRegular hw.tree.toRegular (by omega) (by omega)
    fun ws d hd => ?_
  rw [hskip ws d hd]
  rfl

/-- `relative?` gives the same way to `path` and to the same path from the root. -/
theorem relative?_absolute (hw : w.Sound) {path : String} (hne : path ≠ "")
    (hpath : ∀ n ∈ w.placeOf path, IsProper n) (root : String) :
    relative? w.cwd (absolute w.cwd path) root = relative? w.cwd path root := by
  have hplain : ∀ n ∈ w.placeOf path, IsPlain n := fun n hn => (hpath n hn).1
  have hto := hw.isPathTo (absolute w.cwd path)
  rw [hw.placeOf_absolute hpath] at hto
  have hnames := (hto.names_eq hplain).trans ((hw.isPathTo path).names_eq hplain).symm
  have habsolute : ¬(absolute w.cwd path).isEmpty = true := by
    rw [String.isEmpty_iff]
    intro hempty
    have := (hw.isPathTo path).isAbsolute
    rw [hempty] at this
    cases this
  have hempty : ¬path.isEmpty = true := by simpa using hne
  rw [relative?, if_neg habsolute, hnames, relative?, if_neg hempty]

/-- The rows of a file of a project are its `fileSmells`. -/
theorem map_rowsAt (a : Analyzer) (ha : a.catalogue = .shipped) (hw : w.Sound)
    (hroot : w.tree.find w.place root = .ok (start, .dir)) {ws : List String}
    (hws : ws ∈ sourceWays w.tree start) :
    (a.rowsAt w (absolute w.cwd (joinAll root ws))).map (fun r =>
        { SmellRecord.ofRow r with file := relative? w.cwd r.filename root })
      = fileSmells w root start ws := by
  obtain ⟨p, name, c, hplace, hat⟩ := isSourceAt_of_mem_sourceWays hw hroot hws
  have hlookup := hat.lookup_eq
  rw [← hplace] at hlookup
  obtain ⟨hproper, hplaceOf⟩ := placeOf_of_mem_sourceWays hw hroot hws
  have hne : joinAll root ws ≠ "" := by
    intro hempty
    have hnames := names_joinAll root fun n hn => (hproper n (mem_append_right _ hn)).1
    rw [hempty] at hnames
    obtain ⟨-, rfl⟩ := append_eq_nil_iff.1 hnames.symm
    exact (find_eq_dir_iff.1 hroot).1.1 hempty
  have hway := relative?_absolute hw hne (by rw [hplaceOf]; exact hproper) root
  rw [rowsAt, found_eq hw hat, ha, fileSmells, file?_eq_some_iff.2 hlookup, Option.bind_some]
  cases c.readText with
  | error e =>
    rw [Inspection.ofFile]
    split <;> rfl
  | ok text =>
    rw [Inspection.ofFile]
    cases hparse : Node.ofSource? text with
    | none =>
      rw [Inspection.ofSource, hparse]
      simp [Except.toOption, smellsIn_of_not_program hparse]
    | some tree =>
      obtain ⟨rows, hrows, hfile, hsmells⟩ := exists_result_ofSource_smellsIn hparse
        (absolute w.cwd (joinAll root ws))
      simp only [hrows, Except.toOption, Option.elim_some, ← hsmells, map_map]
      refine map_congr_left fun r hr => ?_
      rw [hfile r hr, hway]
      rfl

/-- `analyzeFolder` gives the smells of `dir` that its files have in the analysis of a project:
those of the rows that `Analyzer.allRows` has for the files, each with the way from `dir` to the
file of its row.  An analysis of `dir` with `Analyzer.analyzeProject` that comes to its end has
saved these rows. -/
theorem analyzeFolder_of_analyzeProject {a : Analyzer} {dir : String} {files : List String}
    (ha : a.catalogue = .shipped) (hw : w.Sound)
    (hdir : w.tree.find w.place dir = .ok (start, .dir))
    (hskip : ∀ ws d, w.tree.isDir (start ++ (ws ++ [d])) = true → isSkippedDir d = false)
    (hfiles : (sourceFiles dir).exec w = (.ok files, w))
    (htext : ∀ f ∈ files, ∃ text, textAt w f = .ok text ∧
      Text.Utf8.encodeFault? text = none)
    (ht : w.HasTempDir) (hcount : w.tempCount ≤ limit)
    (hfree : ∀ n, limit ≤ n → w.tree.lookup (w.tempPlace n) = none)
    (hlimit : 2 * (limit + files.length) ≤ maxTempNames) :
    ∃ rows report v, a.allRows w files = .ok rows ∧
      (analyzeFolder dir).exec w = (.ok report, v) ∧
      report.smells = rows.map (fun r =>
        { SmellRecord.ofRow r with file := Path.relative? w.cwd r.filename dir }) ∧
      ∀ count u, a.HasOutput w → (a.analyzeProject dir).exec w = (.ok count, u) →
        a.projectRows? w dir = some rows ∧ ∃ records, a.Saved w records rows u := by
  rw [exec_sourceFiles] at hfiles
  have hfiles := (Prod.mk.inj hfiles).1
  have hways := hfiles
  rw [sourcesAt_of_dir hdir] at hways
  cases hways
  -- the rows are those of all files, since all of them are text
  have hat := fun f hf => exists_of_mem_sourcesAt (f := f) hw hfiles hf
  have hall := allRows_of_isText (a := a) hw (by rw [ha]; decide +kernel) hat
    fun f hf => by
    obtain ⟨text, htext, -⟩ := htext f hf
    rw [isText, htext]
    rfl
  -- the walk starts in the workspace as it is
  have hways := programWays_eq_sourceWays hw hskip
  have hstart : Litter w limit w := ⟨rfl, rfl, hw.tree, hcount, hfree, id, .inl⟩
  have hisDir : w.tree.isDir (start ++ []) = true := by
    rw [List.append_nil]
    exact isDir_of_lookup (Tree.resolve_of_find hdir).2
  have hread : ∀ ws ∈ programWays w.tree start (w.tree.entries.length + 1) [], ∀ c,
      w.tree.file? (start ++ ws) = some c → Readable c := by
    rw [hways]
    intro ws hws c hc
    obtain ⟨p, name, c', hplace, hat⟩ := isSourceAt_of_mem_sourceWays hw hdir hws
    obtain ⟨text, htext, hencode⟩ := htext _ (List.mem_map.2 ⟨ws, hws, rfl⟩)
    rw [Tree.file?_eq_some_iff, hplace, hat.lookup_eq] at hc
    cases hc
    rw [textAt, hat.exec_readText hw (fun _ hq => hq) hat.lookup_eq] at htext
    exact ⟨text, htext, hencode⟩
  obtain ⟨programs, v, hexec, -, hsmells⟩ := hstart.exec_programsBelow hw ht hdir hisDir hread (by
      rw [hways, budget]
      rw [List.length_map] at hlimit
      split <;> omega)
  obtain ⟨graph, hgraph⟩ := exec_graphOf dir (programs.map Prod.fst) "" v
  refine ⟨_, ⟨programs.flatMap Prod.snd, graph⟩, v, hall, ?_, ?_, ?_⟩
  · rw [analyzeFolder, Run.exec_bind_ok _ (Run.exec_get w), Run.exec_bind_ok _ hexec,
      Run.exec_bind_ok _ hgraph]
    rfl
  · rw [hways] at hsmells
    rw [List.flatMap_map, List.map_flatMap]
    exact hsmells.trans (List.flatMap_congr fun ws hws => (map_rowsAt a ha hw hdir hws).symm)
  · intro count u ho hproject
    obtain ⟨records, rows, hrows, hsaved⟩ := ho.saved_of_ok hproject
    have hsame := hrows
    rw [projectRows?, hfiles] at hsame
    change (if _ then (a.allRows w _).toOption else none) = some rows at hsame
    rw [hall] at hsame
    split at hsame
    · cases hsame
      exact ⟨hrows, records, hsaved⟩
    · cases hsame

/-- A folder with a text that is no program, a program with a smell, and the directory for temporary
files. -/
def sharedFolder : Workspace where
  tree := ⟨[(["out"], .dir), (["p"], .dir), (["p", "a.py"], .file (.text "x = (")),
    (["p", "b.py"], .file (.text "import pandas as pd\r\ndef f(df):\r\n    df[0][0]\r\n")),
    (["p", "tmp"], .dir)]⟩
  tempDir := "/p/tmp"

theorem analyzeFolder_of_analyzeProject_sharedFolder :
    Workspace.HasTempDir sharedFolder ∧ HasOutput { output := "out" } sharedFolder ∧
    ∃ rows report v, allRows { output := "out" } sharedFolder ["/p/a.py", "/p/b.py"] = .ok rows ∧
      (analyzeFolder "p").exec sharedFolder = (.ok report, v) ∧
      report.smells = rows.map (fun r =>
        { SmellRecord.ofRow r with file := Path.relative? sharedFolder.cwd r.filename "p" }) ∧
      ∃ u records, (analyzeProject { output := "out" } "p").exec sharedFolder = (.ok 1, u) ∧
        Saved { output := "out" } sharedFolder records rows u := by
  have ho : HasOutput { output := "out" } sharedFolder :=
    ⟨⟨by decide +kernel, by decide, rfl⟩, rfl⟩
  have ht : sharedFolder.HasTempDir := ⟨by decide, rfl⟩
  have hdir : sharedFolder.tree.find sharedFolder.place "p" = .ok (["p"], .dir) := rfl
  have hfiles : (sourceFiles "p").exec sharedFolder
      = (.ok ["/p/a.py", "/p/b.py"], sharedFolder) := rfl
  have hskip : ∀ ws d, sharedFolder.tree.isDir (["p"] ++ (ws ++ [d])) = true →
      isSkippedDir d = false := by
    intro ws d hd
    have hnames : ∀ x ∈ sharedFolder.tree.entries,
        isSkippedDir (x.1.getLast?.getD "") = false := by decide +kernel
    have hlast := hnames _ (ho.sound.tree.mem_entries.2 ⟨by simp, Tree.lookup_of_isDir hd⟩)
    rwa [← List.append_assoc, List.getLast?_append, List.getLast?_singleton] at hlast
  have htext : ∀ f ∈ ["/p/a.py", "/p/b.py"], ∃ text, textAt sharedFolder f = .ok text ∧
      Text.Utf8.encodeFault? text = none := by
    intro f hf
    have htexts : ∀ f ∈ ["/p/a.py", "/p/b.py"], (textAt sharedFolder f).toOption.any
        (fun text => (Text.Utf8.encodeFault? text).isNone) = true := by decide +kernel
    obtain ⟨text, htext, hencode⟩ := Option.any_eq_true _ _ |>.1 (htexts f hf)
    exact ⟨text, eq_ok_of_toOption htext, Option.isNone_iff_eq_none.1 hencode⟩
  have hfree : ∀ n, 0 ≤ n → sharedFolder.tree.lookup (sharedFolder.tempPlace n) = none := by
    intro n _
    cases hl : sharedFolder.tree.lookup (sharedFolder.tempPlace n) with
    | none => rfl
    | some e =>
      have hdepth : sharedFolder.tree.depth < (Path.names sharedFolder.tempDir).length + 1 := by
        decide +kernel
      have := Tree.length_le_depth hl
      rw [Workspace.tempPlace, List.length_append, List.length_singleton] at this
      omega
  obtain ⟨rows, report, v, hrows, hexec, hsmells, hsaved⟩ :=
    analyzeFolder_of_analyzeProject (a := { output := "out" }) rfl ho.sound hdir hskip hfiles htext
      ht (Nat.le_refl 0) hfree (by decide)
  have hproject := Run.exec_eq_of_toOption (r := analyzeProject { output := "out" } "p")
    (w := sharedFolder) (a := 1) (by decide +kernel)
  obtain ⟨-, records, hsaved⟩ := hsaved 1 _ ho hproject
  exact ⟨ht, ho, rows, report, v, hrows, hexec, hsmells, _, records, hproject, hsaved⟩

end Service

end SmellLint
