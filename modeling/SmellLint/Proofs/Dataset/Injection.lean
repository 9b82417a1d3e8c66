import SmellLint.Dataset.Injection
import SmellLint.Proofs.Except
import SmellLint.Proofs.Workspace.StoredValues
import Mathlib.Data.List.Sort

/-!
# Taking up the work on a dataset again

The work on a dataset is nothing but the files that it writes (`Injection.exec_work`), and after any
number of them the files still hold work that can be taken up again (`Paths.Holds.exec_saves`).  A
run that was killed and started again ends as one that was never killed, but that it may have lost
what came of one function (`Injection.process_after_kill`).
-/

namespace SmellLint

open Atom List Run Text.Utf8

/-! ## Numbers of functions -/

namespace Injection.Progress

/-- The numbers `done` of functions as they are kept. -/
def indices (done : List Nat) : List Atom := done.map fun i : Nat => .int i

theorem indices_cons (i : Nat) (done : List Nat) :
    indices (i :: done) = .int i :: indices done := rfl

theorem map_toJson_indices (done : List Nat) :
    (indices done).map Atom.toJson = done.map fun i : Nat => .int i := by
  rw [indices, map_map]
  rfl

theorem same_index (i j : Nat) : same (.int i) (.int j) = (i == j) := by
  change (((i : Int) == (j : Int)) : Bool) = _
  rw [Bool.eq_iff_iff, beq_iff_eq, beq_iff_eq, Int.natCast_inj]

theorem atMost_index (i j : Nat) : atMost (.int i) (.int j) = decide (i ≤ j) := by
  change decide ((i : Int) ≤ (j : Int)) = _
  rw [decide_eq_decide, Int.ofNat_le]

theorem any_same_indices (i : Nat) (done : List Nat) :
    (indices done).any (same (.int i)) = done.contains i := by
  induction done with
  | nil => rfl
  | cons j done ih => rw [indices_cons, any_cons, same_index, ih, contains_cons]

variable {i : Nat} {done : List Nat}

theorem isDone_indices_of_mem (hi : i ∈ done) (made : List Json) :
    isDone ⟨indices done, made⟩ i = true :=
  (any_same_indices i done).trans (contains_iff_mem.2 hi)

theorem isDone_indices_of_not_mem (hi : i ∉ done) (made : List Json) :
    isDone ⟨indices done, made⟩ i = false := by
  rw [isDone, any_same_indices, Bool.eq_false_iff, ne_eq, contains_iff_mem]
  exact hi

theorem distinct_indices (h : done.Nodup) : distinct (indices done) = indices done := by
  have hfold : ∀ {later kept : List Nat}, (kept ++ later).Nodup →
      (indices later).foldl (fun kept a => if kept.any (same a) then kept else kept ++ [a])
        (indices kept) = indices (kept ++ later) := by
    intro later
    induction later with
    | nil =>
      intro kept _
      rw [append_nil]
      rfl
    | cons i later ih =>
      intro kept hnodup
      have hfresh : (indices kept).any (same (.int i)) = false := by
        rw [any_same_indices, Bool.eq_false_iff]
        intro hmem
        exact (nodup_append.1 hnodup).2.2 i (contains_iff_mem.1 hmem) i mem_cons_self rfl
      rw [append_cons] at hnodup ⊢
      rw [indices_cons, foldl_cons, hfresh, ← ih hnodup, indices.eq_1 (kept ++ [i]), map_append]
      rfl
  exact @hfold done [] h

theorem setOf_indices (h : done.Nodup) :
    setOf (.arr ((indices done).map Atom.toJson)) = .ok (indices done) := by
  have hmap : ((indices done).map Atom.toJson).mapM ofJson = .ok (indices done) := by
    rw [map_toJson_indices, mapM_map]
    exact mapM_eq_ok fun _ _ => rfl
  rw [Atom.setOf]
  simp [Json.each, bind, Except.bind, hmap, distinct_indices h, pure, Except.pure]

theorem sort_indices (h : done.Pairwise (· < ·)) : sort (indices done) = indices done := by
  refine mergeSort_of_pairwise (pairwise_map.2 (h.imp fun hij => ?_))
  rw [atMost_index, decide_eq_true_eq]
  exact le_of_lt hij

theorem insertSorted_indices (hi : i ∉ done) :
    insertSorted i (indices done) = indices (done.orderedInsert (· ≤ ·) i) := by
  induction done with
  | nil => rfl
  | cons j done ih =>
    rw [mem_cons, not_or] at hi
    have hsame : (j == i) = false := beq_false_of_ne (symm hi.1)
    rw [indices_cons, insertSorted, same_index, atMost_index, orderedInsert_cons, hsame,
      if_neg (by decide)]
    by_cases hle : j ≤ i
    · rw [decide_eq_true hle, if_pos rfl, ih hi.2, if_neg (by omega)]
      rfl
    · rw [decide_eq_false hle, if_neg (by decide), if_pos (by omega)]
      rfl

theorem pairwise_orderedInsert (h : done.Pairwise (· < ·)) (hi : i ∉ done) :
    (done.orderedInsert (· ≤ ·) i).Pairwise (· < ·) := by
  have hsorted := (h.imp le_of_lt).orderedInsert i done
  have hnodup : (done.orderedInsert (· ≤ ·) i).Nodup :=
    (perm_orderedInsert _ i done).nodup_iff.2 (nodup_cons.2 ⟨hi, h.imp ne_of_lt⟩)
  exact (hsorted.and hnodup).imp fun hij => lt_of_le_of_ne hij.1 hij.2

theorem note_indices (hi : i ∉ done) (made : List Json) (result : Option (Sample String)) :
    note ⟨indices done, made⟩ i result
      = ⟨indices (done.orderedInsert (· ≤ ·) i), made ++ (result.map Sample.toJson).toList⟩ := by
  rw [note, insertSorted_indices hi]

end Injection.Progress

namespace Injection

/-! ## What is stored -/

/-- The files that `work` writes in turn, where `answer` tells what becomes of a function: `work`
with a `save` that only notes what it is given. -/
def saves (answer : Json → Option (Sample String)) (p : Progress) (entries : List (Json × Nat)) :
    List Save :=
  (StateT.run (work (m := StateM (List Save)) (fun entry => pure (answer entry))
    (fun save => modify (· ++ [save])) p entries) []).2

section Saves

variable {answer : Json → Option (Sample String)} {p : Progress} {entry : Json} {i : Nat}
  {rest : List (Json × Nat)}

theorem saves_of_done (h : p.isDone i = true) :
    saves answer p ((entry, i) :: rest) = saves answer p rest := by
  rw [saves, work, if_pos h]
  rfl

/-- What was stored `before` does not change what `work` stores. -/
theorem run_work (p : Progress) (entries : List (Json × Nat)) (before : List Save) :
    (StateT.run (work (m := StateM (List Save)) (fun entry => pure (answer entry))
      (fun save => modify (· ++ [save])) p entries) before).2
        = before ++ saves answer p entries := by
  induction entries generalizing p before with
  | nil => exact (append_nil before).symm
  | cons e rest ih =>
    rw [saves, work]
    by_cases h : p.isDone e.2 = true
    · rw [if_pos h]
      exact ih p before
    · rw [if_neg h]
      have hrest := ih (p.note e.2 (answer e.1))
      refine (hrest _).trans (trans ?_ (congrArg _ (hrest _).symm))
      simp

theorem saves_of_not_done (h : p.isDone i = false) : saves answer p ((entry, i) :: rest)
      = .checkpoint (p.note i (answer entry)).processed
        :: .results (p.note i (answer entry)).results
        :: saves answer (p.note i (answer entry)) rest := by
  rw [saves, work, if_neg (by simp [h])]
  exact run_work _ rest [.checkpoint (p.note i _).processed, .results (p.note i _).results]

end Saves

/-- `work` is nothing but what it stores, if `ask` changes nothing. -/
theorem exec_work {P : Workspace → Prop} {ask : Json → Run (Option (Sample String))}
    {answer : Json → Option (Sample String)} {save : Save → Run Unit}
    (hask : ∀ v, P v → ∀ entry, (ask entry).exec v = (.ok (answer entry), v))
    (hsave : ∀ s, Keeps P (save s)) {p : Progress} {entries : List (Json × Nat)}
    {v v' : Workspace} (hv : P v)
    (h : ((saves answer p entries).forM save).exec v = (.ok (), v')) :
    ∃ q, (work ask save p entries).exec v = (.ok q, v') := by
  induction entries generalizing p v with
  | nil =>
    cases h
    exact ⟨p, rfl⟩
  | cons e rest ih =>
    obtain ⟨entry, i⟩ := e
    cases hdone : p.isDone i with
    | true =>
      rw [saves_of_done hdone] at h
      obtain ⟨q, hq⟩ := ih hv h
      refine ⟨q, ?_⟩
      rw [work, if_pos hdone]
      exact hq
    | false =>
      rw [saves_of_not_done hdone] at h
      obtain ⟨⟨⟩, v₁, hcheckpoint, h⟩ := exec_bind_eq_ok h
      obtain ⟨⟨⟩, v₂, hresults, h⟩ := exec_bind_eq_ok h
      have hv₂ := (hsave _).exec_eq hresults ((hsave _).exec_eq hcheckpoint hv)
      obtain ⟨q, hq⟩ := ih hv₂ h
      refine ⟨q, ?_⟩
      rw [work, if_neg (by simp [hdone]), exec_bind_ok _ (hask v hv entry)]
      rw [exec_bind_ok _ hcheckpoint, exec_bind_ok _ hresults]
      exact hq

/-! ## Samples -/

/-- A model whose answers depend on nothing but the questions. -/
def answering (reply : String → Except Fault Json) : Model := fun question =>
  lift (reply question)

/-- The sample that `sampleOf` makes of a stored function in a workspace, if any. -/
def sampleIn (model : Model) (limit : Int) (draw : Draw String) (w : Workspace) (entry : Json) :
    Option (Sample String) :=
  ((sampleOf model limit entry draw).exec w).1.toOption

def drawnIn (w : Workspace) : Option Int := w.outside.drawn

section Samples

variable {reply : String → Except Fault Json} {draw : Draw String}

theorem looksAt_drawNumber (least greatest : Int) :
    LooksAt drawnIn (drawNumber least greatest) := by
  intro v w hvw
  unfold drawnIn at hvw
  unfold drawNumber
  by_cases hempty : greatest < least
  · rw [if_pos hempty]
    rfl
  · rw [if_neg hempty]
    change (Except.ok _, v) = _
    rw [hvw]
    rfl

theorem looksAt_inject (limit : Int) (code : String) :
    LooksAt drawnIn (inject (answering reply) limit code draw) :=
  (looksAt_drawNumber 1 limit).bind fun _ => (LooksAt.lift _).bind fun _ =>
    (LooksAt.lift _).bind fun _ => (LooksAt.lift _).bind fun _ =>
      (LooksAt.lift _).bind fun _ => .pure _

theorem looksAt_sampleOf (reply : String → Except Fault Json) (draw : Draw String) (limit : Int)
    (entry : Json) : LooksAt drawnIn (sampleOf (answering reply) limit entry draw) := by
  refine (LooksAt.lift _).bind fun code => (looksAt_inject limit _).bind fun r => ?_
  dsimp only
  split
  · exact .pure _
  · exact .pure _

variable {w : Workspace}

/-- `sampleOf?` gives the same in workspaces where the same number is drawn. -/
theorem exec_sampleOf? {v : Workspace} (h : drawnIn v = drawnIn w) (limit : Int) (entry : Json) :
    (sampleOf? (answering reply) limit entry draw).exec v
      = (.ok (sampleIn (answering reply) limit draw w entry), v) := by
  rw [sampleOf?, exec_bind_ok _ (exec_outcome _ v), looksAt_sampleOf reply draw limit entry v w h]
  rfl

theorem mem_of_mem_withoutFence {cs : List Char} {c : Char} (h : c ∈ withoutFence cs) : c ∈ cs := by
  rw [withoutFence, Text.trimChars, Text.trimWith, mem_reverse] at h
  have hkept := (dropWhile_sublist _).mem h
  rw [mem_reverse] at hkept
  exact mem_of_mem_take (mem_of_mem_drop ((dropWhile_sublist _).mem hkept))

theorem mem_of_mem_codeOfAnswer {answer : String} {c : Char}
    (h : c ∈ (codeOfAnswer answer).toList) : c ∈ answer.toList := by
  unfold codeOfAnswer at h
  dsimp only at h
  split at h
  · rw [String.toList_ofList] at h
    exact mem_of_mem_withoutFence h
  · exact h

theorem encodeFault?_of_mem_smellNames : ∀ name ∈ smellNames,
    encodeFault? name = none := by decide +kernel

theorem isExact_sample {r : Reply} (hcode : ∀ c ∈ r.code.toList, Text.isHalf c = false)
    (hsmells : ∀ name ∈ r.smells, name ∈ smellNames) : r.sample.toJson.IsExact := by
  have hnames : ∀ name ∈ ["code", "labels"], encodeFault? name = none := by decide
  refine .obj (show ["code", "labels"].Nodup by decide)
    (fun m hm => encodeFault?_eq_none_iff.1 (hnames m.1 (mem_map_of_mem hm)))
    fun m hm => ?_
  rcases mem_cons.1 hm with rfl | hm
  · exact .str hcode
  · rw [mem_singleton.1 hm]
    refine .arr fun j hj => ?_
    obtain ⟨name, hname, rfl⟩ := mem_map.1 hj
    exact .str (encodeFault?_eq_none_iff.1
      (encodeFault?_of_mem_smellNames name (hsmells name hname)))

variable (hdraw : ∀ n names, draw.pick n names ⊆ names)

include hdraw

theorem mem_of_drawSmells {count : Int} {smells : List String}
    (h : drawSmells draw count = .ok smells) : ∀ name ∈ smells, name ∈ smellNames := by
  rw [drawSmells, Draw.sample] at h
  split at h
  · cases h
  · cases h
    exact fun name hname => hdraw _ _ hname

variable (hreply : ∀ question text, reply question = .ok (.str text) →
  encodeFault? text = none)

include hreply

/-- The reply of `inject` has the characters of an answer, and the names of smells. -/
theorem exec_inject_eq_ok {limit : Int} {code : String} {w' : Workspace} {r : Reply}
    (h : (inject (answering reply) limit code draw).exec w = (.ok r, w')) :
    (∀ c ∈ r.code.toList, Text.isHalf c = false) ∧ ∀ name ∈ r.smells, name ∈ smellNames := by
  obtain ⟨count, w₁, -, h⟩ := exec_bind_eq_ok h
  obtain ⟨smells, w₂, hsmells, h⟩ := exec_bind_eq_ok h
  obtain ⟨question, w₃, -, h⟩ := exec_bind_eq_ok h
  obtain ⟨answer, w₄, hanswer, h⟩ := exec_bind_eq_ok h
  obtain ⟨text, w₅, htext, h⟩ := exec_bind_eq_ok h
  have hstr : answer = .str text := by
    cases answer with
    | str s => cases htext; rfl
    | _ => cases htext
  subst hstr
  cases h
  have hhalf := encodeFault?_eq_none_iff.1 (hreply question text (Prod.mk.inj hanswer).1)
  exact ⟨fun c hc => hhalf c (mem_of_mem_codeOfAnswer hc),
    mem_of_drawSmells hdraw (Prod.mk.inj hsmells).1⟩

/-- What becomes of a function can be stored and read again, if the answers can be written. -/
theorem isExact_of_sampleIn {limit : Int} {entry : Json} {sample : Sample String}
    (h : sampleIn (answering reply) limit draw w entry = some sample) :
    sample.toJson.IsExact := by
  have hexec := (looksAt_sampleOf reply draw limit entry).exec_eq w
  rw [eq_ok_of_toOption h] at hexec
  obtain ⟨code, w₁, -, hexec⟩ := exec_bind_eq_ok hexec
  obtain ⟨r, w₂, hinject, hexec⟩ := exec_bind_eq_ok hexec
  obtain ⟨hcode, hsmells⟩ := exec_inject_eq_ok hdraw hreply hinject
  dsimp only at hexec
  split at hexec
  · cases hexec
    refine isExact_sample (fun c hc => hcode c (mem_of_mem_withoutFence ?_)) hsmells
    rwa [String.toList_ofList] at hc
  · cases hexec
    exact isExact_sample hcode hsmells

end Samples

/-! ## Stored work -/

/-- `paths` lead to three different files, or to places where they can be written. -/
structure Paths.LeadTo (paths : Paths) (input checkpoint output : Place) (w : Workspace) :
    Prop where
  input_path : w.IsFilePath paths.input input
  checkpoint_path : w.IsFilePath paths.checkpoint checkpoint
  output_path : w.IsFilePath paths.output output
  input_ne_checkpoint : input ≠ checkpoint
  input_ne_output : input ≠ output
  checkpoint_ne_output : checkpoint ≠ output

/-- `w` is as runs leave it: it holds `dataset`, the numbers `done` of its functions that are done,
and `made`, what came of them. -/
structure Paths.Holds (paths : Paths) (dataset : Json) (done : List Nat) (made : List Json)
    (w : Workspace) : Prop where
  leadTo : ∃ input checkpoint output, paths.LeadTo input checkpoint output w
  readJson_eq : (readJson paths.input).exec w = (.ok dataset, w)
  load_eq : paths.load.exec w
    = (.ok (checkpointJson (done.map fun i : Nat => .int i), .arr made), w)
  sorted : done.Pairwise (· < ·)
  short : ∀ i ∈ done, i < 10 ^ Text.maxIntegerDigits
  isExact : ∀ j ∈ made, j.IsExact

theorem looksAt_readOr (path : String) (default : Json) :
    LooksAt (found path) (readOr path default) := by
  refine (looksAt_exists? path).bind fun isThere => ?_
  cases isThere with
  | false => exact .pure default
  | true =>
    refine (looksAt_readJson path).outcome.bind fun x => ?_
    split
    · exact .pure _
    · exact .pure _
    · exact .throw _

variable {w : Workspace}

theorem Paths.load_eq_iff {paths : Paths} {checkpoint results : Json} :
    paths.load.exec w = (.ok (checkpoint, results), w) ↔
      (readOr paths.checkpoint (checkpointJson [])).exec w = (.ok checkpoint, w) ∧
        (readOr paths.output (.arr [])).exec w = (.ok results, w) := by
  constructor
  · intro h
    obtain ⟨a, w₁, hcheckpoint, h⟩ := exec_bind_eq_ok h
    obtain ⟨b, w₂, hresults, h⟩ := exec_bind_eq_ok h
    have hw₁ := (looksAt_readOr paths.checkpoint (checkpointJson [])).exec_eq w
    rw [hcheckpoint] at hw₁
    obtain rfl : w₁ = w := (Prod.mk.inj hw₁).2
    cases h
    exact ⟨hcheckpoint, hresults⟩
  · rintro ⟨hcheckpoint, hresults⟩
    rw [load, exec_bind_ok _ hcheckpoint, exec_bind_ok _ hresults]
    rfl

theorem exec_readOr_of_none {path : String} {p : Place} (h : w.IsFilePath path p)
    (hp : w.tree.lookup p = none) (default : Json) :
    (readOr path default).exec w = (.ok default, w) := by
  have hexists : (exists? path).exec w = (.ok false, w) := by
    rw [exec_exists?, Tree.find_of_resolve_none h.resolve_eq hp]
    rfl
  exact exec_bind_ok _ hexists

/-- `readOr` gives a value `j` that was stored. -/
theorem exec_readOr_pretty {path : String} {p : Place} {j : Json} (h : w.IsFilePath path p)
    (hj : j.IsExact) (hp : w.tree.lookup p = some (.file (.text (j.pretty 0)))) (default : Json) :
    (readOr path default).exec w = (.ok j, w) := by
  have hexists : (exists? path).exec w = (.ok true, w) := by
    rw [exec_exists?, Tree.find_of_resolve h.resolve_eq hp]
    rfl
  rw [readOr, exec_bind_ok _ hexists]
  exact exec_bind_ok _ (exec_outcome_of (exec_readJson_pretty h hj hp))

/-! ## Storing -/

theorem isExact_checkpointJson {done : List Nat} (h : ∀ i ∈ done, i < 10 ^ Text.maxIntegerDigits) :
    (checkpointJson (done.map fun i : Nat => .int i)).IsExact := by
  have hname : ∀ c ∈ "processed".toList, Text.isHalf c = false :=
    encodeFault?_eq_none_iff.1 (by decide)
  refine .obj (nodup_singleton _) (forall_mem_singleton.2 hname)
    (forall_mem_singleton.2 (.arr fun j hj => ?_))
  obtain ⟨i, hi, rfl⟩ := mem_map.1 hj
  exact .int (h i hi)

namespace Paths.LeadTo

variable {paths : Paths} {input checkpoint output : Place}

theorem insert (h : paths.LeadTo input checkpoint output w) {p : Place}
    (hp : w.tree.isDir p = false) (c : Content) :
    paths.LeadTo input checkpoint output (w.withTree (w.tree.insert p (.file c))) where
  input_path := h.input_path.insert hp c
  checkpoint_path := h.checkpoint_path.insert hp c
  output_path := h.output_path.insert hp c
  input_ne_checkpoint := h.input_ne_checkpoint
  input_ne_output := h.input_ne_output
  checkpoint_ne_output := h.checkpoint_ne_output

end Paths.LeadTo

namespace Paths.Holds

variable {paths : Paths} {dataset : Json} {done done' : List Nat} {made made' : List Json}

theorem exec_save_checkpoint (h : paths.Holds dataset done made w)
    (hsorted : done'.Pairwise (· < ·)) (hshort : ∀ i ∈ done', i < 10 ^ Text.maxIntegerDigits) :
    ∃ v, (paths.save (.checkpoint (Progress.indices done'))).exec w = (.ok (), v) ∧
      paths.Holds dataset done' made v ∧ v.outside = w.outside := by
  obtain ⟨input, checkpoint, output, hpaths⟩ := h.leadTo
  have hpath := hpaths.checkpoint_path
  have hexact := isExact_checkpointJson hshort
  obtain ⟨-, hresults⟩ := load_eq_iff.1 h.load_eq
  have hsave : paths.save (.checkpoint (Progress.indices done'))
      = writeJson paths.checkpoint (checkpointJson (done'.map fun i : Nat => .int i)) := by
    rw [save, saveCheckpoint, Progress.map_toJson_indices]
  rw [hsave]
  refine ⟨_, exec_writeJson hpath hexact, ⟨⟨input, checkpoint, output,
    hpaths.insert hpath.isDir_eq _⟩, ?_, ?_, hsorted, hshort, h.isExact⟩, rfl⟩
  · exact (looksAt_readJson _).exec_insert hpaths.input_path hpath.isDir_eq
      hpaths.input_ne_checkpoint _ h.readJson_eq
  · refine load_eq_iff.2 ⟨exec_readOr_pretty (hpath.insert hpath.isDir_eq _) hexact
      (Tree.lookup_insert_self _ hpath.ne_nil _) _, ?_⟩
    exact (looksAt_readOr _ _).exec_insert hpaths.output_path hpath.isDir_eq
      (symm hpaths.checkpoint_ne_output) _ hresults

theorem exec_save_results (h : paths.Holds dataset done made w) (hmade : ∀ j ∈ made', j.IsExact) :
    ∃ v, (paths.save (.results made')).exec w = (.ok (), v) ∧
      paths.Holds dataset done made' v ∧ v.outside = w.outside := by
  obtain ⟨input, checkpoint, output, hpaths⟩ := h.leadTo
  have hpath := hpaths.output_path
  have hexact : (Json.arr made').IsExact := .arr hmade
  obtain ⟨hcheckpoint, -⟩ := load_eq_iff.1 h.load_eq
  refine ⟨_, exec_writeJson hpath hexact, ⟨⟨input, checkpoint, output,
    hpaths.insert hpath.isDir_eq _⟩, ?_, ?_, h.sorted, h.short, hmade⟩, rfl⟩
  · exact (looksAt_readJson _).exec_insert hpaths.input_path hpath.isDir_eq
      hpaths.input_ne_output _ h.readJson_eq
  · refine load_eq_iff.2 ⟨?_, exec_readOr_pretty (hpath.insert hpath.isDir_eq _) hexact
      (Tree.lookup_insert_self _ hpath.ne_nil _) _⟩
    exact (looksAt_readOr _ _).exec_insert hpaths.checkpoint_path hpath.isDir_eq
      hpaths.checkpoint_ne_output _ hcheckpoint

end Paths.Holds

/-! ## Functions still to be done -/

/-- The functions of `entries` whose numbers are not in `done`: those that `work` asks about. -/
def pending (done : List Nat) (entries : List (Json × Nat)) : List (Json × Nat) :=
  entries.filter fun e => !done.contains e.2

/-- The numbers of `done` with those of `entries`, in order, as `Progress.note` adds them. -/
def doneAfter (done : List Nat) (entries : List (Json × Nat)) : List Nat :=
  entries.foldl (fun done e => done.orderedInsert (· ≤ ·) e.2) done

/-- The entries that `Progress.note` adds to the results for functions: the samples that `answer`
gives, as they are stored. -/
def madeOf (answer : Json → Option (Sample String)) (entries : List (Json × Nat)) : List Json :=
  entries.filterMap fun e => (answer e.1).map Sample.toJson

section Pending

variable (answer : Json → Option (Sample String)) {done : List Nat} {entries : List (Json × Nat)}

theorem doneAfter_append (done : List Nat) (entries later : List (Json × Nat)) :
    doneAfter done (entries ++ later) = doneAfter (doneAfter done entries) later :=
  foldl_append

theorem mem_doneAfter {i : Nat} :
    i ∈ doneAfter done entries ↔ i ∈ done ∨ i ∈ entries.map Prod.snd := by
  induction entries generalizing done with
  | nil => simp [doneAfter]
  | cons e entries ih =>
    rw [doneAfter, foldl_cons, ← doneAfter, ih, mem_orderedInsert, map_cons, mem_cons]
    tauto

theorem madeOf_cons (e : Json × Nat) (entries : List (Json × Nat)) :
    madeOf answer (e :: entries)
      = ((answer e.1).map Sample.toJson).toList ++ madeOf answer entries := by
  rw [madeOf, filterMap_cons]
  cases answer e.1 with
  | none => rfl
  | some sample => rfl

theorem pending_cons_of_mem {e : Json × Nat} (h : e.2 ∈ done) :
    pending done (e :: entries) = pending done entries :=
  filter_cons_of_neg (by simpa using h)

theorem pending_cons_of_not_mem {e : Json × Nat} (h : e.2 ∉ done) :
    pending done (e :: entries) = e :: pending done entries :=
  filter_cons_of_pos (by simpa using h)

theorem pending_orderedInsert {i : Nat} (hi : i ∉ entries.map Prod.snd) :
    pending (done.orderedInsert (· ≤ ·) i) entries = pending done entries := by
  refine filter_congr fun e he => ?_
  have hne : e.2 ≠ i := fun heq => hi (heq ▸ mem_map_of_mem he)
  simp [hne]

theorem pending_pending {later both : List Nat} (h : ∀ i, i ∈ both ↔ i ∈ done ∨ i ∈ later) :
    pending later (pending done entries) = pending both entries := by
  rw [pending, pending, filter_filter]
  refine filter_congr fun e _ => ?_
  rw [Bool.eq_iff_iff]
  simp [h, and_comm]

theorem pending_take (hnodup : (entries.map Prod.snd).Nodup) (k : Nat) :
    pending ((entries.take k).map Prod.snd) entries = entries.drop k := by
  have happend : (entries.take k).map Prod.snd ++ (entries.drop k).map Prod.snd
      = entries.map Prod.snd := by
    rw [← map_append, take_append_drop]
  rw [← happend] at hnodup
  have hapart := (nodup_append.1 hnodup).2.2
  have hfirst : pending ((entries.take k).map Prod.snd) (entries.take k) = [] := by
    refine filter_eq_nil_iff.2 fun e he => ?_
    rw [Bool.not_eq_true', Bool.not_eq_false, contains_iff_mem]
    exact mem_map_of_mem he
  have hlater : pending ((entries.take k).map Prod.snd) (entries.drop k) = entries.drop k := by
    refine filter_eq_self.2 fun e he => ?_
    rw [Bool.not_eq_true', Bool.eq_false_iff, ne_eq, contains_iff_mem]
    exact fun hmem => hapart _ hmem _ (mem_map_of_mem he) rfl
  calc pending _ entries = pending _ (entries.take k ++ entries.drop k) := by
        rw [take_append_drop]
    _ = pending _ _ ++ pending _ _ := filter_append ..
    _ = entries.drop k := by rw [hfirst, hlater, nil_append]

/-- Once the first `k` of the `pending` functions are done, the others are pending. -/
theorem pending_doneAfter_take (done : List Nat) (hnodup : (entries.map Prod.snd).Nodup) (k : Nat) :
    pending (doneAfter done ((pending done entries).take k)) entries
      = (pending done entries).drop k := by
  have hsublist : Sublist ((pending done entries).map Prod.snd) (entries.map Prod.snd) :=
    filter_sublist.map _
  rw [← pending_pending fun i => mem_doneAfter]
  exact pending_take (hnodup.sublist hsublist) k

/-- `saves` has two files for each `pending` function. -/
theorem length_saves (done : List Nat) (made : List Json)
    (hnodup : (entries.map Prod.snd).Nodup) :
    (saves answer ⟨Progress.indices done, made⟩ entries).length
      = 2 * (pending done entries).length := by
  induction entries generalizing done made with
  | nil => rfl
  | cons e entries ih =>
    obtain ⟨entry, i⟩ := e
    rw [map_cons, nodup_cons] at hnodup
    by_cases hi : i ∈ done
    · rw [saves_of_done (Progress.isDone_indices_of_mem hi made), pending_cons_of_mem hi,
        ih _ _ hnodup.2]
    · rw [saves_of_not_done (Progress.isDone_indices_of_not_mem hi made),
        pending_cons_of_not_mem hi, Progress.note_indices hi, length_cons, length_cons,
        ih _ _ hnodup.2, pending_orderedInsert hnodup.1, length_cons]
      omega

end Pending

namespace Paths.Holds

variable {paths : Paths} {dataset : Json} {done : List Nat} {made : List Json}
  {answer : Json → Option (Sample String)} {entries : List (Json × Nat)}

/-- What is stored when the work has written `n` files: a function is noted as done one file before
what came of it is stored. -/
theorem exec_saves (h : paths.Holds dataset done made w)
    (hanswer : ∀ entry sample, answer entry = some sample → sample.toJson.IsExact)
    (hnodup : (entries.map Prod.snd).Nodup)
    (hshort : ∀ i ∈ entries.map Prod.snd, i < 10 ^ Text.maxIntegerDigits) (n : Nat) :
    ∃ v, (((saves answer ⟨Progress.indices done, made⟩ entries).take n).forM paths.save).exec w
        = (.ok (), v) ∧
      paths.Holds dataset (doneAfter done ((pending done entries).take ((n + 1) / 2)))
        (made ++ madeOf answer ((pending done entries).take (n / 2))) v ∧
      v.outside = w.outside := by
  induction entries generalizing done made n w with
  | nil =>
    refine ⟨w, ?_, ?_, rfl⟩
    · rw [show saves answer _ [] = [] from rfl, take_nil]
      rfl
    · simpa [pending, doneAfter, madeOf] using h
  | cons e entries ih =>
    obtain ⟨entry, i⟩ := e
    rw [map_cons, nodup_cons] at hnodup
    have hshort' := (forall_mem_cons.1 hshort).2
    by_cases hi : i ∈ done
    · rw [saves_of_done (Progress.isDone_indices_of_mem hi made), pending_cons_of_mem hi]
      exact ih h hnodup.2 hshort' n
    · rw [saves_of_not_done (Progress.isDone_indices_of_not_mem hi made),
        pending_cons_of_not_mem hi, Progress.note_indices hi]
      have hsorted := Progress.pairwise_orderedInsert h.sorted hi
      have hbound : ∀ j ∈ done.orderedInsert (· ≤ ·) i, j < 10 ^ Text.maxIntegerDigits := by
        intro j hj
        rcases (mem_orderedInsert _).1 hj with rfl | hj
        · exact hshort j mem_cons_self
        · exact h.short j hj
      have hmade : ∀ j ∈ made ++ ((answer entry).map toJson).toList, j.IsExact := by
        intro j hj
        rcases mem_append.1 hj with hj | hj
        · exact h.isExact j hj
        · obtain ⟨sample, hsample, rfl⟩ := Option.map_eq_some_iff.1 (Option.mem_toList.1 hj)
          exact hanswer entry sample hsample
      obtain ⟨v₁, hcheckpoint, h₁, houtside₁⟩ := h.exec_save_checkpoint hsorted hbound
      obtain ⟨v₂, hresults, h₂, houtside₂⟩ := h₁.exec_save_results hmade
      -- killed before the first file, between the two, or after both
      rcases n with _ | _ | n
      · refine ⟨w, rfl, ?_, rfl⟩
        simpa [doneAfter, madeOf] using h
      · refine ⟨v₁, exec_bind_ok _ hcheckpoint, ?_, houtside₁⟩
        simpa [doneAfter, madeOf] using h₁
      · have hhalves : (n + 1 + 1 + 1) / 2 = (n + 1) / 2 + 1 ∧ (n + 1 + 1) / 2 = n / 2 + 1 := by
          omega
        obtain ⟨v, hsaves, hv, houtside⟩ := ih h₂ hnodup.2 hshort' n
        rw [pending_orderedInsert hnodup.1] at hv
        refine ⟨v, ?_, ?_, houtside.trans (houtside₂.trans houtside₁)⟩
        · exact (exec_bind_ok _ hcheckpoint).trans ((exec_bind_ok _ hresults).trans hsaves)
        · rw [hhalves.1, hhalves.2, take_succ_cons, take_succ_cons, madeOf_cons, ← append_assoc]
          exact hv

end Paths.Holds

/-! ## Whole runs -/

theorem nodup_snd_zipIdx {α : Type} (l : List α) : (l.zipIdx.map Prod.snd).Nodup := by
  rw [zipIdx_map_snd]
  exact nodup_range'

def storing (paths : Paths) (saves : List Save) : Run Unit := do
  modifyOutside fun o => { o with isLate := false }
  saves.forM paths.save

namespace Paths.Holds

variable {paths : Paths} {dataset : Json} {done : List Nat} {made : List Json}

theorem withOutside (h : paths.Holds dataset done made w) (o : Outside) :
    paths.Holds dataset done made { w with outside := o } where
  leadTo := by
    obtain ⟨input, checkpoint, output, hpaths⟩ := h.leadTo
    have hpath : ∀ {path : String} {p : Place}, w.IsFilePath path p →
        Workspace.IsFilePath { w with outside := o } path p := fun hp =>
      ⟨hp.resolve_eq, hp.isDir_eq, hp.endsWith_eq, hp.isProper_last⟩
    exact ⟨input, checkpoint, output, hpath hpaths.input_path, hpath hpaths.checkpoint_path,
      hpath hpaths.output_path, hpaths.input_ne_checkpoint, hpaths.input_ne_output,
      hpaths.checkpoint_ne_output⟩
  readJson_eq := by
    rw [looksAt_readJson paths.input { w with outside := o } w rfl, h.readJson_eq]
  load_eq := by
    obtain ⟨hcheckpoint, hresults⟩ := load_eq_iff.1 h.load_eq
    refine load_eq_iff.2 ⟨?_, ?_⟩
    · rw [looksAt_readOr paths.checkpoint _ { w with outside := o } w rfl, hcheckpoint]
    · rw [looksAt_readOr paths.output _ { w with outside := o } w rfl, hresults]
  sorted := h.sorted
  short := h.short
  isExact := h.isExact

variable {reply : String → Except Fault Json} {draw : Draw String}
  (hdraw : ∀ n names, draw.pick n names ⊆ names)
  (hreply : ∀ question text, reply question = .ok (.str text) → encodeFault? text = none)
  {entries : List Json} (hcount : entries.length ≤ 10 ^ Text.maxIntegerDigits)

include hdraw hreply hcount

/-- What is stored after `n` files, from a workspace that runs left. -/
theorem exec_storing (h : paths.Holds dataset done made w) (limit : Int) (n : Nat) :
    ∃ v, (storing paths ((saves (sampleIn (answering reply) limit draw w)
        ⟨Progress.indices done, made⟩ entries.zipIdx).take n)).exec w = (.ok (), v) ∧
      paths.Holds dataset (doneAfter done ((pending done entries.zipIdx).take ((n + 1) / 2)))
        (made ++ madeOf (sampleIn (answering reply) limit draw w)
          ((pending done entries.zipIdx).take (n / 2))) v ∧
      drawnIn v = drawnIn w := by
  have hshort : ∀ i ∈ entries.zipIdx.map Prod.snd, i < 10 ^ Text.maxIntegerDigits := by
    intro i hi
    rw [zipIdx_map_snd, mem_range'_1] at hi
    omega
  obtain ⟨v, hsaves, hv, houtside⟩ := (h.withOutside { w.outside with isLate := false }).exec_saves
    (fun entry sample => isExact_of_sampleIn hdraw hreply) (nodup_snd_zipIdx entries) hshort n
  refine ⟨v, (exec_bind_ok _ (exec_modifyOutside _ w)).trans hsaves, hv, ?_⟩
  rw [drawnIn, houtside]
  rfl

/-- `process` stores what `work` stores. -/
theorem exec_process (h : paths.Holds dataset done made w) (hentries : dataset.each = .ok entries)
    (limit : Int) (timeout : Float) :
    ∃ u, (process paths (answering reply) limit timeout draw).exec w = (.ok (), u) ∧
      (storing paths (saves (sampleIn (answering reply) limit draw w)
        ⟨Progress.indices done, made⟩ entries.zipIdx)).exec w = (.ok (), u) ∧
      paths.Holds dataset (doneAfter done (pending done entries.zipIdx))
        (made ++ madeOf (sampleIn (answering reply) limit draw w)
          (pending done entries.zipIdx)) u := by
  have hlength := length_saves (sampleIn (answering reply) limit draw w) done made
    (nodup_snd_zipIdx entries)
  obtain ⟨u, hstoring, hu, -⟩ :=
    h.exec_storing hdraw hreply hcount limit (2 * (pending done entries.zipIdx).length)
  have hhalves : (2 * (pending done entries.zipIdx).length + 1) / 2
      = (pending done entries.zipIdx).length ∧ 2 * (pending done entries.zipIdx).length / 2
        = (pending done entries.zipIdx).length := by omega
  rw [take_of_length_le (by omega)] at hstoring
  rw [hhalves.1, hhalves.2, take_length] at hu
  refine ⟨u, ?_, hstoring, hu⟩
  -- while nothing is late, asking gives the sample and changes nothing
  have hlate := exec_modifyOutside (fun o => { o with isLate := false }) w
  have hask : ∀ v : Workspace, v.outside.isLate = false ∧ drawnIn v = drawnIn w → ∀ entry,
      (inTime timeout (sampleOf? (answering reply) limit entry draw)).exec v
        = (.ok (sampleIn (answering reply) limit draw w entry), v) := by
    intro v hv entry
    rw [inTime, exec_bind_ok _ (exec_sampleOf? hv.2 limit entry), exec_bind_ok _ (exec_get v), hv.1]
    rfl
  have hsave : ∀ s, Keeps (fun v => v.outside.isLate = false ∧ drawnIn v = drawnIn w)
      (paths.save s) := by
    have hwrite := keeps_outside_writeJson fun o => o.isLate = false ∧ o.drawn = drawnIn w
    intro s
    cases s with
    | checkpoint processed => exact hwrite _ _
    | results items => exact hwrite _ _
  obtain ⟨q, hwork⟩ := exec_work hask hsave
    (v := { w with outside := { w.outside with isLate := false } }) ⟨rfl, rfl⟩ hstoring
  obtain ⟨count, hdataset⟩ : ∃ count, dataset.length = .ok count := by
    cases dataset with
    | arr items => exact ⟨_, rfl⟩
    | obj members => exact ⟨_, rfl⟩
    | str text => exact ⟨_, rfl⟩
    | _ => cases hentries
  have hprocessed : (do setOf (← (checkpointJson (done.map fun i : Nat => .int i)).member
      "processed")) = .ok (Progress.indices done) := by
    have hset := Progress.setOf_indices (h.sorted.imp ne_of_lt)
    rw [Progress.map_toJson_indices] at hset
    exact hset
  rw [process, exec_bind_ok _ h.readJson_eq, hdataset, exec_bind_ok _ (exec_lift _ w),
    exec_bind_ok _ h.load_eq]
  dsimp only
  rw [hprocessed, exec_bind_ok _ (exec_lift _ w), hentries,
    exec_bind_ok _ (exec_lift _ w), exec_bind_ok _ hlate,
    Progress.sort_indices h.sorted, resume, exec_bind_ok _ hwork]
  rfl

end Paths.Holds

theorem mem_doneAfter_pending {done : List Nat} {entries : List Json} {i : Nat} :
    i ∈ doneAfter done (pending done entries.zipIdx) ↔ i ∈ done ∨ i < entries.length := by
  rw [mem_doneAfter]
  constructor
  · rintro (hi | hi)
    · exact .inl hi
    · have hmem := (filter_sublist.map Prod.snd).mem hi
      rw [zipIdx_map_snd, mem_range'_1] at hmem
      exact .inr (by omega)
  · rintro (hi | hi)
    · exact .inl hi
    · by_cases hdone : i ∈ done
      · exact .inl hdone
      · refine .inr (mem_map.2 ⟨(entries[i], i), mem_filter.2 ⟨?_, ?_⟩, rfl⟩)
        · exact mem_zipIdx_iff_getElem?.2 (getElem?_eq_getElem hi)
        · simpa using hdone

/-- What is stored by two runs of which the first was killed after `n` files. -/
theorem madeOf_take_drop (answer : Json → Option (Sample String)) (todo : List (Json × Nat))
    (n : Nat) :
    madeOf answer (todo.take (n / 2)) ++ madeOf answer (todo.drop ((n + 1) / 2))
      = madeOf answer (if n % 2 = 0 then todo else todo.eraseIdx (n / 2)) := by
  rw [madeOf, madeOf, ← filterMap_append, ← madeOf]
  by_cases heven : n % 2 = 0
  · have hhalf : (n + 1) / 2 = n / 2 := by omega
    rw [if_pos heven, hhalf, take_append_drop]
  · have hhalf : (n + 1) / 2 = n / 2 + 1 := by omega
    rw [if_neg heven, hhalf, eraseIdx_eq_take_drop_succ]

/-- `process`, killed after it has written `n` files and started again, ends as if it was never
killed, but for one function: if the run was killed after that function was noted as done and before
what came of it was stored, this is lost. -/
theorem process_after_kill {paths : Paths} {dataset : Json} {entries : List Json}
    {done : List Nat} {made : List Json} {w : Workspace} {reply : String → Except Fault Json}
    {draw : Draw String} (hdraw : ∀ n names, draw.pick n names ⊆ names)
    (hw : paths.Holds dataset done made w) (hentries : dataset.each = .ok entries)
    (hcount : entries.length ≤ 10 ^ Text.maxIntegerDigits)
    (hreply : ∀ question text, reply question = .ok (.str text) →
      Text.Utf8.encodeFault? text = none) (limit : Int) (timeout : Float) :
    ∃ (processed : List Nat) (u : Workspace), processed.Pairwise (· < ·) ∧
      (∀ i, i ∈ processed ↔ i ∈ done ∨ i < entries.length) ∧
      (process paths (answering reply) limit timeout draw).exec w = (.ok (), u) ∧
      (storing paths (saves (sampleIn (answering reply) limit draw w)
        ⟨Progress.indices done, made⟩ entries.zipIdx)).exec w = (.ok (), u) ∧
      paths.load.exec u = (.ok (checkpointJson (processed.map fun i : Nat => .int i),
        .arr (made ++ madeOf (sampleIn (answering reply) limit draw w)
          (pending done entries.zipIdx))), u) ∧
      ∀ n, ∃ v u',
        (storing paths ((saves (sampleIn (answering reply) limit draw w)
          ⟨Progress.indices done, made⟩ entries.zipIdx).take n)).exec w = (.ok (), v) ∧
        (process paths (answering reply) limit timeout draw).exec v = (.ok (), u') ∧
        paths.load.exec u' = (.ok (checkpointJson (processed.map fun i : Nat => .int i),
          .arr (made ++ madeOf (sampleIn (answering reply) limit draw w)
            (if n % 2 = 0 then pending done entries.zipIdx
              else (pending done entries.zipIdx).eraseIdx (n / 2)))), u') := by
  obtain ⟨u, hprocess, hstoring, hu⟩ := hw.exec_process hdraw hreply hcount hentries limit timeout
  refine ⟨_, u, hu.sorted, fun i => mem_doneAfter_pending, hprocess, hstoring, hu.load_eq, ?_⟩
  intro n
  obtain ⟨v, hkilled, hv, hdrawn⟩ := hw.exec_storing hdraw hreply hcount limit n
  obtain ⟨u', hrestart, -, hu'⟩ := hv.exec_process hdraw hreply hcount hentries limit timeout
  refine ⟨v, u', hkilled, hrestart, ?_⟩
  -- the functions that are left when the run is started again
  have htodo := pending_doneAfter_take done (nodup_snd_zipIdx entries) ((n + 1) / 2)
  have hanswer : sampleIn (answering reply) limit draw v
      = sampleIn (answering reply) limit draw w := by
    funext entry
    rw [sampleIn, looksAt_sampleOf reply draw limit entry v w hdrawn]
    rfl
  have hload := hu'.load_eq
  rw [htodo, hanswer, ← doneAfter_append, List.take_append_drop, List.append_assoc,
    madeOf_take_drop] at hload
  exact hload

def twoFunctions : Json := .arr [.obj [("code", .str "a")], .obj [("code", .str "b")]]

/-- A workspace where none of `twoFunctions` is done. -/
def freshWorkspace : Workspace where
  tree := ⟨[(["src.json"], .file (.text (twoFunctions.pretty 0)))]⟩

/-- Where the work on `twoFunctions` is stored. -/
def freshPaths : Paths := ⟨"src.json", "done.json", "out.json"⟩

theorem isExact_twoFunctions : twoFunctions.IsExact := by
  have hwrite : ∀ name ∈ ["code", "a", "b"], encodeFault? name = none := by decide
  have hname : ∀ name ∈ ["code", "a", "b"], ∀ c ∈ name.toList, Text.isHalf c = false :=
    fun name hname => encodeFault?_eq_none_iff.1 (hwrite name hname)
  have hentry : ∀ code ∈ ["a", "b"], (Json.obj [("code", .str code)]).IsExact := fun code hcode =>
    .obj (nodup_singleton _) (forall_mem_singleton.2 (hname _ mem_cons_self))
      (forall_mem_singleton.2 (.str (hname _ (mem_cons_of_mem _ hcode))))
  exact .arr (forall_mem_cons.2 ⟨hentry "a" (by decide),
    forall_mem_singleton.2 (hentry "b" (by decide))⟩)

theorem isFilePath_freshWorkspace : ∀ name ∈ ["src.json", "done.json", "out.json"],
    freshWorkspace.IsFilePath name [name] := by
  intro name hname
  simp only [mem_cons, not_mem_nil, or_false] at hname
  rcases hname with rfl | rfl | rfl
  · exact ⟨rfl, rfl, by decide, [], "src.json", by decide, by decide⟩
  · exact ⟨rfl, rfl, by decide, [], "done.json", by decide, by decide⟩
  · exact ⟨rfl, rfl, by decide, [], "out.json", by decide, by decide⟩

theorem holds_freshWorkspace : freshPaths.Holds twoFunctions [] [] freshWorkspace where
  leadTo := ⟨["src.json"], ["done.json"], ["out.json"], isFilePath_freshWorkspace _ (by decide),
    isFilePath_freshWorkspace _ (by decide), isFilePath_freshWorkspace _ (by decide), by decide,
    by decide, by decide⟩
  readJson_eq := exec_readJson_pretty (isFilePath_freshWorkspace _ (by decide))
    isExact_twoFunctions rfl
  load_eq := Paths.load_eq_iff.2
    ⟨exec_readOr_of_none (isFilePath_freshWorkspace _ (by decide)) rfl _,
      exec_readOr_of_none (isFilePath_freshWorkspace _ (by decide)) rfl _⟩
  sorted := .nil
  short := forall_mem_nil _
  isExact := forall_mem_nil _

/-- One answer to all questions. -/
def oneReply (_ : String) : Except Fault Json := .ok (.str "c")

/-- What becomes of any function with `oneReply`. -/
def oneSample : Sample String := ⟨.str "c", ["Broadcasting Feature Not Used"]⟩

theorem process_after_kill_freshWorkspace :
    freshPaths.Holds twoFunctions [] [] freshWorkspace ∧
    ∃ (processed : List Nat) (u v u' : Workspace), (∀ i, i ∈ processed ↔ i ∈ [] ∨ i < 2) ∧
      (process freshPaths (answering oneReply) 1 120).exec freshWorkspace = (.ok (), u) ∧
      freshPaths.load.exec u = (.ok (checkpointJson (processed.map fun i : Nat => .int i),
        .arr [oneSample.toJson, oneSample.toJson]), u) ∧
      (storing freshPaths [.checkpoint [.int 0]]).exec freshWorkspace = (.ok (), v) ∧
      (process freshPaths (answering oneReply) 1 120).exec v = (.ok (), u') ∧
      freshPaths.load.exec u' = (.ok (checkpointJson (processed.map fun i : Nat => .int i),
        .arr [oneSample.toJson]), u') := by
  have hreply : ∀ question text, oneReply question = .ok (.str text) →
      Text.Utf8.encodeFault? text = none := by
    intro question text htext
    cases htext
    decide
  have hdraw : ∀ n (names : List String), Draw.first.pick n names ⊆ names :=
    fun _ _ => take_subset _ _
  have hcount : 2 ≤ 10 ^ Text.maxIntegerDigits :=
    Nat.le_trans (by decide : 2 ≤ 10 ^ 1) (Nat.pow_le_pow_right (by decide) (by decide))
  obtain ⟨processed, u, -, hmem, hprocess, -, hload, hkill⟩ :=
    process_after_kill hdraw holds_freshWorkspace rfl hcount hreply 1 120
  obtain ⟨v, u', hkilled, hrestart, hload'⟩ := hkill 1
  exact ⟨holds_freshWorkspace, processed, u, v, u', hmem, hprocess, hload, hkilled, hrestart,
    hload'⟩

end Injection
end SmellLint
