import SmellLint.Dataset.Similarity
import SmellLint.Proofs.Lines.Shown
import SmellLint.Proofs.Project.Inspecting
import SmellLint.Proofs.Workspace.TempFiles

/-!
# Judging whether code parses

Entries of a dataset are sorted by whether what is left of their code parses once it has been
stripped (`split_of_entries`).  Nothing but that decides.  Code that nothing is taken out of keeps
its verdict; a function whose body is a text that describes it does not.
-/

namespace SmellLint

open Syntax (Node endLine tokens?)
open List Path Run Text

/-! ## Texts that differ in the end of the last line -/

namespace Syntax

theorem any_endLine {p : Char → Bool} (h : p '\n' = false) (cs : List Char) :
    (endLine cs).any p = cs.any p := by
  rw [endLine]
  split_ifs <;> simp [h]

/-- `Node.ofChars?` does not depend on the end of the last line. -/
theorem Node.ofChars?_eq {cs ds : List Char} (h : endLine cs = endLine ds) (hreturn : '\r' ∉ cs) :
    '\r' ∉ ds ∧ Node.ofChars? cs = Node.ofChars? ds := by
  have hany : ∀ p : Char → Bool, p '\n' = false → cs.any p = ds.any p := fun p hp => by
    rw [← any_endLine hp cs, h, any_endLine hp]
  have hreturn' : '\r' ∉ ds := by
    rwa [← contains_iff_mem, contains_eq_any_beq, ← hany _ rfl, ← contains_eq_any_beq,
      contains_iff_mem]
  simp only [Node.ofChars?, tokens?, lexerText_eq, unifyNewlineChars_of_not_mem hreturn,
    unifyNewlineChars_of_not_mem hreturn', h, List.contains_eq_any_beq, hany isHalf (by decide),
    hany ('\x00' == ·) rfl]
  exact ⟨hreturn', trivial⟩

end Syntax

namespace Text

theorem splitAtFirst?_eq_none {needle cs : List Char} (h : occursIn needle cs = false) :
    splitAtFirst? needle cs = none := by
  induction cs with
  | nil => simpa [occursIn, splitAtFirst?] using h
  | cons c r ih =>
    obtain ⟨hstart, hrest⟩ := Bool.or_eq_false_iff.1 h
    rw [splitAtFirst?, Option.isNone_iff_eq_none.1 (Option.isSome_eq_false_iff.1 hstart), ih hrest]
    rfl

/-- Without other line breaks than `\n`, and with no empty line after the first, the lines make up
the text but for the end of the last one. -/
theorem endLine_intercalate_displayLineChars {cs : List Char}
    (hbreaks : ∀ c ∈ cs, isLineBreak c = true → c = '\n')
    (hlines : ∀ line ∈ (displayLineChars cs).tail, line ≠ []) :
    endLine (['\n'].intercalate (displayLineChars cs)) = endLine cs := by
  induction cs with
  | nil => rfl
  | cons c r ih =>
    obtain ⟨hc, hr⟩ := forall_mem_cons.1 hbreaks
    have hreturn : ∀ c, (isLineBreak c = true → c = '\n') → c ≠ '\r' := by
      rintro _ hc rfl
      exact absurd (hc rfl) (by decide)
    rw [displayLineChars_cons (hreturn c hc)] at hlines ⊢
    cases hrest : displayLineChars r with
    | nil =>
      obtain rfl : r = [] := by
        by_contra hne
        exact displayLineChars_ne_nil hne (fun hmem => hreturn _ (hr _ hmem) rfl) hrest
      split_ifs with hbreak
      · rw [hc hbreak]
        rfl
      · rfl
    | cons line lines =>
      have hne : r ≠ [] := by
        rintro rfl
        cases hrest
      rw [hrest] at hlines ih
      rw [Syntax.endLine_cons fun _ => hne]
      split_ifs at hlines ⊢ with hbreak
      · -- the break ends a line only because the next one is not empty
        obtain ⟨hline, hlines⟩ := forall_mem_cons.1 hlines
        rw [← ih hr hlines, hc hbreak]
        refine Syntax.endLine_cons fun _ hnil => hline ?_
        cases lines <;> simp_all [intercalate]
      · have hc : c ≠ '\n' := by
          rintro rfl
          exact hbreak rfl
        rw [← ih hr hlines, ← Syntax.endLine_cons fun h => absurd h hc]
        cases lines <;> rfl

end Text

namespace Similarity

variable {cs mark : List Char} {text : String}

theorem withoutRemarks_eq_self (h : '#' ∉ cs) : withoutRemarks false cs = cs := by
  induction cs with
  | nil => rfl
  | cons c r ih =>
    rw [mem_cons, not_or] at h
    simp [withoutRemarks, ih h.2, Ne.symm h.1]

theorem withoutMarked_eq_self (h : occursIn mark cs = false) (fuel : Nat) :
    withoutMarked mark fuel cs = cs := by
  cases fuel with
  | zero => rfl
  | succ fuel => rw [withoutMarked, splitAtFirst?_eq_none h]

theorem codeBlocks_eq_nil (h : occursIn "```python".toList cs = false) (fuel : Nat) :
    codeBlocks fuel cs = [] := by
  cases fuel with
  | zero => rfl
  | succ fuel => rw [codeBlocks, splitAtFirst?_eq_none h]

/-- Nothing is taken out of `text`: it has no blocks, remarks, texts in triple quotes and blank
lines, and no line breaks but `\n`. -/
structure IsBare (text : String) : Prop where
  noBlock : Text.contains text "```python" = false
  noRemark : '#' ∉ text.toList
  noQuotes : ∀ mark ∈ ["'''", "\"\"\""], Text.contains text mark = false
  breaks : ∀ c ∈ text.toList, isLineBreak c = true → c = '\n'
  lines : ∀ line ∈ displayLines text, isBlankText line = false

theorem IsBare.judgedCode_eq (h : IsBare text) :
    judgedCode text = "\n".intercalate (displayLines text) := by
  rw [judgedCode, codeBlocks_eq_nil h.noBlock]
  dsimp only
  rw [withoutRemarks_eq_self h.noRemark,
    withoutMarked_eq_self (h.noQuotes _ mem_cons_self),
    withoutMarked_eq_self (h.noQuotes _ (mem_cons_of_mem _ mem_cons_self)), String.ofList_toList,
    filter_eq_self.2 fun line hline => by rw [h.lines line hline]; rfl]

/-- `judgedCode` of a bare text is the same program. -/
theorem IsBare.ofSource?_judgedCode (h : IsBare text) :
    Node.ofSource? (unifyNewlines (judgedCode text)) = Node.ofSource? text := by
  have hlines : ∀ line ∈ (displayLineChars text.toList).tail, line ≠ [] := by
    rintro _ hmem rfl
    cases h.lines _ (mem_map_of_mem (mem_of_mem_tail hmem))
  have hjudged : (judgedCode text).toList = ['\n'].intercalate (displayLineChars text.toList) := by
    rw [h.judgedCode_eq, String.toList_intercalate, displayLines, map_map]
    simp [Function.comp_def]
  have hend := endLine_intercalate_displayLineChars h.breaks hlines
  have hreturn : '\r' ∉ text.toList := fun hmem => absurd (h.breaks _ hmem rfl) (by decide)
  obtain ⟨hreturn', heq⟩ := Syntax.Node.ofChars?_eq hend.symm hreturn
  rw [← hjudged] at hreturn' heq
  rw [unifyNewlines, unifyNewlineChars_of_not_mem hreturn', String.ofList_toList]
  exact heq.symm

/-! ## Sorting entries -/

namespace Judgement

variable {w : Workspace} {dir : Place} (j : Judgement) (hw : w.Sound)
  (hfree : w.IsFree tempDir "temp_code.py" dir)
include hw hfree

/-- `isProgram` judges `text` by way of a file, which is taken away again. -/
theorem exec_isProgram (hcode : Text.Utf8.encodeFault? (judgedCode text) = none) :
    ∃ printed, (j.isProgram text).exec w
      = (.ok (Node.ofSource? (unifyNewlines (judgedCode text))).isSome, { w with printed }) := by
  have hwrite := hfree.exec_writeText (judgedCode text)
  rw [hcode] at hwrite
  obtain ⟨printed, hinspect⟩ := Analyzer.exec_inspect_of_read { output := j.output }
    (hfree.exec_readText (judgedCode text) hw)
  have hremove := hfree.exec_remove (judgedCode text) hw printed
  refine ⟨printed, ?_⟩
  rw [isProgram, exec_bind_ok _ hwrite, exec_bind_ok _ (exec_outcome_of hinspect)]
  cases htree : Node.ofSource? (unifyNewlines (judgedCode text)) with
  | none =>
    rw [Inspection.ofFile, Inspection.ofSource, htree]
    exact exec_bind_ok _ hremove
  | some tree =>
    obtain ⟨known, -, hresult⟩ := Inspection.exists_result_ofSource_shipped
      (Path.join tempDir "temp_code.py") htree
    rw [Inspection.ofFile, hresult]
    exact exec_bind_ok _ hremove

variable {code : Json → String} {entries : List Json}

/-- Whether the code of `entry` parses once it has been stripped, written to a file and read again.
-/
def isValid (code : Json → String) (entry : Json) : Bool :=
  (Node.ofSource? (unifyNewlines (judgedCode (code entry)))).isSome

/-- `sortEntry` puts `entry` on the side that it belongs to. -/
theorem exec_sortEntry {entry : Json} (hmember : entry.member "code" = .ok (.str (code entry)))
    (hcode : Text.Utf8.encodeFault? (judgedCode (code entry)) = none)
    (parts : List Json × List Json) :
    ∃ printed, (j.sortEntry parts entry).exec w = (.ok
      (parts.1 ++ [entry].filter (isValid code), parts.2 ++ [entry].filter (!isValid code ·)),
      { w with printed }) := by
  obtain ⟨printed, hexec⟩ := j.exec_isProgram hw hfree hcode
  have hlift : (lift (do (← entry.member "code").text)).exec w = (.ok (code entry), w) := by
    rw [hmember]
    rfl
  refine ⟨printed, ?_⟩
  rw [sortEntry, exec_bind_ok _ hlift, exec_bind_ok _ hexec, ← isValid]
  cases hvalid : isValid code entry <;> simp [hvalid, exec_pure]

variable (hentries : ∀ entry ∈ entries, entry.member "code" = .ok (.str (code entry)) ∧
  Text.Utf8.encodeFault? (judgedCode (code entry)) = none)
include hentries

/-- `sortEntry` goes through all `entries` and keeps their order. -/
theorem exec_foldlM_sortEntry (parts : List Json × List Json) :
    ∃ printed, (entries.foldlM j.sortEntry parts).exec w = (.ok
      (parts.1 ++ entries.filter (isValid code), parts.2 ++ entries.filter (!isValid code ·)),
      { w with printed }) := by
  induction entries generalizing w parts with
  | nil => exact ⟨w.printed, by simp [exec_pure]⟩
  | cons entry entries ih =>
    obtain ⟨⟨hmember, hcode⟩, hrest⟩ := forall_mem_cons.1 hentries
    obtain ⟨printed, hentry⟩ := j.exec_sortEntry hw hfree hmember hcode parts
    -- what is printed matters neither to the soundness of the workspace nor to the free place
    obtain ⟨printed', hexec⟩ := @ih { w with printed } ⟨hw.tree, hw.isAbsolute, hw.lookup_place⟩
      ⟨hfree.find_base, hfree.isName, hfree.lookup_eq⟩ hrest _
    rw [foldlM_cons, exec_bind_ok _ hentry, hexec, append_assoc, append_assoc, ← filter_append,
      ← filter_append]
    exact ⟨printed', rfl⟩

/-- `split` sorts `entries` by whether what is left of their code is a program (`isValid`), and
nothing else comes of it.  Code that nothing is taken out of (`IsBare`) counts as what it is. -/
theorem split_of_entries (hdataset : j.dataset = .arr entries) :
    (∃ printed, j.split.exec w = (.ok
      (entries.filter (isValid code), entries.filter (!isValid code ·)), { w with printed })) ∧
    ∀ entry ∈ entries, IsBare (code entry) →
      isValid code entry = (Node.ofSource? (code entry)).isSome := by
  refine ⟨?_, fun entry _ hbare => by rw [isValid, hbare.ofSource?_judgedCode]⟩
  obtain ⟨printed, hexec⟩ := j.exec_foldlM_sortEntry hw hfree hentries ([], [])
  refine ⟨printed, ?_⟩
  rw [split, hdataset]
  exact hexec

omit hw hfree hentries

/-- A workspace with nothing but the directory for code that is being judged. -/
def onlyTempFiles : Workspace where
  tree := ⟨[([tempDir], .dir)]⟩

/-- Two functions: one with a name for its body, and one with a text that describes it.  Both are
programs, but nothing is left of the body of the second. -/
theorem split_of_entries_described :
    let codes := ["def f():\n  x\n", "def f():\n  \"\"\"x\"\"\"\n"]
    let entry (code : String) : Json := .obj [("code", .str code)]
    (∀ code ∈ codes, (Node.ofSource? code).isSome = true) ∧
      ∃ printed, (split ⟨.arr (codes.map entry), "out"⟩).exec onlyTempFiles
        = (.ok ((codes.take 1).map entry, (codes.drop 1).map entry),
          { onlyTempFiles with printed }) := by
  intro codes entry
  let code (entry : Json) : String := ((entry.get? "code").bind Json.str?).getD ""
  have hprograms : ∀ code ∈ codes, (Node.ofSource? code).isSome = true := by decide +kernel
  have hw : onlyTempFiles.Sound := ⟨by decide +kernel, by decide, rfl⟩
  have hfree : onlyTempFiles.IsFree tempDir "temp_code.py" [tempDir] := ⟨rfl, by decide, rfl⟩
  have hencodable : ∀ code ∈ codes, Text.Utf8.encodeFault? (judgedCode code) = none := by
    decide +kernel
  have hbare : IsBare "def f():\n  x\n" :=
    ⟨by decide +kernel, by decide, by decide +kernel,
      @of_decide_eq_true _ (decidableBAll _ _) rfl, by decide +kernel⟩
  have hentries : ∀ e ∈ codes.map entry, e.member "code" = .ok (.str (code e)) ∧
      Text.Utf8.encodeFault? (judgedCode (code e)) = none := by
    intro e he
    obtain ⟨c, hc, rfl⟩ := mem_map.1 he
    exact ⟨rfl, hencodable c hc⟩
  obtain ⟨⟨printed, hexec⟩, hvalid⟩ :=
    split_of_entries ⟨.arr (codes.map entry), "out"⟩ hw hfree hentries rfl
  refine ⟨hprograms, printed, hexec.trans ?_⟩
  have hfirst : isValid code (entry "def f():\n  x\n") = true :=
    (hvalid _ mem_cons_self hbare).trans (hprograms _ mem_cons_self)
  have hsecond : isValid code (entry "def f():\n  \"\"\"x\"\"\"\n") = false := by decide +kernel
  simp only [codes, map_cons, filter_cons, hfirst, hsecond]
  rfl

end Judgement
end Similarity
end SmellLint
