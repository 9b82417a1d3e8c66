import SmellLint.Proofs.CallGraph.Sound
import SmellLint.Proofs.FileRules

/-!
# Lines that are shown

A program is counted in lines that end at `\n`, a call graph shows these lines, but three rules
quote lines that are cut at every line break.  The two ways of cutting agree as long as no other
break has come (`Text.take_displayLines_eq_iff`), and from there on a rule quotes a line further up
than the one whose number it reports (`Inspection.quotes_of_source`).
-/

namespace SmellLint

open Syntax (Node)
open Syntax.Node Smell Text List

namespace Text

/-! ## Cutting at line breaks and at ends of lines -/

/-- No line break but `\n` stands in the first `k` lines of `s`. -/
def PlainTo (s : String) (k : Nat) : Prop :=
  ∀ line ∈ (splitOn '\n' s).take k, ∀ c ∈ line.toList, isLineBreak c = false

theorem displayLineChars_cons {c : Char} (hc : c ≠ '\r') (r : List Char) :
    displayLineChars (c :: r) =
      if isLineBreak c then [] :: displayLineChars r
      else
        match displayLineChars r with
        | [] => [[c]]
        | line :: lines => (c :: line) :: lines := by
  by_cases hr : r = []
  · subst hr
    exact displayLineChars.eq_3 c fun _ h _ => hc h
  · cases hlines : displayLineChars r with
    | nil => rw [displayLineChars.eq_4 c r hr (fun _ h _ => hc h) hlines, hlines]
    | cons line lines =>
      rw [displayLineChars.eq_5 c r line lines hr (fun _ h _ => hc h) hlines, hlines]

variable {cs : List Char}

theorem displayLineChars_ne_nil (h : cs ≠ []) (hreturn : '\r' ∉ cs) : displayLineChars cs ≠ [] := by
  obtain ⟨c, r, rfl⟩ := exists_cons_of_ne_nil h
  rw [displayLineChars_cons (ne_of_not_mem_cons hreturn).symm]
  split
  · exact cons_ne_nil _ _
  · split <;> exact cons_ne_nil _ _

/-- The first `k` lines agree in the two ways of cutting exactly if there is one kind of line break
in them. -/
theorem take_displayLineChars_eq_iff (hreturn : '\r' ∉ cs) {k : Nat}
    (hk : k ≤ (linesKeepingEndChars cs).length) :
    (displayLineChars cs).take k = (splitChars (· == '\n') cs).take k ↔
      ∀ line ∈ (splitChars (· == '\n') cs).take k, ∀ c ∈ line, isLineBreak c = false := by
  induction cs generalizing k with
  | nil =>
    obtain rfl : k = 0 := Nat.le_zero.1 hk
    simp
  | cons c r ih =>
    cases k with
    | zero => simp
    | succ k =>
      have hc : c ≠ '\r' := (ne_of_not_mem_cons hreturn).symm
      have hr : '\r' ∉ r := not_mem_of_not_mem_cons hreturn
      obtain ⟨piece, pieces, hpieces, hsplit⟩ := splitChars_cons _ c r
      rw [hsplit, displayLineChars_cons hc]
      by_cases hend : c = '\n'
      · subst hend
        have hlen : k ≤ (linesKeepingEndChars r).length := by
          rw [linesKeepingEndChars, if_pos rfl, length_cons] at hk
          omega
        have hbreak : isLineBreak '\n' = true := by decide
        rw [if_pos hbreak, if_pos (beq_self_eq_true _), ← hpieces, take_succ_cons,
          take_succ_cons, cons.injEq, ih hr hlen]
        simp
      · have hkeep : ¬(c == '\n') = true := by simpa using hend
        rw [if_neg hkeep]
        by_cases hbreak : isLineBreak c = true
        · -- the line is cut at `c` in the one way and goes on in the other
          simp [hbreak]
        · rw [if_neg hbreak]
          by_cases hnil : r = []
          · subst hnil
            cases hpieces
            simpa [displayLineChars] using hbreak
          · obtain ⟨line, lines, hlines⟩ :=
              exists_cons_of_ne_nil (displayLineChars_ne_nil hnil hr)
            have hlen : k + 1 ≤ (linesKeepingEndChars r).length := by
              obtain ⟨kept, others, hkept⟩ :=
                exists_cons_of_ne_nil (linesKeepingEndChars_ne_nil hnil)
              rw [linesKeepingEndChars, if_neg hend, hkept] at hk
              rwa [hkept]
            have hrest := ih hr hlen
            rw [hlines, hpieces] at hrest
            rw [hlines]
            simp only [take_succ_cons, cons.injEq, true_and] at hrest ⊢
            rw [hrest]
            simp [hbreak]

theorem take_displayLines_eq_iff (raw : String) {k : Nat}
    (hk : k ≤ (linesKeepingEnds (unifyNewlines raw)).length) :
    (displayLines (unifyNewlines raw)).take k = (splitOn '\n' (unifyNewlines raw)).take k ↔
      PlainTo (unifyNewlines raw) k := by
  have hreturn : '\r' ∉ (unifyNewlines raw).toList := by
    rw [unifyNewlines, String.toList_ofList]
    exact not_mem_unifyNewlineChars _
  rw [linesKeepingEnds, length_map] at hk
  unfold PlainTo displayLines splitOn
  rw [← map_take, ← map_take, map_inj_right fun _ _ => String.ofList_injective,
    take_displayLineChars_eq_iff hreturn hk]
  simp only [forall_mem_map, String.toList_ofList]

/-- A line with its end is the line, or the line and `\n`. -/
theorem getElem?_linesKeepingEndChars {kept : List Char} {i : Nat}
    (h : (linesKeepingEndChars cs)[i]? = some kept) :
    ∃ line, (splitChars (· == '\n') cs)[i]? = some line ∧
      (kept = line ∨ kept = line ++ ['\n']) := by
  induction cs generalizing i kept with
  | nil => cases h
  | cons c r ih =>
    obtain ⟨piece, pieces, hpieces, hsplit⟩ := splitChars_cons _ c r
    rw [hsplit]
    rw [linesKeepingEndChars] at h
    by_cases hend : c = '\n'
    · subst hend
      rw [← hpieces]
      cases i with
      | zero => exact ⟨[], rfl, .inr (Option.some.inj h).symm⟩
      | succ i => exact ih h
    · rw [if_neg hend] at h
      rw [if_neg (by simpa using hend)]
      rw [hpieces] at ih
      split at h
      · next hnil =>
        obtain rfl : r = [] := Classical.byContradiction fun hr =>
          linesKeepingEndChars_ne_nil hr hnil
        cases hpieces
        cases i with
        | zero => exact ⟨[c], rfl, .inl (Option.some.inj h).symm⟩
        | succ i => cases h
      · next first others hlines =>
        rw [hlines] at ih
        cases i with
        | zero =>
          obtain rfl := Option.some.inj h
          obtain ⟨line, hline, hkept⟩ := @ih first 0 rfl
          obtain rfl := Option.some.inj hline
          exact ⟨c :: piece, rfl, hkept.imp (congrArg (c :: ·)) (congrArg (c :: ·))⟩
        | succ i => exact @ih kept (i + 1) h

/-- The line of `s` that a call graph shows is the line that is counted. -/
theorem getElem?_linesKeepingEnds {s kept : String} {i : Nat}
    (h : (linesKeepingEnds s)[i]? = some kept) :
    ∃ line, (splitOn '\n' s)[i]? = some line ∧ trim kept = trim line := by
  rw [linesKeepingEnds, getElem?_map] at h
  obtain ⟨cs, hcs, rfl⟩ := Option.map_eq_some_iff.1 h
  obtain ⟨line, hline, hkept⟩ := getElem?_linesKeepingEndChars hcs
  refine ⟨.ofList line, by rw [splitOn, getElem?_map, hline, Option.map_some], ?_⟩
  rcases hkept with rfl | rfl
  · rfl
  · rw [trim, trim, String.toList_ofList, String.toList_ofList, trimChars, trimChars,
      trimWith_append_singleton (by decide)]

end Text

/-! ## Rules that quote -/

theorem Syntax.Node.mem_walk_of_mem_walk {n m k : Node} (hm : m ∈ n.walk) (hk : k ∈ m.walk) :
    k ∈ n.walk := by
  rw [walk_perm_preorder _ |>.mem_iff] at *
  induction n using induction_children with
  | h n ih =>
    rw [preorder_eq] at hm ⊢
    rcases mem_cons.1 hm with rfl | hm
    · rwa [← preorder_eq]
    · obtain ⟨c, hc, hm⟩ := mem_flatMap.1 hm
      exact mem_cons_of_mem _ (mem_flatMap.2 ⟨c, hc, ih c hc hm⟩)

namespace Smell

/-- The rules whose rows end with a line of the program. -/
inductive QuotingRule where
  | frameConversion
  | gradients
  | matrixProduct
deriving DecidableEq

namespace QuotingRule

/-- The rule itself. -/
def rule : QuotingRule → Rule
  | .frameConversion => Smell.frameConversion
  | .gradients => Smell.gradients
  | .matrixProduct => Smell.matrixProduct

/-- What a rule says about `n` before it quotes the line. -/
def remark? (n : Node) : QuotingRule → Option String
  | .frameConversion => (valuesVariable? n).map fun id =>
    s!"Misuse of the 'values' attributedetected in variable '{id}'. Please consider" ++
      "using NumPy or explicit methods instead of `values` for DataFrame conversion. " ++
      "The function 'values' is deprecated and its return type is unclear. " ++ "Code: "
  | .gradients => (variableCall? n).map fun _ =>
    "`zero_grad()` not called before `backward()` in loop. " ++ "Code: "
  | .matrixProduct =>
    match n with
    | .call .. => some ("Detected misuse of `dot()` for matrix multiplication. " ++
        "Consider using `np.matmul` instead. Code: ")
    | _ => none

theorem rule_mem_rules (r : QuotingRule) : r.rule ∈ rules := by
  cases r <;> simp [rule, rules]

end QuotingRule

variable {findings : List Finding} {f : Finding} {facts : Facts} {n : Node}

theorem exists_of_mem_findAll {test : Node → Except Fault (Option Finding)} {nodes : List Node}
    (h : findAll test nodes = .ok findings) (hf : f ∈ findings) :
    ∃ m ∈ nodes, test m = .ok (some f) := by
  induction nodes generalizing findings with
  | nil =>
    cases h
    cases hf
  | cons m nodes ih =>
    obtain ⟨here, hhere, h⟩ := bind_eq_ok.1 h
    obtain ⟨rest, hrest, h⟩ := bind_eq_ok.1 h
    cases h
    rcases mem_append.1 hf with hf | hf
    · obtain rfl := Option.mem_toList.1 hf
      exact ⟨m, mem_cons_self, hhere⟩
    · obtain ⟨m', hm', htest⟩ := ih hrest hf
      exact ⟨m', mem_cons_of_mem _ hm', htest⟩

theorem exists_of_mem_unclearedLines {names : List String} {cleared : Bool} {nodes : List Node}
    {line : Nat} (h : line ∈ unclearedLines names cleared nodes) :
    ∃ m ∈ nodes, (variableCall? m).isSome ∧ m.line = line := by
  induction nodes generalizing cleared with
  | nil => cases h
  | cons m nodes ih =>
    have hrest : ∀ b, line ∈ unclearedLines names b nodes →
        ∃ m' ∈ m :: nodes, (variableCall? m').isSome ∧ m'.line = line := by
      intro b hb
      obtain ⟨m', hm', hcall⟩ := ih hb
      exact ⟨m', mem_cons_of_mem _ hm', hcall⟩
    rw [unclearedLines] at h
    split at h
    · next id attr hcall =>
      dsimp only at h
      split_ifs at h
      · rcases mem_cons.1 h with rfl | h
        · exact ⟨m, mem_cons_self, by rw [hcall]; rfl, rfl⟩
        · exact hrest _ h
      · exact hrest _ h
    · exact hrest _ h

theorem exists_of_whenImported {library : String} {detect : String → Except Fault (List Finding)}
    (h : whenImported library facts detect = .ok findings) (hf : f ∈ findings) :
    ∃ name, detect name = .ok findings := by
  obtain ⟨name?, -, h⟩ := bind_eq_ok.1 h
  cases name? with
  | none =>
    cases h
    cases hf
  | some name => exact ⟨name, h⟩

variable {r : QuotingRule}

/-- What `detect` of a quoting rule finds is a node, with what is said about it and the text of its
line. -/
theorem QuotingRule.exists_of_mem_detect (h : r.rule.detect n facts = .ok findings)
    (hf : f ∈ findings) :
    ∃ m ∈ n.walk, ∃ said, r.remark? m = some said ∧
      f = ⟨m.line, said ++ facts.lineText m.line⟩ := by
  cases r with
  | frameConversion =>
    obtain ⟨_, h⟩ := exists_of_whenImported h hf
    obtain ⟨m, hm, htest⟩ := exists_of_mem_findAll h hf
    refine ⟨m, hm, ?_⟩
    rw [remark?]
    split at htest
    · cases htest
    · next id hid =>
      obtain ⟨isFrame, -, htest⟩ := bind_eq_ok.1 htest
      rw [hid]
      split_ifs at htest
      · cases htest
        exact ⟨_, rfl, congrArg _ String.append_assoc.symm⟩
      · cases htest
  | gradients =>
    obtain ⟨_, h⟩ := exists_of_whenImported h hf
    obtain ⟨names, -, h⟩ := bind_eq_ok.1 h
    cases h
    obtain ⟨loop, hloop, hf⟩ := mem_flatMap.1 hf
    obtain ⟨line, hline, rfl⟩ := mem_map.1 hf
    obtain ⟨m, hm, hcall, rfl⟩ := exists_of_mem_unclearedLines hline
    refine ⟨m, Node.mem_walk_of_mem_walk (mem_filter.1 hloop).1 hm, ?_⟩
    obtain ⟨call, hcall⟩ := Option.isSome_iff_exists.1 hcall
    exact ⟨_, by rw [remark?, hcall]; rfl, congrArg _ String.append_assoc.symm⟩
  | matrixProduct =>
    obtain ⟨numpy, h⟩ := exists_of_whenImported h hf
    cases h
    obtain ⟨m, hm, rfl⟩ := mem_map.1 hf
    obtain ⟨hm, hdot⟩ := mem_filter.1 hm
    refine ⟨m, hm, ?_⟩
    unfold isMatrixDot at hdot
    split at hdot
    · exact ⟨_, rfl, congrArg _ String.append_assoc.symm⟩
    · cases hdot

/-- A node `n` that a quoting rule speaks of has a line. -/
theorem QuotingRule.line?_of_remark? {said : String} (h : r.remark? n = some said) :
    n.line? = some n.line := by
  cases r with
  | frameConversion =>
    obtain ⟨id, hid, -⟩ := Option.map_eq_some_iff.1 h
    unfold valuesVariable? at hid
    split at hid
    · rfl
    · cases hid
  | gradients =>
    obtain ⟨call, hcall, -⟩ := Option.map_eq_some_iff.1 h
    unfold variableCall? at hcall
    split at hcall
    · rfl
    · cases hcall
  | matrixProduct =>
    unfold remark? at h
    dsimp only at h
    split at h
    · rfl
    · cases h

/-- A `row` with the smell of a quoting rule is about a node, with what is said about it and the
text of its line. -/
theorem QuotingRule.exists_of_mem_check {filename functionName : String} {row : Row}
    (h : row ∈ (check filename functionName n facts).1) (hsmell : row.smell = r.rule.smell) :
    ∃ m ∈ n.walk, m.line? = some row.line ∧
      ∃ said, r.remark? m = some said ∧ row.info = said ++ facts.lineText row.line := by
  have hrow : row ∈ (r.rule.report filename functionName n facts).1 := by
    rw [← filter_check r.rule_mem_rules, mem_filter]
    exact ⟨h, by simp [hsmell]⟩
  unfold Rule.report at hrow
  split at hrow
  · next findings hfindings =>
    obtain ⟨f, hf, rfl⟩ := mem_map.1 hrow
    obtain ⟨m, hm, said, hsaid, rfl⟩ := exists_of_mem_detect hfindings hf
    exact ⟨m, hm, line?_of_remark? hsaid, said, hsaid, rfl⟩
  · cases hrow

end Smell

namespace Inspection

/-! ## Quoted lines -/

variable {tree n : Node} {k : Nat} {raw : String}

theorem lineText_of_mem_walk {source : String} (hn : n ∈ tree.walk) (hk : n.line? = some k)
    (catalogue : Catalogue) (libraries : LibraryMap) (known : FunctionFacts) :
    (facts catalogue libraries (lineTexts source tree) known).lineText k =
      (displayLines source).getD (k - 1) "" := by
  have hmem : k ∈ (tree.walk.filterMap line?).reverse :=
    mem_reverse.2 (mem_filterMap.2 ⟨n, hn, hk⟩)
  rw [facts, Facts.lineText, lineTexts, ← map_reverse, lookup_graph _ hmem, Option.getD_some]

variable (h : ofSource? (unifyNewlines raw) = some tree)
include h

/-- The line `k` on which a node starts, in the three ways of cutting the text of a file into lines.
-/
theorem line_of_mem_walk (hn : n ∈ tree.walk) (hk : n.line? = some k) :
    1 ≤ k ∧ k ≤ (linesKeepingEnds (unifyNewlines raw)).length ∧
      k ≤ (displayLines (unifyNewlines raw)).length := by
  obtain ⟨span, hspan, hline⟩ := Option.map_eq_some_iff.1 hk
  obtain ⟨hfirst, hkept⟩ := line_of_mem_preorder h (tree.walk_perm_preorder.mem_iff.1 hn) hspan
  rw [hline] at hfirst hkept
  exact ⟨hfirst, hkept, (line_of_ofSource? h hn hk).2⟩

/-- The text that the rules are given for the line `k` of a node. -/
theorem exists_lineText_eq (hn : n ∈ tree.walk) (hk : n.line? = some k) (catalogue : Catalogue) :
    ∃ shown, (displayLines (unifyNewlines raw))[k - 1]? = some shown ∧
      ∀ known, (facts catalogue (LibraryMap.ofTree tree)
        (lineTexts (unifyNewlines raw) tree) known).lineText k = shown := by
  obtain ⟨hfirst, -, hlast⟩ := line_of_mem_walk h hn hk
  have hlt : k - 1 < (displayLines (unifyNewlines raw)).length := by omega
  refine ⟨_, getElem?_eq_getElem hlt, fun known => ?_⟩
  rw [lineText_of_mem_walk hn hk, getD_eq_getElem?_getD, getElem?_eq_getElem hlt, Option.getD_some]

theorem getElem?_displayLines_of_plainTo (hn : n ∈ tree.walk) (hk : n.line? = some k)
    (hplain : PlainTo (unifyNewlines raw) k) :
    (displayLines (unifyNewlines raw))[k - 1]? = (splitOn '\n' (unifyNewlines raw))[k - 1]? := by
  obtain ⟨hfirst, hkept, -⟩ := line_of_mem_walk h hn hk
  have heq := (take_displayLines_eq_iff raw hkept).2 hplain
  have hlt : k - 1 < k := by omega
  rw [← getElem?_take_of_lt hlt, heq, getElem?_take_of_lt hlt]

omit h

/-- A rule that quotes the line of a node quotes the line with the number `k` among the lines that
are shown to a reader.  That is the line with this number in the count of the program, which is the
one that a call graph shows, if no line break but `\n` has come before its end, and all lines up to
it are shown under their numbers exactly in that case. -/
theorem quotes_of_source (catalogue : Catalogue) (filename raw : String) {tree : Node}
    (h : Node.ofSource? (unifyNewlines raw) = some tree) :
    let source := unifyNewlines raw
    (∃ lines, nodeLines (displayLines source) tree = .ok lines ∧
      ∀ n ∈ tree.walk, ∀ k, n.line? = some k → ∃ shown counted,
        (displayLines source)[k - 1]? = some shown ∧
        (splitOn '\n' source)[k - 1]? = some counted ∧
        (∀ known, (facts catalogue (LibraryMap.ofTree tree) lines known).lineText k = shown) ∧
        CallGraph.lineSnippet (linesKeepingEnds source) k = trim counted ∧
        (PlainTo source k → shown = counted) ∧
        ((displayLines source).take k = (splitOn '\n' source).take k ↔
          PlainTo source k)) ∧
    ∀ rows, (ofSource catalogue filename source).result = .ok rows →
      ∀ r : Smell.QuotingRule, ∀ row ∈ rows, row.smell = r.rule.smell →
        ∃ n ∈ tree.walk, n.line? = some row.line ∧ ∃ said shown, r.remark? n = some said ∧
          row.info = said ++ shown ∧
          (displayLines source)[row.line - 1]? = some shown ∧
          (PlainTo source row.line →
            (splitOn '\n' source)[row.line - 1]? = some shown) := by
  intro source
  refine ⟨⟨lineTexts source tree, nodeLines_eq h, ?_⟩, ?_⟩
  · intro n hn k hk
    obtain ⟨hfirst, hkept, -⟩ := line_of_mem_walk h hn hk
    obtain ⟨shown, hdisplayed, htext⟩ := exists_lineText_eq h hn hk catalogue
    obtain ⟨kept, hline, hsnippet⟩ := CallGraph.exists_lineSnippet ⟨hfirst, hkept⟩
    obtain ⟨counted, hcounted, htrim⟩ := getElem?_linesKeepingEnds hline
    refine ⟨shown, counted, hdisplayed, hcounted, htext, hsnippet.trans htrim, fun hplain => ?_,
      take_displayLines_eq_iff raw hkept⟩
    have heq := getElem?_displayLines_of_plainTo h hn hk hplain
    rw [hdisplayed, hcounted] at heq
    exact Option.some.inj heq
  · intro rows hrows r row hrow hsmell
    rw [ofSource, h, result_ofTree h] at hrows
    obtain ⟨known, hknown, hrows⟩ := bind_eq_ok.1 hrows
    cases hrows
    obtain ⟨p, hp, hrow⟩ := List.mem_flatMap.1 hrow
    obtain ⟨m, hm, hline, said, hsaid, hinfo⟩ := Smell.QuotingRule.exists_of_mem_check hrow hsmell
    have hf : p.1 ∈ tree.functionDefs := by
      rw [← map_fst_knownFunctions hknown]
      exact List.mem_map_of_mem hp
    have hn := Syntax.Node.mem_walk_of_mem_walk (List.mem_filter.1 hf).1 hm
    obtain ⟨shown, hdisplayed, htext⟩ := exists_lineText_eq h hn hline catalogue
    refine ⟨m, hn, hline, said, shown, hsaid, by rw [hinfo, htext], hdisplayed, fun hplain => ?_⟩
    rw [← getElem?_displayLines_of_plainTo h hn hline hplain, hdisplayed]

/-- A program with a form feed in its first line: the finding in line 4 is shown with line 3. -/
theorem quotes_of_source_form_feed :
    let source := "# \x0c\nimport pandas as pd\ndef f(df):\n    return df.values\n"
    ∃ tree rows, Node.ofSource? source = some tree ∧
      (ofSource .shipped "code.py" source).result = .ok rows ∧ ∃ row ∈ rows, row.line = 4 ∧
        (∃ said, row.info = said ++ "def f(df):") ∧
        (splitOn '\n' source)[3]? = some "    return df.values" := by
  intro source
  have hread : unifyNewlines source = source := by decide +kernel
  have hfound : (ofSource .shipped "code.py" source).result.toOption.any (fun rows =>
      rows.any fun row => row.line == 4 && row.smell == Smell.frameConversion.smell) = true := by
    decide +kernel
  cases hrows : (ofSource .shipped "code.py" source).result with
  | error e =>
    rw [hrows] at hfound
    cases hfound
  | ok rows =>
    rw [hrows] at hfound
    obtain ⟨row, hrow, hfound⟩ := List.any_eq_true.1 hfound
    obtain ⟨hline, hsmell⟩ := Bool.and_eq_true_iff.1 hfound
    cases htree : Node.ofSource? source with
    | none =>
      rw [ofSource, htree] at hrows
      cases hrows
    | some tree =>
      have hquotes := quotes_of_source .shipped "code.py" source (hread.symm ▸ htree)
      rw [hread] at hquotes
      obtain ⟨_, -, -, said, shown, -, hinfo, hshown, -⟩ :=
        hquotes.2 rows hrows .frameConversion row hrow (eq_of_beq hsmell)
      rw [eq_of_beq hline] at hshown
      obtain rfl : "def f(df):" = shown := Option.some.inj (Eq.trans (by decide +kernel) hshown)
      exact ⟨tree, rows, rfl, rfl, row, hrow, eq_of_beq hline, ⟨said, hinfo⟩, by decide +kernel⟩

end Inspection
end SmellLint
