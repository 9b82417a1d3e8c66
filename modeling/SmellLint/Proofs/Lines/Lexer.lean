import SmellLint.Syntax.Lexer
import SmellLint.Syntax.Template
import Mathlib.Data.List.Infix

/-!
# The lines of tokens

A token that covers text starts on a line of the text and ends on one, and tokens follow each other
(`tokens?_within`).  The invariant of the lexer is a sum: the line it has reached and the line ends
that are still to come make the number of lines.  The last character of the text is left out of the
count, because it is either the line end that closes the last line or the bracket that closes a
field, and no token starts after it.
-/

namespace SmellLint.Syntax

open Cursor Piece Scanner Text Token List

/-- `p` is on one of the first `lines` lines. -/
def Pos.Within (lines : Nat) (p : Pos) : Prop := 1 ≤ p.line ∧ p.line ≤ lines

/-- The line ends inside a token. -/
def TokenKind.lineEnds : TokenKind → Nat
  | .string s => Piece.lineEnds s.body
  | _ => 0

/-- A token that is no name, or a name without dots. -/
def TokenKind.IsDotless : TokenKind → Prop
  | .name id _ => '.' ∉ id.toList
  | _ => True

/-- `t` covers no text, or lies within the first `lines` lines, from its start to its end; names
have no dots. -/
def Token.Within (lines : Nat) (t : Token) : Prop :=
  t.isLayout = false → 1 ≤ t.span.start.line ∧ t.span.start.line + t.kind.lineEnds ≤ lines ∧
    t.span.stop.line = t.span.start.line + t.kind.lineEnds ∧ t.kind.IsDotless

/-- `t` ends before `u` starts, or on the same line. -/
def Token.Precedes (t u : Token) : Prop := t.span.stop.line ≤ u.span.start.line

/-- `tokens` are within the first `lines` lines, in the order of their lines. -/
structure Token.Follow (lines : Nat) (tokens : List Token) : Prop where
  within : ∀ t ∈ tokens, t.Within lines
  ordered : tokens.Pairwise Precedes

variable {lines : Nat} {cs : List Char}

theorem Token.within_of_isLayout {t : Token} (h : t.isLayout = true) : t.Within lines := by
  intro hf
  rw [h] at hf
  cases hf

/-! ## The cursor -/

theorem Cursor.line_advance (p : Pos) (c : Char) :
    (advance p c).line = p.line + if c = '\n' then 1 else 0 := by
  unfold advance
  split <;> rfl

theorem Cursor.line_foldl_advance (cs : List Char) (p : Pos) :
    (cs.foldl advance p).line = p.line + cs.count '\n' := by
  induction cs generalizing p with
  | nil => rfl
  | cons c cs ih =>
    rw [foldl_cons, ih, line_advance, count_cons]
    simp only [beq_iff_eq]
    omega

/-- The line that `c` has reached, and the line ends that are still to come before the last
character, do not exceed `lines`. -/
def Cursor.Within (lines : Nat) (c : Cursor) : Prop :=
  1 ≤ c.pos.line ∧ (c.rest ≠ [] → c.pos.line + c.rest.dropLast.count '\n' ≤ lines)

theorem dropLast_eq_take_append {n : Nat} (h : cs.drop n ≠ []) :
    cs.dropLast = cs.take n ++ (cs.drop n).dropLast := by
  conv_lhs => rw [← take_append_drop n cs]
  exact dropLast_append_of_ne_nil h

theorem Cursor.Within.drop {c : Cursor} (h : c.Within lines) (n : Nat) :
    (c.drop n).Within lines := by
  obtain ⟨hpos, hrest⟩ := h
  have hline : (c.drop n).pos.line = c.pos.line + (c.rest.take n).count '\n' :=
    line_foldl_advance _ _
  refine ⟨by omega, fun hne => ?_⟩
  have hne' : c.rest.drop n ≠ [] := hne
  have hsum := hrest fun h => hne' (by rw [h, drop_nil])
  rw [dropLast_eq_take_append hne', count_append] at hsum
  show _ + (c.rest.drop n).dropLast.count '\n' ≤ lines
  omega

/-! ## Strings -/

namespace Scanner

variable {body : List Char} {count n : Nat}

theorem dropStart?_eq_some {p rest : List Char} (h : dropStart? p cs = some rest) :
    cs = p ++ rest := by
  fun_induction dropStart? p cs with
  | case1 cs => cases h; rfl
  | case2 => cases h
  | case3 c ps cs ih => rw [ih h]; rfl
  | case4 => cases h

theorem shortBody_append {quote : Char} (h : shortBody quote cs = some body) :
    ∃ rest, cs = body ++ quote :: rest := by
  fun_induction shortBody quote cs generalizing body with
  | case1 => cases h
  | case2 c r ih =>
    obtain ⟨b, hb, rfl⟩ := Option.map_eq_some_iff.1 h
    obtain ⟨rest, rfl⟩ := ih hb
    exact ⟨rest, rfl⟩
  | case3 r =>
    cases h
    exact ⟨r, rfl⟩
  | case4 => cases h
  | case5 c r _ _ _ ih =>
    obtain ⟨b, hb, rfl⟩ := Option.map_eq_some_iff.1 h
    obtain ⟨rest, rfl⟩ := ih hb
    exact ⟨rest, rfl⟩

theorem longBody_append {quote : Char} (h : longBody quote cs = some body) :
    ∃ rest, cs = body ++ quote :: quote :: quote :: rest := by
  fun_induction longBody quote cs generalizing body with
  | case1 => cases h
  | case2 c r ih =>
    obtain ⟨b, hb, rfl⟩ := Option.map_eq_some_iff.1 h
    obtain ⟨rest, rfl⟩ := ih hb
    exact ⟨rest, rfl⟩
  | case3 c r _ hquotes =>
    cases h
    obtain ⟨rest, hrest⟩ := Option.isSome_iff_exists.1 hquotes
    have hcons : c :: r = [quote, quote, quote] ++ rest := dropStart?_eq_some hrest
    exact ⟨rest, hcons⟩
  | case4 c r _ _ ih =>
    obtain ⟨b, hb, rfl⟩ := Option.map_eq_some_iff.1 h
    obtain ⟨rest, rfl⟩ := ih hb
    exact ⟨rest, rfl⟩

/-- A string is its `body` between quotes, and they are all that it takes. -/
theorem stringBody_append (h : stringBody cs = some (body, count)) :
    ∃ quotes rest, quotes ≠ [] ∧ (∀ c ∈ quotes, cs.head? = some c) ∧
      cs = quotes ++ body ++ quotes ++ rest ∧ count = (quotes ++ body ++ quotes).length := by
  unfold stringBody at h
  split at h
  · cases h
  · next q r =>
    split at h
    · next after hafter =>
      obtain ⟨b, hb, heq⟩ := Option.map_eq_some_iff.1 h
      cases heq
      obtain ⟨rest, rfl⟩ := longBody_append hb
      refine ⟨[q, q, q], rest, cons_ne_nil _ _, by simp, ?_, ?_⟩
      · rw [dropStart?_eq_some hafter]
        simp
      · simp only [length_append, length_cons, length_nil]
        omega
    · obtain ⟨b, hb, heq⟩ := Option.map_eq_some_iff.1 h
      cases heq
      obtain ⟨rest, rfl⟩ := shortBody_append hb
      refine ⟨[q], rest, cons_ne_nil _ _, by simp, by simp, ?_⟩
      simp only [length_append, length_cons, length_nil]
      omega

/-- The `body` of a string comes before the last character of the text. -/
theorem lineEnds_stringBody (h : stringBody cs = some (body, count)) :
    lineEnds body ≤ cs.dropLast.count '\n' := by
  obtain ⟨quotes, rest, hne, -, rfl, -⟩ := stringBody_append h
  rw [append_assoc, dropLast_append_of_ne_nil (by simp [hne]), count_append, count_append, lineEnds]
  omega

/-- The line ends that a string takes are those of its `body`. -/
theorem count_take_stringBody (h : stringBody cs = some (body, count))
    (hquote : cs.head? ≠ some '\n') :
    (cs.take count).count '\n' = lineEnds body := by
  obtain ⟨quotes, rest, -, hquotes, rfl, rfl⟩ := stringBody_append h
  have hnone : quotes.count '\n' = 0 := by
    refine count_eq_zero.2 fun hmem => hquote (hquotes _ hmem)
  rw [take_left', count_append, count_append, lineEnds] <;> omega

/-! ## The scanner -/

variable {s s' : Scanner}

/-- The tokens found so far and the cursor stay within the first `lines` lines, and they follow each
other. -/
structure Within (lines : Nat) (s : Scanner) : Prop where
  found : Follow lines s.found.toList
  passed : ∀ t ∈ s.found.toList, t.span.stop.line ≤ s.cursor.pos.line
  cursor : s.cursor.Within lines

variable (h : s.Within lines)
include h

/-- Only the tokens and the cursor count. -/
theorem Within.congr (hfound : s'.found = s.found) (hcursor : s'.cursor = s.cursor) :
    s'.Within lines :=
  ⟨hfound ▸ h.found, hfound ▸ hcursor ▸ h.passed, hcursor ▸ h.cursor⟩

omit h in
theorem line_drop_le (c : Cursor) (n : Nat) : c.pos.line ≤ (c.drop n).pos.line := by
  rw [show (c.drop n).pos = (c.rest.take n).foldl advance c.pos from rfl, line_foldl_advance]
  omega

theorem Within.skip (n : Nat) : (s.skip n).Within lines :=
  ⟨h.found, fun t ht => Nat.le_trans (h.passed t ht) (line_drop_le _ n), h.cursor.drop n⟩

/-- A token `t` that starts where the cursor is and ends where it goes. -/
theorem Within.push {t : Token} (ht : t.Within lines)
    (hspan : t.span = ⟨s.cursor.pos, (s.cursor.drop n).pos⟩) :
    Within lines { s with cursor := s.cursor.drop n, found := s.found.push t } := by
  refine ⟨⟨?_, ?_⟩, ?_, h.cursor.drop n⟩
  · rw [Array.toList_push, forall_mem_append]
    exact ⟨h.found.within, forall_mem_singleton.2 ht⟩
  · rw [Array.toList_push, pairwise_append]
    refine ⟨h.found.ordered, pairwise_singleton _ _, fun u hu v hv => ?_⟩
    rw [mem_singleton.1 hv, Precedes, hspan]
    exact h.passed u hu
  · rw [Array.toList_push, forall_mem_append, forall_mem_singleton, hspan]
    exact ⟨fun u hu => Nat.le_trans (h.passed u hu) (line_drop_le _ n), Nat.le_refl _⟩

variable {kind : TokenKind}

theorem Within.emitLayout (hk : (Token.mk kind ⟨s.cursor.pos, s.cursor.pos⟩).isLayout = true) :
    (s.emitLayout kind).Within lines :=
  h.push (n := 0) (within_of_isLayout hk) rfl

theorem Within.emitNewline (n : Nat) : (s.emit .newline n).Within lines :=
  h.push (within_of_isLayout rfl) rfl

/-- `emit` gives a token that starts where text is left, with line ends that are among those to
come, and moves the cursor over them. -/
theorem Within.emit (hne : s.cursor.rest ≠ []) (hdot : kind.IsDotless)
    (hk : kind.lineEnds ≤ s.cursor.rest.dropLast.count '\n')
    (htake : (s.cursor.rest.take n).count '\n' = kind.lineEnds) : (s.emit kind n).Within lines := by
  refine h.push (fun _ => ⟨h.cursor.1, ?_, ?_, hdot⟩) rfl
  · have hsum := h.cursor.2 hne
    show s.cursor.pos.line + kind.lineEnds ≤ lines
    omega
  · rw [← htake]
    exact line_foldl_advance _ _

/-- `emit` of a token whose text has no line end. -/
theorem Within.emitInLine (hne : s.cursor.rest ≠ []) (hdot : kind.IsDotless)
    (hk : kind.lineEnds = 0) (htake : '\n' ∉ s.cursor.rest.take n) :
    (s.emit kind n).Within lines :=
  h.emit hne hdot (by omega) (by rw [hk, count_eq_zero.2 htake])

theorem Within.dedents (n : Nat) :
    ((range n).foldl (fun s _ => s.emitLayout .dedent) s).Within lines := by
  generalize range n = l
  induction l generalizing s with
  | nil => exact h
  | cons _ l ih => exact ih (h.emitLayout rfl)

theorem Within.indentTo {column alt : Nat} (hs : s.indentTo column alt = some s') :
    s'.Within lines := by
  have hindents : ∀ indents, Within lines { s with indents } := fun _ => h.congr rfl rfl
  unfold Scanner.indentTo at hs
  split at hs
  · cases hs
  · split_ifs at hs
    · cases hs; exact h
    · cases hs; exact (hindents _).emitLayout rfl
    · simp only at hs
      split at hs
      · split_ifs at hs
        cases hs
        exact (hindents _).dedents _
      · cases hs

theorem Within.lineStart (hs : s.lineStart = some s') : s'.Within lines := by
  obtain ⟨m, -, hs⟩ := Option.bind_eq_some_iff.1 hs
  simp only at hs
  split at hs
  · cases hs; exact (h.skip _).skip _
  · cases hs; exact (h.skip _).skip _
  · split_ifs at hs
    all_goals
      obtain ⟨s₁, h₁, hs⟩ := Option.bind_eq_some_iff.1 hs
      cases hs
      exact ((h.skip _).indentTo h₁).congr rfl rfl

omit h in
theorem not_mem_takeWhile {p : Char → Bool} (hp : p '\n' = false) (cs : List Char) :
    '\n' ∉ cs.takeWhile p := by
  intro hmem
  rw [all_eq_true.1 all_takeWhile _ hmem] at hp
  cases hp

omit h in
theorem not_mem_of_isIdentifier (hcs : isIdentifier cs = true) : '.' ∉ cs := by
  have hpart : ∀ c ∈ cs, isIdentifierPart c = true := by
    cases cs with
    | nil => cases hcs
    | cons c r =>
      rw [isIdentifier, Bool.and_eq_true, all_eq_true] at hcs
      exact forall_mem_cons.2 ⟨by rw [isIdentifierPart, hcs.1, Bool.true_or], hcs.2⟩
  exact fun hmem => absurd (hpart _ hmem) (by decide)

theorem Within.word (hne : s.cursor.rest ≠ []) (hs : s.word = some s') : s'.Within lines := by
  have hletters := not_mem_takeWhile (show isWordChar '\n' = false by decide) s.cursor.rest
  have htake : s.cursor.rest.take (s.cursor.rest.takeWhile isWordChar).length
      = s.cursor.rest.takeWhile isWordChar :=
    (prefix_iff_eq_take.1 (List.takeWhile_prefix _)).symm
  unfold Scanner.word at hs
  simp only at hs
  split at hs
  · next hkind =>
    obtain ⟨⟨body, count⟩, hbody, rfl⟩ := Option.map_eq_some_iff.1 hs
    refine h.emit hne trivial ?_ ?_
    · have hends := lineEnds_stringBody hbody
      by_cases hrest : s.cursor.rest.drop (s.cursor.rest.takeWhile isWordChar).length = []
      · rw [hrest] at hbody
        cases hbody
      · rw [dropLast_eq_take_append hrest, count_append]
        exact Nat.le_trans hends (Nat.le_add_left _ _)
    · -- the letters hold no line end, and the string starts with a quote
      rw [take_add, htake, count_append, count_eq_zero.2 hletters, Nat.zero_add]
      refine count_take_stringBody hbody fun hhead => ?_
      split at hkind
      · next hcons =>
        rw [hcons] at hhead
        cases hhead
        cases hkind
      · cases hkind
  · split_ifs at hs with hname
    all_goals
      cases hs
      refine h.emitInLine hne ?_ rfl (by rw [htake]; exact hletters)
    · trivial
    · rw [Bool.and_eq_true] at hname
      rw [TokenKind.IsDotless, String.toList_ofList]
      exact not_mem_of_isIdentifier hname.2

theorem Within.number (hne : s.cursor.rest ≠ []) (hs : s.number = some s') : s'.Within lines := by
  obtain ⟨⟨value, rest⟩, -, rfl⟩ := Option.map_eq_some_iff.1 hs
  refine h.emitInLine hne trivial rfl fun hmem => ?_
  -- what is taken lies in the run of characters that a number can have
  have hrun : s.cursor.rest.take ((s.cursor.rest.takeWhile isNumberChar).length - rest.length)
      <+: s.cursor.rest.takeWhile isNumberChar :=
    prefix_of_prefix_length_le (List.take_prefix _ _) (List.takeWhile_prefix _)
      (Nat.le_trans (length_take_le _ _) (Nat.sub_le _ _))
  exact not_mem_takeWhile (by decide) _ (hrun.subset hmem)

omit h in
theorem not_mem_of_mem_operators : ∀ text ∈ operators, '\n' ∉ text := by decide

theorem Within.operator (hne : s.cursor.rest ≠ []) (hs : s.operator = some s') :
    s'.Within lines := by
  obtain ⟨text, htext, hs⟩ := Option.bind_eq_some_iff.1 hs
  have hfound := find?_some htext
  obtain ⟨rest, hrest⟩ := Option.isSome_iff_exists.1 hfound
  have hnext : (s.emit (.op (String.ofList text)) text.length).Within lines := by
    refine h.emitInLine hne trivial rfl ?_
    rw [dropStart?_eq_some hrest, take_left]
    exact not_mem_of_mem_operators text (mem_of_find?_eq_some htext)
  -- an opening or a closing bracket changes the depth only
  have hdepth : ∀ depth,
      Within lines { s.emit (.op (String.ofList text)) text.length with depth } :=
    fun _ => hnext.congr rfl rfl
  split at hs
  all_goals first
    | split_ifs at hs
      cases hs
      exact hdepth _
    | cases hs
      exact hnext

theorem Within.step (hs : s.step = some s') : s'.Within lines := by
  unfold Scanner.step at hs
  split_ifs at hs
  · exact h.lineStart hs
  · have hskip := h.skip (blankCount s.cursor.rest)
    simp only at hs
    split at hs
    · cases hs; exact hskip
    · split_ifs at hs
      · cases hs
        exact (hskip.emitNewline 1).congr rfl rfl
      · cases hs; exact hskip.skip 1
    · cases hs; exact hskip.skip _
    · split_ifs at hs
      cases hs
      exact hskip.skip 2
    · next c r _ _ _ heq =>
      have hne : (s.skip (blankCount s.cursor.rest)).cursor.rest ≠ [] := by rw [heq]; simp
      split_ifs at hs with hquote
      · obtain ⟨⟨body, count⟩, hbody, rfl⟩ := Option.map_eq_some_iff.1 hs
        refine hskip.emit hne trivial (heq ▸ lineEnds_stringBody hbody) ?_
        rw [heq]
        refine count_take_stringBody hbody ?_
        rintro ⟨⟩
        exact absurd hquote (by decide)
      · exact hskip.number hne hs
      · exact hskip.word hne hs
      · exact hskip.operator hne hs

theorem Within.run {fuel : Nat} (hs : s.run fuel = some s') : s'.Within lines := by
  induction fuel generalizing s with
  | zero => cases hs
  | succ fuel ih =>
    unfold run at hs
    split at hs
    · cases hs; exact h
    · split at hs
      · cases hs
      · next s₁ hstep => exact ih (h.step hstep) hs

theorem Within.finish {tokens : List Token} (hs : s.finish = some tokens) :
    Follow lines tokens := by
  unfold Scanner.finish at hs
  split_ifs at hs
  cases hs
  exact ((h.dedents _).emitLayout rfl).found

omit h

theorem within_start {line : Nat} {atLineStart : Bool} (hline : 1 ≤ line)
    (hcs : cs ≠ [] → line + cs.dropLast.count '\n' ≤ lines) :
    Within lines ⟨⟨cs, ⟨line, 0⟩⟩, atLineStart, 0, [(0, 0)], #[]⟩ :=
  ⟨⟨forall_mem_nil _, .nil⟩, forall_mem_nil _, hline, hcs⟩

end Scanner

/-! ## Texts -/

/-- The tokens that `tokens?` gives lie on the lines of the text, in their order. -/
theorem tokens?_within {tokens : List Token} (h : tokens? cs = some tokens) :
    Follow (1 + (lexerText cs).dropLast.count '\n') tokens := by
  unfold tokens? at h
  split_ifs at h
  obtain ⟨s, hrun, hfinish⟩ := Option.bind_eq_some_iff.1 h
  exact ((within_start (Nat.le_refl 1) fun _ => Nat.le_refl _).run hrun).finish hfinish

/-- The tokens that `expressionTokens?` gives lie on the lines that the text of a field takes, in
their order. -/
theorem expressionTokens?_within {line : Nat} {tokens : List Token}
    (h : expressionTokens? line cs = some tokens) (hline : 1 ≤ line)
    (hlines : line + lineEnds cs ≤ lines) : Follow lines tokens := by
  obtain ⟨s, hrun, hfinish⟩ := Option.bind_eq_some_iff.1 h
  have hcount : line + ('(' :: cs ++ [')']).dropLast.count '\n' ≤ lines := by
    rw [dropLast_concat, count_cons_of_ne (by decide : '(' ≠ '\n')]
    exact hlines
  exact (((within_start hline fun _ => hcount).run hrun).emitLayout rfl).finish hfinish

/-! ## The lines of a text -/

def endLine (cs : List Char) : List Char := if cs.getLast? = some '\n' then cs else cs ++ ['\n']

theorem unifyNewlineChars_ne_nil (h : cs ≠ []) : unifyNewlineChars cs ≠ [] := by
  unfold unifyNewlineChars
  split
  · exact absurd rfl h
  · exact cons_ne_nil _ _
  · exact cons_ne_nil _ _

theorem dropLast_endLine_singleton (c : Char) : (endLine [c]).dropLast.count '\n' = 0 := by
  unfold endLine
  split_ifs with h
  · rfl
  · simpa [count_cons] using h

theorem endLine_cons {c : Char} (h : c = '\n' → cs ≠ []) : endLine (c :: cs) = c :: endLine cs := by
  cases cs with
  | nil =>
    have hc : c ≠ '\n' := fun hc => h hc rfl
    simp [endLine, hc]
  | cons d r =>
    rw [endLine, endLine, getLast?_cons_cons]
    split_ifs <;> rfl

theorem dropLast_endLine_cons (c : Char) (h : cs ≠ []) :
    (endLine (c :: cs)).dropLast = c :: (endLine cs).dropLast := by
  rw [endLine_cons fun _ => h, dropLast_cons_of_ne_nil]
  unfold endLine
  split_ifs <;> simp [h]

theorem lexerText_eq (cs : List Char) : lexerText cs = endLine (unifyNewlineChars cs) := rfl

/-- The lines of a text from those of `r`, which follows its first character. -/
theorem count_endLine_cons_le (c : Char) (r : List Char) {n : Nat}
    (h : r ≠ [] → 1 + (lexerText r).dropLast.count '\n' ≤ n) :
    1 + (endLine (c :: unifyNewlineChars r)).dropLast.count '\n' ≤
      max 1 (n + if c = '\n' then 1 else 0) := by
  by_cases hr : r = []
  · subst hr
    rw [unifyNewlineChars, dropLast_endLine_singleton]
    omega
  · have hrest := h hr
    rw [lexerText_eq] at hrest
    rw [dropLast_endLine_cons c (unifyNewlineChars_ne_nil hr), count_cons]
    simp only [beq_iff_eq]
    omega

/-- Line ends before the last one are among the line breaks that a reader sees. -/
theorem count_lexerText_le (h : cs ≠ []) :
    1 + (lexerText cs).dropLast.count '\n' ≤ (displayLineChars cs).length := by
  rw [lexerText_eq]
  -- a character that breaks no line is no line end, and stays the same
  have hplain : ∀ {c : Char} {r : List Char}, ¬isLineBreak c = true →
      unifyNewlineChars (c :: r) = c :: unifyNewlineChars r ∧ c ≠ '\n' := by
    intro c r hbreak
    have hn : c ≠ '\n' := by rintro rfl; exact hbreak rfl
    have hr : c ≠ '\r' := by rintro rfl; exact hbreak rfl
    rw [unifyNewlineChars, if_neg hr]
    · exact ⟨rfl, hn⟩
    · exact fun _ hc _ => hr hc
  fun_induction displayLineChars cs with
  | case1 => exact absurd rfl h
  | case2 r ih =>
    have := count_endLine_cons_le '\n' r ih
    rw [unifyNewlineChars, length_cons]
    simp only [if_true] at this
    omega
  | case3 c r hcr hbreak ih =>
    have := count_endLine_cons_le (if c = '\r' then '\n' else c) r ih
    rw [length_cons, unifyNewlineChars]
    · split_ifs at this ⊢ <;> omega
    · exact hcr
  | case4 c hbreak =>
    rw [(hplain hbreak).1, unifyNewlineChars, dropLast_endLine_singleton]
    exact Nat.le_refl 1
  | case5 c r hcr hbreak hr hne ih =>
    have := ih hne
    simp [hr] at this
  | case6 c r hcr hbreak line lines hr hne ih =>
    obtain ⟨hunify, hn⟩ := hplain hbreak
    have := count_endLine_cons_le c r ih
    rw [if_neg hn] at this
    rw [hunify]
    simp only [hr, length_cons] at this ⊢
    omega

end SmellLint.Syntax

/-!
## The lines of fields

The expression in a field of a format string lies on the lines that the string takes
(`Piece.ofBody?_within`).  What is left of a template is always a suffix of it, so the line ends
that were passed and those that are left add up to those of the whole body.
-/

namespace SmellLint.Syntax.Piece

open List Option

/-- The expressions in a piece end at most `ends` line ends after the start of the template. -/
inductive Within (ends : Nat) : Piece → Prop
  | text (body : List Char) : Within ends (.text body)
  | field {expr : List Char} {lines : Nat} {shown : Option (List Char)} {conversion : Option Char}
      {format : Option (List Piece)} (hexpr : lines + lineEnds expr ≤ ends)
      (hformat : ∀ pieces, format = some pieces → ∀ p ∈ pieces, Within ends p) :
      Within ends (.field expr lines shown conversion format)

/-! ### What is left of a template -/

variable {isRaw : Bool} {fuel : Nat} {cs rest expr body : List Char} {conversion : Option Char}

theorem literal_suffix {inFormat : Bool} {text : List Char} {doubled : Bool}
    (h : literal isRaw inFormat fuel cs = some (text, doubled, rest)) :
    rest <:+ cs := by
  fun_induction literal isRaw inFormat fuel cs generalizing text doubled rest with
  | case1 => cases h
  | case2 => cases h; exact suffix_refl _
  | case3 fuel c hc r' name =>
    rename_i ih
    obtain ⟨⟨t, d, rest'⟩, ht, heq⟩ := map_eq_some_iff.1 h
    cases heq
    have hname := ((ih ht).trans (drop_suffix _ _)).trans (drop_suffix _ _)
    exact hname.trans (suffix_append [c, 'N', '\x7b'] r')
  | case4 fuel c brace hc d r' hN =>
    simp only [brace] at h
    split_ifs at h
    · cases h
      exact (drop_suffix 1 r').trans (suffix_append [c, d] r')
    · cases h
      exact suffix_cons c _
  | case5 fuel c hc d r' hN hd ih =>
    obtain ⟨⟨t, d', rest'⟩, ht, heq⟩ := map_eq_some_iff.1 h
    cases heq
    exact (ih ht).trans (suffix_append [c, d] r')
  | case6 => cases h; exact nil_suffix
  | case7 fuel c r brace hc =>
    simp only [brace] at h
    split_ifs at h
    · cases h
      exact (drop_suffix 1 r).trans (suffix_cons c r)
    · cases h
      exact suffix_refl _
  | case8 fuel c r hc hb ih =>
    obtain ⟨⟨t, d, rest'⟩, ht, heq⟩ := map_eq_some_iff.1 h
    cases heq
    exact (ih ht).trans (suffix_cons c r)

/-- `expression` cuts the text of an expression off what follows it. -/
theorem expression_append {quote : Option (Char × Bool)} {opened : List Char}
    (h : expression quote opened fuel cs = some (expr, rest)) :
    cs = expr ++ rest := by
  induction fuel generalizing quote opened cs expr with
  | zero => cases h
  | succ fuel ih =>
    cases cs with
    | nil => cases h
    | cons c r =>
      -- every branch that goes on keeps some characters and reads the others
      have keep : ∀ n quote opened,
          (expression quote opened fuel ((c :: r).drop n)).map (Prod.map ((c :: r).take n ++ ·) id)
            = some (expr, rest) → c :: r = expr ++ rest := by
        intro n quote opened hk
        obtain ⟨⟨t, rest'⟩, ht, heq⟩ := map_eq_some_iff.1 hk
        cases heq
        rw [append_assoc, ← ih ht, take_append_drop]
      unfold expression at h
      repeat' split at h
      all_goals first
        | exact keep _ _ _ h
        | cases h; rfl
        | cases h

theorem conversion?_suffix (h : conversion? cs = some (conversion, rest)) : rest <:+ cs := by
  unfold conversion? at h
  split at h
  · next c r =>
    split at h
    · split at h
      · split_ifs at h
        cases h
        exact suffix_append ['!', c] _
      · cases h
    · cases h
  · cases h
  · cases h; exact suffix_refl _

/-- `fieldHead` takes the expression of a field first, and what is left follows it. -/
theorem fieldHead_append {after : List Char} {shown : Option (List Char)}
    (h : fieldHead body = some (expr, shown, conversion, after)) :
    ∃ mid, body = expr ++ mid ∧ after <:+ mid := by
  obtain ⟨⟨expr', mid⟩, hexpr, h⟩ := bind_eq_some_iff.1 h
  simp only at h
  split at h
  · cases h
  · obtain ⟨⟨conversion', after'⟩, hconv, h⟩ := bind_eq_some_iff.1 h
    cases h
    refine ⟨mid, expression_append hexpr, (conversion?_suffix hconv).trans ?_⟩
    split
    · exact (drop_suffix _ _).trans (suffix_cons _ _)
    · exact suffix_refl _

/-- Line ends passed on the way to a suffix `rest`, and those in it. -/
theorem lineEnds_take_add (h : rest <:+ cs) :
    lineEnds (cs.take (cs.length - rest.length)) + lineEnds rest = lineEnds cs := by
  obtain ⟨front, rfl⟩ := h
  simp [lineEnds]

/-! ### Reading pieces -/

/-- A field is read in its template: the expression in it ends before what follows the field. -/
theorem within_field {before ends : Nat} {after : List Char} {shown : Option (List Char)}
    {format : Option (List Piece)} {here more : List Piece}
    (hbody : before + lineEnds ('\x7b' :: body) ≤ ends) (hexpr : body = expr ++ after)
    (hformat : ∀ pieces, format = some pieces → ∀ p ∈ pieces, Within ends p)
    (hhere : ∀ p ∈ here, Within ends p) (hmore : (∀ p ∈ more, Within ends p) ∧ rest <:+ body) :
    (∀ p ∈ here ++ .field expr before shown conversion format :: more, Within ends p) ∧
      rest <:+ '\x7b' :: body := by
  refine ⟨?_, hmore.2.trans (suffix_cons _ _)⟩
  have hfield : before + lineEnds expr ≤ ends := by
    subst hexpr
    simp only [lineEnds, count_cons, count_append] at hbody ⊢
    omega
  intro p hp
  rcases mem_append.1 hp with hp | hp
  · exact hhere p hp
  · rcases mem_cons.1 hp with rfl | hp
    · exact .field hfield hformat
    · exact hmore.1 p hp

/-- The pieces that `read` gives lie before the end of the text, and what is left is a suffix of it.
-/
theorem read_within {inFormat : Bool} {level lines ends : Nat} {pieces : List Piece}
    (h : read isRaw inFormat level lines fuel cs = some (pieces, rest))
    (hends : lines + lineEnds cs ≤ ends) : (∀ p ∈ pieces, Within ends p) ∧ rest <:+ cs := by
  induction fuel generalizing inFormat level lines cs rest pieces with
  | zero => cases h
  | succ fuel ih =>
    unfold read at h
    obtain ⟨⟨chars, doubled, left⟩, hliteral, hread⟩ := bind_eq_some_iff.1 h
    have hleft := literal_suffix hliteral
    have hcount := lineEnds_take_add hleft
    have hhere : ∀ p ∈ (if chars.isEmpty then [] else [text chars]), Within ends p := by
      intro p hp
      split_ifs at hp
      · cases hp
      · cases mem_singleton.1 hp
        exact .text chars
    -- a suffix of what the literal leaves is within the text, with the lines that were passed
    have hbefore : ∀ r, r <:+ left →
        lines + lineEnds (cs.take (cs.length - left.length)) +
          lineEnds (left.take (left.length - r.length)) + lineEnds r ≤ ends := by
      intro r hr
      have := lineEnds_take_add hr
      omega
    simp only at hread
    generalize (if chars.isEmpty then [] else [text chars]) = here at hread hhere
    split at hread
    · obtain ⟨⟨more, rest'⟩, hmore, heq⟩ := bind_eq_some_iff.1 hread
      cases heq
      obtain ⟨hpieces, hrest⟩ := ih hmore (by omega)
      refine ⟨fun p hp => ?_, hrest.trans hleft⟩
      rcases mem_append.1 hp with hp | hp
      · exact hhere p hp
      · exact hpieces p hp
    · split at hread
      · cases hread
        exact ⟨hhere, nil_suffix⟩
      · next body =>
        split at hread
        · cases hread
        · next level' =>
          obtain ⟨⟨expr, shown, conversion, after⟩, hhead, h⟩ := bind_eq_some_iff.1 hread
          obtain ⟨mid, hbody, hafter⟩ := fieldHead_append hhead
          replace hafter : after <:+ body := hafter.trans (hbody ▸ suffix_append expr mid)
          -- what follows the closing brace is read with the lines that the field takes
          have hnext : ∀ {left'} {r more rest' : List _}, left' <:+ body → left' = '\x7d' :: r →
              read isRaw inFormat (level' + 1)
                (lines + lineEnds (cs.take (cs.length - ('\x7b' :: body).length)) +
                  lineEnds (('\x7b' :: body).take (('\x7b' :: body).length - r.length)))
                fuel r = some (more, rest') →
              (∀ p ∈ more, Within ends p) ∧ rest' <:+ body := by
            intro left' r more rest' hleft' hr hmore
            have hbrace : r <:+ body := (hr ▸ suffix_cons _ r).trans hleft'
            obtain ⟨hpieces, hrest⟩ := ih hmore (hbefore r (hbrace.trans (suffix_cons _ _)))
            exact ⟨hpieces, hrest.trans hbrace⟩
          have hstart : lines + lineEnds (cs.take (cs.length - ('\x7b' :: body).length)) +
              lineEnds ('\x7b' :: body) ≤ ends := by omega
          simp only at h
          split at h
          · next r =>
            obtain ⟨⟨spec, r'⟩, hspec, h⟩ := bind_eq_some_iff.1 h
            have hr : r <:+ body := (suffix_cons _ r).trans hafter
            obtain ⟨hformat, hr'⟩ := ih hspec (hbefore r (hr.trans (suffix_cons _ _)))
            simp only [Option.pure_def, bind_eq_bind, bind_some] at h
            split at h
            · obtain ⟨⟨more, rest'⟩, hmore, heq⟩ := bind_eq_some_iff.1 h
              cases heq
              have hspec' : ∀ pieces, some spec = some pieces → ∀ p ∈ pieces, Within ends p :=
                fun _ heq => some_inj.1 heq ▸ hformat
              obtain ⟨hpieces, hrest⟩ :=
                within_field hstart hbody hspec' hhere (hnext (hr'.trans hr) rfl hmore)
              exact ⟨hpieces, hrest.trans hleft⟩
            · cases h
          · simp only [Option.pure_def, bind_eq_bind, bind_some] at h
            split at h
            · obtain ⟨⟨more, rest'⟩, hmore, heq⟩ := bind_eq_some_iff.1 h
              cases heq
              have hnone : ∀ pieces : List Piece, none = some pieces →
                  ∀ p ∈ pieces, Within ends p := by rintro _ ⟨⟩
              obtain ⟨hpieces, hrest⟩ :=
                within_field hstart hbody hnone hhere (hnext hafter rfl hmore)
              exact ⟨hpieces, hrest.trans hleft⟩
            · cases h
      · split_ifs at hread
        cases hread
        exact ⟨hhere, hleft⟩

/-- The fields that `ofBody?` gives end on the lines of `body`. -/
theorem ofBody?_within {pieces : List Piece} (h : ofBody? isRaw body = some pieces) :
    ∀ p ∈ pieces, Within (lineEnds body) p := by
  obtain ⟨⟨_, rest⟩, hread, rfl⟩ := map_eq_some_iff.1 h
  exact (read_within hread (by omega)).1

end SmellLint.Syntax.Piece
