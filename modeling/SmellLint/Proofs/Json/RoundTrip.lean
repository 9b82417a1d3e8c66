import Mathlib.Algebra.Ring.Nat
import SmellLint.Json.Read

/-!
# Reading what was written

A value of whole numbers, texts, arrays and objects is read back from its indented text
(`Json.ReadsAs.parse_eq`).  Each kind of value is read off in front of whatever may follow it.
-/

namespace SmellLint.Json

open List Point Text

/-! ## Escapes -/

variable {n fuel : Nat} {rest cs : List Char} {s : String} {c d : Char} {j : Json}

theorem toList_hex (hn : n < 0x10000) :
    (hex 4 n).toList = [Nat.digitChar (n / 4096), Nat.digitChar (n / 256 % 16),
      Nat.digitChar (n / 16 % 16), Nat.digitChar (n % 16)] := by
  have hstep : ∀ {m : Nat}, 16 ≤ m →
      Nat.toDigits 16 m = Nat.toDigits 16 (m / 16) ++ [Nat.digitChar (m % 16)] := fun h =>
    Nat.toDigits_of_base_le (by decide) h
  rw [hex, String.toList_ofList]
  by_cases h₁ : n < 16
  · have hdigits : n / 4096 = 0 ∧ n / 256 % 16 = 0 ∧ n / 16 % 16 = 0 ∧ n % 16 = n := by omega
    rw [Nat.toDigits_of_lt_base h₁, hdigits.1, hdigits.2.1, hdigits.2.2.1, hdigits.2.2.2]
    rfl
  rw [hstep (by omega)]
  by_cases h₂ : n / 16 < 16
  · have hdigits : n / 4096 = 0 ∧ n / 256 % 16 = 0 ∧ n / 16 % 16 = n / 16 := by omega
    rw [Nat.toDigits_of_lt_base h₂, hdigits.1, hdigits.2.1, hdigits.2.2]
    rfl
  rw [hstep (by omega), Nat.div_div_eq_div_mul]
  by_cases h₃ : n / 256 < 16
  · have hdigits : n / 4096 = 0 ∧ n / 256 % 16 = n / 256 := by omega
    rw [Nat.toDigits_of_lt_base h₃, hdigits.1, hdigits.2]
    rfl
  rw [hstep (by omega), Nat.div_div_eq_div_mul, Nat.toDigits_of_lt_base (by omega)]
  rfl

theorem fourHex?_hex (hn : n < 0x10000) (rest : List Char) :
    fourHex? ((hex 4 n).toList ++ rest) = some n := by
  have hdigit : ∀ k < 16,
      (if (Nat.digitChar k).isDigit then some ((Nat.digitChar k).toNat - 48)
      else if 'a' ≤ Nat.digitChar k && Nat.digitChar k ≤ 'f' then
        some ((Nat.digitChar k).toNat - 87)
      else if 'A' ≤ Nat.digitChar k && Nat.digitChar k ≤ 'F' then
        some ((Nat.digitChar k).toNat - 55)
      else none) = some k := by decide
  have hlength : ¬([Nat.digitChar (n / 4096), Nat.digitChar (n / 256 % 16),
      Nat.digitChar (n / 16 % 16), Nat.digitChar (n % 16)] ++ rest).length < 4 := by simp
  rw [toList_hex hn, fourHex?, if_neg hlength]
  simp only [cons_append, take_succ_cons, take_zero,
    foldl_cons, foldl_nil, hdigit (n / 4096) (by omega), hdigit (n / 256 % 16) (by omega),
    hdigit (n / 16 % 16) (by omega), hdigit (n % 16) (by omega)]
  simp only [bind, Option.bind, pure]
  congr 1
  omega

/-- A code point `n` that is no half of a pair is read from its own escape. -/
theorem unicodeEscape_hex (hn : n < 0x10000) (hhalf : isHalfCode n = false) (position : Nat)
    (hrest : rest ≠ []) :
    unicodeEscape position ((hex 4 n).toList ++ rest) = .ok (Char.ofNat n, 4) := by
  have hlength : ¬((hex 4 n).toList ++ rest).length < 5 := by
    have := length_pos_iff.2 hrest
    rw [length_append, toList_hex hn]
    simp only [length_cons]
    omega
  have hhigh : isHighCode n = false := by
    simp only [isHalfCode, isHighCode, Bool.and_eq_false_iff, decide_eq_false_iff_not] at hhalf ⊢
    omega
  rw [unicodeEscape, if_neg hlength, fourHex?_hex hn]
  simp [hhigh, charOfCode, hhalf]

theorem length_hex (hn : n < 0x10000) : (hex 4 n).toList.length = 4 := by
  rw [toList_hex hn]
  rfl

theorem units_lt {high low : Nat} (hhigh : isHighCode high = true) (hlow : isLowCode low = true) :
    high < 0x10000 ∧ low < 0x10000 := by
  simp only [isHighCode, isLowCode, Bool.and_eq_true, decide_eq_true_eq] at hhigh hlow
  omega

/-- A code point beyond the first plane is read from the escapes of its units `high` and `low`. -/
theorem unicodeEscape_pair {high low : Nat} (hhigh : isHighCode high = true)
    (hlow : isLowCode low = true) (position : Nat) (hrest : rest ≠ []) :
    unicodeEscape position ((hex 4 high).toList ++ '\\' :: 'u' :: ((hex 4 low).toList ++ rest))
      = .ok (Char.ofNat (joinedCode high low), 10) := by
  have hunits := units_lt hhigh hlow
  have hlength : 10 < ((hex 4 high).toList ++
      '\\' :: 'u' :: ((hex 4 low).toList ++ rest)).length := by
    have := length_pos_iff.2 hrest
    simp only [length_append, length_cons, length_hex hunits.1, length_hex hunits.2]
    omega
  have hnext : (((hex 4 high).toList ++
      '\\' :: 'u' :: ((hex 4 low).toList ++ rest)).drop 4).take 2 = ['\\', 'u'] := by
    rw [drop_left' (length_hex hunits.1)]
    rfl
  have hsecond : ((hex 4 high).toList ++
      '\\' :: 'u' :: ((hex 4 low).toList ++ rest)).drop 6 = (hex 4 low).toList ++ rest := by
    rw [← drop_drop (i := 2) (j := 4), drop_left' (length_hex hunits.1)]
    rfl
  rw [unicodeEscape, if_neg (by omega), fourHex?_hex hunits.1]
  simp only [hhigh, hlength, hnext, hsecond, fourHex?_hex hunits.2, hlow, decide_true,
    Bool.true_and, BEq.rfl, if_true]

/-- The units of a code point `n` beyond the first plane. -/
theorem units_of_code (hlow : 0x10000 ≤ n) (hhigh : n < 0x110000) :
    isHighCode (0xD800 + (n - 0x10000) / 0x400) = true ∧
      isLowCode (0xDC00 + (n - 0x10000) % 0x400) = true ∧
      joinedCode (0xD800 + (n - 0x10000) / 0x400) (0xDC00 + (n - 0x10000) % 0x400) = n := by
  have hsecond : (n - 0x10000) % 0x400 < 0x400 := by omega
  have hsum : 0x10000 + (n - 0x10000) / 0x400 * 0x400 + (n - 0x10000) % 0x400 = n := by omega
  generalize _ / 0x400 = q at *
  generalize _ % 0x400 = r at *
  refine ⟨?_, ?_, ?_⟩
  · rw [isHighCode, Bool.and_eq_true, decide_eq_true_eq, decide_eq_true_eq]
    omega
  · rw [isLowCode, Bool.and_eq_true, decide_eq_true_eq, decide_eq_true_eq]
    omega
  · have hcancel : ∀ a b c d : Nat, a + (b + q - b) * d + (c + r - c) = a + q * d + r := by
      intro a b c d
      rw [Nat.add_sub_cancel_left, Nat.add_sub_cancel_left]
    unfold joinedCode
    rw [hcancel]
    exact hsum

/-! ## Strings -/

theorem toNat_lt (c : Char) : c.toNat < 0x110000 := by
  rcases c.valid with h | h
  · simp only [Char.toNat]
    omega
  · exact h.2

theorem isHalfCode_toNat (c : Char) : isHalfCode c.toNat = false := by
  have := c.valid
  simp only [isHalfCode, Bool.and_eq_false_iff, decide_eq_false_iff_not]
  rcases this with h | h <;> simp only [Char.toNat] <;> omega

section Characters

variable {start : Nat} {tail : List Char}

/-- `stringRest` reads `cs` from `text`, wherever it stands, and leaves `rest`. -/
def ReadsRest (start fuel : Nat) (text cs rest : List Char) : Prop :=
  ∀ position, ∃ after, stringRest start fuel ⟨position, text⟩ = .ok (cs, ⟨after, rest⟩)

theorem readsRest_unicode (digits : List Char)
    (hread : ∀ position, unicodeEscape position (digits ++ tail) = .ok (c, digits.length))
    (h : ReadsRest start fuel tail cs rest) :
    ReadsRest start (fuel + 1) ('\\' :: 'u' :: (digits ++ tail)) (c :: cs) rest := by
  intro position
  obtain ⟨after, hafter⟩ := h (position + 1 + 1 + digits.length)
  refine ⟨after, ?_⟩
  rw [stringRest]
  simp [Point.next?, hread, Point.drop, bind, Except.bind, hafter, pure, Except.pure]

theorem readsRest_simple {e : Char} (he : simpleEscape? e = some c) (hu : e ≠ 'u')
    (h : ReadsRest start fuel tail cs rest) :
    ReadsRest start (fuel + 1) ('\\' :: e :: tail) (c :: cs) rest := by
  intro position
  obtain ⟨after, hafter⟩ := h (position + 1 + 1)
  refine ⟨after, ?_⟩
  rw [stringRest]
  simp only [Point.next?, Char.reduceEq, if_false, if_true]
  rw [he]
  simp [bind, Except.bind, hafter, pure, Except.pure]

theorem readsRest_pair {high low : Nat} (hhigh : isHighCode high = true)
    (hlow : isLowCode low = true) (hc : joinedCode high low = c.toNat) (htail : tail ≠ [])
    (h : ReadsRest start fuel tail cs rest) : ReadsRest start (fuel + 1)
      (("\\u" ++ hex 4 high ++ "\\u" ++ hex 4 low).toList ++ tail) (c :: cs) rest := by
  have hshort := units_lt hhigh hlow
  have hread := readsRest_unicode (c := c) ((hex 4 high).toList ++
    '\\' :: 'u' :: (hex 4 low).toList) (fun position => by
      have hpair := unicodeEscape_pair hhigh hlow position htail
      rw [hc, Char.ofNat_toNat] at hpair
      rw [append_assoc, cons_append, cons_append, hpair, length_append,
        length_cons, length_cons, length_hex hshort.1, length_hex hshort.2]) h
  simpa using hread

theorem readsRest_unitEscapes (hc : isHalf c = false) (htail : tail ≠ [])
    (h : ReadsRest start fuel tail cs rest) :
    ReadsRest start (fuel + 1) ((unitEscapes c).toList ++ tail) (c :: cs) rest := by
  have hcode : codeOfChar c = c.toNat := by
    rw [codeOfChar, hc]
    rfl
  rw [unitEscapes, hcode]
  by_cases hn : c.toNat < 0x10000
  · have hread := readsRest_unicode (hex 4 c.toNat).toList (fun position => by
      rw [unicodeEscape_hex hn (isHalfCode_toNat c) position htail, length_hex hn]) h
    simpa [hn] using hread
  · obtain ⟨hhigh, hlow, hjoined⟩ := units_of_code (Nat.le_of_not_lt hn) (toNat_lt c)
    rw [if_neg hn]
    exact readsRest_pair hhigh hlow hjoined htail h

theorem readsRest_escapedChar (hc : isHalf c = false) (htail : tail ≠ [])
    (h : ReadsRest start fuel tail cs rest) :
    ReadsRest start (fuel + 1) ((escapedChar true c).toList ++ tail) (c :: cs) rest := by
  unfold escapedChar
  iterate 7
    split
    · next heq => subst heq; exact readsRest_simple rfl (by decide) h
  iterate 2
    split
    · exact readsRest_unitEscapes hc htail h
  next hquote hslash _ _ _ _ _ hlow _ =>
  intro position
  obtain ⟨after, hafter⟩ := h (position + 1)
  refine ⟨after, ?_⟩
  rw [String.toList_singleton, singleton_append, stringRest]
  simp [Point.next?, hquote, hslash, if_neg (show ¬c.toNat ≤ 0x1F by omega), bind, Except.bind,
    hafter, pure, Except.pure]

end Characters

/-- `cs` as they stand between quotes. -/
def escapedChars (cs : List Char) : List Char := cs.flatMap fun c => (escapedChar true c).toList

theorem toList_quotedText (s : String) :
    (quotedText true s).toList = '"' :: (escapedChars s.toList ++ ['"']) := by
  simp [quotedText, escapedChars, flatMap_map]

theorem readsRest_escapedChars (hcs : ∀ c ∈ cs, isHalf c = false) (start : Nat)
    (hfuel : cs.length < fuel) (rest : List Char) :
    ReadsRest start fuel (escapedChars cs ++ '"' :: rest) cs rest := by
  induction cs generalizing fuel with
  | nil =>
    cases fuel with
    | zero => cases hfuel
    | succ fuel => exact fun position => ⟨position + 1, rfl⟩
  | cons c cs ih =>
    obtain ⟨hc, hcs⟩ := forall_mem_cons.1 hcs
    cases fuel with
    | zero => cases hfuel
    | succ fuel =>
      rw [escapedChars, flatMap_cons, append_assoc]
      exact readsRest_escapedChar hc (by simp) (ih hcs (Nat.lt_of_succ_lt_succ hfuel))

/-- `c` is a plain character that is no line end. -/
def IsPlainChar (c : Char) : Prop := 0x20 ≤ c.toNat ∧ c.toNat ≤ 0x7E

instance (c : Char) : Decidable (IsPlainChar c) :=
  inferInstanceAs (Decidable (0x20 ≤ c.toNat ∧ c.toNat ≤ 0x7E))

theorem isPlainChar_of_all (h : (cs.all fun c => decide (IsPlainChar c)) = true) :
    ∀ c ∈ cs, IsPlainChar c := fun c hc => of_decide_eq_true (all_eq_true.1 h c hc)

theorem isPlainChar_of_mem_hex (hn : n < 0x10000) :
    ∀ c ∈ ("\\u" ++ hex 4 n).toList, IsPlainChar c := by
  have hdigit : ∀ k < 16, IsPlainChar (Nat.digitChar k) := by decide
  have hslash : IsPlainChar '\\' ∧ IsPlainChar 'u' := by decide
  have htext : ("\\u" ++ hex 4 n).toList = '\\' :: 'u' :: (hex 4 n).toList := by simp
  rw [htext, toList_hex hn]
  simp only [forall_mem_cons, not_mem_nil, false_imp_iff, implies_true, and_true]
  exact ⟨hslash.1, hslash.2, hdigit _ (by omega), hdigit _ (by omega), hdigit _ (by omega),
    hdigit _ (by omega)⟩

theorem isPlainChar_of_mem_unitEscapes (c : Char) :
    ∀ d ∈ (unitEscapes c).toList, IsPlainChar d := by
  have hbound : codeOfChar c < 0x110000 := by
    have hchar := toNat_lt c
    rw [codeOfChar]
    split <;> omega
  rw [unitEscapes]
  split
  · next hn => exact isPlainChar_of_mem_hex hn
  · rw [String.append_assoc, String.toList_append]
    intro d hd
    rcases mem_append.1 hd with hd | hd
    · exact isPlainChar_of_mem_hex (by omega) d hd
    · exact isPlainChar_of_mem_hex (by omega) d hd

theorem isPlainChar_of_mem_escapedChar (c : Char) :
    ∀ d ∈ (escapedChar true c).toList, IsPlainChar d := by
  unfold escapedChar
  iterate 7
    split
    · exact isPlainChar_of_all (by decide)
  iterate 2
    split
    · exact isPlainChar_of_mem_unitEscapes c
  next hlow hhigh =>
  rw [String.toList_singleton, forall_mem_singleton, IsPlainChar]
  rw [Bool.true_and, decide_eq_true_eq] at hhigh
  omega

theorem isPlainChar_of_mem_quotedText : ∀ c ∈ (quotedText true s).toList, IsPlainChar c := by
  rw [toList_quotedText]
  intro c hc
  rcases mem_cons.1 hc with rfl | hc
  · decide
  rcases mem_append.1 hc with hc | hc
  · obtain ⟨d, -, hd⟩ := mem_flatMap.1 hc
    exact isPlainChar_of_mem_escapedChar d c hd
  · rw [mem_singleton.1 hc]
    decide

theorem length_le_escapedChars (cs : List Char) : cs.length ≤ (escapedChars cs).length := by
  induction cs with
  | nil => exact le_refl 0
  | cons c cs ih =>
    have hunits : 1 ≤ (unitEscapes c).toList.length := by
      have hmark : "\\u".toList.length = 2 := by decide
      rw [unitEscapes]
      split <;> simp only [String.toList_append, length_append] <;> omega
    have hpos : 1 ≤ (escapedChar true c).toList.length := by
      unfold escapedChar
      repeat' split
      any_goals exact hunits
      all_goals simp
    rw [escapedChars, flatMap_cons, length_append]
    change cs.length + 1 ≤ (escapedChar true c).toList.length + (escapedChars cs).length
    omega

/-- `cs` are plain characters and line ends. -/
def IsPlainText (cs : List Char) : Prop := ∀ c ∈ cs, c = '\n' ∨ IsPlainChar c

theorem isPlainText_of_all (h : (cs.all fun c => decide (IsPlainChar c)) = true) :
    IsPlainText cs := fun c hc => .inr (isPlainChar_of_all h c hc)

theorem isPlainText_cons :
    IsPlainText (c :: cs) ↔ (c = '\n' ∨ IsPlainChar c) ∧ IsPlainText cs := forall_mem_cons

theorem isPlainText_append :
    IsPlainText (cs ++ rest) ↔ IsPlainText cs ∧ IsPlainText rest := forall_mem_append

/-! ## Values -/

/-- Whether `c` can continue a whole number. -/
def continuesNumber (c : Char) : Bool := c.isDigit || c == '.' || c == 'e' || c == 'E'

/-- `rest` may follow a number without belonging to it. -/
def Ends (rest : List Char) : Prop := rest.head?.any continuesNumber = false

instance (rest : List Char) : Decidable (Ends rest) :=
  inferInstanceAs (Decidable (rest.head?.any continuesNumber = false))

variable {r : List Char}

theorem Ends.head (h : Ends (c :: r)) : c.isDigit = false ∧ c ≠ '.' ∧ c ≠ 'e' ∧ c ≠ 'E' := by
  have hc : continuesNumber c = false := h
  simpa [continuesNumber, and_assoc] using hc

/-- `text` has plain characters, and `j` is read from it, whatever follows that cannot belong to it.
-/
structure ReadsAs (text : String) (j : Json) : Prop where
  valueAt_eq : ∀ (fuel position : Nat) (rest : List Char), 2 * text.toList.length ≤ fuel →
    Ends rest → ∃ after, valueAt fuel ⟨position, text.toList ++ rest⟩ = .ok (j, ⟨after, rest⟩)
  starts : ∃ c r, text.toList = c :: r ∧ isSeparator c = false ∧ c ≠ ']'
  isPlain : IsPlainText text.toList

/-- Reading a value takes a first step at its first character `c`. -/
theorem ReadsAs.of_cons {text : String} (htext : text.toList = c :: r)
    (hstart : isSeparator c = false ∧ c ≠ ']') (hplain : IsPlainText text.toList)
    (h : ∀ fuel position rest, 2 * r.length < fuel → Ends rest →
      ∃ after, valueAt (fuel + 1) ⟨position, c :: (r ++ rest)⟩ = .ok (j, ⟨after, rest⟩)) :
    ReadsAs text j := by
  refine ⟨fun fuel position rest hfuel hrest => ?_, ⟨c, r, htext, hstart⟩, hplain⟩
  rw [htext, length_cons] at hfuel
  obtain ⟨fuel, rfl⟩ : ∃ n, fuel = n + 1 := ⟨fuel - 1, by omega⟩
  rw [htext]
  exact h fuel position rest (by omega) hrest

/-- `skipSeparators` skips any number of `separators`. -/
theorem skipSeparators_append {separators : List Char} (h : ∀ c ∈ separators, isSeparator c = true)
    (hc : isSeparator c = false) (r : List Char) (position : Nat) :
    (mk position (separators ++ c :: r)).skipSeparators
      = ⟨position + separators.length, c :: r⟩ := by
  have htake : (separators ++ c :: r).takeWhile isSeparator = separators := by
    rw [takeWhile_append_of_pos h, takeWhile_cons_of_neg (by simp [hc]), append_nil]
  rw [skipSeparators, htake, Point.drop, drop_left]

theorem skipSeparators_cons (hc : isSeparator c = false) (r : List Char) (position : Nat) :
    (mk position (c :: r)).skipSeparators = ⟨position, c :: r⟩ :=
  skipSeparators_append (forall_mem_nil _) hc r position

theorem ReadsAs.parse_eq {text : String} (h : ReadsAs text j) : parse text = .ok j := by
  obtain ⟨c, r, htext, hc, -⟩ := h.starts
  have hmark : ¬text.toList.head? = some '\ufeff' := by
    intro hhead
    have hmem := mem_of_head? hhead
    rcases h.isPlain _ hmem with heq | hbound
    · cases heq
    · exact absurd hbound.2 (by decide)
  obtain ⟨after, hvalue⟩ := h.valueAt_eq (2 * text.toList.length + 2) 0 [] (by omega)
    (show Ends [] by decide)
  rw [parse, parseChars, if_neg hmark]
  rw [append_nil] at hvalue
  have hskip : (Point.mk 0 text.toList).skipSeparators = ⟨0, text.toList⟩ := by
    rw [htext, skipSeparators_cons hc]
  rw [hskip, hvalue]
  rfl

/-- A text `s` without halves of pairs is read from what stands between its quotes. -/
theorem stringRest_quoted (h : ∀ c ∈ s.toList, isHalf c = false) (rest : List Char)
    (start position : Nat) :
    ∃ after, stringRest start ((escapedChars s.toList ++ '"' :: rest).length + 1)
      ⟨position, escapedChars s.toList ++ '"' :: rest⟩ = .ok (s.toList, ⟨after, rest⟩) := by
  refine readsRest_escapedChars h start ?_ rest position
  have := length_le_escapedChars s.toList
  rw [length_append]
  omega

theorem readsAs_str (h : ∀ c ∈ s.toList, isHalf c = false) :
    ReadsAs (quotedText true s) (.str s) := by
  refine .of_cons (toList_quotedText s) (by decide)
    (fun c hc => .inr (isPlainChar_of_mem_quotedText c hc)) fun fuel position rest _ _ => ?_
  obtain ⟨after, hstring⟩ := stringRest_quoted h rest position (position + 1)
  refine ⟨after, ?_⟩
  rw [append_assoc, singleton_append, valueAt]
  simp only [Point.next?, bind, Except.bind, hstring, pure, Except.pure, String.ofList_toList]

/-! ## Whole numbers -/

theorem digitsValue_eq (cs : List Char) : digitsValue cs = Nat.ofDigitChars 10 cs 0 := by
  rw [digitsValue]
  congr 1
  funext n c
  rw [mul_comm]
  rfl

theorem head_toDigits_ne (hn : n ≠ 0) : (Nat.toDigits 10 n).head? ≠ some '0' := by
  induction n using Nat.strongRecOn with
  | ind n ih =>
    by_cases hlt : n < 10
    · rw [Nat.toDigits_of_lt_base hlt]
      have hdigit : ∀ k < 10, k ≠ 0 → some (Nat.digitChar k) ≠ some '0' := by decide
      exact hdigit n hlt hn
    · rw [Nat.toDigits_of_base_le (by decide) (by omega)]
      have hhead := ih (n / 10) (by omega) (by omega)
      cases hdigits : Nat.toDigits 10 (n / 10) with
      | nil => exact absurd hdigits Nat.toDigits_ne_nil
      | cons c r =>
        rw [hdigits] at hhead
        exact hhead

theorem wholeDigits_digits {ds : List Char} (hdigits : ∀ c ∈ d :: ds, c.isDigit = true)
    (hzero : d = '0' → ds = []) (hrest : Ends rest) :
    wholeDigits (d :: ds ++ rest) = d :: ds := by
  have htake : (d :: ds ++ rest).takeWhile Char.isDigit = d :: ds := by
    rw [takeWhile_append_of_pos hdigits]
    cases rest with
    | nil => rw [takeWhile_nil, append_nil]
    | cons c r => rw [takeWhile_cons_of_neg (by simp [hrest.head.1]), append_nil]
  unfold wholeDigits
  split
  · next hcs =>
    obtain rfl : d = '0' := (cons.inj hcs).1
    rw [hzero rfl]
  · exact htake

theorem fractionDigits_of_ends (hrest : Ends rest) : fractionDigits rest = [] := by
  unfold fractionDigits
  split
  · next r => exact absurd rfl hrest.head.2.1
  · rfl

theorem exponentParts_of_ends (hrest : Ends rest) : exponentParts rest = ([], false, 0) := by
  cases rest with
  | nil => rfl
  | cons c r => simp [exponentParts, hrest.head.2.2]

/-- Digits in front of something else are a whole number. -/
theorem number_of_digits {ds : List Char} (hdigits : ∀ c ∈ d :: ds, c.isDigit = true)
    (hzero : d = '0' → ds = []) (hlength : (d :: ds).length ≤ maxIntegerDigits)
    (hrest : Ends rest) :
    number (d :: ds ++ rest) = .ok (some (.int (digitsValue (d :: ds)), (d :: ds).length)) := by
  have hsign : signAndBody (d :: ds ++ rest) = (false, d :: ds ++ rest) := by
    have hminus : d ≠ '-' := by
      rintro rfl
      exact absurd (hdigits _ mem_cons_self) (by decide)
    unfold signAndBody
    split
    · next hcs => exact absurd (cons.inj hcs).1 hminus
    · rfl
  have hafter : (d :: ds ++ rest).drop (d :: ds).length = rest := drop_left
  unfold number
  simp only [hsign, wholeDigits_digits hdigits hzero hrest, hafter, fractionDigits_of_ends hrest,
    isEmpty_nil, if_true, drop_zero, exponentParts_of_ends hrest, Bool.and_self,
    isEmpty_cons, Bool.false_eq_true, if_false, not_lt.2 hlength, zero_add,
    add_zero]

theorem number_toDigits (hn : n < 10 ^ maxIntegerDigits) (hrest : Ends rest) :
    number (Nat.toDigits 10 n ++ rest) = .ok (some (.int n, (Nat.toDigits 10 n).length)) := by
  have hdigits : ∀ c ∈ Nat.toDigits 10 n, c.isDigit = true := fun c hc =>
    Nat.isDigit_of_mem_toDigits (by decide) (by decide) hc
  have hlength : (Nat.toDigits 10 n).length ≤ maxIntegerDigits :=
    (Nat.length_toDigits_le_iff (by decide) (by decide)).2 hn
  have hvalue : digitsValue (Nat.toDigits 10 n) = n := by
    rw [digitsValue_eq, Nat.ofDigitChars_ten_toDigits]
  cases hcs : Nat.toDigits 10 n with
  | nil => exact absurd hcs Nat.toDigits_ne_nil
  | cons d ds =>
    have hzero : d = '0' → ds = [] := by
      rintro rfl
      by_cases hn : n = 0
      · subst hn
        exact (cons.inj hcs).2.symm
      · exact absurd (by rw [hcs]; rfl) (head_toDigits_ne hn)
    rw [hcs] at hdigits hlength hvalue
    rw [number_of_digits hdigits hzero hlength hrest, hvalue]

theorem toList_toString (n : Nat) : (toString (n : Int)).toList = Nat.toDigits 10 n := by
  change (Nat.repr n).toList = _
  simp

/-- No word starts with the digit `d`. -/
theorem find?_words_digit (hd : d.isDigit = true) (r : List Char) :
    (words.find? fun w => w.1.isPrefixOf (d :: r)) = none := by
  have hfirst : ∀ w ∈ words.map Prod.fst, w.head?.any (fun c => !c.isDigit) = true := by decide
  refine find?_eq_none.2 fun w hw hmatch => ?_
  obtain ⟨c, hc, hnot⟩ := Option.any_eq_true _ _ |>.1 (hfirst w.1 (mem_map_of_mem hw))
  obtain ⟨t, ht⟩ := head?_eq_some_iff.1 hc
  rw [ht, isPrefixOf, Bool.and_eq_true, beq_iff_eq] at hmatch
  rw [hmatch.1, hd] at hnot
  cases hnot

theorem isPlainChar_of_isDigit (hc : c.isDigit = true) : IsPlainChar c := by
  rw [Char.isDigit, Bool.and_eq_true, decide_eq_true_eq, decide_eq_true_eq] at hc
  exact ⟨le_trans (by decide) hc.1, le_trans hc.2 (by decide)⟩

theorem isSeparator_of_isDigit (hc : c.isDigit = true) : isSeparator c = false := by
  rw [Bool.eq_false_iff]
  intro hseparator
  simp only [isSeparator, Bool.or_eq_true, beq_iff_eq] at hseparator
  rcases hseparator with ((rfl | rfl) | rfl) | rfl <;> exact absurd hc (by decide)

theorem readsAs_int (hn : n < 10 ^ maxIntegerDigits) : ReadsAs (toString (n : Int)) (.int n) := by
  cases hcs : Nat.toDigits 10 n with
  | nil => exact absurd hcs Nat.toDigits_ne_nil
  | cons d ds =>
    have htext : (toString (n : Int)).toList = d :: ds := (toList_toString n).trans hcs
    have hdigits : ∀ c ∈ d :: ds, c.isDigit = true := fun c hc =>
      Nat.isDigit_of_mem_toDigits (by decide) (by decide) (hcs ▸ hc)
    have hd := hdigits d mem_cons_self
    have hbracket : d ≠ ']' := by
      rintro rfl
      exact absurd hd (by decide)
    have hplain : IsPlainText (toString (n : Int)).toList := by
      rw [htext]
      exact fun c hc => .inr (isPlainChar_of_isDigit (hdigits c hc))
    refine .of_cons htext ⟨isSeparator_of_isDigit hd, hbracket⟩ hplain
      fun fuel position rest _ hrest => ⟨position + (d :: ds).length, ?_⟩
    have hnumber := number_toDigits hn hrest
    rw [hcs] at hnumber
    rw [valueAt]
    split
    · next heq => cases heq
    · next heq => cases heq; exact absurd hd (by decide)
    · next heq => cases heq; exact absurd hd (by decide)
    · next heq => cases heq; exact absurd hd (by decide)
    · rw [find?_words_digit hd]
      rw [← cons_append, hnumber]
      simp [bind, Except.bind, pure, Except.pure, Point.drop]

/-! ## Words -/

theorem readsAs_null : ReadsAs "null" .null :=
  .of_cons rfl (by decide) (isPlainText_of_all (by decide)) fun _ position _ _ _ =>
    ⟨position + 4, rfl⟩

theorem readsAs_bool (b : Bool) : ReadsAs (if b then "true" else "false") (.bool b) := by
  cases b with
  | false =>
    exact .of_cons rfl (by decide) (isPlainText_of_all (by decide)) fun _ position _ _ _ =>
      ⟨position + 5, rfl⟩
  | true =>
    exact .of_cons rfl (by decide) (isPlainText_of_all (by decide)) fun _ position _ _ _ =>
      ⟨position + 4, rfl⟩

/-! ## Arrays and objects -/

/-- A `gap` of blanks and line ends ends a number, as does what may follow it. -/
theorem ends_append {gap : List Char} (hgap : ∀ c ∈ gap, isSeparator c = true) (hc : Ends [c])
    (rest : List Char) : Ends (gap ++ c :: rest) := by
  cases gap with
  | nil => exact hc
  | cons d gap =>
    have hd := hgap d mem_cons_self
    simp only [isSeparator, Bool.or_eq_true, beq_iff_eq] at hd
    change continuesNumber d = false
    rcases hd with ((rfl | rfl) | rfl) | rfl <;> decide

/-- `j` is read off in front of a `gap` and the next token. -/
theorem ReadsAs.valueAt_then {text : String} (h : ReadsAs text j) {gap : List Char}
    (hgap : ∀ c ∈ gap, isSeparator c = true) (hc : Ends [c]) (hseparator : isSeparator c = false)
    (hfuel : 2 * text.toList.length ≤ fuel) (position : Nat) (rest : List Char) :
    ∃ after next, valueAt fuel ⟨position, text.toList ++ (gap ++ c :: rest)⟩
        = .ok (j, ⟨after, gap ++ c :: rest⟩) ∧
      (Point.mk after (gap ++ c :: rest)).skipSeparators = ⟨next, c :: rest⟩ := by
  obtain ⟨after, hvalue⟩ := h.valueAt_eq fuel position _ hfuel (ends_append hgap hc rest)
  exact ⟨after, _, hvalue, skipSeparators_append hgap hseparator rest after⟩

/-- Texts with a comma and a `gap` between them. -/
def lines {α : Type} (gap : List Char) (text : α → String) (xs : List α) : List Char :=
  (',' :: gap).intercalate (xs.map fun x => (text x).toList)

section Lines

variable {α : Type} {gap closing : List Char} {text : α → String}

theorem lines_singleton (x : α) : lines gap text [x] = (text x).toList := intercalate_singleton

theorem lines_cons_cons (x y : α) (xs : List α) : lines gap text (x :: y :: xs)
      = (text x).toList ++ ',' :: (gap ++ lines gap text (y :: xs)) := by
  rfl

variable {m : String × Json}

theorem lines_append_eq_cons (gap : List Char) {x : α} {r : List Char}
    (hx : (text x).toList = c :: r) (xs : List α) (rest : List Char) :
    ∃ r', lines gap text (x :: xs) ++ rest = c :: r' := by
  cases xs with
  | nil => exact ⟨r ++ rest, by rw [lines_singleton, hx]; rfl⟩
  | cons y xs => exact ⟨_, by rw [lines_cons_cons, hx]; rfl⟩

theorem skipSeparators_lines (hgap : ∀ c ∈ gap, isSeparator c = true) {x : α} {r : List Char}
    (hx : (text x).toList = c :: r) (hc : isSeparator c = false) (xs : List α) (rest : List Char)
    (position : Nat) :
    (mk position (gap ++ (lines gap text (x :: xs) ++ rest))).skipSeparators
      = ⟨position + gap.length, lines gap text (x :: xs) ++ rest⟩ := by
  obtain ⟨r', hlines⟩ := lines_append_eq_cons gap hx xs rest
  rw [hlines]
  exact skipSeparators_append hgap hc _ position

/-- `itemsAt` reads the items of an array one after the other. -/
theorem itemsAt_lines {text : Json → String} (hgap : ∀ c ∈ gap, isSeparator c = true)
    (hclosing : ∀ c ∈ closing, isSeparator c = true) {j : Json} {js : List Json}
    (h : ∀ i ∈ j :: js, ReadsAs (text i) i) (hfuel : 2 * (lines gap text (j :: js)).length < fuel)
    (rest : List Char) (position : Nat) :
    ∃ after, itemsAt fuel ⟨position, lines gap text (j :: js) ++ (closing ++ ']' :: rest)⟩
      = .ok (j :: js, ⟨after, rest⟩) := by
  induction js generalizing j fuel position with
  | nil =>
    obtain ⟨fuel, rfl⟩ : ∃ n, fuel = n + 1 := ⟨fuel - 1, by omega⟩
    rw [lines_singleton] at hfuel ⊢
    obtain ⟨after, next, hvalue, hnext⟩ := (h j mem_cons_self).valueAt_then hclosing
      (show Ends [']'] by decide) (by decide) (show _ ≤ fuel by omega) position rest
    refine ⟨next + 1, ?_⟩
    rw [itemsAt]
    simp only [hvalue, hnext, bind, Except.bind, Point.next?, pure, Except.pure]
  | cons j' js ih =>
    obtain ⟨fuel, rfl⟩ : ∃ n, fuel = n + 1 := ⟨fuel - 1, by omega⟩
    obtain ⟨hj, hjs⟩ := forall_mem_cons.1 h
    rw [lines_cons_cons] at hfuel ⊢
    rw [length_append, length_cons, length_append] at hfuel
    rw [append_assoc, cons_append, append_assoc]
    obtain ⟨after, next, hvalue, hnext⟩ := hj.valueAt_then (forall_mem_nil _)
      (show Ends [','] by decide) (by decide) (show _ ≤ fuel by omega) position
      (gap ++ (lines gap text (j' :: js) ++ (closing ++ ']' :: rest)))
    rw [nil_append] at hvalue hnext
    obtain ⟨c, r, htext, hc, -⟩ := (hjs j' mem_cons_self).starts
    obtain ⟨last, hitems⟩ := ih hjs (show _ < fuel by omega) (next + 1 + gap.length)
    refine ⟨last, ?_⟩
    rw [itemsAt]
    simp only [hvalue, hnext, bind, Except.bind, Point.next?, pure, Except.pure,
      skipSeparators_lines hgap htext hc, hitems]

/-- The member `m` of an object as it is written. -/
def memberText (text : Json → String) (m : String × Json) : String :=
  quotedText true m.1 ++ ": " ++ text m.2

theorem toList_memberText (text : Json → String) (m : String × Json) : (memberText text m).toList
      = '"' :: (escapedChars m.1.toList ++ '"' :: ':' :: ' ' :: (text m.2).toList) := by
  simp [memberText, toList_quotedText]

theorem setMember_of_not_mem {members : List (String × Json)} (h : m.1 ∉ members.map Prod.fst) :
    setMember members m.1 m.2 = members ++ [m] := by
  induction members with
  | nil => rfl
  | cons e members ih =>
    rw [map_cons, mem_cons, not_or] at h
    rw [setMember, Keyed.alterEntries, if_neg fun heq => h.1 heq.symm]
    exact congrArg (e :: ·) (ih h.2)

/-- The name and the value of `m` are read off in front of a `gap` and the next token. -/
theorem exists_memberAt {text : Json → String} (hkey : ∀ c ∈ m.1.toList, isHalf c = false)
    (hvalue : ReadsAs (text m.2) m.2) (hgap : ∀ c ∈ gap, isSeparator c = true) (hc : Ends [c])
    (hseparator : isSeparator c = false) (hfuel : 2 * (memberText text m).toList.length ≤ fuel)
    (rest : List Char) (position : Nat) :
    ∃ cs colon after next, (memberText text m).toList ++ (gap ++ c :: rest) = '"' :: cs ∧
      stringRest position (cs.length + 1) ⟨position + 1, cs⟩ = .ok (m.1.toList,
        ⟨colon, ':' :: ' ' :: ((text m.2).toList ++ (gap ++ c :: rest))⟩) ∧
      (mk (colon + 1) (' ' :: ((text m.2).toList ++ (gap ++ c :: rest)))).skipSeparators
        = ⟨colon + 1 + 1, (text m.2).toList ++ (gap ++ c :: rest)⟩ ∧
      valueAt fuel ⟨colon + 1 + 1, (text m.2).toList ++ (gap ++ c :: rest)⟩
        = .ok (m.2, ⟨after, gap ++ c :: rest⟩) ∧
      (mk after (gap ++ c :: rest)).skipSeparators = ⟨next, c :: rest⟩ := by
  rw [toList_memberText] at hfuel ⊢
  simp only [length_cons, length_append] at hfuel
  simp only [cons_append, append_assoc]
  obtain ⟨colon, hstring⟩ := stringRest_quoted hkey (':' :: ' ' :: ((text m.2).toList ++
    (gap ++ c :: rest))) position _
  obtain ⟨after, next, hread, hnext⟩ := hvalue.valueAt_then hgap hc hseparator
    (show _ ≤ fuel by omega) _ rest
  refine ⟨_, colon, after, next, rfl, hstring, ?_, hread, hnext⟩
  obtain ⟨d, r, htext, hd, -⟩ := hvalue.starts
  rw [htext]
  exact skipSeparators_append (forall_mem_singleton.2 (by decide : isSeparator ' ' = true)) hd _
    (colon + 1)

/-- `membersAt` reads the members of an object one after the other. -/
theorem membersAt_lines {text : Json → String} (hgap : ∀ c ∈ gap, isSeparator c = true)
    (hclosing : ∀ c ∈ closing, isSeparator c = true) {ms before : List (String × Json)}
    (hnodup : ((before ++ m :: ms).map Prod.fst).Nodup)
    (hkeys : ∀ e ∈ m :: ms, ∀ c ∈ e.1.toList, isHalf c = false)
    (h : ∀ e ∈ m :: ms, ReadsAs (text e.2) e.2)
    (hfuel : 2 * (lines gap (memberText text) (m :: ms)).length < fuel) (rest : List Char)
    (position : Nat) :
    ∃ after, membersAt fuel before
      ⟨position, lines gap (memberText text) (m :: ms) ++ (closing ++ '\x7d' :: rest)⟩
        = .ok (before ++ m :: ms, ⟨after, rest⟩) := by
  have hmark : isSeparator ':' = false := by decide
  have hfresh : ∀ {before ms : List _} {m : String × Json},
      ((before ++ m :: ms).map Prod.fst).Nodup → m.1 ∉ before.map Prod.fst := by
    intro before ms m hnodup hmem
    rw [map_append, nodup_append] at hnodup
    exact hnodup.2.2 _ hmem _ mem_cons_self rfl
  induction ms generalizing m before fuel position with
  | nil =>
    obtain ⟨fuel, rfl⟩ : ∃ n, fuel = n + 1 := ⟨fuel - 1, by omega⟩
    rw [lines_singleton] at hfuel ⊢
    obtain ⟨cs, colon, after, next, hcs, hstring, hcolon, hvalue, hnext⟩ :=
      exists_memberAt (hkeys m mem_cons_self) (h m mem_cons_self) hclosing
        (show Ends ['\x7d'] by decide) (by decide) (show _ ≤ fuel by omega) rest position
    refine ⟨next + 1, ?_⟩
    rw [hcs, membersAt]
    simp [Point.next?, hstring, bind, Except.bind, skipSeparators_cons hmark, hcolon,
      hvalue, hnext, setMember_of_not_mem (hfresh hnodup), pure, Except.pure]
  | cons m' ms ih =>
    obtain ⟨fuel, rfl⟩ : ∃ n, fuel = n + 1 := ⟨fuel - 1, by omega⟩
    rw [lines_cons_cons] at hfuel ⊢
    rw [length_append, length_cons, length_append] at hfuel
    rw [append_assoc, cons_append, append_assoc]
    obtain ⟨cs, colon, after, next, hcs, hstring, hcolon, hvalue, hnext⟩ :=
      exists_memberAt (hkeys m mem_cons_self) (h m mem_cons_self) (forall_mem_nil _)
        (show Ends [','] by decide) (by decide) (show _ ≤ fuel by omega) _ position
    rw [nil_append] at hcs hstring hcolon hvalue hnext
    have hstarts := toList_memberText text m'
    obtain ⟨last, hmembers⟩ := ih (append_cons before m _ ▸ hnodup)
      (forall_mem_cons.1 hkeys).2 (forall_mem_cons.1 h).2 (show _ < fuel by omega)
      (next + 1 + gap.length)
    refine ⟨last, ?_⟩
    rw [hcs, membersAt, append_cons]
    simp [Point.next?, hstring, bind, Except.bind, skipSeparators_cons hmark, hcolon,
      hvalue, hnext, setMember_of_not_mem (hfresh hnodup),
      skipSeparators_lines hgap hstarts (by decide), hmembers]

theorem isPlainText_lines (hgap : IsPlainText gap) {xs : List α}
    (h : ∀ x ∈ xs, IsPlainText (text x).toList) : IsPlainText (lines gap text xs) := by
  induction xs with
  | nil => exact forall_mem_nil _
  | cons x xs ih =>
    obtain ⟨hx, hxs⟩ := forall_mem_cons.1 h
    cases xs with
    | nil =>
      rw [lines_singleton]
      exact hx
    | cons y xs =>
      exact isPlainText_append.2 ⟨hx, isPlainText_cons.2 ⟨.inr (by decide),
        isPlainText_append.2 ⟨hgap, ih hxs⟩⟩⟩

end Lines

/-! ## Indented texts -/

theorem toList_newlineAt (depth : Nat) :
    (newlineAt depth).toList = '\n' :: replicate (4 * depth) ' ' := by
  simp [newlineAt]

theorem isSeparator_of_mem_newlineAt (depth : Nat) :
    ∀ c ∈ (newlineAt depth).toList, isSeparator c = true := by
  rw [toList_newlineAt]
  intro c hc
  rcases mem_cons.1 hc with rfl | hc
  · rfl
  · rw [eq_of_mem_replicate hc]
    rfl

theorem isPlainText_newlineAt (depth : Nat) : IsPlainText (newlineAt depth).toList := by
  rw [toList_newlineAt]
  refine isPlainText_cons.2 ⟨.inl rfl, fun c hc => ?_⟩
  rw [eq_of_mem_replicate hc]
  exact .inr (by decide)

/-- The texts of `xs` between two brackets, each on a line of its own. -/
def block {α : Type} (opening closing : Char) (depth : Nat) (text : α → String) (xs : List α) :
    List Char :=
  opening :: ((newlineAt (depth + 1)).toList ++ (lines (newlineAt (depth + 1)).toList text xs ++
    ((newlineAt depth).toList ++ [closing])))

theorem toList_pretty_arr (depth : Nat) (j : Json) (js : List Json) :
    (pretty depth (.arr (j :: js))).toList
      = block '[' ']' depth (pretty (depth + 1)) (j :: js) := by
  rw [pretty]
  · simp only [attach_map_val, String.toList_append, String.toList_intercalate, map_map,
      append_assoc]
    rfl
  · exact cons_ne_nil j js

theorem toList_pretty_obj (depth : Nat) (m : String × Json) (ms : List (String × Json)) :
    (pretty depth (.obj (m :: ms))).toList
      = block '\x7b' '\x7d' depth (memberText (pretty (depth + 1))) (m :: ms) := by
  have hmap : (m :: ms).attach.map (fun e => memberText (pretty (depth + 1)) e.1)
      = (m :: ms).map (memberText (pretty (depth + 1))) := attach_map_val
  unfold memberText at hmap
  rw [pretty]
  · simp only [hmap, String.toList_append, String.toList_intercalate, map_map, append_assoc]
    rfl
  · exact cons_ne_nil m ms

/-- The values that are read back as they were written: no fractions, no halves of pairs, no name
twice in an object, no negative numbers and none with too many digits. -/
inductive IsExact : Json → Prop
  | null : IsExact .null
  | bool (b : Bool) : IsExact (.bool b)
  | int {n : Nat} (h : n < 10 ^ maxIntegerDigits) : IsExact (.int n)
  | str {s : String} (h : ∀ c ∈ s.toList, isHalf c = false) : IsExact (.str s)
  | arr {items : List Json} (h : ∀ j ∈ items, IsExact j) : IsExact (.arr items)
  | obj {members : List (String × Json)} (hnodup : (members.map Prod.fst).Nodup)
    (hnames : ∀ m ∈ members, ∀ c ∈ m.1.toList, isHalf c = false)
    (h : ∀ m ∈ members, IsExact m.2) : IsExact (.obj members)

theorem valueAt_bracket {fuel position start : Nat} {cs : List Char} {c : Char}
    (hskip : (mk (position + 1) cs).skipSeparators = ⟨start, c :: r⟩) (hc : c ≠ ']')
    {items : List Json} {p : Point} (hitems : itemsAt fuel ⟨start, c :: r⟩ = .ok (items, p)) :
    valueAt (fuel + 1) ⟨position, '[' :: cs⟩ = .ok (.arr items, p) := by
  rw [valueAt]
  simp only [Point.next?, hskip]
  split
  · next heq =>
    cases heq
    exact absurd rfl hc
  · rw [hitems]
    rfl

theorem valueAt_brace {position start : Nat}
    (hskip : (mk (position + 1) cs).skipSeparators = ⟨start, c :: r⟩) (hc : c ≠ '\x7d')
    {members : List (String × Json)} {p : Point}
    (hmembers : membersAt fuel [] ⟨start, c :: r⟩ = .ok (members, p)) :
    valueAt (fuel + 1) ⟨position, '\x7b' :: cs⟩ = .ok (.obj members, p) := by
  rw [valueAt]
  simp only [Point.next?, hskip]
  split
  · next heq =>
    cases heq
    exact absurd rfl hc
  · rw [hmembers]
    rfl

/-- A value that is written as a `block` is read back if it is read from the texts of `x` and `xs`,
of which the first starts with `c`. -/
theorem readsAs_of_block {α : Type} {opening closing : Char} {depth : Nat} {text : α → String}
    {x : α} {xs : List α}
    (htext : (pretty depth j).toList = block opening closing depth text (x :: xs))
    (hopening : isSeparator opening = false ∧ opening ≠ ']')
    (hchars : IsPlainChar opening ∧ IsPlainChar closing)
    (hplain : ∀ y ∈ x :: xs, IsPlainText (text y).toList)
    (hstarts : (text x).toList = c :: r) (hc : isSeparator c = false)
    (h : ∀ fuel position start rest cs r',
      2 * (lines (newlineAt (depth + 1)).toList text (x :: xs)).length < fuel →
      lines (newlineAt (depth + 1)).toList text (x :: xs) ++
        ((newlineAt depth).toList ++ closing :: rest) = c :: r' →
      (mk (position + 1) cs).skipSeparators = ⟨start, c :: r'⟩ →
      ∃ after, valueAt (fuel + 1) ⟨position, opening :: cs⟩ = .ok (j, ⟨after, rest⟩)) :
    ReadsAs (pretty depth j) j := by
  have hall : IsPlainText (pretty depth j).toList := by
    simp only [htext, block, isPlainText_cons, isPlainText_append]
    exact ⟨.inr hchars.1, isPlainText_newlineAt _,
      isPlainText_lines (isPlainText_newlineAt _) hplain, isPlainText_newlineAt _, .inr hchars.2,
      forall_mem_nil _⟩
  refine .of_cons htext hopening hall fun fuel position rest hfuel _ => ?_
  rw [length_append, length_append] at hfuel
  obtain ⟨r', hlines⟩ := lines_append_eq_cons (newlineAt _).toList hstarts xs
    ((newlineAt depth).toList ++ closing :: rest)
  have hskip := skipSeparators_lines (isSeparator_of_mem_newlineAt (depth + 1)) hstarts hc xs
    ((newlineAt depth).toList ++ closing :: rest) (position + 1)
  simp only [append_assoc, cons_append, nil_append]
  exact h fuel position _ rest _ r' (by omega) hlines (hskip.trans (by rw [hlines]))

theorem readsAs_pretty_arr {depth : Nat} {items : List Json}
    (h : ∀ j ∈ items, ReadsAs (pretty (depth + 1) j) j) :
    ReadsAs (pretty depth (.arr items)) (.arr items) := by
  cases items with
  | nil =>
    rw [pretty]
    exact .of_cons rfl (by decide) (isPlainText_of_all (by decide)) fun _ position _ _ _ =>
      ⟨position + 1 + 1, rfl⟩
  | cons j js =>
    obtain ⟨c, r, hstarts, hc, hbracket⟩ := (h j mem_cons_self).starts
    refine readsAs_of_block (toList_pretty_arr depth j js) (by decide) (by decide)
      (fun i hi => (h i hi).isPlain) hstarts hc
      fun fuel position start rest cs r' hfuel hlines hskip => ?_
    obtain ⟨after, hitems⟩ := itemsAt_lines (isSeparator_of_mem_newlineAt (depth + 1))
      (isSeparator_of_mem_newlineAt depth) h hfuel rest start
    rw [hlines] at hitems
    exact ⟨after, valueAt_bracket hskip hbracket hitems⟩

theorem isPlainText_memberText {text : Json → String} {m : String × Json}
    (h : IsPlainText (text m.2).toList) : IsPlainText (memberText text m).toList := by
  have hkey : IsPlainText (quotedText true m.1).toList := fun c hc =>
    .inr (isPlainChar_of_mem_quotedText c hc)
  rw [memberText, String.toList_append, String.toList_append]
  exact isPlainText_append.2 ⟨isPlainText_append.2 ⟨hkey, isPlainText_of_all (by decide)⟩, h⟩

theorem readsAs_pretty_obj {depth : Nat} {members : List (String × Json)}
    (hnodup : (members.map Prod.fst).Nodup)
    (hnames : ∀ m ∈ members, ∀ c ∈ m.1.toList, isHalf c = false)
    (h : ∀ m ∈ members, ReadsAs (pretty (depth + 1) m.2) m.2) :
    ReadsAs (pretty depth (.obj members)) (.obj members) := by
  cases members with
  | nil =>
    rw [pretty]
    exact .of_cons rfl (by decide) (isPlainText_of_all (by decide)) fun _ position _ _ _ =>
      ⟨position + 1 + 1, rfl⟩
  | cons m ms =>
    refine readsAs_of_block (toList_pretty_obj depth m ms) (by decide) (by decide)
      (fun e he => isPlainText_memberText (h e he).isPlain) (toList_memberText _ m) (by decide)
      fun fuel position start rest cs r' hfuel hlines hskip => ?_
    have hfresh : (([] ++ m :: ms).map Prod.fst).Nodup := hnodup
    obtain ⟨after, hmembers⟩ := membersAt_lines (isSeparator_of_mem_newlineAt (depth + 1))
      (isSeparator_of_mem_newlineAt depth) hfresh hnames h hfuel rest start
    rw [hlines] at hmembers
    exact ⟨after, valueAt_brace hskip (by decide) hmembers⟩

/-- An exact value `j` is read from its indented text. -/
theorem IsExact.readsAs_pretty (h : IsExact j) (depth : Nat) : ReadsAs (pretty depth j) j := by
  induction h generalizing depth with
  | null => simpa [pretty, render, renderWith] using readsAs_null
  | bool b => simpa [pretty, render, renderWith] using readsAs_bool b
  | int h => simpa [pretty, render, renderWith] using readsAs_int h
  | str h => simpa [pretty, render, renderWith] using readsAs_str h
  | arr _ ih => exact readsAs_pretty_arr fun j hj => ih j hj _
  | obj hnodup hnames _ ih => exact readsAs_pretty_obj hnodup hnames fun m hm => ih m hm _

end SmellLint.Json
