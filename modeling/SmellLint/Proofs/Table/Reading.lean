import SmellLint.Project.Analysis
import Mathlib.Data.List.Basic
import SmellLint.Proofs.Lists

/-!
# Reading tables of findings

A table that has been written is read again.  Records of two or more fields are read as they are
written, each field up to its first NUL, as long as a carriage return stands in quotes
(`Csv.scan_records`, `Table.read_fieldsText`).  Words stay texts and numbers of lines stay whole
numbers (`Table.columnOfTexts_of_isWord`, `Table.columnOfTexts_of_lines`); other texts may become
numbers or truth values, which are written without anything that needs quotes
(`Cell.isPlainText_written`).
-/

namespace SmellLint.Csv

open Text.Utf8 List

/-- `s` up to its first NUL, which is what reading a field gives. -/
def clipped (s : String) : String := String.ofList (s.toList.takeWhile (· != '\x00'))

/-- `field` is read as it is written: a carriage return in it stands in quotes. -/
def IsSafe (field : String) : Prop := '\r' ∈ field.toList → needsQuotes field = true

instance (field : String) : Decidable (IsSafe field) :=
  inferInstanceAs (Decidable ('\r' ∈ field.toList → needsQuotes field = true))

/-- `cs` with every quote twice. -/
def doubled (cs : List Char) : List Char := cs.flatMap fun c => if c = '"' then ['"', '"'] else [c]

def recordChars : List String → List Char
  | [] => ['\n']
  | [f] => (fieldText f).toList ++ ['\n']
  | f :: r => (fieldText f).toList ++ ',' :: recordChars r

theorem one_le_length_recordChars (fields : List String) : 1 ≤ (recordChars fields).length := by
  unfold recordChars
  split <;> simp
  omega

/-- There are no more records than characters. -/
theorem length_le_flatMap_recordChars (rows : List (List String)) :
    rows.length ≤ (rows.flatMap recordChars).length := by
  induction rows with
  | nil => simp
  | cons r rows ih =>
    have hone := one_le_length_recordChars r
    rw [flatMap_cons, length_append, length_cons]
    omega

theorem toList_fieldText (f : String) : (fieldText f).toList =
      if needsQuotes f then '"' :: (doubled f.toList ++ ['"']) else f.toList := by
  unfold fieldText doubled
  split_ifs <;> simp

theorem toList_recordText {fields : List String} (h : 2 ≤ fields.length) :
    (recordText fields).toList = recordChars fields := by
  have hchars (f : String) (r : List String) :
      (",".intercalate ((f :: r).map fieldText)).toList ++ ['\n'] = recordChars (f :: r) := by
    induction r generalizing f with
    | nil => simp [recordChars]
    | cons g r ih =>
      rw [recordChars, ← ih g]
      simp
      simp
  obtain ⟨f, g, r, rfl⟩ := exists_cons_cons h
  rw [← hchars]
  simp [recordText]

variable {cs : List Char} {f : String} {state : State}

theorem mem_doubled {c : Char} : c ∈ doubled cs ↔ c ∈ cs := by
  rw [doubled, mem_flatMap]
  refine ⟨?_, fun hc => ⟨c, hc, by split <;> simp_all⟩⟩
  rintro ⟨d, hd, hc⟩
  split at hc <;> simp_all

theorem encodeFault?_fieldText_eq_none_iff :
    encodeFault? (fieldText f) = none ↔ encodeFault? f = none := by
  have hquote : Text.isHalf '"' = false := by decide
  simp only [encodeFault?_eq_none_iff, toList_fieldText]
  split_ifs
  · simp [mem_doubled, hquote, or_imp, forall_and]
  · rfl

/-- A record can be encoded if each of its `fields` can. -/
theorem encodeFault?_recordText_eq_none_iff {fields : List String} (h : 2 ≤ fields.length) :
    encodeFault? (recordText fields) = none ↔ ∀ f ∈ fields, encodeFault? f = none := by
  have hends : Text.isHalf ',' = false ∧ Text.isHalf '\n' = false := by decide
  rw [encodeFault?_eq_none_iff, toList_recordText h]
  clear h
  have hfield := fun f => encodeFault?_eq_none_iff.symm.trans
    (encodeFault?_fieldText_eq_none_iff (f := f))
  fun_induction recordChars fields with
  | case1 => simp [hends]
  | case2 f => simp [or_imp, forall_and, hfield, hends]
  | case3 f r _ ih => simp [or_imp, forall_and, hfield, hends, ih]

/-- A field `f` that is written without quotes has nothing in it that ends a field or a record. -/
theorem IsSafe.plain (hf : IsSafe f) (hquotes : ¬needsQuotes f = true) :
    ∀ c ∈ f.toList, c ≠ ',' ∧ c ≠ '"' ∧ c ≠ '\n' ∧ c ≠ '\r' := by
  intro c hc
  have hreturn : '\r' ∉ f.toList := fun hmem => hquotes (hf hmem)
  simp only [needsQuotes, Bool.not_eq_true, any_eq_false, Bool.or_eq_true, beq_iff_eq,
    not_or] at hquotes
  obtain ⟨⟨hcomma, hquote⟩, hfeed⟩ := hquotes c hc
  refine ⟨hcomma, hquote, hfeed, ?_⟩
  rintro rfl
  exact hreturn hc

/-! ## Scanning what is written -/

attribute [grind =] scan

variable {line fuel : Nat} {fields : List String} {rest : List Char}

/-- `scan` takes characters in quotes as they stand, a doubled quote for one. -/
theorem scan_doubled (cs read : List Char) :
    scan line .inQuotes (some ⟨fields, read⟩) (fuel + (doubled cs).length) (doubled cs ++ rest)
      = scan line .inQuotes (some ⟨fields, cs.reverse ++ read⟩) fuel rest := by
  induction cs generalizing read with
  | nil => rfl
  | cons c cs ih =>
    by_cases hc : c = '"'
    · have hcons : doubled (c :: cs) = '"' :: '"' :: doubled cs := by simp [doubled, hc]
      rw [hcons, length_cons, length_cons, ← Nat.add_assoc, ← Nat.add_assoc,
        cons_append, cons_append, scan, scan]
      simp only [reduceCtorEq]
      rw [ih, hc, reverse_cons, append_assoc]
      rfl
    · have hcons : doubled (c :: cs) = c :: doubled cs := by simp [doubled, hc]
      rw [hcons, length_cons, ← Nat.add_assoc, cons_append, scan]
      simp only [hc]
      rw [ih, reverse_cons, append_assoc]
      rfl

/-- `scan` takes characters that need no quotes as they stand. -/
theorem scan_plain (h : ∀ c ∈ cs, c ≠ ',' ∧ c ≠ '"' ∧ c ≠ '\n' ∧ c ≠ '\r') (read : List Char)
    (hstate : state = .fieldStart ∨ state = .inField) :
    ∃ state', state' ≠ .inQuotes ∧
      scan line state (some ⟨fields, read⟩) (fuel + cs.length) (cs ++ rest)
        = scan line state' (some ⟨fields, cs.reverse ++ read⟩) fuel rest := by
  induction cs generalizing read state with
  | nil =>
    refine ⟨state, ?_, rfl⟩
    rcases hstate with rfl | rfl <;> decide
  | cons c cs ih =>
    obtain ⟨⟨hcomma, hquote, hfeed, hreturn⟩, hcs⟩ := forall_mem_cons.1 h
    obtain ⟨state', hne, hscan⟩ := ih hcs (c :: read) (.inr rfl)
    refine ⟨state', hne, ?_⟩
    rw [length_cons, ← Nat.add_assoc, cons_append, scan]
    rcases hstate with rfl | rfl <;>
      simp [hcomma, hquote, hfeed, hreturn, hscan]

theorem scan_openQuote (p : Unfinished) :
    scan line .fieldStart (some p) (fuel + 1) ('"' :: rest)
      = scan line .inQuotes (some p) fuel rest := by
  rw [scan]
  simp

theorem scan_closeQuote (p : Unfinished) :
    scan line .inQuotes (some p) (fuel + 1) ('"' :: rest)
      = scan line .quoteInQuotes (some p) fuel rest := by
  rw [scan]
  simp

/-- `scan` reads a field `f` that is safe as it is written. -/
theorem scan_fieldText (line fuel : Nat) (fields : List String) (rest : List Char) (hf : IsSafe f) :
    ∃ state, state ≠ .inQuotes ∧
      scan line .fieldStart (some ⟨fields, []⟩) (fuel + (fieldText f).toList.length)
          ((fieldText f).toList ++ rest)
        = scan line state (some ⟨fields, f.toList.reverse⟩) fuel rest := by
  rw [toList_fieldText]
  split_ifs with hquotes
  · refine ⟨.quoteInQuotes, by decide, ?_⟩
    have hlength : fuel + ('"' :: (doubled f.toList ++ ['"'])).length
        = fuel + 1 + (doubled f.toList).length + 1 := by
      simp
      omega
    rw [hlength, cons_append, scan_openQuote, append_assoc, scan_doubled,
      singleton_append, scan_closeQuote, append_nil]
  · obtain ⟨state, hne, hscan⟩ := scan_plain (hf.plain hquotes) [] (.inl rfl)
    exact ⟨state, hne, by rw [hscan, append_nil]⟩

/-- `scan` ends a field at a comma. -/
theorem scan_comma (hstate : state ≠ .inQuotes) (p : Unfinished) :
    scan line state (some p) (fuel + 1) (',' :: rest)
      = scan line .fieldStart (some p.endField) fuel rest := by
  rw [scan]
  simp [hstate]

theorem scan_lineEnd (hstate : state ≠ .inQuotes) (p : Unfinished) :
    scan line state (some p) (fuel + 1) ('\n' :: rest) = (do
      let more ← scan (line + 1) .fieldStart none fuel rest
      return ⟨line + 1, p.finish⟩ :: more) := by
  rw [scan]
  simp [hstate]

/-- `scan` reads a record whose fields are safe as they are written, each up to its first NUL. -/
theorem scan_recordChars {fs : List String} (hne : fs ≠ []) (hfs : ∀ f ∈ fs, IsSafe f)
    (fields : List String) :
    scan line .fieldStart (some ⟨fields, []⟩) (fuel + (recordChars fs).length)
        (recordChars fs ++ rest) = (do
      let more ← scan (line + 1) .fieldStart none fuel rest
      return ⟨line + 1, fields.reverse ++ fs.map clipped⟩ :: more) := by
  induction fs generalizing fields with
  | nil => exact absurd rfl hne
  | cons f fs ih =>
    obtain ⟨hf, hfs⟩ := forall_mem_cons.1 hfs
    cases fs with
    | nil =>
      have hlength : fuel + (recordChars [f]).length
          = fuel + 1 + (fieldText f).toList.length := by
        simp [recordChars]
        omega
      obtain ⟨state, hstate, hscan⟩ := scan_fieldText line _ fields ('\n' :: rest) hf
      rw [hlength, recordChars, append_assoc, singleton_append, hscan, scan_lineEnd hstate]
      simp [Unfinished.finish, Unfinished.endField, clipped]
    | cons g fs =>
      have hlength : fuel + (recordChars (f :: g :: fs)).length
          = fuel + (recordChars (g :: fs)).length + 1 + (fieldText f).toList.length := by
        simp [recordChars]
        omega
      obtain ⟨state, hstate, hscan⟩ := scan_fieldText line
        (fuel + (recordChars (g :: fs)).length + 1) fields (',' :: (recordChars (g :: fs) ++ rest))
        hf
      have hchars : recordChars (f :: g :: fs) ++ rest
          = (fieldText f).toList ++ ',' :: (recordChars (g :: fs) ++ rest) := by
        simp [recordChars]
      rw [hlength, hchars, hscan, scan_comma hstate, Unfinished.endField, ih (cons_ne_nil _ _) hfs]
      simp [clipped]

/-- A line with a comma that no line end comes before is not blank. -/
theorem dropBlankLine?_of_comma (h : ∀ c ∈ cs, c ≠ '\n' ∧ c ≠ '\r') :
    dropBlankLine? (cs ++ ',' :: rest) = none := by
  induction cs with
  | nil => simp [dropBlankLine?]
  | cons c cs ih =>
    obtain ⟨⟨hfeed, hreturn⟩, hcs⟩ := forall_mem_cons.1 h
    by_cases hc : (c == ' ' || c == '\t') = true
    · simpa [dropBlankLine?, hc] using ih hcs
    · simp only [dropBlankLine?]
      split <;> simp_all

theorem dropBlankLine?_recordChars (rest : List Char) {fs : List String} (hlength : 2 ≤ fs.length)
    (hfs : ∀ f ∈ fs, IsSafe f) :
    dropBlankLine? (recordChars fs ++ rest) = none ∧
      ((recordChars fs ++ rest).all fun c => c == ' ' || c == '\t') = false := by
  obtain ⟨f, g, fs, rfl⟩ := exists_cons_cons hlength
  have hchars : recordChars (f :: g :: fs) ++ rest
      = (fieldText f).toList ++ ',' :: (recordChars (g :: fs) ++ rest) := by
    simp [recordChars]
  rw [hchars]
  have hf := hfs f mem_cons_self
  refine ⟨?_, by simp⟩
  by_cases hquotes : needsQuotes f = true
  · rw [toList_fieldText, if_pos hquotes]
    simp [dropBlankLine?]
  · rw [toList_fieldText, if_neg hquotes]
    refine dropBlankLine?_of_comma fun c hc => ?_
    exact (hf.plain hquotes c hc).2.2

theorem scan_start (hblank : dropBlankLine? cs = none)
    (hall : (cs.all fun c => c == ' ' || c == '\t') = false) :
    scan line .fieldStart none (fuel + 1) cs = scan line .fieldStart (some ⟨[], []⟩) fuel cs := by
  cases cs with
  | nil => simp at hall
  | cons c cs =>
    rw [scan]
    simp [hblank, hall]

/-- `scan` reads records of safe fields as they are written. -/
theorem scan_records {rows : List (List String)} (hrows : ∀ r ∈ rows, 2 ≤ r.length ∧
    ∀ f ∈ r, IsSafe f) (line fuel : Nat)
    (hfuel : (rows.flatMap recordChars).length + rows.length ≤ fuel) :
    ∃ rs, scan line .fieldStart none fuel (rows.flatMap recordChars) = .ok rs ∧
      rs.map Record.fields = rows.map (map clipped) := by
  induction rows generalizing line fuel with
  | nil =>
    cases fuel <;> simp [scan]
  | cons r rows ih =>
    obtain ⟨⟨hlength, hr⟩, hrows⟩ := forall_mem_cons.1 hrows
    rw [flatMap_cons, length_append, length_cons] at hfuel
    obtain ⟨k, rfl⟩ := Nat.exists_eq_add_of_le hfuel
    obtain ⟨rs, hscan, hfields⟩ := ih hrows _
      ((rows.flatMap recordChars).length + rows.length + k) (by omega)
    obtain ⟨hblank, hall⟩ := dropBlankLine?_recordChars _ hlength hr
    refine ⟨⟨line + 1, r.map clipped⟩ :: rs, ?_, by rw [map_cons, map_cons, hfields]⟩
    have hstart : (recordChars r).length + (rows.flatMap recordChars).length + (rows.length + 1) + k
        = (rows.flatMap recordChars).length + rows.length + k + (recordChars r).length + 1 := by
      omega
    have hne : r ≠ [] := by
      rintro rfl
      simp at hlength
    rw [flatMap_cons, hstart, scan_start hblank hall, scan_recordChars hne hr, hscan]
    rfl

end SmellLint.Csv

namespace SmellLint.Table

open Csv Row List

/-- The fields `rows` below the columns of a table of findings. -/
def ofFields (rows : List (List String)) : Table :=
  ⟨columnNames.mapIdx fun i n => columnOfTexts n (columnTexts rows i), rows.length⟩

/-- The fields `rows` as a table of findings is written. -/
def fieldsText (rows : List (List String)) : String :=
  String.join (recordText columnNames :: rows.map recordText)

variable {rows : List (List String)} {n : Nat} {c : Char}

theorem toList_fieldsText (hrows : ∀ r ∈ rows, r.length = 6) :
    (fieldsText rows).toList = (columnNames :: rows).flatMap recordChars := by
  rw [fieldsText, String.toList_join, ← map_cons (f := recordText), flatMap_map]
  refine flatMap_congr fun r hr => toList_recordText ?_
  rcases mem_cons.1 hr with rfl | hr
  · decide
  · rw [hrows r hr]
    decide

theorem records_fieldsText (hrows : ∀ r ∈ rows, r.length = 6 ∧ ∀ f ∈ r, IsSafe f) :
    ∃ header data, Csv.records (fieldsText rows) = .ok (header :: data) ∧
      header.fields = columnNames ∧ data.map (·.fields) = rows.map (map clipped) := by
  have hnames : ∀ f ∈ columnNames, IsSafe f ∧ clipped f = f := by decide
  have hall : ∀ r ∈ columnNames :: rows, 2 ≤ r.length ∧ ∀ f ∈ r, IsSafe f := by
    refine forall_mem_cons.2 ⟨⟨by decide, fun f hf => (hnames f hf).1⟩, fun r hr => ?_⟩
    exact ⟨by rw [(hrows r hr).1]; decide, (hrows r hr).2⟩
  have hchars := toList_fieldsText fun r hr => (hrows r hr).1
  have hfuel := length_le_flatMap_recordChars (columnNames :: rows)
  obtain ⟨rs, hscan, hfields⟩ := scan_records hall 0
    (3 * ((columnNames :: rows).flatMap recordChars).length + 3) (by omega)
  have hrecords : Csv.records (fieldsText rows) = .ok rs := by
    rw [Csv.records, hchars]
    exact hscan
  cases rs with
  | nil => cases hfields
  | cons header data =>
    obtain ⟨hheader, hdata⟩ := cons.inj hfields
    refine ⟨header, data, hrecords, ?_, hdata⟩
    rw [hheader]
    refine (map_congr_left fun f hf => ?_).trans (map_id _)
    exact (hnames f hf).2

theorem evenRecords_of_length {width : Nat} {data : List Record}
    (h : ∀ r ∈ data, r.fields.length = width) :
    evenRecords width data = .ok (data.map (·.fields)) := by
  induction data with
  | nil => rfl
  | cons r data ih =>
    obtain ⟨hr, hdata⟩ := forall_mem_cons.1 h
    simp [evenRecords, hr, ih hdata, bind, Except.bind, pure, Except.pure]

/-- `read` gives a table of findings as it is written, each field up to its first NUL. -/
theorem read_fieldsText (hrows : ∀ r ∈ rows, r.length = 6 ∧ ∀ f ∈ r, IsSafe f) :
    read (fieldsText rows) = .ok (ofFields (rows.map (map clipped))) := by
  obtain ⟨header, data, hrecords, hheader, hdata⟩ := records_fieldsText hrows
  have hlength : ∀ r ∈ data, r.fields.length = 6 := by
    intro r hr
    have hmem : r.fields ∈ rows.map (map clipped) := hdata ▸ mem_map_of_mem hr
    obtain ⟨r', hr', heq⟩ := mem_map.1 hmem
    rw [← heq, length_map, (hrows r' hr').1]
  have hread : readRows (fieldsText rows)
      = .ok (columnNames, rows.map (map clipped)) := by
    unfold readRows
    rw [hrecords, ← hdata]
    simp only [bind, Except.bind, hheader]
    cases data with
    | nil => rfl
    | cons first data =>
      have hwidth : max columnNames.length first.fields.length = 6 := by
        rw [hlength first mem_cons_self]
        rfl
      simp only [hwidth, evenRecords_of_length hlength]
      have hdrop : ∀ r : List String, r.drop (6 - columnNames.length) = r := fun r => rfl
      simp only [hdrop, map_id']
      rfl
  rw [read, hread]
  rfl

/-! ## Columns -/

/-- `c` has been made of `texts` under `name`: a text in it is one of them. -/
structure IsColumnOf (name : String) (texts : List String) (c : Column) : Prop where
  name_eq : c.name = name
  mem_of_text : ∀ s, .text s ∈ c.cells → s ∈ texts

variable {name : String} {texts : List String}

theorem isColumnOf_textColumn : IsColumnOf name texts (textColumn name texts) := by
  refine ⟨rfl, fun s hs => ?_⟩
  obtain ⟨s', hs', heq⟩ := mem_map.1 hs
  split_ifs at heq
  cases heq
  exact hs'

theorem isColumnOf_wordColumn (ns : List (Option Int)) :
    IsColumnOf name texts (wordColumn name ns) := by
  unfold wordColumn
  split_ifs
  · refine ⟨rfl, fun s hs => ?_⟩
    obtain ⟨n, -, heq⟩ := mem_map.1 hs
    cases n with
    | none => cases heq
    | some n =>
      dsimp only at heq
      split_ifs at heq
  · refine ⟨rfl, fun s hs => ?_⟩
    obtain ⟨n, -, heq⟩ := mem_filterMap.1 hs
    cases n <;> cases heq

theorem isColumnOf_numberColumn : IsColumnOf name texts (numberColumn name texts) := by
  unfold numberColumn
  split
  · refine ⟨rfl, fun s hs => ?_⟩
    obtain ⟨x, -, heq⟩ := mem_map.1 hs
    cases x <;> cases heq
  · split
    · refine ⟨rfl, fun s hs => ?_⟩
      obtain ⟨x, -, heq⟩ := mem_map.1 hs
      cases x <;> cases heq
    · exact isColumnOf_textColumn

theorem isColumnOf_largeColumn : IsColumnOf name texts (largeColumn name texts) := by
  unfold largeColumn
  split
  · exact isColumnOf_numberColumn
  · exact isColumnOf_textColumn
  · dsimp only
    split_ifs
    · refine ⟨rfl, fun s hs => ?_⟩
      obtain ⟨s', hs', heq⟩ := mem_map.1 hs
      cases heq
      exact hs'
    · exact isColumnOf_textColumn
    · refine ⟨rfl, fun s hs => ?_⟩
      obtain ⟨n, -, heq⟩ := mem_filterMap.1 hs
      obtain ⟨m, -, heq⟩ := Option.map_eq_some_iff.1 heq
      cases heq

theorem isColumnOf_columnOfTexts (name : String) (texts : List String) :
    IsColumnOf name texts (columnOfTexts name texts) := by
  unfold columnOfTexts
  split_ifs
  · exact ⟨rfl, fun s hs => absurd hs not_mem_nil⟩
  · split
    · exact isColumnOf_wordColumn _
    · exact isColumnOf_numberColumn
    · exact isColumnOf_largeColumn

/-- `s` is not what a number, truth value or missing cell is written as. -/
structure IsWord (s : String) : Prop where
  readWord : readWord s = .error .noNumber
  readFloat : readFloat? s = none
  readBool : readBool? s = none
  isMissing : isMissingText s = false

/-- Whether `s` can be told from a number by its first character, and from the words for numbers,
truth values and missing cells. -/
def isWordText (s : String) : Bool :=
  (s.toList.head?.any fun c =>
    !isNumberBlank c && !c.isDigit && c != '-' && c != '+' && c != '.') &&
  (infinityWords.lookup s.toLower).isNone && (readBool? s).isNone && !isMissingText s

theorem isWord_of_isWordText {s : String} (h : isWordText s = true) : IsWord s := by
  simp only [isWordText, Bool.and_eq_true, Option.isNone_iff_eq_none, Bool.not_eq_true'] at h
  obtain ⟨⟨⟨hhead, hinfinity⟩, hbool⟩, hmissing⟩ := h
  cases hs : s.toList with
  | nil => simp [hs] at hhead
  | cons c cs =>
    simp only [hs, head?_cons, Option.any_some, Bool.and_eq_true, bne_iff_ne,
      Bool.not_eq_true'] at hhead
    obtain ⟨⟨⟨⟨hblank, hdigit⟩, hminus⟩, hplus⟩, hpoint⟩ := hhead
    have hdrop : (c :: cs).dropWhile isNumberBlank = c :: cs := by simp [hblank]
    have hsign : splitSign (c :: cs) = (false, c :: cs) := by
      unfold splitSign
      split <;> simp_all
    refine ⟨?_, ?_, hbool, hmissing⟩
    · simp [readWord, hs, hdrop, hsign, magnitude, hdigit, Except.map]
    · have hdecimal : readDecimal? s = none := by
        simp [readDecimal?, hs, hdrop, hsign, addDigits, maxDigits, hdigit]
        intro hcount
        refine absurd ?_ hcount
        split
        · next heq =>
          cases heq
          exact absurd rfl hpoint
        · rfl
      simp [readFloat?, hdecimal, hinfinity]

/-- `columnOfTexts` keeps words as texts. -/
theorem columnOfTexts_of_isWord (h : ∀ s ∈ texts, IsWord s) :
    columnOfTexts name texts = ⟨name, .object, texts.map .text⟩ := by
  cases texts with
  | nil => rfl
  | cons s r =>
    have hs := h s mem_cons_self
    have hwords : readWords (s :: r) = .error .noNumber := by
      simp [readWords, hs.isMissing, hs.readWord, Except.map, bind, Except.bind]
    have hfloats : readAll readFloat? (s :: r) = none := by
      simp [readAll, hs.isMissing, hs.readFloat]
    have hbools : readAll readBool? (s :: r) = none := by
      simp [readAll, hs.isMissing, hs.readBool]
    have htext : textColumn name (s :: r) = ⟨name, .object, (s :: r).map .text⟩ := by
      refine congrArg _ (map_congr_left fun t ht => ?_)
      rw [(h t ht).isMissing]
      rfl
    simp [columnOfTexts, hwords, numberColumn, hfloats, hbools, htext]

/-! ### Whole numbers -/

theorem digitsUpTo_of_isDigit {limit : Nat} {cs : List Char} (h : ∀ c ∈ cs, c.isDigit = true)
    (hlimit : Nat.ofDigitChars 10 cs n ≤ limit) :
    digitsUpTo limit n cs = .ok (Nat.ofDigitChars 10 cs n, []) := by
  induction cs generalizing n with
  | nil => rfl
  | cons c cs ih =>
    obtain ⟨hc, hcs⟩ := forall_mem_cons.1 h
    have hvalue : n * 10 + digitOf c = 10 * n + (c.toNat - '0'.toNat) := by
      rw [Nat.mul_comm]
      rfl
    rw [Nat.ofDigitChars_cons, ← hvalue] at hlimit ⊢
    have hle : n * 10 + digitOf c ≤ limit := by
      rw [Nat.ofDigitChars_eq_ofDigitChars_zero] at hlimit
      have hpow : 1 ≤ 10 ^ cs.length := Nat.one_le_pow _ _ (by decide)
      have := Nat.le_mul_of_pos_left (n * 10 + digitOf c) hpow
      omega
    simp only [digitsUpTo, hc, if_true]
    rw [if_neg (by omega), ih hcs hlimit]

theorem toNat_of_isDigit (h : c.isDigit = true) : 48 ≤ c.toNat ∧ c.toNat ≤ 57 := by
  simp only [Char.isDigit, Bool.and_eq_true, decide_eq_true_eq] at h
  exact h

theorem isNumberBlank_of_isDigit (h : c.isDigit = true) : isNumberBlank c = false := by
  have hle := (toNat_of_isDigit h).1
  have hne : c ≠ ' ' := by
    rintro rfl
    revert hle
    decide
  simp [isNumberBlank, hne]
  omega

theorem toList_toString (n : Nat) : (toString n).toList = Nat.toDigits 10 n := by
  rw [Nat.toString_eq_ofList_toDigits, String.toList_ofList]

/-- No missing cell is written as a number `n`. -/
theorem isMissingText_toString (n : Nat) : isMissingText (toString n) = false := by
  rw [isMissingText, ← Bool.not_eq_true, contains_iff_mem]
  intro hmem
  have hwords : ∀ s ∈ missingTexts, s.toList.all Char.isDigit = false ∨ s = "" := by decide
  rcases hwords _ hmem with hword | hempty
  · rw [toList_toString, all_eq_false] at hword
    obtain ⟨c, hc, hdigit⟩ := hword
    exact hdigit (Nat.isDigit_of_mem_toDigits (by decide) (by decide) hc)
  · have hnil := congrArg String.toList hempty
    rw [toList_toString] at hnil
    exact Nat.toDigits_ne_nil hnil

theorem readWord_toString (h : n < halfRange) : readWord (toString n) = .ok (n : Int) := by
  have hdigits : ∀ c ∈ Nat.toDigits 10 n, c.isDigit = true := fun c hc =>
    Nat.isDigit_of_mem_toDigits (by decide) (by decide) hc
  cases hcs : Nat.toDigits 10 n with
  | nil => exact absurd hcs Nat.toDigits_ne_nil
  | cons c cs =>
    rw [hcs] at hdigits
    have hc := hdigits c mem_cons_self
    have hdrop : (c :: cs).dropWhile isNumberBlank = c :: cs := by
      rw [dropWhile_cons, if_neg]
      rw [Bool.not_eq_true]
      exact isNumberBlank_of_isDigit hc
    have hsign : splitSign (c :: cs) = (false, c :: cs) := by
      unfold splitSign
      split <;> simp_all
    have hvalue : Nat.ofDigitChars 10 (c :: cs) 0 = n := by
      rw [← hcs, Nat.ofDigitChars_ten_toDigits]
    have hmagnitude : magnitude (halfRange - 1) (c :: cs) = .ok n := by
      have hup : digitsUpTo (halfRange - 1) 0 (c :: cs)
          = .ok (Nat.ofDigitChars 10 (c :: cs) 0, []) := digitsUpTo_of_isDigit hdigits (by omega)
      simp [magnitude, hc, hup, hvalue, onlyBlanks]
    simp [readWord, hcs, hdrop, hsign, hmagnitude, Except.map]

/-- `columnOfTexts` keeps numbers of `lines` as whole numbers. -/
theorem columnOfTexts_of_lines {lines : List Nat} (hne : lines ≠ [])
    (h : ∀ n ∈ lines, n < halfRange) :
    columnOfTexts name (lines.map toString) = ⟨name, .int, lines.map fun n : Nat => .int n⟩ := by
  have hwords : readWords (lines.map toString) = .ok (lines.map fun n : Nat => some (n : Int)) := by
    clear hne
    induction lines with
    | nil => rfl
    | cons n lines ih =>
      obtain ⟨hn, hlines⟩ := forall_mem_cons.1 h
      have hcons : readWords (toString n :: lines.map toString) = (do
          let first ← (if isMissingText (toString n) then .ok none
            else (readWord (toString n)).map some)
          let rest ← readWords (lines.map toString)
          return first :: rest) := mapM_cons
      rw [map_cons, hcons, isMissingText_toString, readWord_toString hn, ih hlines]
      rfl
  simp [columnOfTexts, hne, hwords, wordColumn]

/-! ## What is written -/

/-- Whether `c` may stand in the text of a number or a truth value. -/
def isPlainChar (c : Char) : Bool := 32 ≤ c.toNat && c.toNat < 127

theorem isPlainChar_of_isDigit (h : c.isDigit = true) : isPlainChar c = true := by
  have := toNat_of_isDigit h
  simp only [isPlainChar, Bool.and_eq_true, decide_eq_true_eq]
  omega

theorem isPlainChar_of_mem_toString (h : c ∈ (toString n).toList) : isPlainChar c = true := by
  rw [toList_toString] at h
  exact isPlainChar_of_isDigit (Nat.isDigit_of_mem_toDigits (by decide) (by decide) h)

end SmellLint.Table

namespace SmellLint.Decimal

open Table (isPlainChar isPlainChar_of_isDigit isPlainChar_of_mem_toString)
open List

/-- `s` has only characters of the texts of numbers. -/
def IsPlainText (s : String) : Prop := ∀ c ∈ s.toList, isPlainChar c = true

variable {s : String}

theorem IsPlainText.append {t : String} (hs : IsPlainText s) (ht : IsPlainText t) :
    IsPlainText (s ++ t) := by
  intro c hc
  rw [String.toList_append] at hc
  exact (mem_append.1 hc).elim (hs c) (ht c)

theorem IsPlainText.ofList_take (hs : IsPlainText s) (n : Nat) :
    IsPlainText (String.ofList (s.toList.take n)) := by
  intro c hc
  rw [String.toList_ofList] at hc
  exact hs c (mem_of_mem_take hc)

theorem IsPlainText.ofList_drop (hs : IsPlainText s) (n : Nat) :
    IsPlainText (String.ofList (s.toList.drop n)) := by
  intro c hc
  rw [String.toList_ofList] at hc
  exact hs c (mem_of_mem_drop hc)

theorem isPlainText_toString (n : Nat) : IsPlainText (toString n) :=
  fun _ => isPlainChar_of_mem_toString

theorem isPlainText_zeros (n : Nat) : IsPlainText (zeros n) := by
  intro c hc
  rw [zeros, String.toList_ofList] at hc
  rw [eq_of_mem_replicate hc]
  decide

theorem isPlainText_literal (h : s.toList.all isPlainChar = true) : IsPlainText s := all_eq_true.1 h

theorem isPlainText_exponentText (e : Int) : IsPlainText (exponentText e) := by
  refine .append ?_ ?_
  · split_ifs <;> exact isPlainText_literal (by decide)
  · split_ifs
    · exact (isPlainText_literal (by decide)).append (isPlainText_toString _)
    · exact isPlainText_toString _

theorem isPlainText_scientific {f : General} (hf : IsPlainText f.wholeSuffix) (s : Scientific) :
    IsPlainText (f.scientific s) := by
  unfold General.scientific
  dsimp only
  have hdigits := isPlainText_toString (s.normalize 400).digits
  split_ifs
  · exact (hdigits.append (isPlainText_zeros _)).append hf
  · exact ((isPlainText_literal (by decide)).append (isPlainText_zeros _)).append hdigits
  · exact ((hdigits.ofList_take _).append (isPlainText_literal (by decide))).append
      (hdigits.ofList_drop _)
  · exact ((hdigits.ofList_take _).append (isPlainText_literal (by decide))).append
      (isPlainText_exponentText _)
  · exact ((hdigits.ofList_take _).append ((isPlainText_literal (by decide)).append
      (hdigits.ofList_drop _))).append (isPlainText_exponentText _)

theorem isPlainText_signText (negative : Bool) : IsPlainText (signText negative) := by
  cases negative <;> exact isPlainText_literal (by decide)

theorem isPlainText_floatText (x : Float) : IsPlainText (floatText x) := by
  have hsuffix : IsPlainText General.standard.wholeSuffix := isPlainText_literal (by decide)
  unfold floatText General.float
  split
  · exact isPlainText_literal (by decide)
  · exact (isPlainText_signText _).append (isPlainText_literal (by decide))
  · exact ((isPlainText_signText _).append (isPlainText_literal (by decide))).append hsuffix
  · exact (isPlainText_signText _).append (isPlainText_scientific hsuffix _)

end SmellLint.Decimal

namespace SmellLint.Cell

open Decimal

/-- What is written for a cell that is no text has only characters of the texts of numbers. -/
theorem isPlainText_written {c : Cell} (h : c.text? = none) : IsPlainText c.written := by
  cases c with
  | text s => cases h
  | int n =>
    cases n with
    | ofNat n => exact isPlainText_toString n
    | negSucc n =>
      exact (isPlainText_literal (s := "-") (by decide)).append
        (isPlainText_toString (n + 1))
  | float x =>
    simp only [written]
    split_ifs
    · exact isPlainText_literal (by decide)
    · exact isPlainText_floatText x
  | bool b => cases b <;> exact isPlainText_literal (by decide)
  | missing => exact isPlainText_literal (by decide)

end SmellLint.Cell
