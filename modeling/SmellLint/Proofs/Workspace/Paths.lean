import SmellLint.Workspace.Tree

/-!
# The names of a path

A path is a text, but all that counts when it is followed are its names and whether it starts at the
root.  This file says how the operations on paths act on the names, and where a list of names leads
when every place on the way is a directory (`reach`).
-/

namespace SmellLint.Text

open List String

/-! ## Cutting a text at a character -/

theorem splitChars_ne_nil (p : Char → Bool) (cs : List Char) : splitChars p cs ≠ [] := by
  cases cs with
  | nil => simp [splitChars]
  | cons c r =>
    rw [splitChars]
    split
    · simp
    · split <;> simp

theorem splitChars_cons (p : Char → Bool) (c : Char) (r : List Char) :
    ∃ piece pieces, splitChars p r = piece :: pieces ∧
      splitChars p (c :: r) = if p c then [] :: piece :: pieces else (c :: piece) :: pieces := by
  obtain ⟨piece, pieces, h⟩ := exists_cons_of_ne_nil (splitChars_ne_nil p r)
  exact ⟨piece, pieces, h, by rw [splitChars, h]⟩

variable {p : Char → Bool} {c : Char} {cs : List Char}

theorem splitChars_append (hc : p c = true) (xs ys : List Char) :
    splitChars p (xs ++ c :: ys) = splitChars p xs ++ splitChars p ys := by
  induction xs with
  | nil =>
    obtain ⟨piece, pieces, hr, h⟩ := splitChars_cons p c ys
    rw [nil_append, h, if_pos hc, hr]
    rfl
  | cons x xs ih =>
    obtain ⟨piece, pieces, hr, h⟩ := splitChars_cons p x xs
    obtain ⟨piece', pieces', hr', h'⟩ := splitChars_cons p x (xs ++ c :: ys)
    rw [ih, hr] at hr'
    obtain ⟨rfl, rfl⟩ := hr'
    rw [cons_append, h', h]
    split <;> rfl

theorem splitChars_of_forall (h : ∀ c ∈ cs, p c = false) : splitChars p cs = [cs] := by
  induction cs with
  | nil => rfl
  | cons c r ih =>
    obtain ⟨hc, hr⟩ := forall_mem_cons.1 h
    rw [splitChars, ih hr]
    simp [hc]

theorem of_mem_splitChars {piece : List Char} (h : piece ∈ splitChars p cs) :
    ∀ c ∈ piece, p c = false ∧ c ∈ cs := by
  induction cs generalizing piece with
  | nil =>
    rw [splitChars, mem_singleton] at h
    subst h
    exact forall_mem_nil _
  | cons x r ih =>
    obtain ⟨first, rest, hr, hx⟩ := splitChars_cons p x r
    rw [hr] at ih
    rw [hx] at h
    have hbelow : ∀ piece ∈ first :: rest, ∀ c ∈ piece, p c = false ∧ c ∈ x :: r :=
      fun piece hpiece c hc => (ih hpiece c hc).imp_right (mem_cons_of_mem x)
    split at h
    · rcases mem_cons.1 h with rfl | h
      · exact forall_mem_nil _
      · exact hbelow piece h
    · next hpx =>
      rcases mem_cons.1 h with rfl | h
      · exact forall_mem_cons.2
          ⟨⟨by simpa using hpx, mem_cons_self⟩, hbelow first mem_cons_self⟩
      · exact hbelow piece (mem_cons_of_mem first h)

theorem exists_mem_splitChars (h : c ∈ cs) (hc : p c = false) :
    ∃ piece ∈ splitChars p cs, c ∈ piece := by
  induction cs with
  | nil => cases h
  | cons x r ih =>
    obtain ⟨first, rest, hr, hx⟩ := splitChars_cons p x r
    rw [hx]
    rcases mem_cons.1 h with rfl | h
    · rw [hc]
      exact ⟨c :: first, mem_cons_self, mem_cons_self⟩
    · obtain ⟨piece, hpiece, hmem⟩ := ih h
      rw [hr] at hpiece
      split
      · exact ⟨piece, mem_cons_of_mem [] hpiece, hmem⟩
      · rcases mem_cons.1 hpiece with rfl | hpiece
        · exact ⟨x :: piece, mem_cons_self, mem_cons_of_mem x hmem⟩
        · exact ⟨piece, mem_cons_of_mem _ hpiece, hmem⟩

theorem splitOn_append (sep : Char) (a b : String) :
    splitOn sep (a ++ singleton sep ++ b) = splitOn sep a ++ splitOn sep b := by
  have h : (a ++ singleton sep ++ b).toList = a.toList ++ sep :: b.toList := by simp
  rw [splitOn, h, splitChars_append (by simp), map_append]
  rfl

theorem splitOn_of_not_mem {sep : Char} {s : String} (h : sep ∉ s.toList) :
    splitOn sep s = [s] := by
  have : ∀ c ∈ s.toList, (c == sep) = false := by
    intro c hc
    have : c ≠ sep := by
      rintro rfl
      exact h hc
    simpa using this
  rw [splitOn, splitChars_of_forall this]
  simp

/-- `splitOn` finds `parts` again after `intercalate`. -/
theorem splitOn_intercalate (sep : Char) {parts : List String} (hne : parts ≠ [])
    (h : ∀ part ∈ parts, sep ∉ part.toList) :
    splitOn sep ((singleton sep).intercalate parts) = parts := by
  induction parts with
  | nil => exact absurd rfl hne
  | cons part rest ih =>
    obtain ⟨hpart, hrest⟩ := forall_mem_cons.1 h
    cases rest with
    | nil => rw [String.intercalate_singleton, splitOn_of_not_mem hpart]
    | cons next rest =>
      rw [String.intercalate_cons_cons, splitOn_append, splitOn_of_not_mem hpart,
        ih (cons_ne_nil _ _) hrest]
      rfl

/-! ## The start of a text -/

theorem isSome_dropStart?_iff {p : List Char} : (dropStart? p cs).isSome = true ↔ p <+: cs := by
  fun_induction dropStart? p cs with
  | case1 cs => simp
  | case2 p ps => simp
  | case3 ps c cs ih => rw [ih, prefix_cons_inj]
  | case4 p ps c cs hne => simp [hne]

end SmellLint.Text

namespace SmellLint.Path

open Text List

/-- `s` is not refused as a path (`refusal?`). -/
def Accepted (s : String) : Prop := refusal? s = none

instance (s : String) : Decidable (Accepted s) :=
  decidable_of_iff ((refusal? s).isNone = true) Option.isNone_iff_eq_none

/-- The file system takes `path`: it is neither empty nor refused. -/
def Usable (path : String) : Prop := path ≠ "" ∧ Accepted path

/-- `name` can be one of the `names` of a path: it is not empty and has no slash. -/
def IsPlain (name : String) : Prop := name ≠ "" ∧ '/' ∉ name.toList

instance (name : String) : Decidable (IsPlain name) :=
  inferInstanceAs (Decidable (name ≠ "" ∧ '/' ∉ name.toList))

theorem splitOn_append (a b : String) :
    splitOn '/' (a ++ "/" ++ b) = splitOn '/' a ++ splitOn '/' b :=
  Text.splitOn_append '/' a b

variable {part path name suffix : String} {parts ns before : List String} {c : Char} {p : Place}

theorem not_mem_of_mem_splitOn {s : String} (h : part ∈ splitOn '/' s) : '/' ∉ part.toList := by
  obtain ⟨piece, hpiece, rfl⟩ := mem_map.1 h
  intro hmem
  rw [String.toList_ofList] at hmem
  have := (of_mem_splitChars hpiece '/' hmem).1
  simp at this

theorem splitOn_intercalate (hne : parts ≠ []) (h : ∀ part ∈ parts, '/' ∉ part.toList) :
    splitOn '/' ("/".intercalate parts) = parts :=
  Text.splitOn_intercalate '/' hne h

theorem isAbsolute_intercalate (hpart : '/' ∉ part.toList) (parts : List String) :
    isAbsolute ("/".intercalate (part :: parts)) = (part == "" && !parts.isEmpty) := by
  cases hl : part.toList with
  | nil =>
    obtain rfl := String.toList_eq_nil_iff.1 hl
    cases parts <;> simp [isAbsolute]
  | cons c cs =>
    have hne : part ≠ "" := by
      rintro rfl
      simp at hl
    have hc : c ≠ '/' := by
      rintro rfl
      exact hpart (hl ▸ mem_cons_self)
    cases parts <;> simp [isAbsolute, hl, beq_false_of_ne hne, beq_false_of_ne hc]

/-! ## Names -/

theorem isPlain_of_mem_names (h : name ∈ names path) : IsPlain name := by
  obtain ⟨hmem, hne⟩ := mem_filter.1 h
  exact ⟨by simpa using hne, not_mem_of_mem_splitOn hmem⟩

theorem mem_toList_of_mem_names (h : name ∈ names path) (hc : c ∈ name.toList) :
    c ∈ path.toList := by
  obtain ⟨piece, hpiece, rfl⟩ := mem_map.1 (mem_filter.1 h).1
  rw [String.toList_ofList] at hc
  exact (of_mem_splitChars hpiece c hc).2

/-- Every character of `path` but its slashes is in one of its `names`. -/
theorem exists_mem_names (h : c ∈ path.toList) (hc : c ≠ '/') :
    ∃ name ∈ names path, c ∈ name.toList := by
  obtain ⟨piece, hpiece, hmem⟩ := exists_mem_splitChars h (p := (· == '/')) (by simpa using hc)
  refine ⟨String.ofList piece, mem_filter.2 ⟨mem_map.2 ⟨piece, hpiece, rfl⟩, ?_⟩, ?_⟩
  · have : String.ofList piece ≠ "" := by
      intro hempty
      rw [← String.toList_inj, String.toList_ofList] at hempty
      rw [hempty] at hmem
      simp at hmem
    simpa using this
  · rwa [String.toList_ofList]

theorem faultIn?_isStray_eq_none_iff {s : String} :
    Text.Utf8.faultIn? isStray s = none ↔ ∀ c ∈ s.toList, isStray c = false :=
  Text.Utf8.faultIn?_eq_none_iff fun _ hc => (Bool.and_eq_true_iff.1 hc).1

/-- `s` is `Accepted` if each of its characters is. -/
theorem accepted_iff {s : String} :
    Accepted s ↔ ∀ c ∈ s.toList, isStray c = false ∧ c ≠ '\x00' := by
  rw [Accepted, refusal?]
  cases hfault : Text.Utf8.faultIn? isStray s with
  | some fault =>
    refine iff_of_false (by simp) fun hall => ?_
    rw [faultIn?_isStray_eq_none_iff.2 fun c hc => (hall c hc).1] at hfault
    cases hfault
  | none =>
    have hstray := faultIn?_isStray_eq_none_iff.1 hfault
    dsimp only
    split
    · next hnul =>
      refine iff_of_false (by simp) fun hall => ?_
      exact (hall _ (contains_iff_mem.1 hnul)).2 rfl
    · next hnul =>
      refine iff_of_true rfl fun c hc => ⟨hstray c hc, ?_⟩
      rintro rfl
      exact hnul (contains_iff_mem.2 hc)

theorem accepted_append {a b : String} : Accepted (a ++ b) ↔ Accepted a ∧ Accepted b := by
  rw [accepted_iff, String.toList_append, forall_mem_append, accepted_iff, accepted_iff]

theorem Accepted.of_mem_names (h : Accepted path) (hname : name ∈ names path) : Accepted name :=
  accepted_iff.2 fun c hc => accepted_iff.1 h c (mem_toList_of_mem_names hname hc)

theorem accepted_of_names (h : ∀ n ∈ names path, Accepted n) : Accepted path := by
  refine accepted_iff.2 fun c hc => ?_
  by_cases hslash : c = '/'
  · rw [hslash]
    decide
  · obtain ⟨n, hn, hmem⟩ := exists_mem_names hc hslash
    exact accepted_iff.1 (h n hn) c hmem

theorem names_append (a b : String) : names (a ++ "/" ++ b) = names a ++ names b := by
  rw [names, splitOn_append, filter_append]
  rfl

theorem names_empty : names "" = [] := by decide

theorem names_of_isPlain (h : IsPlain name) : names name = [name] := by
  rw [names, splitOn_of_not_mem h.2]
  simp [h.1]

theorem isAbsolute_of_isPlain (h : IsPlain name) : isAbsolute name = false := by
  cases hl : name.toList with
  | nil => simp [isAbsolute, hl]
  | cons c r =>
    have : c ≠ '/' := by
      rintro rfl
      exact h.2 (hl ▸ mem_cons_self)
    simpa [isAbsolute, hl] using this

variable (base : String)

/-- `join base path` is `base`, a slash and `path`, whether or not the slash had to be added. -/
theorem join_cases (h : isAbsolute path = false) :
    (base = "" ∧ join base path = path) ∨
      ∃ s, names s = names base ∧ join base path = s ++ "/" ++ path := by
  rw [join, h]
  simp only [Bool.false_eq_true, if_false]
  split
  · next hbase =>
    rcases Bool.or_eq_true_iff.1 hbase with hempty | hslash
    · have hempty := String.isEmpty_iff.1 hempty
      exact .inl ⟨hempty, by rw [hempty, String.empty_append]⟩
    · obtain ⟨cs, hcs⟩ := getLast?_eq_some_iff.1 (by simpa using hslash)
      have hb : base = String.ofList cs ++ "/" := by
        rw [← String.toList_inj, hcs]
        simp
      refine .inr ⟨String.ofList cs, ?_, by rw [← hb]⟩
      calc names _ = names (String.ofList cs ++ "/" ++ "") := by
            rw [names_append, names_empty, append_nil]
        _ = names base := by rw [String.append_empty, ← hb]
  · exact .inr ⟨base, rfl, rfl⟩

theorem names_join_of_relative (h : isAbsolute path = false) :
    names (join base path) = names base ++ names path := by
  rcases join_cases base h with ⟨rfl, heq⟩ | ⟨s, hs, heq⟩ <;> rw [heq]
  · rw [names_empty, nil_append]
  · rw [names_append, hs]

/-- `name` is the last of the names of `join base name`. -/
theorem names_join (h : IsPlain name) : names (join base name) = names base ++ [name] := by
  rw [names_join_of_relative base (isAbsolute_of_isPlain h), names_of_isPlain h]

theorem isAbsolute_join (h : IsPlain name) : isAbsolute (join base name) = isAbsolute base := by
  rw [join, isAbsolute_of_isPlain h]
  simp only [Bool.false_eq_true, if_false]
  by_cases hbase : base = ""
  · subst hbase
    have := isAbsolute_of_isPlain h
    exact this
  · obtain ⟨c, r, hcr⟩ := exists_cons_of_ne_nil (mt String.toList_eq_nil_iff.1 hbase)
    split <;> simp [isAbsolute, hcr]

theorem accepted_join {base : String} (h : IsPlain name) :
    Accepted (join base name) ↔ Accepted base ∧ Accepted name := by
  constructor
  · intro hjoin
    have hnames : ∀ n ∈ names base ++ [name], Accepted n := fun n hn =>
      hjoin.of_mem_names (names_join base h ▸ hn)
    exact ⟨accepted_of_names fun n hn => hnames n (mem_append_left _ hn),
      hnames name (mem_append_right _ mem_cons_self)⟩
  · rintro ⟨hbase, hname⟩
    refine accepted_of_names fun n hn => ?_
    rw [names_join base h] at hn
    rcases mem_append.1 hn with hn | hn
    · exact hbase.of_mem_names hn
    · rw [mem_singleton.1 hn]
      exact hname

theorem join_ne_empty (h : IsPlain name) : join base name ≠ "" := by
  intro hempty
  have := names_join base h
  rw [hempty, names_empty] at this
  simp at this

theorem endsWith_slash_append (s : String) (h : IsPlain name) :
    endsWith (s ++ name) "/" = false := by
  obtain hnil | ⟨cs, c, hcs⟩ := eq_nil_or_concat name.toList
  · exact absurd (String.toList_eq_nil_iff.1 hnil) h.1
  · rw [concat_eq_append] at hcs
    have hslash : '/' ≠ c := by
      rintro rfl
      exact h.2 (hcs ▸ mem_append_right cs mem_cons_self)
    simp [endsWith, hcs, dropStart?, hslash]

theorem endsWith_slash_join (h : IsPlain name) :
    endsWith (join base name) "/" = false := by
  rcases join_cases base (isAbsolute_of_isPlain h) with ⟨-, heq⟩ | ⟨s, -, heq⟩ <;> rw [heq]
  · have := endsWith_slash_append "" h
    rwa [String.empty_append] at this
  · exact endsWith_slash_append _ h

theorem names_joinAll (h : ∀ n ∈ ns, IsPlain n) : names (joinAll base ns) = names base ++ ns := by
  induction ns generalizing base with
  | nil => exact (append_nil _).symm
  | cons n ns ih =>
    obtain ⟨hn, hns⟩ := forall_mem_cons.1 h
    have := ih (join base n) hns
    rw [names_join base hn, append_assoc] at this
    exact this

theorem isAbsolute_joinAll (h : ∀ n ∈ ns, IsPlain n) :
    isAbsolute (joinAll base ns) = isAbsolute base := by
  induction ns generalizing base with
  | nil => rfl
  | cons n ns ih =>
    obtain ⟨hn, hns⟩ := forall_mem_cons.1 h
    exact (ih _ hns).trans (isAbsolute_join base hn)

theorem usable_join {base : String} (hbase : Accepted base) (h : IsPlain name)
    (hname : Accepted name) : Usable (join base name) :=
  ⟨join_ne_empty base h, (accepted_join h).2 ⟨hbase, hname⟩⟩

theorem exists_toList_of_isAbsolute (h : isAbsolute path = true) :
    ∃ cs, path.toList = '/' :: cs := by
  cases hl : path.toList with
  | nil => simp [isAbsolute, hl] at h
  | cons c cs => exact ⟨cs, by simpa [isAbsolute, hl] using h⟩

theorem head?_splitOn (h : path ≠ "") :
    (splitOn '/' path).head? = some "" ↔ isAbsolute path = true := by
  obtain ⟨c, cs, hcs⟩ := exists_cons_of_ne_nil (mt String.toList_eq_nil_iff.1 h)
  obtain ⟨piece, pieces, hr, hc⟩ := splitChars_cons _ c cs
  rw [Text.splitOn, hcs, hc, isAbsolute, hcs]
  by_cases hslash : c = '/'
  · simp [hslash]
  · simp only [beq_iff_eq, hslash, head?_cons, Option.some.injEq]
    simp

/-! ## Heads -/

theorem names_intercalate_parts (hne : parts ≠ []) (h : ∀ part ∈ parts, '/' ∉ part.toList) :
    names ("/".intercalate parts) = parts.filter (· != "") := by
  rw [names, splitOn_intercalate hne h]

theorem waysFrom_of_forall (h : ∀ part ∈ parts, part = "") (before : List String) :
    waysFrom before parts = [] := by
  induction parts generalizing before with
  | nil => rfl
  | cons part parts ih =>
    obtain ⟨rfl, hparts⟩ := forall_mem_cons.1 h
    exact ih hparts _

theorem waysFrom_append {xs es : List String} (hname : name ≠ "") (hes : ∀ part ∈ es, part = "") :
    waysFrom before (xs ++ name :: es)
      = waysFrom before xs ++ ["/".intercalate (before ++ xs ++ [name])] := by
  induction xs generalizing before with
  | nil => simp [waysFrom, waysFrom_of_forall hes, hname]
  | cons x xs ih =>
    rw [cons_append, waysFrom, waysFrom, ih]
    cases hx : x.isEmpty <;> simp

/-- The `heads` of `path` are the paths to the names `ms` before its last one. -/
theorem heads_eq {ms : List String} (h : names path = ms ++ [name]) :
    ∃ xs es, splitOn '/' path = xs ++ name :: es ∧ xs.filter (· != "") = ms ∧
      heads path = waysFrom [] xs := by
  obtain ⟨l, r, hparts, hl, hr⟩ := filter_eq_append_iff.1 h
  obtain ⟨r₁, r₂, rfl, hr₁, hname, hr₂⟩ := filter_eq_cons_iff.1 hr
  have hblank : ∀ {part : String}, ¬(part != "") = true → part = "" := by simp
  refine ⟨l ++ r₁, r₂, by rw [hparts, append_assoc], ?_, ?_⟩
  · rw [filter_append, hl, filter_eq_nil_iff.2 hr₁, append_nil]
  · rw [heads, hparts, ← append_assoc, waysFrom_append (by simpa using hname) fun part hpart =>
        hblank (filter_eq_nil_iff.1 hr₂ part hpart),
      dropLast_concat]

theorem heads_of_names_eq_nil (h : names path = []) : heads path = [] := by
  have hparts : ∀ part ∈ splitOn '/' path, part = "" := by
    intro part hpart
    simpa using filter_eq_nil_iff.1 h part hpart
  rw [heads, waysFrom_of_forall hparts, dropLast_nil]

/-! ## Where names lead -/

/-- Where `name` leads from the directory `p`. -/
def step (p : Place) (name : String) : Place :=
  if name = "" ∨ name = "." then p else if name = ".." then p.dropLast else p ++ [name]

/-- Where the names `ns` lead from `p`, one after the other. -/
def reach (p : Place) (ns : List String) : Place := ns.foldl step p

/-- Where `path` starts: at the root or at `cwd`. -/
def origin (cwd : Place) (path : String) : Place := if isAbsolute path then [] else cwd

/-- A path made of the parts `before ++ [part]` has the names among them, -/
theorem names_intercalate_concat (h : ∀ p ∈ before ++ [part], '/' ∉ p.toList) (hpart : part ≠ "") :
    names ("/".intercalate (before ++ [part])) = before.filter (· != "") ++ [part] := by
  rw [names_intercalate_parts (by simp) h, filter_append,
    filter_cons_of_pos (by simpa using hpart), filter_nil]

/-- and starts at the root if the first part is empty. -/
theorem origin_intercalate_concat (h : ∀ p ∈ before ++ [part], '/' ∉ p.toList) (hpart : part ≠ "")
    (cwd : Place) :
    origin cwd ("/".intercalate (before ++ [part]))
      = if (before ++ [part]).head? = some "" then [] else cwd := by
  rw [origin]
  cases before with
  | nil => simp [isAbsolute_of_isPlain ⟨hpart, h part (by simp)⟩, hpart]
  | cons b bs =>
    rw [cons_append, isAbsolute_intercalate (h b (by simp))]
    simp

/-- `name` is plain and neither `.` nor `..`. -/
def IsProper (name : String) : Prop := IsPlain name ∧ name ≠ "." ∧ name ≠ ".."

instance (name : String) : Decidable (IsProper name) :=
  inferInstanceAs (Decidable (IsPlain name ∧ name ≠ "." ∧ name ≠ ".."))

theorem step_of_isProper (p : Place) (h : IsProper name) : step p name = p ++ [name] := by
  rw [step, if_neg, if_neg h.2.2]
  rintro (h' | h')
  · exact h.1.1 h'
  · exact h.2.1 h'

theorem reach_append (p : Place) (ms ns : List String) :
    reach p (ms ++ ns) = reach (reach p ms) ns := foldl_append

theorem reach_of_isProper (p : Place) (h : ∀ n ∈ ns, IsProper n) : reach p ns = p ++ ns := by
  induction ns generalizing p with
  | nil => exact (append_nil p).symm
  | cons n ns ih =>
    obtain ⟨hn, hns⟩ := forall_mem_cons.1 h
    rw [reach, foldl_cons, step_of_isProper p hn, ← reach, ih _ hns, append_assoc]
    rfl

theorem reach_filter (p : Place) (parts : List String) :
    reach p (parts.filter (· != "")) = reach p parts := by
  induction parts generalizing p with
  | nil => rfl
  | cons part parts ih =>
    by_cases h : part = ""
    · subst h
      exact ih p
    · rw [filter_cons_of_pos (by simpa using h)]
      exact ih _

/-- `resolveNames`, which works on the text of a path, leads where `reach` leads. -/
theorem resolveNames_eq_reach (h : ".." ∉ before) (parts : List String) :
    resolveNames true before parts = reach before.reverse parts := by
  induction parts generalizing before with
  | nil => rw [resolveNames]; rfl
  | cons part parts ih =>
    rw [reach, foldl_cons, ← reach, step]
    by_cases hstay : part = "" ∨ part = "."
    · rw [if_pos hstay, ← ih h]
      rcases hstay with rfl | rfl <;> simp [resolveNames]
    · rw [if_neg hstay]
      obtain ⟨hempty, hdot⟩ := not_or.1 hstay
      by_cases hup : part = ".."
      · subst hup
        rw [if_pos rfl]
        cases before with
        | nil =>
          rw [reverse_nil, dropLast_nil, ← reverse_nil, ← ih h]
          simp [resolveNames]
        | cons name before =>
          obtain ⟨hname, hbefore⟩ := not_or.1 (mt mem_cons.2 h)
          rw [reverse_cons, dropLast_concat, ← ih hbefore]
          rw [resolveNames]
          · exact fun h => hname h.symm
      · rw [if_neg hup, ← reverse_cons, ← ih]
        · rw [resolveNames] <;> assumption
        · rw [mem_cons, not_or]
          exact ⟨fun h => hup h.symm, h⟩

/-! ## Paths from the root -/

/-- `path` is the names of `p` after one or two slashes. -/
def IsPathTo (path : String) (p : Place) : Prop :=
  path = "/" ++ "/".intercalate p ∨ path = "//" ++ "/".intercalate p

theorem names_intercalate (h : ∀ n ∈ p, IsPlain n) : names ("/".intercalate p) = p := by
  by_cases hp : p = []
  · subst hp
    exact names_empty
  · rw [names, splitOn_intercalate hp fun n hn => (h n hn).2, filter_eq_self]
    intro n hn
    simpa using (h n hn).1

theorem IsPathTo.names_eq (h : IsPathTo path p) (hp : ∀ n ∈ p, IsPlain n) : names path = p := by
  rcases h with rfl | rfl
  · have := names_append "" ("/".intercalate p)
    rwa [names_intercalate hp] at this
  · have := names_append "/" ("/".intercalate p)
    rwa [names_intercalate hp] at this

theorem IsPathTo.isAbsolute (h : IsPathTo path p) : isAbsolute path = true := by
  rcases h with rfl | rfl <;> simp [isAbsolute]

theorem IsPathTo.ne_empty (h : IsPathTo path p) : path ≠ "" := by
  rintro rfl
  exact absurd h.isAbsolute (by decide)

theorem mem_toList_intercalate (hc : c ∈ ("/".intercalate p).toList) :
    c = '/' ∨ ∃ n ∈ p, c ∈ n.toList := by
  induction p with
  | nil => simp at hc
  | cons n p ih =>
    cases p with
    | nil => exact .inr ⟨n, mem_cons_self, by exact hc⟩
    | cons m p =>
      rw [String.intercalate_cons_cons, String.toList_append, String.toList_append,
        mem_append, mem_append] at hc
      rcases hc with (hc | hc) | hc
      · exact .inr ⟨n, mem_cons_self, hc⟩
      · exact .inl (by simpa using hc)
      · rcases ih hc with hc | ⟨n', hn', hc⟩
        · exact .inl hc
        · exact .inr ⟨n', mem_cons_of_mem n hn', hc⟩

theorem IsPathTo.mem_toList (h : IsPathTo path p) (hc : c ∈ path.toList) :
    c = '/' ∨ ∃ n ∈ p, c ∈ n.toList := by
  rcases h with rfl | rfl <;>
  · rw [String.toList_append, mem_append] at hc
    rcases hc with hc | hc
    · exact .inl (by simpa using hc)
    · exact mem_toList_intercalate hc

theorem IsPathTo.accepted (h : IsPathTo path p) (hp : ∀ n ∈ p, Accepted n) : Accepted path := by
  refine accepted_iff.2 fun c hc => ?_
  rcases h.mem_toList hc with rfl | ⟨n, hn, hc⟩
  · decide
  · exact accepted_iff.1 (hp n hn) c hc

/-- A path to `p ++ [name]` ends with `name`. -/
theorem IsPathTo.exists_append (h : IsPathTo path (p ++ [name])) : ∃ s, path = s ++ name := by
  obtain ⟨s, hs⟩ : ∃ s, "/".intercalate (p ++ [name]) = s ++ name := by
    by_cases hp : p = []
    · exact ⟨"", by rw [hp, nil_append, String.intercalate_singleton, String.empty_append]⟩
    · exact ⟨"/".intercalate p ++ "/", by
        rw [String.intercalate_append_of_ne_nil hp (cons_ne_nil name []),
          String.intercalate_singleton]⟩
  rw [IsPathTo, hs, ← String.append_assoc, ← String.append_assoc] at h
  rcases h with h | h <;> exact ⟨_, h⟩

theorem IsPathTo.subset (h : IsPathTo path (p ++ [name])) : name.toList ⊆ path.toList := by
  obtain ⟨s, rfl⟩ := h.exists_append
  rw [String.toList_append]
  exact subset_append_right _ _

/-- Only the path to the root ends in a slash. -/
theorem IsPathTo.endsWith_slash (h : IsPathTo path (p ++ [name])) (hname : IsPlain name) :
    endsWith path "/" = false := by
  obtain ⟨s, rfl⟩ := h.exists_append
  exact endsWith_slash_append s hname

/-- `absolute cwd path` leads, name by name, to the place that `path` leads to. -/
theorem isPathTo_absolute {cwd : String} (path : String) (hcwd : isAbsolute cwd = true)
    (hnames : ∀ n ∈ names cwd, IsProper n) :
    IsPathTo (absolute cwd path) (reach (origin (names cwd) path) (names path)) := by
  have hjoin : isAbsolute (join cwd path) = true ∧
      reach [] (names (join cwd path)) = reach (origin (names cwd) path) (names path) := by
    cases hpath : isAbsolute path with
    | true => rw [join, if_pos hpath, origin, if_pos hpath]; exact ⟨hpath, rfl⟩
    | false =>
      rw [names_join_of_relative cwd hpath, reach_append, reach_of_isProper [] hnames, origin]
      obtain ⟨cs, hcs⟩ := exists_toList_of_isAbsolute hcwd
      rw [join, hpath]
      simp only [Bool.false_eq_true, if_false]
      split <;> simp [isAbsolute, hcs]
  obtain ⟨habs, hreach⟩ := hjoin
  -- a path from the root begins with one slash, or with exactly two if it was written so
  have hslashes : rootSlashes (join cwd path) = "/" ∨ rootSlashes (join cwd path) = "//" := by
    obtain ⟨cs, hcs⟩ := exists_toList_of_isAbsolute habs
    simp only [rootSlashes, hcs, takeWhile_cons, beq_self_eq_true, if_true, length_cons]
    split
    · omega
    · split
      · exact .inr rfl
      · exact .inl rfl
  have hbody : resolveNames true [] (splitOn '/' (join cwd path))
      = reach (origin (names cwd) path) (names path) := by
    rw [resolveNames_eq_reach not_mem_nil, ← hreach, reverse_nil, names, reach_filter]
  rw [absolute, normalize, habs, hbody]
  rcases hslashes with h | h <;> rw [h]
  · exact .inl (by simp)
  · exact .inr (by simp)

/-! ## Endings of paths -/

theorem endsWith_iff : endsWith path suffix = true ↔ suffix.toList <:+ path.toList := by
  rw [endsWith, isSome_dropStart?_iff, reverse_prefix]

/-- A `suffix` without `sep` is that of the last part. -/
theorem endsWith_append_singleton {sep : Char} (hsuffix : sep ∉ suffix.toList) (s name : String) :
    endsWith (s ++ String.singleton sep ++ name) suffix = endsWith name suffix := by
  have hlist : (s ++ String.singleton sep ++ name).toList = (s.toList ++ [sep]) ++ name.toList := by
    simp
  rw [Bool.eq_iff_iff, endsWith_iff, endsWith_iff, hlist]
  refine ⟨fun h => ?_, fun h => h.trans (suffix_append _ _)⟩
  rcases suffix_or_suffix_of_suffix h (suffix_append _ _) with hs | ⟨cs, hcs⟩
  · exact hs
  · -- an ending longer than the name would have the separator before the name
    rw [← hcs, suffix_append_inj_of_length_eq rfl] at h
    obtain rfl | ⟨ds, d, rfl⟩ := eq_nil_or_concat cs
    · exact ⟨[], hcs.symm⟩
    · rw [concat_eq_append] at h hcs
      have hlen : [d].length = [sep].length := rfl
      rw [← hcs, ((suffix_append_inj_of_length_eq hlen).1 h.1).2] at hsuffix
      simp at hsuffix

theorem endsWith_append (hsuffix : '/' ∉ suffix.toList) (s name : String) :
    endsWith (s ++ "/" ++ name) suffix = endsWith name suffix :=
  endsWith_append_singleton hsuffix s name

theorem endsWith_join (hsuffix : '/' ∉ suffix.toList) (base : String) (h : IsPlain name) :
    endsWith (join base name) suffix = endsWith name suffix := by
  rcases join_cases base (isAbsolute_of_isPlain h) with ⟨-, heq⟩ | ⟨s, -, heq⟩ <;> rw [heq]
  exact endsWith_append hsuffix s name

/-- A path that ends in a plain `suffix` has a last name that does. -/
theorem exists_names_of_endsWith (hsuffix : IsPlain suffix) (h : endsWith path suffix = true) :
    ∃ ms name, names path = ms ++ [name] ∧ endsWith name suffix = true := by
  have hne : ∀ {name}, endsWith name suffix = true → name ≠ "" := by
    rintro _ hends rfl
    rw [endsWith_iff, String.toList_empty, suffix_nil] at hends
    exact hsuffix.1 (String.toList_eq_nil_iff.1 hends)
  by_cases hslash : '/' ∈ path.toList
  · obtain ⟨before, after, heq, hafter⟩ := eq_append_cons_of_mem (mem_reverse.2 hslash)
    have hpath : path = String.ofList after.reverse ++ "/" ++ String.ofList before.reverse := by
      rw [← String.toList_inj, ← reverse_inj, heq]
      simp
    rw [hpath, endsWith_append hsuffix.2] at h
    rw [hpath, names_append, names_of_isPlain ⟨hne h, by simpa using hafter⟩]
    exact ⟨_, _, rfl, h⟩
  · exact ⟨[], path, names_of_isPlain ⟨hne h, hslash⟩, h⟩

end SmellLint.Path
