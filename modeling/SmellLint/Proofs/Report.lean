import SmellLint.Proofs.Counts
import SmellLint.Proofs.Except
import SmellLint.Report

/-!
# Totals of reports

In a report every smell and every project has one row, and the numbers of the smells, of the
projects and of the smells of each project add up to the number of rows of the table.  A workbook
keeps the sheets of two projects apart only if the first 30 characters of their names differ
(`Report.totals_of_rows`).
-/

namespace SmellLint

open Table Text Workbook List

/-! ## Columns of texts -/

namespace Table

variable {t : Table} {name : String} {α : Type} {rows : List α} {f g : α → String}

/-- `t` has `texts` in the column `name`. -/
def HasTexts (t : Table) (name : String) (texts : List String) : Prop :=
  ∃ c, t.column? name = some c ∧ c.cells = texts.map .text

theorem HasTexts.countBy_eq {counted : String} (hf : t.HasTexts name (rows.map f))
    (hg : t.HasTexts counted (rows.map g)) : t.countBy name counted
      = .ok (countGroups (rows.map fun r => (.text (f r), .text (g r)))) := by
  obtain ⟨c, hc, hcells⟩ := hf
  obtain ⟨d, hd, hcounted⟩ := hg
  simp only [countBy, requireColumn, hc, hd]
  show Except.ok _ = _
  rw [hcells, hcounted, map_map, map_map, zip_map']
  rfl

theorem column?_setColumn (t : Table) (c : Column) (name : String) :
    (t.setColumn c).column? name = if name = c.name then some c else t.column? name := by
  rw [setColumn]
  by_cases hold : (t.column? c.name).isSome = true
  · have hnames : ((fun d : Column => d.name == name) ∘ fun d => if d.name == c.name then c else d)
        = fun d => d.name == name := by
      funext d
      by_cases hd : d.name = c.name <;> simp [hd]
    rw [if_pos hold, column?, find?_map, hnames, ← column?]
    cases hfound : t.column? name with
    | none =>
      have hname : name ≠ c.name := by
        rintro rfl
        rw [hfound] at hold
        cases hold
      rw [if_neg hname, Option.map_none]
    | some d =>
      have hd : d.name = name := by simpa using find?_some hfound
      by_cases hname : name = c.name <;> simp [hd, hname]
  · rw [if_neg hold, column?, find?_append, ← column?]
    by_cases hname : name = c.name
    · rw [hname, Option.not_isSome_iff_eq_none.1 hold]
      simp
    · simp [hname, Ne.symm hname]

theorem HasTexts.keepRows (h : t.HasTexts name (rows.map f)) (p : α → Bool) :
    (t.keepRows (rows.map p)).HasTexts name ((rows.filter p).map f) := by
  obtain ⟨c, hc, hcells⟩ := h
  refine ⟨_, find?_map.trans (congrArg _ hc), ?_⟩
  dsimp only
  rw [hcells, map_map, map_map, zip_map', filterMap_map, ← filterMap_eq_map', filterMap_filter]
  rfl

end Table

/-! ## Sheets -/

namespace Workbook

variable {book sheets : Workbook} {titles : List String} {title : String} {rows : List (List Cell)}

/-- Sheets can have `titles` as they are: none is forbidden or the same up to case as another or as
that of a new sheet. -/
def AreTitles (titles : List String) : Prop :=
  ∀ a ∈ titles, a.toList.find? isForbidden = none ∧ lower a ≠ lower defaultTitle ∧
    ∀ b ∈ titles, lower a = lower b → a = b

theorem freeTitle_eq (h : ∀ a ∈ titles, lower a ≠ lower title) :
    freeTitle titles title = title := by
  have hfree : titles.any (fun a => lower a == lower title) = false := by
    simpa using h
  simp [freeTitle, hfree]

theorem refused?_eq_none (h : ∀ row ∈ rows, ∀ c ∈ row, refuses c = false) :
    refused? rows = none := by
  refine findSome?_eq_none_iff.2 fun j _ => Option.map_eq_none_iff.2 ?_
  refine findIdx?_eq_none_iff.2 fun row hrow => ?_
  cases hj : row[j]? with
  | none => rfl
  | some c => exact h row hrow c (mem_of_getElem? hj)

theorem any_title : (book.any fun s => s.1 == title) = true ↔ title ∈ book.map Prod.fst := by
  simp

theorem write_of_mem (h : title ∈ book.map Prod.fst) (hrows : refused? rows = none) :
    ∃ book', book.write title rows = (book', .ok ()) ∧ book'.map Prod.fst = book.map Prod.fst := by
  rw [write, if_pos (any_title.2 h), writeRows, hrows]
  refine ⟨_, rfl, ?_⟩
  rw [map_map]
  refine map_congr_left fun s _ => ?_
  simp only [Function.comp_apply]
  split_ifs <;> rfl

theorem write_of_not_mem (h : AreTitles titles) (hbook : book.map Prod.fst ⊆ titles)
    (htitle : title ∈ titles) (hnew : title ∉ book.map Prod.fst) (hrows : refused? rows = none) :
    book.write title rows = (book ++ [(title, rows)], .ok ()) := by
  obtain ⟨hallowed, hdefault, hcase⟩ := h title htitle
  have hfirst : freeTitle (book.map Prod.fst) defaultTitle = defaultTitle :=
    freeTitle_eq fun a ha => (h a (hbook ha)).2.1
  have hfinal : freeTitle (book.map Prod.fst ++ [defaultTitle]) title = title := by
    refine freeTitle_eq fun a ha heq => ?_
    rcases mem_append.1 ha with ha | ha
    · exact hnew (hcase a (hbook ha) heq.symm ▸ ha)
    · exact hdefault (mem_singleton.1 ha ▸ heq.symm)
  simp only [write, mt any_title.1 hnew, hfirst, hallowed, hfinal, writeRows, hrows, overlay]
  simp

theorem writeAll_eq (h : AreTitles titles) (hbook : book.map Prod.fst ⊆ titles)
    (hsheets : sheets.map Prod.fst ⊆ titles) (hrows : ∀ s ∈ sheets, refused? s.2 = none)
    (hnodup : ((book ++ sheets).map Prod.fst).Nodup) :
    book.writeAll sheets = (book ++ sheets, .ok ()) := by
  induction sheets generalizing book with
  | nil => rw [append_nil, writeAll]
  | cons s sheets ih =>
    obtain ⟨hfirst, hrest⟩ := forall_mem_cons.1 hrows
    obtain ⟨htitle, hsheets⟩ := cons_subset.1 hsheets
    have hnew : s.1 ∉ book.map Prod.fst := by
      rw [map_append, nodup_append] at hnodup
      exact fun hmem => hnodup.2.2 _ hmem _ mem_cons_self rfl
    rw [append_cons] at hnodup ⊢
    rw [writeAll, write_of_not_mem h hbook htitle hnew hfirst]
    exact ih (by simp [hbook, htitle]) hsheets hrest hnodup

/-- `writeAll` gives no title twice. -/
theorem nodup_writeAll (h : AreTitles titles) (hbook : book.map Prod.fst ⊆ titles)
    (hsheets : sheets.map Prod.fst ⊆ titles) (hrows : ∀ s ∈ sheets, refused? s.2 = none)
    (hnodup : (book.map Prod.fst).Nodup) : ((book.writeAll sheets).1.map Prod.fst).Nodup := by
  induction sheets generalizing book with
  | nil => exact hnodup
  | cons s sheets ih =>
    obtain ⟨hfirst, hrest⟩ := forall_mem_cons.1 hrows
    obtain ⟨htitle, hsheets⟩ := cons_subset.1 hsheets
    rw [writeAll]
    by_cases hmem : s.1 ∈ book.map Prod.fst
    · obtain ⟨book', hwrite, hsame⟩ := write_of_mem hmem hfirst
      rw [hwrite]
      exact ih (hsame ▸ hbook) hsheets hrest (hsame ▸ hnodup)
    · rw [write_of_not_mem h hbook htitle hmem hfirst]
      refine ih (by simp [hbook, htitle]) hsheets hrest ?_
      rw [map_append, map_singleton, ← concat_eq_append]
      exact hnodup.concat hmem

/-- `writeAll` keeps `sheets` apart if their titles differ, and only then. -/
theorem writeAll_eq_iff (h : AreTitles titles) (hsheets : sheets.map Prod.fst ⊆ titles)
    (hrows : ∀ s ∈ sheets, refused? s.2 = none) :
    writeAll [] sheets = (sheets, .ok ()) ↔ (sheets.map Prod.fst).Nodup := by
  have hnil : ([] : Workbook).map Prod.fst ⊆ titles := nil_subset _
  refine ⟨fun heq => ?_, writeAll_eq h hnil hsheets hrows⟩
  have hnodup := nodup_writeAll h hnil hsheets hrows nodup_nil
  rwa [heq] at hnodup

end Workbook

namespace Report

variable {t : Table} {rows : List (String × String)}

/-! ## Rows of a table -/

/-- `t` has rows with these files and smells. -/
structure HasRows (t : Table) (rows : List (String × String)) : Prop where
  files : t.HasTexts "filename" (rows.map Prod.fst)
  smells : t.HasTexts "smell_name" (rows.map Prod.snd)
  height_eq : t.height = rows.length

def project (r : String × String) : String := projectName r.1

/-- The smells of `rows`, each with the number of its rows. -/
def smellGroups (rows : List (String × String)) : List (Cell × Nat) :=
  countGroups (rows.map fun r => (.text r.2, .text r.1))

theorem tallies_smellGroups (rows : List (String × String)) :
    Tallies (rows.map Prod.snd) (smellGroups rows) :=
  tallies_countGroups rows Prod.snd Prod.fst

theorem sum_smellGroups_filter (rows : List (String × String)) (p : String) :
    ((smellGroups (rows.filter (project · == p))).map Prod.snd).sum
      = (rows.map project).count p := by
  rw [(tallies_smellGroups _).sum_eq, length_map, count, countP_map, countP_eq_length_filter]
  rfl

theorem HasRows.withProjects_eq (h : HasRows t rows) : ∃ t', withProjects t = .ok t' ∧
    HasRows t' rows ∧ t'.HasTexts "project_name" (rows.map project) := by
  obtain ⟨c, hc, hcells⟩ := h.files
  have hprojects : c.cells.mapM projectCell = .ok ((rows.map project).map .text) := by
    rw [hcells, map_map, mapM_map, map_map]
    exact mapM_eq_ok fun r _ => rfl
  let column : Column := ⟨"project_name", .object, (rows.map project).map .text⟩
  have hother : ∀ name ≠ "project_name", ∀ texts, t.HasTexts name texts →
      (t.setColumn column).HasTexts name texts := by
    rintro name hname texts ⟨d, hd, hdcells⟩
    exact ⟨d, by rw [column?_setColumn, if_neg hname, hd], hdcells⟩
  refine ⟨t.setColumn column, ?_,
    ⟨hother _ (by decide) _ h.files, hother _ (by decide) _ h.smells, ?_⟩, column, ?_, rfl⟩
  · rw [withProjects, requireColumn, hc]
    show (c.cells.mapM projectCell >>= _) = _
    rw [hprojects]
    rfl
  · rw [← h.height_eq, setColumn]
    split_ifs <;> rfl
  · rw [column?_setColumn, if_pos rfl]

theorem HasRows.smellCounts_eq (h : HasRows t rows) : smellCounts t = .ok (smellGroups rows) :=
  h.smells.countBy_eq h.files

/-- `rowsOfProject` gives those rows that have a file of the project `p`. -/
theorem HasRows.smellCounts_rowsOfProject (h : HasRows t rows)
    (hprojects : t.HasTexts "project_name" (rows.map project)) (p : String) :
    smellCounts (rowsOfProject t (.text p)) = .ok (smellGroups (rows.filter (project · == p))) := by
  obtain ⟨c, hc, hcells⟩ := hprojects
  have hrows : rowsOfProject t (.text p) = t.keepRows (rows.map (project · == p)) := by
    rw [rowsOfProject, hc]
    dsimp only
    rw [hcells, map_map, map_map]
    refine congrArg t.keepRows (map_congr_left fun r _ => ?_)
    exact BEq.comm
  rw [hrows]
  exact (h.smells.keepRows _).countBy_eq (h.files.keepRows _)

/-! ## Sheets of a summary -/

def overviewTitles : List String := ["General Overview", "Project Overview"]

def title (p : String) : String := sheetTitle (.text p)

/-- The sheets of a summary; each project has its smells. -/
def sheetsOf (smells projects : List (Cell × Nat)) (details : List (String × List (Cell × Nat))) :
    List Sheet :=
  [("General Overview", countRows smellHeadings smells),
    ("Project Overview", countRows projectHeadings projects)] ++
  details.map fun d => (title d.1, countRows smellHeadings d.2)

/-- The smells and projects of `rows` can be written to sheets as they are. -/
def Writable (rows : List (String × String)) : Prop :=
  (∀ r ∈ rows, ∀ s ∈ [r.2, project r], refuses (sheetCell (.text s)) = false) ∧
    AreTitles (overviewTitles ++ rows.map fun r => title (project r))

/-- No two projects of `rows` have sheets with the same title. -/
def Separate (rows : List (String × String)) : Prop :=
  ∀ r ∈ rows, title (project r) ∉ overviewTitles ∧
    ∀ s ∈ rows, title (project r) = title (project s) → project r = project s

theorem refused?_countRows {headings keys : List String} {counts : List (Cell × Nat)}
    (hheadings : ∀ s ∈ headings, refuses (.text s) = false)
    (hcounts : Tallies keys counts)
    (hkeys : ∀ s ∈ keys, refuses (sheetCell (.text s)) = false) :
    refused? (countRows headings counts) = none := by
  obtain ⟨names, -, hmem, rfl⟩ := hcounts
  refine refused?_eq_none (forall_mem_cons.2 ⟨forall_mem_map.2 hheadings, ?_⟩)
  rw [map_map]
  refine forall_mem_map.2 fun s hs => ?_
  exact forall_mem_cons.2 ⟨hkeys s ((hmem s).1 hs), forall_mem_singleton.2 rfl⟩

theorem nodup_titles_iff {names : List String} (hnodup : names.Nodup)
    (hmem : ∀ p, p ∈ names ↔ p ∈ rows.map project) :
    (overviewTitles ++ names.map title).Nodup ↔ Separate rows := by
  rw [nodup_append]
  constructor
  · rintro ⟨-, hinj, hother⟩ r hr
    have hp := (hmem _).2 (mem_map_of_mem hr)
    refine ⟨fun h => hother _ h _ (mem_map_of_mem hp) rfl, fun s hs heq => ?_⟩
    exact inj_on_of_nodup_map hinj hp ((hmem _).2 (mem_map_of_mem hs)) heq
  · intro h
    have hrow : ∀ p ∈ names, ∃ r ∈ rows, project r = p := fun p hp => mem_map.1 ((hmem p).1 hp)
    refine ⟨by decide, hnodup.map_on fun p hp q hq heq => ?_, ?_⟩
    · obtain ⟨r, hr, rfl⟩ := hrow p hp
      obtain ⟨s, hs, rfl⟩ := hrow q hq
      exact (h r hr).2 s hs heq
    · rintro _ ha _ hb rfl
      obtain ⟨p, hp, rfl⟩ := mem_map.1 hb
      obtain ⟨r, hr, rfl⟩ := hrow p hp
      exact (h r hr).1 ha

/-- `writeAll` keeps the sheets of a summary apart if no two projects have the same title. -/
theorem writeAll_sheetsOf_iff (hw : Writable rows) {smells projects : List (Cell × Nat)}
    {details : List (String × List (Cell × Nat))} (hsmells : Tallies (rows.map Prod.snd) smells)
    (hprojects : Tallies (rows.map project) projects)
    (hnames : projects.map Prod.fst = details.map (.text ·.1))
    (hdetails : ∀ d ∈ details, Tallies ((rows.filter (project · == d.1)).map Prod.snd) d.2) :
    writeAll [] (sheetsOf smells projects details)
      = (sheetsOf smells projects details, .ok ()) ↔ Separate rows := by
  obtain ⟨names, hsorted, hmem, heq⟩ := id hprojects
  have hfst : names = details.map Prod.fst := by
    rw [heq, map_map] at hnames
    refine map_injective_iff.2 (fun _ _ h => Cell.text.inj h) (hnames.trans ?_)
    rw [map_map]
    rfl
  have htitles : (sheetsOf smells projects details).map Prod.fst
      = overviewTitles ++ names.map title := by
    rw [hfst, sheetsOf, map_append, map_map, map_map]
    rfl
  rw [← nodup_titles_iff (nodup_of_pairwise_lt hsorted) hmem, ← htitles]
  obtain ⟨hcells, htaken⟩ := hw
  have hsmell : ∀ s ∈ rows.map Prod.snd, refuses (sheetCell (.text s)) = false :=
    forall_mem_map.2 fun r hr => hcells r hr _ mem_cons_self
  refine writeAll_eq_iff htaken ?_ (forall_mem_cons.2 ⟨?_, forall_mem_cons.2 ⟨?_,
    forall_mem_map.2 fun d hd => ?_⟩⟩)
  · rw [htitles]
    refine append_subset.2 ⟨subset_append_left _ _, fun a ha => ?_⟩
    obtain ⟨p, hp, rfl⟩ := mem_map.1 ha
    obtain ⟨r, hr, rfl⟩ := mem_map.1 ((hmem p).1 hp)
    exact mem_append_right _ (mem_map_of_mem hr)
  · exact refused?_countRows (by decide) hsmells hsmell
  · exact refused?_countRows (by decide) hprojects (forall_mem_map.2 fun r hr =>
      hcells r hr _ (mem_cons_of_mem _ mem_cons_self))
  · refine refused?_countRows (by decide) (hdetails d hd) (forall_mem_map.2 fun r hr => ?_)
    exact hsmell _ (mem_map_of_mem (mem_filter.1 hr).1)

/-- The counts of the smells, of the projects and of the smells of each project have every name once
and add up to the number of `rows`.  They are written to sheets of their own only if no two projects
have the same title (`Separate`). -/
theorem totals_of_rows (h : HasRows t rows) :
    ∃ t' smells projects details,
      smellCounts t = .ok smells ∧ withProjects t = .ok t' ∧ projectCounts t' = .ok projects ∧
      summarySheets t' = .ok (sheetsOf smells projects details) ∧
      Tallies (rows.map Prod.snd) smells ∧ Tallies (rows.map project) projects ∧
      projects.map Prod.fst = details.map (.text ·.1) ∧
      (∀ d ∈ details, Tallies ((rows.filter (project · == d.1)).map Prod.snd) d.2) ∧
      (smells.map Prod.snd).sum = t.height ∧ (projects.map Prod.snd).sum = t.height ∧
      (details.map fun d => (d.2.map Prod.snd).sum).sum = t.height ∧
      (Writable rows → (writeAll [] (sheetsOf smells projects details)
        = (sheetsOf smells projects details, .ok ()) ↔ Separate rows)) := by
  obtain ⟨t', ht', hrows, hprojects⟩ := h.withProjects_eq
  have hcounts : projectCounts t' = _ := hprojects.countBy_eq hrows.smells
  have hsmells := tallies_smellGroups rows
  have htallies := tallies_countGroups rows project Prod.snd
  obtain ⟨names, -, -, heq⟩ := id htallies
  rw [heq] at hcounts htallies
  let details := names.map fun p => (p, smellGroups (rows.filter (project · == p)))
  have hdetails : ∀ d ∈ details, Tallies ((rows.filter (project · == d.1)).map Prod.snd) d.2 :=
    forall_mem_map.2 fun p _ => tallies_smellGroups _
  have hnames : (names.map fun s => (Cell.text s, (rows.map project).count s)).map Prod.fst
      = details.map (.text ·.1) := by
    rw [map_map, map_map]
    rfl
  have hsum := htallies.sum_eq
  rw [length_map, ← h.height_eq] at hsum
  refine ⟨t', _, _, details, h.smellCounts_eq, ht', hcounts, ?_, hsmells, htallies, hnames,
    hdetails, ?_, hsum, ?_, fun hw => writeAll_sheetsOf_iff hw hsmells htallies hnames hdetails⟩
  · rw [summarySheets, sheetsOf]
    refine bind_eq_ok.2 ⟨_, hrows.smellCounts_eq, bind_eq_ok.2 ⟨_, hcounts, ?_⟩⟩
    refine bind_eq_ok.2 ⟨_, ?_, rfl⟩
    rw [mapM_map, map_map]
    refine mapM_eq_ok fun p _ => ?_
    exact bind_eq_ok.2 ⟨_, hrows.smellCounts_rowsOfProject hprojects p, rfl⟩
  · rw [hsmells.sum_eq, length_map, h.height_eq]
  · rw [← hsum, map_map, map_map]
    refine congrArg sum (map_congr_left fun p _ => ?_)
    exact sum_smellGroups_filter rows p

/-- Rows of two projects whose names begin with the same 30 characters. -/
def longNames : List (String × String) :=
  ["1", "2"].map fun n => (String.ofList (replicate 30 'p') ++ n ++ "/a.py", "smell")

def longNameTable : Table where
  columns := [⟨"filename", .object, longNames.map (.text ·.1)⟩,
    ⟨"smell_name", .object, longNames.map (.text ·.2)⟩]
  height := 2

/-- One of the two projects has no sheet of its own. -/
theorem totals_of_rows_longNames :
    HasRows longNameTable longNames ∧ Writable longNames ∧ ¬Separate longNames ∧
      ∃ t' sheets, withProjects longNameTable = .ok t' ∧ summarySheets t' = .ok sheets ∧
        writeAll [] sheets ≠ (sheets, .ok ()) := by
  have hrows : HasRows longNameTable longNames := ⟨⟨_, rfl, rfl⟩, ⟨_, rfl, rfl⟩, rfl⟩
  have hw : Writable longNames := by
    unfold Writable AreTitles
    decide +kernel
  have hs : ¬Separate longNames := by
    unfold Separate
    decide +kernel
  obtain ⟨t', smells, projects, details, -, ht', -, hsheets, -, -, -, -, -, -, -, hiff⟩ :=
    totals_of_rows hrows
  exact ⟨hrows, hw, hs, t', _, ht', hsheets, fun h => hs ((hiff hw).1 h)⟩

end Report

end SmellLint
