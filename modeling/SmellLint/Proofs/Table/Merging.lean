import SmellLint.Proofs.Table.Reading
import SmellLint.Proofs.Project.Merge
import Mathlib.Algebra.Ring.Nat
import Mathlib.Data.List.Chain
import Mathlib.Data.List.Nodup
import Mathlib.Data.List.TakeWhile

/-!
# Joining tables of findings

Tables with the same columns are joined: the cells of a column are those of the tables in turn,
converted to one kind, and whole numbers stay as they are (`Table.concat_spec`).  So the joined
table of findings tells where all of them are, also after it has been written and read again
(`Table.read_concat_ofRows`, `Project.mergeResults_rows`).
-/

namespace SmellLint.Table

open ColumnKind JoinUnit List

def kind? (t : Table) (name : String) : Option ColumnKind := (t.column? name).map (·.kind)

def cellsOf (t : Table) (name : String) : List Cell :=
  match t.column? name with
  | some c => c.cells
  | none => replicate t.height .missing

/-! ## Groups -/

/-- A flag for each element of a list: whether it is `related` to the one before it; the flag of the
first is given. -/
def flags {α : Type} (related : α → α → Bool) (first : Bool) : List α → List Bool
  | [] => []
  | a :: r => first :: go a r
where
  go (a : α) : List α → List Bool
    | [] => []
    | b :: r => related a b :: go b r

variable {α : Type} {names : List String} {tables : List Table}

theorem flags_cons_cons (related : α → α → Bool) (first : Bool) (a b : α) (r : List α) :
    flags related first (a :: b :: r) = first :: flags related (related a b) (b :: r) := rfl

theorem flags_true (l : List α) : flags (fun _ _ => true) true l = l.map fun _ => true := by
  induction l with
  | nil => rfl
  | cons a l ih =>
    cases l with
    | nil => rfl
    | cons b l => rw [flags_cons_cons, ih, map_cons (a := a)]

theorem zipWith_flags (p q : α → α → Bool) (a b : Bool) (l : List α) :
    (flags p a l).zipWith (· && ·) (flags q b l)
      = flags (fun x y => p x y && q x y) (a && b) l := by
  induction l generalizing a b with
  | nil => rfl
  | cons x l ih =>
    cases l with
    | nil => rfl
    | cons y l => rw [flags_cons_cons, flags_cons_cons, flags_cons_cons, zipWith_cons_cons, ih]

theorem flags_map {β : Type} (p : β → β → Bool) (first : Bool) (f : α → β) (l : List α) :
    flags p first (l.map f) = flags (fun x y => p (f x) (f y)) first l := by
  induction l generalizing first with
  | nil => rfl
  | cons a l ih =>
    cases l with
    | nil => rfl
    | cons b l =>
      rw [map_cons, map_cons, flags_cons_cons, flags_cons_cons, ← map_cons, ih]

theorem exists_slotRuns_cons (s : Option (ColumnKind × Nat))
    (slots : List (Option (ColumnKind × Nat))) :
    ∃ run runs, slotRuns (s :: slots) = (s :: run) :: runs := by
  rw [slotRuns]
  split
  · split_ifs <;> exact ⟨_, _, rfl⟩
  · exact ⟨_, _, rfl⟩

/-- Runs have a link wherever a place is of the kind of the place before it. -/
theorem slotRuns_links (slots : List (Option (ColumnKind × Nat))) :
    (slotRuns slots).flatMap (fun run => run.mapIdx fun i _ => i != 0)
      = flags (fun s s' => decide (s.map Prod.fst = s'.map Prod.fst)) false slots := by
  have hlinked (k : Nat) (run : List (Option (ColumnKind × Nat))) :
      run.mapIdx (fun i _ => i + (k + 1) != 0) = run.map fun _ => true := by
    induction run generalizing k with
    | nil => rfl
    | cons s run ih =>
      rw [mapIdx_cons, map_cons, ← ih (k + 1)]
      rfl
  induction slots with
  | nil => rfl
  | cons s slots ih =>
    cases slots with
    | nil => rfl
    | cons s' slots =>
      obtain ⟨run, runs, hruns⟩ := exists_slotRuns_cons s' slots
      rw [hruns, flatMap_cons, mapIdx_cons, hlinked 0] at ih
      have hrest := (cons.inj ih).2
      rw [append_eq] at hrest
      rw [flags_cons_cons, slotRuns, hruns]
      dsimp only
      by_cases hkind : s.map Prod.fst = s'.map Prod.fst
      · rw [if_pos hkind, flatMap_cons, mapIdx_cons, hlinked 0,
          map_cons, cons_append, cons_append, hrest, decide_eq_true hkind]
        rfl
      · rw [if_neg hkind, flatMap_cons, flatMap_cons, mapIdx_cons (a := s'),
          hlinked 0, cons_append, hrest, decide_eq_false hkind]
        rfl

theorem links_eq {t : Table} (h : t.names = names) :
    links names t = flags (fun x y => decide (t.kind? x = t.kind? y)) false names := by
  have hkind (x : String) : (t.slot? x).map Prod.fst = t.kind? x := by
    rw [slot?, Option.map_map]
    rfl
  rw [links, if_pos (by simp [h]), slotRuns_links, flags_map]
  simp [hkind]

/-- Columns that follow each other are linked if every table has them in columns of one kind. -/
theorem foldl_links (htables : ∀ t ∈ tables, t.names = names) (p : String → String → Bool)
    (first : Bool) :
    ∃ first', tables.foldl (fun flags t => flags.zipWith (· && ·) (links names t))
        (flags p first names)
      = flags (fun x y => p x y && tables.all fun t => decide (t.kind? x = t.kind? y)) first'
          names := by
  induction tables generalizing p first with
  | nil => exact ⟨first, by simp⟩
  | cons t tables ih =>
    obtain ⟨ht, htables⟩ := forall_mem_cons.1 htables
    rw [foldl_cons, links_eq ht, zipWith_flags]
    obtain ⟨first', hfold⟩ := ih htables _ _
    refine ⟨first', hfold.trans ?_⟩
    simp [Bool.and_assoc]

theorem groupNames_cons_cons (x : String) (a : Bool) {y : String} {b : Bool}
    {l : List (String × Bool)} {g : List String} {gs : List (List String)}
    (h : groupNames ((y, b) :: l) = g :: gs) :
    groupNames ((x, a) :: (y, b) :: l) = if b then (x :: g) :: gs else [x] :: g :: gs := by
  rw [groupNames.eq_def]
  simp only [h]
  cases b <;> rfl

theorem groupNames_flags (p : String → String → Bool) (first : Bool) (names : List String) :
    (groupNames (names.zip (flags p first names))).flatten = names ∧
      ∀ g ∈ groupNames (names.zip (flags p first names)), g ≠ [] ∧ g.IsChain (p · · = true) := by
  induction names generalizing first with
  | nil => exact ⟨rfl, forall_mem_nil _⟩
  | cons x names ih =>
    cases names with
    | nil =>
      refine ⟨rfl, fun g hg => ?_⟩
      rw [mem_singleton.1 hg]
      exact ⟨cons_ne_nil _ _, isChain_singleton _⟩
    | cons y names =>
      obtain ⟨hflatten, hgroups⟩ := ih (p x y)
      rw [flags_cons_cons, zip_cons_cons]
      cases hg : groupNames ((y :: names).zip (flags p (p x y) (y :: names))) with
      | nil =>
        rw [hg] at hflatten
        cases hflatten
      | cons g gs =>
        rw [hg] at hflatten hgroups
        obtain ⟨⟨hne, hchain⟩, hgs⟩ := forall_mem_cons.1 hgroups
        obtain ⟨z, g, rfl⟩ := exists_cons_of_ne_nil hne
        obtain ⟨rfl, hrest⟩ := cons.inj hflatten
        have hzip : (z :: names).zip (flags p (p x z) (z :: names))
            = (z, p x z) :: names.zip (flags p (p x z) (z :: names)).tail := rfl
        rw [hzip] at hg ⊢
        rw [groupNames_cons_cons x first hg]
        split_ifs with hp
        · refine ⟨congrArg (x :: ·) hflatten, forall_mem_cons.2 ⟨⟨cons_ne_nil _ _, ?_⟩, hgs⟩⟩
          exact isChain_cons_cons.2 ⟨hp, hchain⟩
        · refine ⟨congrArg (x :: ·) hflatten, forall_mem_cons.2 ⟨?_, hgroups⟩⟩
          exact ⟨cons_ne_nil _ _, isChain_singleton _⟩

/-- `joinGroups` loses nothing, and the columns of a group are of one kind in every table. -/
theorem joinGroups_spec (htables : ∀ t ∈ tables, t.names = names) :
    (joinGroups names tables).flatten = names ∧
      ∀ g ∈ joinGroups names tables, ∃ x r, g = x :: r ∧
        ∀ t ∈ tables, ∀ y ∈ g, t.kind? y = t.kind? x := by
  obtain ⟨first, hfold⟩ := foldl_links htables _ true
  rw [flags_true] at hfold
  obtain ⟨hflatten, hgroups⟩ := groupNames_flags
    (fun x y => true && tables.all fun t => decide (t.kind? x = t.kind? y)) first names
  rw [← hfold] at hflatten hgroups
  refine ⟨hflatten, fun g hg => ?_⟩
  obtain ⟨hne, hchain⟩ := hgroups g hg
  obtain ⟨x, r, rfl⟩ := exists_cons_of_ne_nil hne
  refine ⟨x, r, rfl, fun t ht => ?_⟩
  have hkinds : (x :: r).IsChain fun y z => t.kind? y = t.kind? z := by
    refine hchain.imp fun y z h => ?_
    rw [Bool.true_and, all_eq_true] at h
    exact of_decide_eq_true (h t ht)
  clear hg hne hchain
  induction r generalizing x with
  | nil => simp
  | cons y r ih =>
    obtain ⟨hxy, hr⟩ := isChain_cons_cons.1 hkinds
    refine forall_mem_cons.2 ⟨rfl, fun z hz => ?_⟩
    rw [hxy]
    exact ih y hr z hz

/-! ## Joined columns -/

theorem convert_object (c : Cell) : convert .object c = c := by
  cases c <;> rfl

/-- `convert` leaves texts as they are, and makes no others. -/
theorem convert_eq_text {kind : ColumnKind} {c : Cell} {s : String} :
    kind.convert c = .text s ↔ c = .text s := by
  cases kind <;> cases c <;> simp [convert]

theorem convert_int {kind : ColumnKind} (h : kind ≠ .float) (n : Int) :
    kind.convert (.int n) = .int n := by
  cases kind <;> simp_all [convert]

theorem joinAll_of_int {kinds : List ColumnKind} (hne : kinds ≠ []) (h : ∀ k ∈ kinds, k = .int) :
    joinAll kinds = .int := by
  cases kinds with
  | nil => exact absurd rfl hne
  | cons k kinds =>
    obtain ⟨rfl, hkinds⟩ := forall_mem_cons.1 h
    clear h hne
    induction kinds with
    | nil => rfl
    | cons k kinds ih =>
      obtain ⟨rfl, hrest⟩ := forall_mem_cons.1 hkinds
      exact ih hrest

/-- Whole numbers stay whole numbers. -/
theorem joinedKinds_of_int {units : List JoinUnit} (hne : units ≠ [])
    (h : ∀ u ∈ units, u.kind = some .int) : joinedKinds units = (.int, .int) := by
  have huniform : areUniform units = true := by
    obtain ⟨u, units, rfl⟩ := exists_cons_of_ne_nil hne
    have hfirst : (u :: units).head?.bind (·.kind) = some .int := h u mem_cons_self
    rw [areUniform, hfirst, all_eq_true]
    intro v hv
    simp [isVoid, h v hv, holdsMissing]
  have hkinds : joinAll (units.filterMap (·.kind)) = .int := by
    refine joinAll_of_int ?_ fun k hk => ?_
    · obtain ⟨u, units, rfl⟩ := exists_cons_of_ne_nil hne
      rw [filterMap_cons_some (h u mem_cons_self)]
      exact cons_ne_nil _ _
    · obtain ⟨u, hu, huk⟩ := mem_filterMap.1 hk
      exact Option.some.inj (huk.symm.trans (h u hu))
  rw [joinedKinds, if_pos huniform, hkinds]

theorem joinedColumns_eq (tables : List Table) (group : List String) :
    joinedColumns tables group = group.map fun name =>
      ⟨name, (joinedKinds (tables.map (ofTable group))).1,
        tables.flatMap fun t => (t.cellsOf name).map
          (joinedKinds (tables.map (ofTable group))).2.convert⟩ := by
  refine ext_getElem (by simp [joinedColumns]) fun i hi hi' => ?_
  have hi : i < group.length := by simpa using hi'
  have hcells (t : Table) : (ofTable group t).cells = group.map t.cellsOf := rfl
  simp [joinedColumns, flatMap_map, hcells, hi]

theorem column?_of_mem {t : Table} (h : t.names.Nodup) {c : Column} (hc : c ∈ t.columns) :
    t.column? c.name = some c := by
  have hsome : (t.column? c.name).isSome := find?_isSome.2 ⟨c, hc, beq_self_eq_true _⟩
  obtain ⟨d, hd⟩ := Option.isSome_iff_exists.1 hsome
  have hname : d.name = c.name := by simpa using find?_some hd
  rw [hd, inj_on_of_nodup_map h (mem_of_find?_eq_some hd) hc hname]

variable (hnames : names.Nodup) (hne : tables ≠ []) (htables : ∀ t ∈ tables, t.names = names)
include hnames hne htables

theorem eraseDups_names : (tables.flatMap Table.names).eraseDups = names := by
  have hself : ∀ l : List String, l.Nodup → l.eraseDups = l := by
    intro l
    induction l with
    | nil => intro _; rfl
    | cons a l ih =>
      intro hl
      obtain ⟨ha, hl⟩ := nodup_cons.1 hl
      have hfilter : l.filter (fun b => !b == a) = l := by
        rw [filter_eq_self]
        intro b hb
        have hne : b ≠ a := fun h => ha (h ▸ hb)
        simp [hne]
      rw [eraseDups_cons, hfilter, ih hl]
  obtain ⟨t, tables, rfl⟩ := exists_cons_of_ne_nil hne
  obtain ⟨ht, htables⟩ := forall_mem_cons.1 htables
  have hrest : (tables.flatMap Table.names).removeAll names = [] := by
    rw [removeAll, filter_eq_nil_iff]
    intro x hx
    obtain ⟨u, hu, hxu⟩ := mem_flatMap.1 hx
    rw [htables u hu] at hxu
    simp [hxu]
  rw [flatMap_cons, ht, eraseDups_append, hrest, hself names hnames]
  exact append_nil names

/-- `concat` of several tables with the same columns.  A column is made with those of its group,
which are of one kind in every table. -/
theorem concat_groups (hmany : ¬∃ t, tables = [t]) :
    (concat tables).names = names ∧ (concat tables).height = (tables.map (·.height)).sum ∧
      ∀ c ∈ (concat tables).columns, ∃ x r, c.name ∈ x :: r ∧ (∀ y ∈ x :: r, y ∈ names) ∧
        (∀ t ∈ tables, ∀ y ∈ x :: r, t.kind? y = t.kind? x) ∧
        c.kind = (joinedKinds (tables.map (ofTable (x :: r)))).1 ∧
        c.cells = tables.flatMap fun t => (t.cellsOf c.name).map
          (joinedKinds (tables.map (ofTable (x :: r)))).2.convert := by
  have hconcat : concat tables
      = ⟨(joinGroups names tables).flatMap (joinedColumns tables),
          (tables.map (·.height)).sum⟩ := by
    rw [concat, eraseDups_names hnames hne htables]
    · rfl
    · intro t ht
      exact hmany ⟨t, ht⟩
  obtain ⟨hflatten, hgroups⟩ := joinGroups_spec htables
  rw [hconcat]
  refine ⟨?_, rfl, fun c hc => ?_⟩
  · have hgroup (g : List String) : (joinedColumns tables g).map (·.name) = g := by
      simp [joinedColumns_eq, Function.comp_def]
    rw [Table.names, map_flatMap]
    simp only [hgroup]
    rw [flatMap_id']
    exact hflatten
  · obtain ⟨g, hg, hc⟩ := mem_flatMap.1 hc
    obtain ⟨x, r, rfl, hkinds⟩ := hgroups g hg
    rw [joinedColumns_eq] at hc
    obtain ⟨name, hname, rfl⟩ := mem_map.1 hc
    refine ⟨x, r, hname, fun y hy => ?_, hkinds, rfl, rfl⟩
    rw [← hflatten]
    exact mem_flatten.2 ⟨_, hg, hy⟩

/-- `concat` of tables with the same columns.  The cells of a column are those of the tables in
turn, converted to one kind; whole numbers stay as they are. -/
theorem concat_spec :
    (concat tables).names = names ∧ (concat tables).height = (tables.map (·.height)).sum ∧
      ∀ c ∈ (concat tables).columns, ∃ shape : ColumnKind,
        c.cells = tables.flatMap (fun t => (t.cellsOf c.name).map shape.convert) ∧
        ((∀ t ∈ tables, t.kind? c.name = some .int) → shape ≠ .float) := by
  by_cases hsingle : ∃ t, tables = [t]
  · obtain ⟨t, rfl⟩ := hsingle
    have ht := htables t mem_cons_self
    refine ⟨ht, by simp [concat], fun c hc => ⟨.object, ?_, fun _ => by decide⟩⟩
    have hcells : t.cellsOf c.name = c.cells := by
      rw [cellsOf, column?_of_mem (t := t) (ht ▸ hnames) hc]
    have hconvert : convert .object = id := funext convert_object
    simp [hcells, hconvert]
  · obtain ⟨hconcat, hheight, hcolumns⟩ := concat_groups hnames hne htables hsingle
    refine ⟨hconcat, hheight, fun c hc => ?_⟩
    obtain ⟨x, r, hname, -, hkinds, -, hcells⟩ := hcolumns c hc
    refine ⟨_, hcells, fun hint => ?_⟩
    have hunits : ∀ u ∈ tables.map (ofTable (x :: r)), u.kind = some .int := by
      intro u hu
      obtain ⟨t, ht, rfl⟩ := mem_map.1 hu
      have hkind : (ofTable (x :: r) t).kind = t.kind? x := rfl
      rw [hkind, ← hkinds t ht c.name hname]
      exact hint t ht
    rw [joinedKinds_of_int (by simpa using hne) hunits]
    decide

end SmellLint.Table

namespace SmellLint

open Csv (clipped IsSafe)
open Path Row Table Text Text.Utf8 List

/-- `r` is as rows are found: in a file with an absolute path, by a rule, and on a line of a file
that 64 bits can count.  A carriage return stands in fields that are written in quotes only, which
has to hold of the field as it stands and of what is read of it, and no text holds half a pair. -/
@[mk_iff]
structure Row.IsStorable (r : Row) : Prop where
  isAbsolute : isAbsolute r.filename = true
  noNul : '\x00' ∉ r.filename.toList
  smell : r.smell ∈ Smell.rules.map Smell.Rule.smell
  line : r.line < halfRange
  safe : ∀ f ∈ r.fields, IsSafe f ∧ IsSafe (clipped f)
  encodable : ∀ f ∈ r.fields, encodeFault? f = none

instance (r : Row) : Decidable r.IsStorable := decidable_of_iff' _ (isStorable_iff r)

namespace Table

def ofRows (rows : List Row) : Table := ofFields (rows.map fun r => r.fields.map clipped)

variable {rows : List Row}

theorem read_toCsv (h : ∀ r ∈ rows, r.IsStorable) : read (Row.toCsv rows) = .ok (ofRows rows) := by
  have htext : Row.toCsv rows = fieldsText (rows.map fields) := by
    rw [fieldsText, map_map]
    rfl
  rw [htext, read_fieldsText, map_map]
  · rfl
  · intro fields hfields
    obtain ⟨r, hr, rfl⟩ := mem_map.1 hfields
    exact ⟨rfl, fun f hf => ((h r hr).safe f hf).1⟩

variable {s : String} {fields : List (List String)} {t : Table}

theorem clipped_of_not_mem (h : '\x00' ∉ s.toList) : clipped s = s := by
  rw [clipped, takeWhile_eq_self_iff.2, String.ofList_toList]
  intro c hc
  rw [bne_iff_ne]
  rintro rfl
  exact h hc

theorem isWord_of_isAbsolute (h : isAbsolute s = true) : IsWord s := by
  obtain ⟨cs, hs⟩ := exists_toList_of_isAbsolute h
  have hlower : s.toLower.toList = '/' :: cs.map Char.toLower := by
    show (s.map Char.toLower).toList = _
    rw [String.toList_map, hs]
    rfl
  -- words for numbers, truth values and missing cells do not start with a slash
  have hne {t u : String} {ds : List Char} (ht : t.toList = '/' :: ds)
      (hu : u.toList.head? ≠ some '/') : t ≠ u := by
    rintro rfl
    exact hu (by rw [ht]; rfl)
  have hinfinity : infinityWords.lookup s.toLower = none := by
    rw [lookup_eq_none_iff]
    intro e he
    have hkeys : ∀ k ∈ infinityWords.map Prod.fst, k.toList.head? ≠ some '/' := by decide
    rw [bne_iff_ne]
    exact hne hlower (hkeys e.1 (mem_map_of_mem he))
  have hbool : readBool? s = none := by
    have htrue : s.toLower ≠ "true" := hne hlower (by decide)
    have hfalse : s.toLower ≠ "false" := hne hlower (by decide)
    simp [readBool?, htrue, hfalse]
  have hmissing : isMissingText s = false := by
    have hwords : ∀ t ∈ missingTexts, t.toList.head? ≠ some '/' := by decide
    rw [isMissingText, ← Bool.not_eq_true, contains_iff_mem]
    intro hmem
    exact hne hs (hwords s hmem) rfl
  apply isWord_of_isWordText
  simp only [isWordText, hs, hinfinity, hbool, hmissing, head?_cons]
  decide

theorem isWord_of_smell (h : s ∈ Smell.rules.map Smell.Rule.smell) : IsWord s ∧ clipped s = s := by
  have hall : ∀ s ∈ Smell.rules.map Smell.Rule.smell, isWordText s = true ∧ clipped s = s := by
    decide +kernel
  exact ⟨isWord_of_isWordText (hall s h).1, (hall s h).2⟩

/-! ## Tables of rows -/

theorem names_ofFields (fields : List (List String)) : (ofFields fields).names = columnNames := by
  simp [ofFields, names, columnNames, (isColumnOf_columnOfTexts _ _).name_eq]

/-- The columns that tell where a finding is. -/
theorem column?_ofFields (fields : List (List String)) :
    (ofFields fields).column? "filename"
        = some (columnOfTexts "filename" (columnTexts fields 0)) ∧
      (ofFields fields).column? "smell_name"
        = some (columnOfTexts "smell_name" (columnTexts fields 2)) ∧
      (ofFields fields).column? "line" = some (columnOfTexts "line" (columnTexts fields 3)) := by
  simp [ofFields, column?, columnNames, (isColumnOf_columnOfTexts _ _).name_eq]

/-- `fields` tell where the findings `rows` are: files, smells and lines stand in their columns. -/
structure Tells (fields : List (List String)) (rows : List Row) : Prop where
  filenames : columnTexts fields 0 = rows.map (·.filename)
  smells : columnTexts fields 2 = rows.map (·.smell)
  lines : columnTexts fields 3 = rows.map fun r => toString r.line

/-- `t` tells where the findings `rows` are. -/
structure IsTableOf (rows : List Row) (t : Table) : Prop where
  height : t.height = rows.length
  filenames : t.column? "filename" = some ⟨"filename", .object, rows.map fun r => .text r.filename⟩
  smells : t.column? "smell_name" = some ⟨"smell_name", .object, rows.map fun r => .text r.smell⟩
  lines : t.column? "line" = some ⟨"line", .int, rows.map fun r => .int r.line⟩

theorem Tells.isTableOf (h : Tells fields rows) (hne : rows ≠ [])
    (hrows : ∀ r ∈ rows, r.IsStorable) : IsTableOf rows (ofFields fields) := by
  obtain ⟨hfilename, hsmell, hline⟩ := column?_ofFields fields
  rw [h.filenames, columnOfTexts_of_isWord, map_map] at hfilename
  · rw [h.smells, columnOfTexts_of_isWord, map_map] at hsmell
    · have hlines : (rows.map fun r => toString r.line) = (rows.map (·.line)).map toString := by
        rw [map_map]
        rfl
      rw [h.lines, hlines, columnOfTexts_of_lines, map_map] at hline
      · refine ⟨?_, hfilename, hsmell, hline⟩
        have hlength := congrArg length h.filenames
        rwa [columnTexts, length_map, length_map] at hlength
      · simpa using hne
      · intro n hn
        obtain ⟨r, hr, rfl⟩ := mem_map.1 hn
        exact (hrows r hr).line
    · intro s hs
      obtain ⟨r, hr, rfl⟩ := mem_map.1 hs
      exact (isWord_of_smell (hrows r hr).smell).1
  · intro s hs
    obtain ⟨r, hr, rfl⟩ := mem_map.1 hs
    exact isWord_of_isAbsolute (hrows r hr).isAbsolute

theorem clipped_toString (n : Nat) : clipped (toString n) = toString n := by
  refine clipped_of_not_mem fun hmem => ?_
  have hplain := isPlainChar_of_mem_toString hmem
  revert hplain
  decide

/-- `clipped` cuts none of the fields that tell where a finding is. -/
theorem Tells.clipped (h : Tells fields rows) (hrows : ∀ r ∈ rows, r.IsStorable) :
    Tells (fields.map (map clipped)) rows := by
  have hcolumn (i : Nat) : columnTexts (fields.map (map Csv.clipped)) i
      = (columnTexts fields i).map Csv.clipped := by
    rw [columnTexts, columnTexts, map_map, map_map]
    refine map_congr_left fun r _ => ?_
    simp only [Function.comp_apply, getD_eq_getElem?_getD, getElem?_map]
    cases r[i]? <;> rfl
  refine ⟨?_, ?_, ?_⟩
  · rw [hcolumn, h.filenames, map_map]
    exact map_congr_left fun r hr => clipped_of_not_mem (hrows r hr).noNul
  · rw [hcolumn, h.smells, map_map]
    exact map_congr_left fun r hr => (isWord_of_smell (hrows r hr).smell).2
  · rw [hcolumn, h.lines, map_map]
    exact map_congr_left fun r hr => clipped_toString r.line

theorem tells_fields (rows : List Row) : Tells (rows.map Row.fields) rows := by
  refine ⟨?_, ?_, ?_⟩ <;>
  · rw [columnTexts, map_map]
    rfl

theorem ofRows_isTableOf (hne : rows ≠ []) (hrows : ∀ r ∈ rows, r.IsStorable) :
    IsTableOf rows (ofRows rows) := by
  have htells := ((tells_fields rows).clipped hrows).isTableOf hne hrows
  rwa [map_map] at htells

/-- A text `s` in a table of `fields` is one of them. -/
theorem mem_of_mem_cellsOf {name : String} (hs : .text s ∈ (ofFields fields).cellsOf name) :
    s = "" ∨ ∃ r ∈ fields, s ∈ r := by
  unfold cellsOf at hs
  split at hs
  · next c hc =>
    obtain ⟨i, hi, rfl⟩ := mem_mapIdx.1 (mem_of_find?_eq_some hc)
    have hmem := (isColumnOf_columnOfTexts _ _).mem_of_text s hs
    obtain ⟨r, hr, rfl⟩ := mem_map.1 hmem
    rw [getD_eq_getElem?_getD]
    cases hget : r[i]? with
    | none => exact .inl rfl
    | some f => exact .inr ⟨r, hr, mem_of_getElem? hget⟩
  · cases eq_of_mem_replicate hs

/-! ## Joined tables of rows -/

def writtenFields (t : Table) : List (List String) := t.rows.map (map Cell.written)

theorem toCsv_eq (h : t.names = columnNames) : t.toCsv = fieldsText t.writtenFields := by
  rw [toCsv, fieldsText, writtenFields, h, map_map]
  rfl

theorem columnTexts_writtenFields {i : Nat} {c : Column} (hc : t.columns[i]? = some c)
    (hlength : c.cells.length = t.height) :
    columnTexts t.writtenFields i = c.cells.map Cell.written := by
  refine ext_getElem (by simp [columnTexts, writtenFields, rows, hlength]) fun k hk hk' => ?_
  have hk : k < c.cells.length := by simpa using hk'
  simp [columnTexts, writtenFields, rows, hc, hk]

/-- A field is written for a cell of a column, or is empty. -/
theorem exists_of_mem_writtenFields {r : List String} (hr : r ∈ t.writtenFields) {f : String}
    (hf : f ∈ r) : f = "" ∨ ∃ c ∈ t.columns, ∃ cell ∈ c.cells, f = cell.written := by
  obtain ⟨cells, hcells, rfl⟩ := mem_map.1 hr
  obtain ⟨i, -, rfl⟩ := mem_map.1 hcells
  obtain ⟨cell, hcell, rfl⟩ := mem_map.1 hf
  obtain ⟨c, hc, rfl⟩ := mem_map.1 hcell
  rw [getD_eq_getElem?_getD]
  cases hget : c.cells[i]? with
  | none => exact .inl rfl
  | some cell => exact .inr ⟨c, hc, cell, mem_of_getElem? hget, rfl⟩

section

variable {groups : List (List Row)} (hne : groups ≠ [])
  (hgroups : ∀ rows ∈ groups, rows ≠ [] ∧ ∀ r ∈ rows, r.IsStorable)

include hne hgroups

theorem concat_ofRows_spec : (concat (groups.map ofRows)).names = columnNames ∧
      (concat (groups.map ofRows)).height = groups.flatten.length ∧
      ∀ c ∈ (concat (groups.map ofRows)).columns, ∃ shape : ColumnKind,
        c.cells = groups.flatMap (fun rows => ((ofRows rows).cellsOf c.name).map shape.convert) ∧
        (c.name = "line" → shape ≠ .float) := by
  have htables : ∀ t ∈ groups.map ofRows, t.names = columnNames := by
    intro t ht
    obtain ⟨rows, -, rfl⟩ := mem_map.1 ht
    exact names_ofFields _
  obtain ⟨hnames, hheight, hcolumns⟩ := concat_spec (by decide) (by simpa using hne) htables
  refine ⟨hnames, ?_, fun c hc => ?_⟩
  · rw [hheight, map_map, length_flatten]
    refine congrArg sum (map_congr_left fun rows hrows => ?_)
    obtain ⟨hrowsNe, hstorable⟩ := hgroups rows hrows
    exact (ofRows_isTableOf hrowsNe hstorable).height
  · obtain ⟨shape, hcells, hshape⟩ := hcolumns c hc
    refine ⟨shape, by rw [hcells, flatMap_map], fun hline => hshape fun t ht => ?_⟩
    obtain ⟨rows, hrows, rfl⟩ := mem_map.1 ht
    obtain ⟨hrowsNe, hstorable⟩ := hgroups rows hrows
    rw [hline, kind?, (ofRows_isTableOf hrowsNe hstorable).lines]
    rfl

theorem columnTexts_concat_ofRows {i : Nat} {name : String} {kind : ColumnKind} {f : Row → Cell}
    (hi : columnNames[i]? = some name)
    (hcolumn : ∀ rows ∈ groups, (ofRows rows).column? name = some ⟨name, kind, rows.map f⟩)
    (hconvert : ∀ shape : ColumnKind, (name = "line" → shape ≠ .float) →
      ∀ r, shape.convert (f r) = f r) :
    columnTexts (concat (groups.map ofRows)).writtenFields i
      = groups.flatten.map fun r => (f r).written := by
  obtain ⟨hnames, hheight, hcolumns⟩ := concat_ofRows_spec hne hgroups
  rw [← hnames, names, getElem?_map] at hi
  obtain ⟨c, hc, rfl⟩ := Option.map_eq_some_iff.1 hi
  obtain ⟨shape, hcells, hshape⟩ := hcolumns c (mem_of_getElem? hc)
  have hall : c.cells = groups.flatten.map f := by
    rw [hcells, map_flatten]
    refine flatMap_congr fun rows hrows => ?_
    rw [cellsOf, hcolumn rows hrows, map_map]
    exact map_congr_left fun r _ => hconvert shape hshape r
  rw [columnTexts_writtenFields hc (by rw [hall, length_map, hheight]), hall, map_map]
  rfl

/-- `concat` tells where the findings of all tables are. -/
theorem tells_concat_ofRows : Tells (concat (groups.map ofRows)).writtenFields groups.flatten := by
  have htable : ∀ rows ∈ groups, IsTableOf rows (ofRows rows) := fun rows hrows =>
    ofRows_isTableOf (hgroups rows hrows).1 (hgroups rows hrows).2
  refine ⟨?_, ?_, ?_⟩
  · exact columnTexts_concat_ofRows hne hgroups rfl
      (fun rows hrows => (htable rows hrows).filenames) fun shape _ r => convert_eq_text.2 rfl
  · exact columnTexts_concat_ofRows hne hgroups rfl (fun rows hrows => (htable rows hrows).smells)
      fun shape _ r => convert_eq_text.2 rfl
  · exact columnTexts_concat_ofRows hne hgroups rfl (fun rows hrows => (htable rows hrows).lines)
      fun shape hshape r => convert_int (hshape rfl) _

/-- What is written of `concat` is read as it is written, and can be encoded. -/
theorem writtenFields_concat_ofRows :
    ∀ r ∈ (concat (groups.map ofRows)).writtenFields, r.length = 6 ∧
      ∀ f ∈ r, IsSafe f ∧ encodeFault? f = none := by
  obtain ⟨hnames, -, hcolumns⟩ := concat_ofRows_spec hne hgroups
  intro r hr
  refine ⟨?_, fun f hf => ?_⟩
  · obtain ⟨cells, hcells, rfl⟩ := mem_map.1 hr
    obtain ⟨i, -, rfl⟩ := mem_map.1 hcells
    have hlength := congrArg length hnames
    rw [names, length_map] at hlength
    rw [length_map, length_map, hlength]
    rfl
  · have hplain {s : String} (hs : Decimal.IsPlainText s) : IsSafe s ∧ encodeFault? s = none := by
      refine ⟨fun hreturn => absurd (hs _ hreturn) (by decide),
        encodeFault?_eq_none_iff.2 fun c hc => ?_⟩
      have hlt := hs c hc
      simp only [isPlainChar, Bool.and_eq_true, decide_eq_true_eq] at hlt
      exact isHalf_eq_false_of_lt (by omega)
    rcases exists_of_mem_writtenFields hr hf with rfl | ⟨c, hc, cell, hcell, rfl⟩
    · exact hplain (Decimal.isPlainText_literal (by decide))
    · by_cases htext : ∃ s, cell = .text s
      · obtain ⟨s, rfl⟩ := htext
        obtain ⟨shape, hcells, -⟩ := hcolumns c hc
        rw [hcells] at hcell
        obtain ⟨rows, hrows, hcell⟩ := mem_flatMap.1 hcell
        obtain ⟨cell, hcell, heq⟩ := mem_map.1 hcell
        rw [convert_eq_text] at heq
        subst heq
        rcases mem_of_mem_cellsOf hcell with rfl | ⟨fields, hfields, hs⟩
        · exact hplain (Decimal.isPlainText_literal (by decide))
        · obtain ⟨row, hrow, rfl⟩ := mem_map.1 hfields
          obtain ⟨g, hg, rfl⟩ := mem_map.1 hs
          have hstorable := (hgroups rows hrows).2 row hrow
          refine ⟨(hstorable.safe g hg).2, encodeFault?_eq_none_iff.2 fun c hc => ?_⟩
          have hhalf := encodeFault?_eq_none_iff.1 (hstorable.encodable g hg)
          rw [Cell.written, clipped, String.toList_ofList] at hc
          exact hhalf c ((takeWhile_sublist _).subset hc)
      · refine hplain (Cell.isPlainText_written ?_)
        cases cell with
        | text s => exact absurd ⟨s, rfl⟩ htext
        | _ => rfl

/-- `read` gives, for what is written of `concat`, a table that tells where the findings of all
tables are. -/
theorem read_concat_ofRows : encodeFault? (concat (groups.map ofRows)).toCsv = none ∧
      ∃ t, read (concat (groups.map ofRows)).toCsv = .ok t ∧ IsTableOf groups.flatten t := by
  have hfields := writtenFields_concat_ofRows hne hgroups
  have hstorable : ∀ r ∈ groups.flatten, r.IsStorable := by
    intro r hr
    obtain ⟨rows, hrows, hr⟩ := mem_flatten.1 hr
    exact (hgroups rows hrows).2 r hr
  have hflatten : groups.flatten ≠ [] := by
    obtain ⟨rows, groups, rfl⟩ := exists_cons_of_ne_nil hne
    have hrows := (hgroups rows mem_cons_self).1
    simp [hrows]
  rw [toCsv_eq (concat_ofRows_spec hne hgroups).1]
  refine ⟨?_, _, read_fieldsText fun r hr => ⟨(hfields r hr).1, fun f hf => ?_⟩, ?_⟩
  · rw [fieldsText, encodeFault?_join_eq_none_iff, forall_mem_cons, forall_mem_map]
    refine ⟨by decide +kernel, fun r hr => ?_⟩
    have hlength : 2 ≤ r.length := by simp [(hfields r hr).1]
    exact (Csv.encodeFault?_recordText_eq_none_iff hlength).2 fun f hf => ((hfields r hr).2 f hf).2
  · exact ((hfields r hr).2 f hf).1
  · exact ((tells_concat_ofRows hne hgroups).clipped hstorable).isTableOf hflatten hstorable

end

end Table

namespace Project

variable {w : Workspace}

theorem tableOf?_toCsv {rows : List Row} (h : ∀ r ∈ rows, r.IsStorable) :
    tableOf? (.text (toCsv rows)) = if rows = [] then none else some (ofRows rows) := by
  have hread : (Content.text (toCsv rows)).rawText >>= read = .ok (ofRows rows) :=
    read_toCsv h
  have hheight : (ofRows rows).height = rows.length := by
    simp [ofRows, ofFields]
  rw [tableOf?, hread]
  split_ifs with hempty
  · subst hempty
    rfl
  · simp [hheight, hempty, Except.toOption]

/-- The tables below `p`, if they are tables of rows. -/
theorem tablesBelow_toCsv {t : Tree} {p : Place} {rowsAt : List String → List Row}
    (h : ∀ ws ∈ tableWays t p, t.file? (p ++ ws) = some (.text (toCsv (rowsAt ws))) ∧
      ∀ r ∈ rowsAt ws, r.IsStorable) :
    tablesBelow t p
      = (((tableWays t p).map rowsAt).filter fun rows => !rows.isEmpty).map ofRows := by
  unfold tablesBelow
  generalize tableWays t p = ways at h ⊢
  induction ways with
  | nil => rfl
  | cons ws ways ih =>
    obtain ⟨⟨hfile, hrows⟩, hways⟩ := forall_mem_cons.1 h
    have htable : (t.file? (p ++ ws)).bind tableOf?
        = if rowsAt ws = [] then none else some (ofRows (rowsAt ws)) := by
      rw [hfile, Option.bind_some, tableOf?_toCsv hrows]
    rw [filterMap_cons, htable, ih hways]
    by_cases hempty : rowsAt ws = [] <;> simp [hempty]

/-- `saveMerged` saves tables as one table if its text can be encoded. -/
theorem exec_saveMerged (hcwd : w.tree.lookup w.place = some .dir) {output : String} {o : Place}
    (houtput : w.tree.find w.place output = .ok (o, .dir))
    (hfree : w.tree.isDir (o ++ ["overview.csv"]) = false) {tables : List Table}
    (hne : tables ≠ []) (htext : encodeFault? (Table.concat tables).toCsv = none) :
    ∃ u, (saveMerged output tables).exec w = (.ok (), u) ∧
      u.tree.lookup (o ++ ["overview.csv"])
        = some (.file (.text (Table.concat tables).toCsv)) := by
  obtain ⟨t, hmake, hlookup, -⟩ := Run.exec_makeDirs_of_find hcwd houtput
  have hname : Tree.IsName "overview.csv" := by decide
  have hresolve := Tree.resolve_join_of_find (Tree.find_dir_mono (hlookup _).trans houtput) hname
  have hslash := endsWith_slash_join output hname.1.1
  have hfree' : t.isDir (o ++ ["overview.csv"]) = false := by
    rw [Tree.isDir, hlookup]
    exact hfree
  have hwrite := Run.exec_writeText (w := w.withTree t) hresolve hfree' hslash htext
  have hempty : ¬tables.isEmpty = true := by simpa using hne
  rw [saveMerged, if_neg hempty, Run.exec_bind_ok _ hmake, Run.exec_bind_ok _ hwrite]
  exact ⟨_, rfl, Tree.lookup_insert_self t (by simp) _⟩

/-- `mergeResults` keeps the findings in the tables below `path`: the overview is read again as a
table with the rows of all tables, in the order in which a visit finds them. -/
theorem mergeResults_rows (hw : w.Sound) {path output : String} {p o : Place}
    (hpath : w.tree.resolve w.place path = .ok p)
    (houtput : w.tree.find w.place output = .ok (o, .dir))
    (hfree : w.tree.isDir (o ++ ["overview.csv"]) = false) {rowsAt : List String → List Row}
    (htables : ∀ ws ∈ tableWays w.tree p,
      w.tree.file? (p ++ ws) = some (.text (Row.toCsv (rowsAt ws))) ∧
        ∀ r ∈ rowsAt ws, r.IsStorable)
    (hne : (tableWays w.tree p).flatMap rowsAt ≠ []) :
    ∃ u text t, (mergeResults path output).exec w = (.ok (), u) ∧
      u.tree.lookup (o ++ ["overview.csv"]) = some (.file (.text text)) ∧
      Table.read text = .ok t ∧ t.IsTableOf ((tableWays w.tree p).flatMap rowsAt) := by
  let groups := ((tableWays w.tree p).map rowsAt).filter fun rows => !rows.isEmpty
  have hbelow : tablesBelow w.tree p = groups.map Table.ofRows := tablesBelow_toCsv htables
  have hflatten : groups.flatten = (tableWays w.tree p).flatMap rowsAt := by
    rw [List.flatten_filter_not_isEmpty, List.flatMap_def]
  have hgroups : ∀ rows ∈ groups, rows ≠ [] ∧ ∀ r ∈ rows, r.IsStorable := by
    intro rows hrows
    obtain ⟨hmem, hrowsNe⟩ := List.mem_filter.1 hrows
    obtain ⟨ws, hws, rfl⟩ := List.mem_map.1 hmem
    exact ⟨by simpa using hrowsNe, (htables ws hws).2⟩
  have hgroupsNe : groups ≠ [] := by
    intro hnil
    rw [hnil] at hflatten
    exact hne hflatten.symm
  obtain ⟨htext, t, hread, htable⟩ := Table.read_concat_ofRows hgroupsNe hgroups
  rw [hflatten] at htable
  obtain ⟨printed, hexec⟩ := exec_mergeResults hw hpath output
  have hne' : groups.map Table.ofRows ≠ [] := by simpa using hgroupsNe
  obtain ⟨u, hsave, hlookup⟩ := exec_saveMerged (w := { w with printed }) hw.lookup_place houtput
    hfree hne' htext
  rw [hbelow] at hexec
  exact ⟨u, _, t, hexec.trans hsave, hlookup, hread, htable⟩

/-- Rows of one project, with a comma, quotes and a line end in their texts. -/
def quotedRows : List Row :=
  [⟨"/in/p/a,b.py", "f", "Chain_Indexing", 6, "a \"quoted\" text", "two\nlines"⟩,
   ⟨"/in/p/a,b.py", "", "memory_not_freed", 12, "1", "True"⟩]

/-- A row of another project. -/
def plainRows : List Row := [⟨"/in/q/c.py", "g", "in_place_apis_misused", 3, "nan", "x\ry,"⟩]

/-- Tables of two projects. -/
def savedTables : Workspace where
  tree := ⟨[(["out"], .dir), (["out", "details"], .dir),
    (["out", "details", "p_results.csv"], .file (.text (toCsv quotedRows))),
    (["out", "details", "q_results.csv"], .file (.text (toCsv plainRows)))]⟩

/-- The rows in the table of each project. -/
def savedRows (ws : List String) : List Row :=
  if ws = ["p_results.csv"] then quotedRows else plainRows

/-- The three rows are in the overview. -/
theorem mergeResults_rows_savedTables :
    ∃ u text t, (mergeResults "out/details" "out").exec savedTables = (.ok (), u) ∧
      u.tree.lookup ["out", "overview.csv"] = some (.file (.text text)) ∧
      Table.read text = .ok t ∧ t.IsTableOf (quotedRows ++ plainRows) := by
  have hsound : savedTables.Sound := ⟨by decide +kernel, by decide, rfl⟩
  have hpath : savedTables.tree.resolve savedTables.place "out/details"
      = .ok ["out", "details"] := rfl
  have houtput : savedTables.tree.find savedTables.place "out" = .ok (["out"], .dir) := rfl
  have htables : ∀ ws ∈ tableWays savedTables.tree ["out", "details"],
      savedTables.tree.file? (["out", "details"] ++ ws) = some (.text (Row.toCsv (savedRows ws))) ∧
        ∀ r ∈ savedRows ws, r.IsStorable := by decide +kernel
  have hrows : (tableWays savedTables.tree ["out", "details"]).flatMap savedRows
      = quotedRows ++ plainRows := by decide +kernel
  have hmerge := mergeResults_rows hsound hpath houtput rfl htables (by rw [hrows]; decide)
  rwa [hrows] at hmerge

end Project

end SmellLint
