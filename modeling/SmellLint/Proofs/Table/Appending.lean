import SmellLint.Proofs.Table.Merging

/-!
# Adding findings to a table

Rules add their findings to a table that may hold any rows before.  A rule that fails adds nothing
and is told of once, and the table is the one that the other rules make (`Smell.checkInto_spec`).
The texts of a table stay as they are, but its line numbers are joined with those of the findings:
truth values become numbers, and whole numbers without a sign lose digits.
-/

namespace SmellLint

open ColumnKind Row Table List

/-! ## Kinds of columns -/

theorem Row.kind_eq (name : String) : kind name = .int ∨ kind name = .object := by
  unfold kind
  split
  · exact .inl rfl
  · exact .inr rfl

namespace ColumnKind

/-- Whether a cell can stand in a column of a kind. -/
def holds : ColumnKind → Cell → Bool
  | .int, .int _ | .unsigned, .int _ => true
  | .float, .float _ | .float, .missing => true
  | .bool, .bool _ => true
  | .object, _ => true
  | _, _ => false

theorem convert_convert (k : ColumnKind) (x : Cell) : k.convert (k.convert x) = k.convert x := by
  cases k <;> cases x <;> rfl

theorem join_object (k : ColumnKind) : k.join .object = .object := by
  cases k <;> rfl

theorem join_join (k : ColumnKind) (name : String) :
    (k.join (kind name)).join (kind name) = k.join (kind name) := by
  rcases kind_eq name with h | h <;> rw [h] <;> cases k <;> rfl

theorem kind_join_kind (name : String) : (kind name).join (kind name) = kind name := by
  rcases kind_eq name with h | h <;> rw [h] <;> rfl

/-- A column of the kind `join` holds the cells of both kinds, converted. -/
theorem holds_convert_join {k : ColumnKind} {name : String} {x : Cell}
    (h : k.holds x = true ∨ (kind name).holds x = true) :
    (k.join (kind name)).holds ((k.join (kind name)).convert x) = true := by
  rcases kind_eq name with hname | hname <;> rw [hname] at h ⊢
  · cases k <;> cases x <;> simp_all [holds, join, convert]
  · rw [join_object]
    rfl

end ColumnKind

namespace Table

open ColumnKind (holds)

/-! ## Tables of findings -/

/-- `t` has the columns of findings, in any order, with cells of the kinds of their columns. -/
structure IsFindings (t : Table) : Prop where
  names_perm : t.names.Perm columnNames
  length_cells : ∀ c ∈ t.columns, c.cells.length = t.height
  holds_cells : ∀ c ∈ t.columns, ∀ x ∈ c.cells, c.kind.holds x = true

def kindOf (t : Table) (name : String) : ColumnKind := (t.kind? name).getD .object

/-- The kind that the column `name` has after findings have been added. -/
def grownKind (t : Table) (name : String) : ColumnKind :=
  if t.height = 0 then kind name else (t.kindOf name).join (kind name)

variable {t : Table} {name : String}

theorem IsFindings.nodup_names (h : t.IsFindings) : t.names.Nodup :=
  h.names_perm.nodup_iff.2 (by decide)

theorem IsFindings.exists_column (h : t.IsFindings) (hname : name ∈ columnNames) :
    ∃ c ∈ t.columns, c.name = name ∧ t.kind? name = some c.kind ∧ t.kindOf name = c.kind ∧
      t.cellsOf name = c.cells := by
  obtain ⟨c, hc, rfl⟩ := mem_map.1 (h.names_perm.mem_iff.2 hname)
  have hcolumn := column?_of_mem h.nodup_names hc
  have hkind : t.kind? c.name = some c.kind := by rw [kind?, hcolumn, Option.map_some]
  exact ⟨c, hc, rfl, hkind, by rw [kindOf, hkind, Option.getD_some], by rw [cellsOf, hcolumn]⟩

theorem IsFindings.length_cellsOf (h : t.IsFindings) (hname : name ∈ columnNames) :
    (t.cellsOf name).length = t.height := by
  obtain ⟨c, hc, -, -, -, hcells⟩ := h.exists_column hname
  rw [hcells, h.length_cells c hc]

theorem IsFindings.holds_cellsOf (h : t.IsFindings) (hname : name ∈ columnNames) :
    ∀ x ∈ t.cellsOf name, (t.kindOf name).holds x = true := by
  obtain ⟨c, hc, -, -, hkind, hcells⟩ := h.exists_column hname
  rw [hkind, hcells]
  exact h.holds_cells c hc

/-! ## One finding as a table -/

theorem not_isMissing_cell (r : Row) (hname : name ∈ columnNames) :
    (r.cell name).isMissing = false := by
  simp only [columnNames, mem_cons, not_mem_nil, or_false] at hname
  rcases hname with rfl | rfl | rfl | rfl | rfl | rfl <;> rfl

theorem holds_cell (r : Row) : (kind name).holds (r.cell name) = true := by
  unfold kind
  split
  · next hname => rw [hname]; rfl
  · rfl

theorem convert_cell (r : Row) (name : String) :
    (kind name).convert (r.cell name) = r.cell name := by
  unfold kind
  split
  · next hname => rw [hname]; rfl
  · exact convert_object _

theorem column?_table {names : List String} (r : Row) (hname : name ∈ names) :
    (r.table names).column? name = some ⟨name, kind name, [r.cell name]⟩ := by
  unfold table column?
  induction names with
  | nil => cases hname
  | cons n names ih =>
    rw [map_cons]
    by_cases hn : n = name
    · subst hn
      exact find?_cons_of_pos (beq_self_eq_true _)
    · rw [find?_cons_of_neg (by simpa using hn)]
      exact ih ((mem_cons.1 hname).resolve_left (Ne.symm hn))

theorem names_table (names : List String) (r : Row) : (r.table names).names = names := by
  simp [table, Table.names, Function.comp_def]

theorem isFindings_table (h : t.IsFindings) (r : Row) : (r.table t.names).IsFindings where
  names_perm := by
    rw [names_table]
    exact h.names_perm
  length_cells c hc := by
    obtain ⟨name, -, rfl⟩ := mem_map.1 hc
    rfl
  holds_cells c hc x hx := by
    obtain ⟨name, -, rfl⟩ := mem_map.1 hc
    rw [mem_singleton.1 hx]
    exact holds_cell r

/-! ## Joining a table and a finding -/

/-- Units of which the second is that of a finding are joined to one kind. -/
theorem joinedKinds_pair {u v : JoinUnit} {k : ColumnKind} (hu : u.kind = some k)
    (hv : v.kind = some (kind name)) (hvoid : v.isVoid = false) :
    JoinUnit.joinedKinds [u, v] = (k.join (kind name), k.join (kind name)) := by
  have hfull : k.holdsMissing = false → u.isVoid = false := by
    intro h
    rw [JoinUnit.isVoid, hu]
    simp [h]
  rcases kind_eq name with hname | hname <;> rw [hname] at hv ⊢ <;>
  · cases hempty : u.isVoid <;> cases k <;>
      simp_all [JoinUnit.joinedKinds, JoinUnit.areUniform, JoinUnit.arrayKind, JoinUnit.targetKind,
        JoinUnit.targetKind.target, joinAll, join, common,
        holdsMissing]

theorem isVoid_table {names : List String} {x : String} {r : List String} (row : Row)
    (hnames : ∀ y ∈ x :: r, y ∈ names) (hcolumns : ∀ y ∈ x :: r, y ∈ columnNames) :
    (JoinUnit.ofTable (x :: r) (row.table names)).isVoid = false := by
  have hx := column?_table row (hnames x mem_cons_self)
  have hkind : (JoinUnit.ofTable (x :: r) (row.table names)).kind = some (kind x) := by
    rw [JoinUnit.ofTable, head?_cons, Option.bind_some, hx, Option.map_some]
  have hcells : (JoinUnit.ofTable (x :: r) (row.table names)).cells.all
      (fun cs => cs.all Cell.isMissing) = false := by
    rw [JoinUnit.ofTable, map_cons, hx]
    simp [not_isMissing_cell row (hcolumns x mem_cons_self)]
  rw [JoinUnit.isVoid, hkind]
  simp [hcells]

/-- `concat` of `t` with a finding `r`: each column gets one more cell and is converted to the kind
that it has in common with the finding. -/
theorem IsFindings.concat_table (h : t.IsFindings) (r : Row) :
    (concat [t, r.table t.names]).names = t.names ∧
      (concat [t, r.table t.names]).height = t.height + 1 ∧
      ∀ c ∈ (concat [t, r.table t.names]).columns, c.name ∈ columnNames ∧
        c.kind = (t.kindOf c.name).join (kind c.name) ∧
        c.cells = (t.cellsOf c.name ++ [r.cell c.name]).map
          ((t.kindOf c.name).join (kind c.name)).convert := by
  have htables : ∀ u ∈ [t, r.table t.names], u.names = t.names :=
    forall_mem_cons.2 ⟨rfl, forall_mem_singleton.2 (names_table _ r)⟩
  have hmany : ¬∃ u, [t, r.table t.names] = [u] := by
    rintro ⟨u, hu⟩
    cases hu
  obtain ⟨hnames, hheight, hcolumns⟩ := concat_groups h.nodup_names (cons_ne_nil _ _) htables hmany
  refine ⟨hnames, hheight.trans rfl, fun c hc => ?_⟩
  obtain ⟨x, rest, hname, hgroup, hkinds, hkind, hcells⟩ := hcolumns c hc
  have hmem : ∀ y ∈ x :: rest, y ∈ columnNames :=
    fun y hy => h.names_perm.mem_iff.1 (hgroup y hy)
  obtain ⟨d, -, -, hdkind, hdof, -⟩ := h.exists_column (hmem c.name hname)
  have hrow := column?_table r (hgroup c.name hname)
  -- the group has the kind of the column in both tables
  have hown : (JoinUnit.ofTable (x :: rest) t).kind = some (t.kindOf c.name) := by
    show t.kind? x = _
    rw [← hkinds t mem_cons_self c.name hname, hdof, hdkind]
  have hother : (JoinUnit.ofTable (x :: rest) (r.table t.names)).kind = some (kind c.name) := by
    show (r.table t.names).kind? x = _
    rw [← hkinds _ (mem_cons_of_mem _ mem_cons_self) c.name hname, kind?, hrow, Option.map_some]
  have hjoined := joinedKinds_pair hown hother (isVoid_table r hgroup hmem)
  rw [map_cons, map_cons, map_nil, hjoined] at hkind hcells
  have hrowCells : (r.table t.names).cellsOf c.name = [r.cell c.name] := by
    rw [cellsOf, hrow]
  refine ⟨hmem c.name hname, hkind, ?_⟩
  rw [hcells, flatMap_cons, flatMap_singleton, hrowCells, ← map_append]

theorem IsFindings.isFindings_concat (h : t.IsFindings) (r : Row) :
    (concat [t, r.table t.names]).IsFindings := by
  obtain ⟨hnames, hheight, hcolumns⟩ := h.concat_table r
  refine ⟨.trans (.of_eq hnames) h.names_perm, fun c hc => ?_, fun c hc x hx => ?_⟩
  · obtain ⟨hname, -, hcells⟩ := hcolumns c hc
    rw [hcells, length_map, length_append, h.length_cellsOf hname]
    rfl
  · obtain ⟨hname, hkind, hcells⟩ := hcolumns c hc
    rw [hcells] at hx
    obtain ⟨y, hy, rfl⟩ := mem_map.1 hx
    rw [hkind]
    refine holds_convert_join ?_
    rcases mem_append.1 hy with hy | hy
    · exact .inl (h.holds_cellsOf hname y hy)
    · rw [mem_singleton.1 hy]
      exact .inr (holds_cell r)

/-- `addRow` gives each column one more cell, and a kind that holds it. -/
theorem IsFindings.addRow (h : t.IsFindings) (r : Row) :
    (t.addRow r).IsFindings ∧ (t.addRow r).names = t.names ∧
      (t.addRow r).height = t.height + 1 ∧ ∀ name ∈ columnNames,
        (t.addRow r).kindOf name = t.grownKind name ∧ (t.addRow r).cellsOf name =
          (t.cellsOf name ++ [r.cell name]).map (t.grownKind name).convert := by
  by_cases hzero : t.height = 0
  · have hadd : t.addRow r = r.table t.names := if_pos hzero
    rw [hadd]
    refine ⟨isFindings_table h r, names_table _ r, by rw [hzero]; rfl, fun name hname => ?_⟩
    have hcolumn := column?_table r (h.names_perm.mem_iff.2 hname)
    have hnil : t.cellsOf name = [] :=
      eq_nil_of_length_eq_zero ((h.length_cellsOf hname).trans hzero)
    rw [grownKind, if_pos hzero, kindOf, kind?, cellsOf, hcolumn, hnil, nil_append,
      map_singleton, convert_cell]
    exact ⟨rfl, rfl⟩
  · have hadd : t.addRow r = concat [t, r.table t.names] := if_neg hzero
    obtain ⟨hnames, hheight, hcolumns⟩ := h.concat_table r
    have hfindings := h.isFindings_concat r
    rw [hadd]
    refine ⟨hfindings, hnames, hheight, fun name hname => ?_⟩
    obtain ⟨c, hc, rfl, -, hkindOf, hcellsOf⟩ := hfindings.exists_column hname
    obtain ⟨-, hkind, hcells⟩ := hcolumns c hc
    rw [hkindOf, hcellsOf, grownKind, if_neg hzero]
    exact ⟨hkind, hcells⟩

theorem IsFindings.grownKind_addRow (h : t.IsFindings) (r : Row) (hname : name ∈ columnNames) :
    (t.addRow r).grownKind name = t.grownKind name := by
  obtain ⟨-, -, hheight, hcolumns⟩ := h.addRow r
  rw [grownKind, if_neg (by omega), (hcolumns name hname).1, grownKind]
  split
  · exact kind_join_kind name
  · exact join_join _ name

/-- `addRow` of `rows` one after the other. -/
theorem IsFindings.addRows (h : t.IsFindings) (rows : List Row) :
    (rows.foldl Table.addRow t).IsFindings ∧ (rows.foldl Table.addRow t).names = t.names ∧
      (rows.foldl Table.addRow t).height = t.height + rows.length ∧ ∀ name ∈ columnNames,
        (rows.foldl Table.addRow t).cellsOf name =
          if rows = [] then t.cellsOf name
          else (t.cellsOf name ++ rows.map (·.cell name)).map (t.grownKind name).convert := by
  induction rows generalizing t with
  | nil => exact ⟨h, rfl, rfl, fun _ _ => rfl⟩
  | cons r rows ih =>
    obtain ⟨hfindings, hnames, hheight, hcolumns⟩ := h.addRow r
    obtain ⟨hfold, hnamesFold, hheightFold, hcells⟩ := ih hfindings
    rw [foldl_cons]
    refine ⟨hfold, hnamesFold.trans hnames, ?_, fun name hname => ?_⟩
    · rw [length_cons]
      omega
    · rw [hcells name hname, (hcolumns name hname).2, h.grownKind_addRow r hname,
        if_neg (cons_ne_nil r rows)]
      split
      · next hnil => rw [hnil, map_singleton]
      · have htwice : ∀ x, (t.grownKind name).convert ((t.grownKind name).convert x)
            = (t.grownKind name).convert x := convert_convert _
        simp [htwice]

theorem grownKind_of_ne (h : name ≠ "line") : t.grownKind name = .object := by
  have hkind : kind name = .object := if_neg h
  rw [grownKind, hkind, join_object, ite_self]

/-- The line numbers of `t` stay as they are unless they are truth values or numbers without a sign.
-/
theorem IsFindings.map_convert_iff (h : t.IsFindings) (hheight : t.height ≠ 0) :
    (t.cellsOf "line").map (t.grownKind "line").convert = t.cellsOf "line" ↔
      t.kindOf "line" ≠ .unsigned ∧ t.kindOf "line" ≠ .bool := by
  have hline : "line" ∈ columnNames := by decide
  have hgrown : t.grownKind "line" = (t.kindOf "line").join .int := if_neg hheight
  have hholds := h.holds_cellsOf hline
  have hne : t.cellsOf "line" ≠ [] := by
    intro hnil
    have hlen := h.length_cellsOf hline
    rw [hnil] at hlen
    exact hheight hlen.symm
  generalize t.cellsOf "line" = cells at hholds hne
  obtain ⟨x, cells, rfl⟩ := exists_cons_of_ne_nil hne
  constructor
  · intro heq
    constructor <;>
    · intro hkind
      cases x <;> simp_all [holds, join, convert]
  · rintro ⟨hunsigned, hbool⟩
    refine (map_congr_left fun y hy => ?_).trans (map_id _)
    have hhold := hholds y hy
    cases hkind : t.kindOf "line" <;> rw [hkind] at hhold <;> cases y <;>
      simp_all [holds, join, convert]

end Table

/-! ## Adding the findings of rules -/

namespace Smell

open Syntax (Node)

variable {t : Table} {n : Node} {facts : Facts} {filename functionName : String}

/-- The rows of `r`, if it does not fail. -/
def Rule.found (r : Rule) (filename functionName : String) (n : Node) (facts : Facts) : List Row :=
  ((r.detect n facts).toOption.getD []).map (r.row filename functionName)

/-- What is said about `r` if it fails. -/
def Rule.complaint? (r : Rule) (filename functionName : String) (n : Node) (facts : Facts) :
    Option String :=
  match r.detect n facts with
  | .ok _ => none
  | .error e => some (s!"Error in rule checker '{r.id}' for function '{functionName}' " ++
      s!"in file '{filename}': {e.message}")

theorem report_eq (r : Rule) : r.report filename functionName n facts =
    (r.found filename functionName n facts,
      (r.complaint? filename functionName n facts).toList) := by
  unfold Rule.report Rule.found Rule.complaint?
  cases r.detect n facts <;> rfl

/-- `checkInto` adds the rows of all rules as if at once. -/
theorem checkInto_eq (rs : List Rule) (t : Table) : checkInto filename functionName n facts rs t =
      ((rs.flatMap fun r => r.found filename functionName n facts).foldl addRow t,
        rs.filterMap fun r => r.complaint? filename functionName n facts) := by
  induction rs generalizing t with
  | nil => rfl
  | cons r rs ih =>
    rw [checkInto, report_eq]
    dsimp only
    rw [ih, flatMap_cons, foldl_append, filterMap_cons]
    cases r.complaint? filename functionName n facts <;> rfl

/-- A rule `r` that fails has no rows. -/
theorem found_of_complaint {r : Rule}
    (h : (r.complaint? filename functionName n facts).isSome = true) :
    r.found filename functionName n facts = [] := by
  unfold Rule.complaint? at h
  unfold Rule.found
  cases hdetect : r.detect n facts with
  | ok findings =>
    rw [hdetect] at h
    cases h
  | error e => rfl

theorem flatMap_found_filter {rs : List Rule} {keep : Rule → Bool}
    (h : ∀ r ∈ rs, keep r = false → (r.complaint? filename functionName n facts).isSome = true) :
    (rs.filter keep).flatMap (fun r => r.found filename functionName n facts) =
      rs.flatMap fun r => r.found filename functionName n facts := by
  induction rs with
  | nil => rfl
  | cons r rs ih =>
    obtain ⟨hr, hrs⟩ := forall_mem_cons.1 h
    rw [flatMap_cons, filter_cons]
    cases hkeep : keep r with
    | true => rw [if_pos rfl, flatMap_cons, ih hrs]
    | false => rw [if_neg Bool.false_ne_true, ih hrs, found_of_complaint (hr hkeep), nil_append]

/-- What `checkInto` adds to a table `t` of findings.  The rows of the rules that do not fail follow
those of the table, in the order of the rules; each rule that fails is told of once, and leaving out
rules that fail makes no difference.  The rows of the table stay as they are unless findings come to
line numbers that are truth values or numbers without a sign. -/
theorem checkInto_spec (ht : t.IsFindings) (rs : List Rule) (filename functionName : String)
    (n : Node) (facts : Facts) :
    ∃ rows table, rows = rs.flatMap (fun r => r.found filename functionName n facts) ∧
      checkInto filename functionName n facts rs t =
        (table, rs.filterMap fun r => r.complaint? filename functionName n facts) ∧
      table.names = t.names ∧ table.height = t.height + rows.length ∧
      (∀ name ∈ Row.columnNames, name ≠ "line" →
        table.cellsOf name = t.cellsOf name ++ rows.map (·.cell name)) ∧
      (rows ≠ [] → table.cellsOf "line" =
        (t.cellsOf "line" ++ rows.map (·.cell "line")).map (t.grownKind "line").convert) ∧
      ((∀ name ∈ Row.columnNames, (table.cellsOf name).take t.height = t.cellsOf name) ↔
        rows = [] ∨ t.height = 0 ∨ t.kindOf "line" ≠ .unsigned ∧ t.kindOf "line" ≠ .bool) ∧
      ∀ keep : Rule → Bool,
        (∀ r ∈ rs, keep r = false → (r.complaint? filename functionName n facts).isSome = true) →
        (checkInto filename functionName n facts (rs.filter keep) t).1 = table := by
  obtain ⟨rows, hrows⟩ : ∃ rows, rows = rs.flatMap fun r => r.found filename functionName n facts :=
    ⟨_, rfl⟩
  obtain ⟨-, hnames, hheight, hcells⟩ := ht.addRows rows
  have hline : "line" ∈ Row.columnNames := by decide
  have hid : ColumnKind.convert .object = id := funext Table.convert_object
  refine ⟨rows, rows.foldl Table.addRow t, hrows, by rw [checkInto_eq, hrows], hnames, hheight,
    fun name hname hne => ?_, fun hne => ?_, ⟨fun hkept => ?_, fun hcase name hname => ?_⟩,
    fun keep hkeep => ?_⟩
  · rw [hcells name hname, Table.grownKind_of_ne hne, hid, map_id]
    split
    · next hnil => rw [hnil, map_nil, append_nil]
    · rfl
  · rw [hcells "line" hline, if_neg hne]
  · by_cases hnil : rows = []
    · exact .inl hnil
    by_cases hzero : t.height = 0
    · exact .inr (.inl hzero)
    have htaken := hkept "line" hline
    rw [hcells "line" hline, if_neg hnil, map_append, take_left'
      (by rw [length_map, ht.length_cellsOf hline])] at htaken
    exact .inr (.inr ((ht.map_convert_iff hzero).1 htaken))
  · rw [hcells name hname]
    split
    · exact take_of_length_le (Nat.le_of_eq (ht.length_cellsOf hname))
    · next hnil =>
      rw [map_append, take_left' (by rw [length_map, ht.length_cellsOf hname])]
      by_cases hzero : t.height = 0
      · have hempty := eq_nil_of_length_eq_zero ((ht.length_cellsOf hname).trans hzero)
        rw [hempty, map_nil]
      by_cases hname' : name = "line"
      · subst hname'
        exact (ht.map_convert_iff hzero).2 ((hcase.resolve_left hnil).resolve_left hzero)
      · rw [Table.grownKind_of_ne hname', hid, map_id]
  · rw [checkInto_eq, flatMap_found_filter hkeep, hrows]

/-- A call of `np.dot`, which multiplies matrices. -/
def dotCall : Node :=
  let span : Syntax.Span := ⟨⟨1, 0⟩, ⟨1, 12⟩⟩
  .call span (.attribute span (.name span "np") "dot") [.name span "a", .name span "b"] []

/-- What is known if `numpy` and `torch` are imported and nothing else has been found out. -/
def importsOnly : Facts := { libraries := some ⟨[("numpy", "np"), ("torch", "torch")]⟩ }

def findingOn (line : Cell) : Table :=
  .ofRecords columnNames [[.text "f.py", .text "g", .text "s", line, .text "d", .text "i"]]

theorem checkInto_spec_dotCall :
    (findingOn (.int 7)).IsFindings ∧ ∃ table messages,
      checkInto "f.py" "fn" dotCall importsOnly rules (findingOn (.int 7)) = (table, messages) ∧
      table.height = 2 ∧ messages.length = 2 ∧
      ∀ name ∈ Row.columnNames, (table.cellsOf name).take 1
        = (findingOn (.int 7)).cellsOf name := by
  have ht : (findingOn (.int 7)).IsFindings :=
    ⟨by decide +kernel, by decide +kernel, by decide +kernel⟩
  obtain ⟨rows, table, hrows, hcheck, -, hheight, -, -, hkept, -⟩ :=
    checkInto_spec ht rules "f.py" "fn" dotCall importsOnly
  have hlength : rows.length = 1 := by
    rw [hrows]
    decide +kernel
  refine ⟨ht, table, _, hcheck, hheight.trans (by rw [hlength]; rfl), by decide +kernel, ?_⟩
  exact hkept.2 (.inr (.inr ⟨by decide +kernel, by decide +kernel⟩))

/-- A line number that needs 64 bits without a sign is no whole number any more after a finding has
been added. -/
theorem checkInto_unsigned_line :
    let t := findingOn (.int 9223372036854775809)
    t.IsFindings ∧
      ((checkInto "f.py" "fn" dotCall importsOnly rules t).1.cellsOf "line").take t.height ≠
        t.cellsOf "line" := by
  intro t
  have ht : t.IsFindings := ⟨by decide +kernel, by decide +kernel, by decide +kernel⟩
  refine ⟨ht, fun heq => ?_⟩
  have hints := congrArg (map Cell.int?) heq
  revert hints
  decide +kernel

end Smell
end SmellLint
