import SmellLint.Proofs.Inspection
import SmellLint.Proofs.Listing

/-!
# Which variables are data frames

The walk over a part of a program hands a growing list of variables from assignment to assignment.
`mem_assigned` says what one assignment adds, whatever is in the list so far, and `mem_collect`
follows for all nodes, in any order.  So the variables are a union over the assignments
(`names_eq_union`), and a variable that is given another one becomes a data frame even if the other
one is none (`names_of_copies`).
-/

namespace SmellLint.Frames

open Syntax (Node Span)

/-! ## Reasons -/

/-- `var` is a parameter of a plain function, other than those of special kinds. -/
inductive IsParameter (var : String) : Node → Prop
  | mk {s s' : Span} {name : String} {positional args : List Node} {varArg : Option Node}
      {keywordOnly : List Node} {keywordDefaults : List (Option Node)} {kwArg : Option Node}
      {defaults body decorators : List Node} {note returns : Option Node}
      (h : .param s' var note ∈ args) :
      IsParameter var (.functionDef s false name
        (.params positional args varArg keywordOnly keywordDefaults kwArg defaults)
        body decorators returns)

/-- `value` is a call of the constructor of data frames. -/
def IsConstruction (alias? : Option String) (value : Node) : Prop :=
  ∃ s s' s'' base args keywords, alias? = some base ∧
    value = .call s (.attribute s' (.name s'' base) "DataFrame") args keywords

/-- `value` is a call of one of `methods`, on anything. -/
def IsMethodCall (methods : Methods) (value : Node) : Prop :=
  ∃ s s' receiver method args keywords, some method ∈ methods ∧
    value = .call s (.attribute s' receiver method) args keywords

/-- `m` is an assignment of `value` to `var`. -/
def Assigns (var : String) (value m : Node) : Prop :=
  ∃ s targets, m = .assign s targets value ∧ ∃ s', .name s' var ∈ targets

/-- The assignment `m` makes `var` a data frame: the value gives one, or is another variable. -/
def Makes (methods : Methods) (alias? : Option String) (var : String) (m : Node) : Prop :=
  ∃ value, Assigns var value m ∧ (IsConstruction alias? value ∨ IsMethodCall methods value ∨
    ∃ s source, value = .name s source ∧ source ≠ var)

variable {methods : Methods} {alias? : Option String} {known more found : List String}
  {n m : Node} {var : String}

theorem mem_parameters : var ∈ parameters n ↔ IsParameter var n := by
  constructor
  · intro h
    unfold parameters at h
    split at h
    · obtain ⟨p, hp, hvar⟩ := List.mem_filterMap.1 h
      split at hvar
      · cases hvar
        exact .mk hp
      · cases hvar
    · cases h
  · rintro ⟨h⟩
    exact List.mem_filterMap.2 ⟨_, h, rfl⟩

theorem mem_names {targets : List Node} :
    var ∈ targets.filterMap Node.nameId? ↔ ∃ s, .name s var ∈ targets := by
  rw [List.mem_filterMap]
  constructor
  · rintro ⟨t, ht, hvar⟩
    unfold Node.nameId? at hvar
    split at hvar
    · cases hvar
      exact ⟨_, ht⟩
    · cases hvar
  · rintro ⟨s, hs⟩
    exact ⟨_, hs, rfl⟩

theorem isConstructor_iff {value : Node} :
    isConstructor alias? value = true ↔ IsConstruction alias? value := by
  constructor
  · intro h
    unfold isConstructor at h
    split at h
    · simp only [Bool.and_eq_true, beq_iff_eq] at h
      obtain ⟨hbase, rfl⟩ := h
      exact ⟨_, _, _, _, _, _, hbase, rfl⟩
    · cases h
  · rintro ⟨s, s', s'', base, args, keywords, h, rfl⟩
    simp [isConstructor, h]

/-! ## One assignment -/

theorem Methods.search_eq_ok {name : String} {b : Bool} (h : methods.search name = .ok b) :
    b = true ↔ some name ∈ methods := by
  induction methods with
  | nil =>
    cases h
    simp
  | cons m methods ih =>
    cases m with
    | none => cases h
    | some m =>
      rw [search] at h
      split_ifs at h with hm
      · cases h
        simp [hm]
      · simp [ih h, Ne.symm hm]

/-- `derived` finds nothing but calls of `methods`. -/
theorem of_mem_derived {targets : List String} {value : Node}
    (h : derived methods known targets value = .ok more) (hvar : var ∈ more) :
    var ∈ targets ∧ IsMethodCall methods value := by
  unfold derived at h
  split at h
  · split_ifs at h
    · obtain ⟨b, hb, h⟩ := bind_eq_ok.1 h
      split_ifs at h with hb'
      · cases h
        exact ⟨hvar, _, _, _, _, _, _, (Methods.search_eq_ok hb).1 hb', rfl⟩
      · cases h
        cases hvar
    · cases h
      cases hvar
  · cases h
    cases hvar

theorem mem_called {targets : List String} {value : Node}
    (h : called methods targets value = .ok more) :
    var ∈ more ↔ var ∈ targets ∧
      (IsMethodCall methods value ∨ ∃ s source, value = .name s source ∧ source ≠ var) := by
  unfold called at h
  split at h
  · split_ifs at h with hempty
    · cases h
      simp [List.isEmpty_iff.1 hempty]
    · obtain ⟨b, hb, h⟩ := bind_eq_ok.1 h
      have hmethod := Methods.search_eq_ok hb
      split_ifs at h with hb'
      · cases h
        simp [IsMethodCall, hmethod.1 hb']
      · cases h
        simp [IsMethodCall, mt hmethod.2 hb']
  · cases h
    simp [IsMethodCall, ne_comm]
  · rename_i hcall hname
    cases h
    constructor
    · intro h
      cases h
    · rintro ⟨-, ⟨s, s', receiver, method, args, keywords, -, rfl⟩ | ⟨s, source, rfl, -⟩⟩
      · exact (hcall _ _ _ _ _ _ rfl).elim
      · exact (hname _ _ rfl).elim

/-- What `assigned` adds does not depend on the variables `known` before. -/
theorem mem_assigned (h : assigned methods alias? known m = .ok more) :
    var ∈ more ↔ Makes methods alias? var m := by
  unfold assigned at h
  split at h
  · rename_i s targets value
    obtain ⟨fromKnown, hknown, h⟩ := bind_eq_ok.1 h
    obtain ⟨fromAny, hany, h⟩ := bind_eq_ok.1 h
    cases h
    rw [List.mem_append, List.mem_append, mem_called hany]
    constructor
    · rintro ((hmade | hderived) | ⟨hvar, hvalue⟩)
      · split_ifs at hmade with hvalue
        · exact ⟨value, ⟨s, targets, rfl, mem_names.1 hmade⟩, .inl (isConstructor_iff.1 hvalue)⟩
        · cases hmade
      · obtain ⟨hvar, hvalue⟩ := of_mem_derived hknown hderived
        exact ⟨value, ⟨s, targets, rfl, mem_names.1 hvar⟩, .inr (.inl hvalue)⟩
      · exact ⟨value, ⟨s, targets, rfl, mem_names.1 hvar⟩, .inr hvalue⟩
    · rintro ⟨_, ⟨_, _, heq, hvar⟩, hvalue⟩
      cases heq
      rcases hvalue with hvalue | hvalue
      · rw [if_pos (isConstructor_iff.2 hvalue)]
        exact .inl (.inl (mem_names.2 hvar))
      · exact .inr ⟨mem_names.2 hvar, hvalue⟩
  · rename_i hassign
    cases h
    constructor
    · intro h
      cases h
    · rintro ⟨_, ⟨_, _, rfl, -⟩, -⟩
      exact (hassign _ _ _ rfl).elim

/-! ## All assignments -/

theorem mem_collect {nodes : List Node} (h : collect methods alias? known nodes = .ok found) :
    var ∈ found ↔ var ∈ known ∨ ∃ m ∈ nodes, Makes methods alias? var m := by
  induction nodes generalizing known with
  | nil =>
    cases h
    simp
  | cons m nodes ih =>
    obtain ⟨more, hmore, h⟩ := bind_eq_ok.1 h
    rw [ih h, List.mem_append, mem_assigned hmore]
    simp [or_assoc]

theorem mem_of_names (h : names methods alias? n = .ok found) :
    var ∈ found ↔ IsParameter var n ∨ ∃ m ∈ n.walk, Makes methods alias? var m := by
  obtain ⟨all, hall, h⟩ := bind_eq_ok.1 h
  cases h
  rw [List.mem_eraseDups, mem_collect hall, mem_parameters]

/-- What fails only at an unknown method does not fail if all `methods` are known. -/
theorem exists_ok {α : Type} {x : Except Fault α} {methods : List String}
    (h : ∀ e, x = .error e → e = .unknownMember ∧ none ∈ methods.map some) : ∃ a, x = .ok a := by
  cases x with
  | ok a => exact ⟨a, rfl⟩
  | error e => simpa using (h e rfl).2

/-- `names` are the parameters and the variables that some assignment makes data frames.  Neither
the order of the assignments matters nor the variables that each of them is checked against. -/
theorem names_eq_union (methods : List String) (alias? : Option String) (n : Node) :
    ∃ vars, names (methods.map some) alias? n = .ok vars ∧ vars.Nodup ∧
      (∀ var, var ∈ vars ↔ IsParameter var n ∨ ∃ m ∈ n.walk, ∃ value, Assigns var value m ∧
        (IsConstruction alias? value ∨ IsMethodCall (methods.map some) value ∨
          ∃ s source, value = .name s source ∧ source ≠ var)) ∧
      (∀ nodes, nodes.Perm n.walk → ∃ found,
        collect (methods.map some) alias? (parameters n) nodes = .ok found ∧
          ∀ var, var ∈ found ↔ var ∈ vars) ∧
      ∀ (known : Node → List String) (var : String), var ∈ vars ↔ IsParameter var n ∨
        ∃ m ∈ n.walk, ∃ more, assigned (methods.map some) alias? (known m) m = .ok more ∧
          var ∈ more := by
  have hcollect (nodes : List Node) :
      ∃ found, collect (methods.map some) alias? (parameters n) nodes = .ok found :=
    exists_ok fun _ => collect_eq_error
  obtain ⟨all, hall⟩ := hcollect n.walk
  have hnames : names (methods.map some) alias? n = .ok all.eraseDups := by
    rw [names, hall]
    rfl
  refine ⟨_, hnames, nodup_eraseDups all, fun var => mem_of_names hnames, ?_, ?_⟩
  · intro nodes hperm
    obtain ⟨found, hfound⟩ := hcollect nodes
    refine ⟨found, hfound, fun var => ?_⟩
    rw [mem_of_names hnames, mem_collect hfound, mem_parameters]
    simp only [hperm.mem_iff]
  · intro known var
    rw [mem_of_names hnames]
    refine or_congr_right (exists_congr fun m => and_congr_right fun _ => ?_)
    obtain ⟨more, hmore⟩ : ∃ more, assigned (methods.map some) alias? (known m) m = .ok more :=
      exists_ok fun _ => assigned_eq_error
    simp [hmore, mem_assigned hmore]

/-! ## Copies -/

/-- `var` is a parameter, or is given a data frame somewhere. -/
def Founded (methods : Methods) (alias? : Option String) (n : Node) (var : String) : Prop :=
  IsParameter var n ∨ ∃ m ∈ n.walk, ∃ value, Assigns var value m ∧
    (IsConstruction alias? value ∨ IsMethodCall methods value)

/-- Somewhere in `n`, `var` is given the variable `source`. -/
def Copies (n : Node) (var source : String) : Prop :=
  ∃ m ∈ n.walk, ∃ s, Assigns var (.name s source) m

/-- A variable is `Founded`, or is given one that is derived itself. -/
inductive Derived (methods : Methods) (alias? : Option String) (n : Node) : String → Prop
  | founded {var : String} (h : Founded methods alias? n var) : Derived methods alias? n var
  | copied {var source : String} (h : Copies n var source)
      (hsource : Derived methods alias? n source) : Derived methods alias? n var

/-- `var` has a reason to be a data frame if `vars` are. -/
def Justified (methods : Methods) (alias? : Option String) (n : Node) (vars : List String)
    (var : String) : Prop :=
  Founded methods alias? n var ∨ ∃ source ∈ vars, Copies n var source

theorem mem_iff_founded (h : names methods alias? n = .ok found) :
    var ∈ found ↔ Founded methods alias? n var ∨ ∃ source, Copies n var source ∧ source ≠ var := by
  rw [mem_of_names h]
  constructor
  · rintro (hparameter | ⟨m, hm, value, hvar, hvalue | hvalue | ⟨s, source, rfl, hsource⟩⟩)
    · exact .inl (.inl hparameter)
    · exact .inl (.inr ⟨m, hm, value, hvar, .inl hvalue⟩)
    · exact .inl (.inr ⟨m, hm, value, hvar, .inr hvalue⟩)
    · exact .inr ⟨source, ⟨m, hm, s, hvar⟩, hsource⟩
  · rintro ((hparameter | ⟨m, hm, value, hvar, hvalue⟩) | ⟨source, ⟨m, hm, s, hvar⟩, hsource⟩)
    · exact .inl hparameter
    · exact .inr ⟨m, hm, value, hvar, hvalue.imp_right .inl⟩
    · exact .inr ⟨m, hm, _, hvar, .inr (.inr ⟨s, source, rfl, hsource⟩)⟩

theorem Derived.mem (h : Derived methods alias? n var)
    (hnames : names methods alias? n = .ok found) : var ∈ found := by
  induction h with
  | founded h => exact (mem_iff_founded hnames).2 (.inl h)
  | @copied var source h _ ih =>
    by_cases hsource : source = var
    · exact hsource ▸ ih
    · exact (mem_iff_founded hnames).2 (.inr ⟨source, h, hsource⟩)

/-- `names` has every variable that is `Derived` from data frames, and every variable that is given
another one, whatever that is.  Hence all variables that are found have a reason exactly if those
have one that are given a variable that is not found. -/
theorem names_of_copies (methods : Methods) (alias? : Option String) (n : Node) :
    (names methods alias? n = .error .unknownMember ∧ none ∈ methods) ∨
      ∃ vars, names methods alias? n = .ok vars ∧
        (∀ var, var ∈ vars ↔
          Derived methods alias? n var ∨ ∃ source, Copies n var source ∧ source ≠ var) ∧
        (∀ var ∈ vars, Justified methods alias? n vars var ∨ ∃ source ∉ vars, Copies n var source) ∧
        ((∀ var ∈ vars, Justified methods alias? n vars var) ↔
          ∀ var, ∀ source ∉ vars, Copies n var source → source ≠ var →
            Justified methods alias? n vars var) := by
  cases h : names methods alias? n with
  | error e =>
    rcases bind_eq_error.1 h with h | ⟨_, _, h⟩
    · obtain ⟨rfl, hnone⟩ := collect_eq_error h
      exact .inl ⟨rfl, hnone⟩
    · cases h
  | ok vars =>
    have hreason : ∀ var ∈ vars, Justified methods alias? n vars var ∨
        ∃ source ∉ vars, Copies n var source := by
      intro var hvar
      rcases (mem_iff_founded h).1 hvar with hfounded | ⟨source, hcopy, -⟩
      · exact .inl (.inl hfounded)
      · by_cases hsource : source ∈ vars
        · exact .inl (.inr ⟨source, hsource, hcopy⟩)
        · exact .inr ⟨source, hsource, hcopy⟩
    refine .inr ⟨vars, rfl, fun var => ⟨fun hvar => ?_, ?_⟩, hreason, ?_, ?_⟩
    · exact ((mem_iff_founded h).1 hvar).imp_left .founded
    · rintro (hvar | hcopy)
      · exact hvar.mem h
      · exact (mem_iff_founded h).2 (.inr hcopy)
    · intro hall var source _ hcopy hne
      exact hall var ((mem_iff_founded h).2 (.inr ⟨source, hcopy, hne⟩))
    · intro hcopies var hvar
      rcases hreason var hvar with hvar' | ⟨source, hsource, hcopy⟩
      · exact hvar'
      · exact hcopies var source hsource hcopy (ne_of_mem_of_not_mem hvar hsource).symm

end SmellLint.Frames
