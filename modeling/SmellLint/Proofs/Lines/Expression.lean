import SmellLint.Proofs.Lines.Parse
import SmellLint.Proofs.Lists
import SmellLint.Syntax.Grammar.Expression

/-!
# The lines of expressions

One lemma for each rule of an expression: on tokens within the first `lines` lines it gives a node
within them, if the rules of the level below do.
-/

namespace SmellLint.Syntax

open List Node Option Parse Syntax.Node

/-- Every rule of `g` gives nodes within the first `lines` lines. -/
structure Grammar.Within (lines : Nat) (g : Grammar) : Prop where
  expression : GivesNode lines g.expression
  namedExpression : GivesNode lines g.namedExpression
  starExpressions : GivesNode lines g.starExpressions
  disjunction : GivesNode lines g.disjunction
  inversion : GivesNode lines g.inversion
  bitwiseOr : GivesNode lines g.bitwiseOr
  factor : GivesNode lines g.factor
  pattern : GivesNode lines g.pattern
  elseBranches : GivesNodes lines g.elseBranches
  statement : GivesNodes lines g.statement

namespace Rule

variable {lines : Nat} {g : Grammar}

/-! ## Strings -/

/-- The node in `part`, if it has one, lies within the first `lines` lines. -/
def StringPart.Within (lines : Nat) (part : StringPart) : Prop :=
  ∀ n, part = .inr n → n.Within lines

theorem StringPart.within_text (chars : List Char) : Within lines (.inl chars) := by
  rintro _ ⟨⟩

theorem fieldExpression_within (hg : g.Within lines) {line : Nat} {expr : List Char} {n : Node}
    (h : fieldExpression g line expr = some n) (hline : 1 ≤ line)
    (hlines : line + Piece.lineEnds expr ≤ lines) : n.Within lines := by
  obtain ⟨tokens, htokens, h⟩ := bind_eq_some_iff.1 h
  obtain ⟨⟨m, i⟩, hm, heq⟩ := bind_eq_some_iff.1 h
  cases heq
  have hinput := Input.within_ofTokens (expressionTokens?_within htokens hline hlines) (by omega)
  exact (hg.starExpressions hinput hm).1

theorem joinParts_within {span : Span} (hspan : span.start.Within lines) {parts : List StringPart}
    (h : ∀ part ∈ parts, StringPart.Within lines part) :
    ∀ n ∈ joinParts span parts, n.Within lines := by
  have hclose : ∀ chars : List Char, ∀ n ∈ (if chars.isEmpty then [] else
      [constant span (.str (String.ofList chars))]), n.Within lines := by
    intro chars n hn
    split_ifs at hn
    · cases hn
    · cases mem_singleton.1 hn
      exact within_leaf rfl hspan rfl
  intro n hn
  rcases mem_append.1 hn with hchars | hnodes
  · exact hclose _ n hchars
  · clear hn
    induction parts with
    | nil => cases hnodes
    | cons part parts ih =>
      obtain ⟨hpart, hparts⟩ := forall_mem_cons.1 h
      cases part with
      | inl c => exact ih hparts hnodes
      | inr m =>
        rcases mem_cons.1 hnodes with rfl | hnodes
        · exact hpart _ rfl
        · rcases mem_append.1 hnodes with hchars | hnodes
          · exact hclose _ n hchars
          · exact ih hparts hnodes

/-- A field lies at most `ends` line ends after the line of its string. -/
theorem stringParts_within (hg : g.Within lines) {span : Span} (hspan : span.start.Within lines)
    {line ends level : Nat} {isRaw : Bool} (hline : 1 ≤ line) (hends : line + ends ≤ lines)
    {pieces : List Piece} (hpieces : ∀ p ∈ pieces, p.Within ends) {parts : List StringPart}
    (h : stringParts g span line isRaw level pieces = some parts) :
    ∀ part ∈ parts, StringPart.Within lines part := by
  induction level generalizing pieces parts with
  | zero => cases h
  | succ level ih =>
    obtain ⟨groups, hgroups, rfl⟩ := map_eq_some_iff.1 h
    have hall : ∀ group ∈ groups, ∀ part ∈ group, StringPart.Within lines part := by
      refine forall_mem_of_mapM hgroups fun piece hpiece group hgroup => ?_
      have hwithin := hpieces piece hpiece
      cases hwithin with
      | text body =>
        obtain ⟨chars, _, heq⟩ := bind_eq_some_iff.1 hgroup
        cases heq
        exact forall_mem_singleton.2 (StringPart.within_text chars)
      | @field _ _ shown conversion format hexpr hformat =>
        obtain ⟨value, hvalue, hgroup⟩ := bind_eq_some_iff.1 hgroup
        have hvalue' := fieldExpression_within hg hvalue (by omega) (by omega)
        have hfield : ∀ spec : Option Node, (∀ n ∈ spec.toList, n.Within lines) →
            StringPart.Within lines (.inr (.formatted span value conversion spec)) := by
          rintro spec hspec _ ⟨⟩
          exact within_of_span rfl hspan (forall_mem_cons.2 ⟨hvalue', hspec⟩)
        cases format with
        | none =>
          cases hgroup
          cases shown with
          | none => exact forall_mem_singleton.2 (hfield none (forall_mem_nil _))
          | some chars =>
            refine forall_mem_cons.2 ⟨StringPart.within_text chars, ?_⟩
            exact forall_mem_singleton.2 (hfield none (forall_mem_nil _))
        | some pieces =>
          obtain ⟨inner, hinner, heq⟩ := bind_eq_some_iff.1 hgroup
          cases heq
          have hspec : ∀ n ∈ (some (joinedStr span _)).toList,
              n.Within lines :=
            forall_mem_singleton.2 (within_of_span rfl hspan
              (joinParts_within hspan (ih (hformat pieces rfl) hinner)))
          cases shown with
          | none => exact forall_mem_singleton.2 (hfield _ hspec)
          | some chars =>
            refine forall_mem_cons.2 ⟨StringPart.within_text chars, ?_⟩
            exact forall_mem_singleton.2 (hfield _ hspec)
    intro part hpart
    obtain ⟨group, hgroup, hmem⟩ := mem_flatten.1 hpart
    exact hall group hgroup part hmem

theorem kind_next_of_peek {i j k : Input} {kind : TokenKind} {t : Token}
    (hpeek : peek i = some (kind, j)) (hnext : next j = some (t, k)) : t.kind = kind := by
  unfold peek at hpeek
  unfold Parse.next at hnext
  split at hpeek
  · next u r hr =>
    obtain ⟨hkind, rfl⟩ : u.kind = kind ∧ i = j := by simpa using hpeek
    rw [hr] at hnext
    cases hnext
    exact hkind
  · next hr =>
    obtain ⟨-, rfl⟩ : TokenKind.finish = kind ∧ i = j := by simpa using hpeek
    rw [hr] at hnext
    cases hnext

theorem stringTokens_gives : Gives lines stringTokens
    (fun l => ∀ part ∈ l, 1 ≤ part.2 ∧ part.2 + Piece.lineEnds part.1.body ≤ lines) := by
  refine .many ?_
  -- the token that is taken is the one that was seen
  intro i o i' hi h
  obtain ⟨⟨kind, j⟩, hpeek, h⟩ := bind_eq_some_iff.1 h
  obtain ⟨-, hj, hleaves⟩ := Gives.peek hi hpeek
  dsimp only at h
  split at h
  · next s =>
    obtain ⟨⟨t, k⟩, hnext, h⟩ := bind_eq_some_iff.1 h
    cases h
    obtain ⟨ht, hk, hleaves'⟩ := Gives.next hj hnext
    have hkind : t.kind = .string s := kind_next_of_peek hpeek hnext
    refine ⟨?_, hk, hleaves.trans hleaves'⟩
    rintro _ ⟨⟩
    obtain ⟨hfirst, hlast, -⟩ := ht (by simp [Token.isLayout, hkind])
    rw [hkind] at hlast
    exact ⟨hfirst, hlast⟩
  · obtain ⟨hnone, hk, hleaves'⟩ := Gives.none hj h
    exact ⟨hnone, hk, hleaves.trans hleaves'⟩

variable (hg : g.Within lines)
include hg

theorem strings_gives : GivesNode lines (strings g) := by
  refine .bind .here fun start hstart => stringTokens_gives.bind fun parts hparts => ?_
  refine .bind (.span hstart) fun span hspan => ?_
  refine .ite .failure <| .ite ?_ ?_
  · split
    · exact .pure (within_leaf rfl hspan rfl)
    · exact .failure
  · refine .ite .failure ?_
    dsimp only
    split
    · exact .failure
    · next pieces hpieces =>
      refine .ite (.pure ?_) <| .pure (within_leaf rfl hspan rfl)
      refine within_of_span rfl hspan (joinParts_within hspan ?_)
      have hall : ∀ group ∈ pieces, ∀ part ∈ group, StringPart.Within lines part := by
        refine forall_mem_of_mapM hpieces fun part hpart group hgroup => ?_
        obtain ⟨hfirst, hlast⟩ := hparts part hpart
        split_ifs at hgroup
        · obtain ⟨fields, hfields, hgroup⟩ := bind_eq_some_iff.1 hgroup
          exact stringParts_within hg hspan hfirst hlast (Piece.ofBody?_within hfields) hgroup
        · obtain ⟨chars, _, heq⟩ := bind_eq_some_iff.1 hgroup
          cases heq
          exact forall_mem_singleton.2 (StringPart.within_text chars)
      intro part hpart
      obtain ⟨group, hgroup, hmem⟩ := mem_flatten.1 hpart
      exact hall group hgroup part hmem

/-! ## Small rules -/

omit hg in
theorem assignsName_gives : Gives lines assignsName (fun _ => True) := by
  refine .bind .peek fun _ _ => .bind .peekSecond fun _ _ => ?_
  split <;> exact .pure trivial

theorem namedExpression_gives : GivesNode lines (namedExpression g) := by
  refine .branch assignsName_gives ?_ hg.expression
  refine .bind .here fun start hstart => .bind .name fun id _ => ?_
  refine .bind (.span hstart) fun span hspan => .seq .op ?_
  refine hg.expression.bind fun value hvalue => .node hstart (fun _ => rfl) ?_
  have htarget : (name span id).Within lines := within_leaf rfl hspan rfl
  simp [children, htarget, hvalue]

omit hg in
theorem starredItem_gives {operand : Parse Node} (h : GivesNode lines operand) :
    GivesNode lines (starredItem operand) := by
  refine .bind .here fun start hstart => .seq .op ?_
  refine h.bind fun value hvalue => .node hstart (fun _ => rfl) ?_
  simp [children, hvalue]

theorem starNamedExpression_gives : GivesNode lines (starNamedExpression g) :=
  .branch .isOp (starredItem_gives hg.bitwiseOr) (namedExpression_gives hg)

theorem yieldExpression_gives : GivesNode lines (yieldExpression g) := by
  refine .bind .here fun start hstart => .seq .keyword ?_
  refine .branch .tryKeyword ?_ ?_
  · refine hg.expression.bind fun value hvalue => .node hstart (fun _ => rfl) ?_
    simp [children, hvalue]
  · refine hg.starExpressions.attempt.bind fun value hvalue => .node hstart (fun _ => rfl) ?_
    simpa [children] using hvalue

/-! ## Atoms and what follows them -/

theorem sliceRest_gives {start : Pos} (hstart : start.Within lines) {lower : Option Node}
    (hlower : ∀ n ∈ lower, n.Within lines) : GivesNode lines (sliceRest g start lower) := by
  have hbound := hg.expression.attempt
  refine .seq .op <| hbound.bind fun upper hupper => .bind .tryOp fun _ _ => ?_
  refine .ite_bind hbound .none fun step hstep => .node hstart (fun _ => rfl) ?_
  grind

theorem sliceItem_gives : GivesNode lines (sliceItem g) := by
  refine .bind .here fun start hstart => ?_
  refine .branch .isOp (sliceRest_gives hg hstart (by simp)) ?_
  refine .branch assignsName_gives (namedExpression_gives hg) ?_
  refine hg.expression.bind fun e he => .bind .isOp fun _ _ => ?_
  exact .ite (sliceRest_gives hg hstart (by simpa using he)) (.pure he)

theorem slices_gives : GivesNode lines (slices g) :=
  .bind .isOp fun _ _ => .tupleOf <|
    .branch .isOp (starredItem_gives hg.expression) (sliceItem_gives hg)

/-- The value of an argument lies within the first `lines` lines. -/
def Argument.Within (lines : Nat) : Argument → Prop
  | .positional value | .starred value | .keyword value | .unpacked value => value.Within lines

omit hg in
theorem Argument.within_of_mem {args : List Argument} (h : ∀ a ∈ args, Within lines a) :
    ∀ n, n ∈ values args ∨ n ∈ keywords args → n.Within lines := by
  rintro n (hn | hn) <;>
  · obtain ⟨a, ha, heq⟩ := mem_filterMap.1 hn
    have hwithin := h a ha
    cases a <;> cases heq <;> exact hwithin

theorem argument_gives : Gives lines (argument g) (Argument.Within lines) := by
  refine .bind .here fun start hstart => .bind .isOp fun _ _ => ?_
  refine .ite ((starredItem_gives hg.expression).bind fun n hn => .pure hn) ?_
  have hkeyword : ∀ (id : Option String) (value : Node) (span : Span), value.Within lines →
      span.start.Within lines → (keyword span id value).Within lines := by
    intro id value span hvalue hspan
    exact within_of_span rfl hspan (forall_mem_singleton.2 hvalue)
  refine .branch .tryOp ?_ ?_
  · refine hg.expression.bind fun value hvalue => .bind (.span hstart) fun span hspan => ?_
    exact .pure (hkeyword none value span hvalue hspan)
  · refine .bind .peek fun _ _ => .bind .peekSecond fun _ _ => ?_
    split
    · next id _ _ =>
      refine .seq .next <| .seq .next ?_
      refine hg.expression.bind fun value hvalue => .bind (.span hstart) fun span hspan => ?_
      exact .pure (hkeyword (some id) value span hvalue hspan)
    · exact (namedExpression_gives hg).bind fun n hn => .pure hn

theorem arguments_gives :
    Gives lines (arguments g) (fun l => ∀ a ∈ l, Argument.Within lines a) := by
  refine .branch .isOp .nil ?_
  refine (argument_gives hg).commaList.bind fun args hargs => ?_
  exact .ite (.pure hargs) .failure

theorem starTarget_gives : GivesNode lines (starTarget g) := by
  refine .bind .here fun start hstart => .bind .tryOp fun isStarred _ => ?_
  refine hg.factor.bind fun value hvalue => .ite .failure ?_
  refine .ite (.node hstart (fun _ => rfl) ?_) (.pure hvalue)
  simp [children, hvalue]

theorem starTargets_gives : GivesNode lines (starTargets g) := (starTarget_gives hg).tupleOf

omit hg in
theorem startsClause_gives : Gives lines startsClause (fun _ => True) :=
  .bind .isKeyword fun _ _ => .bind .isKeyword fun _ _ => .pure trivial

theorem clauses_gives : GivesNodes lines (clauses g) := by
  refine .many (.branch startsClause_gives ?_ .none)
  refine .bind .tryKeyword fun isAsync _ => .seq .keyword ?_
  refine (starTargets_gives hg).bind fun target htarget => .seq .keyword ?_
  refine hg.disjunction.bind fun iter hiter => ?_
  refine .bind (.many (.ifNext .tryKeyword hg.disjunction)) fun conditions hconditions => .pure ?_
  rintro _ ⟨⟩
  refine within_of_noSpan rfl ?_
  grind

theorem parenthesized_gives : GivesNode lines (parenthesized g) := by
  have hitem := starNamedExpression_gives hg
  refine .bind .here fun start hstart => .seq .op ?_
  refine .branch .tryOp (.leaf hstart (fun _ => rfl) fun _ => rfl) ?_
  refine .branch .isKeyword ?_ ?_
  · exact (yieldExpression_gives hg).bind fun value hvalue => .seq .op <| .pure hvalue
  · refine .bind .isOp fun isStarred _ => hitem.bind fun first hfirst => ?_
    refine .branch startsClause_gives ?_ ?_
    · refine (clauses_gives hg).bind fun generators hgenerators => .seq .op ?_
      refine .node hstart (fun _ => rfl) ?_
      grind
    · refine .branch .isOp ?_ <| .ite .failure <| .seq .op <| .pure hfirst
      refine .commaRest_bind hitem fun rest _ hrest => .seq .op ?_
      refine .node hstart (fun _ => rfl) ?_
      grind

theorem bracketed_gives : GivesNode lines (bracketed g) := by
  have hitem := starNamedExpression_gives hg
  refine .bind .here fun start hstart => .seq .op ?_
  refine .branch .tryOp (.leaf hstart (fun _ => rfl) fun _ => rfl) ?_
  refine .bind .isOp fun isStarred _ => hitem.bind fun first hfirst => ?_
  refine .branch startsClause_gives ?_ ?_
  · refine (clauses_gives hg).bind fun generators hgenerators => .seq .op ?_
    refine .node hstart (fun _ => rfl) ?_
    grind
  · refine .commaRest_bind hitem fun rest _ hrest => .seq .op ?_
    refine .node hstart (fun _ => rfl) ?_
    grind

theorem pair_gives :
    Gives lines (pair g) (fun p => (∀ n ∈ p.1, n.Within lines) ∧ p.2.Within lines) := by
  refine .branch .tryOp ?_ ?_
  · exact hg.bitwiseOr.bind fun value hvalue => .pure ⟨by simp, hvalue⟩
  · refine hg.expression.bind fun key hkey => .seq .op ?_
    exact hg.expression.bind fun value hvalue => .pure ⟨by simpa using hkey, hvalue⟩

theorem dictRest_gives {start : Pos} (hstart : start.Within lines) {first : Option Node × Node}
    (hfirst : (∀ n ∈ first.1, n.Within lines) ∧ first.2.Within lines) :
    GivesNode lines (dictRest g start first) := by
  refine .commaRest_bind (pair_gives hg) fun rest _ hrest => .seq .op ?_
  refine .node hstart (fun _ => rfl) fun _ m hm => ?_
  have hall : ∀ p ∈ first :: rest, (∀ n ∈ p.1, n.Within lines) ∧ p.2.Within lines :=
    forall_mem_cons.2 ⟨hfirst, hrest⟩
  rcases mem_append.1 hm with hm | hm
  · obtain ⟨key, hkey, hm⟩ := mem_flatMap.1 hm
    obtain ⟨p, hp, rfl⟩ := mem_map.1 hkey
    exact (hall p hp).1 m (mem_toList.1 hm)
  · obtain ⟨p, hp, rfl⟩ := mem_map.1 hm
    exact (hall p hp).2

theorem braced_gives : GivesNode lines (braced g) := by
  have hitem := starNamedExpression_gives hg
  refine .bind .here fun start hstart => .seq .op ?_
  refine .branch .tryOp (.leaf hstart (fun _ => rfl) fun _ => rfl) ?_
  refine .branch .isOp ?_ ?_
  · exact (pair_gives hg).bind fun _ hp => dictRest_gives hg hstart hp
  refine .bind .isOp fun isStarred _ => assignsName_gives.bind fun isNamed _ => ?_
  refine hitem.bind fun first hfirst => .branch .isOp ?_ ?_
  · refine .seq .op <| hg.expression.bind fun value hvalue => ?_
    refine .branch startsClause_gives ?_ ?_
    · refine (clauses_gives hg).bind fun generators hgenerators => .seq .op ?_
      refine .node hstart (fun _ => rfl) ?_
      grind
    · exact dictRest_gives hg hstart ⟨by simpa using hfirst, hvalue⟩
  · refine .branch startsClause_gives ?_ ?_
    · refine (clauses_gives hg).bind fun generators hgenerators => .seq .op ?_
      refine .node hstart (fun _ => rfl) ?_
      grind
    · refine .commaRest_bind hitem fun rest _ hrest => .seq .op ?_
      refine .node hstart (fun _ => rfl) ?_
      grind

theorem atom_gives : GivesNode lines (atom g) := by
  refine .bind .here fun start hstart => ?_
  have hconstant : ∀ value, GivesNode lines (do
      let _ ← next
      return .constant (← spanFrom start) value) :=
    fun value => .seq .next <| .leaf hstart (fun _ => rfl) fun _ => rfl
  refine .bind .peek fun _ _ => ?_
  split
  · exact .seq .next <| .leaf hstart (fun _ => rfl) fun _ => rfl
  · exact hconstant _
  · exact strings_gives hg
  · exact hconstant _
  · exact hconstant _
  · exact hconstant _
  · exact hconstant _
  · exact parenthesized_gives hg
  · exact bracketed_gives hg
  · exact braced_gives hg
  · exact .failure

section

variable {n : Node} (hn : n.Within lines) {start : Pos} (hstart : start.Within lines)
include hn hstart

omit hg in
theorem callRest_gives {args : List Argument} (hargs : ∀ a ∈ args, Argument.Within lines a) :
    Gives lines (callRest n start args) (fun o => ∀ m ∈ o, m.Within lines) := by
  unfold callRest
  refine .failIf (.seq .op <| .someNode hstart (fun _ => rfl) ?_)
  have hwithin := Argument.within_of_mem hargs
  grind

theorem trailer_gives : Gives lines (trailer g n start) (fun o => ∀ m ∈ o, m.Within lines) := by
  refine .branch .tryOp ?_ ?_
  · refine .bind .name fun attr _ => .someNode hstart (fun _ => rfl) ?_
    simp [children, hn]
  refine .branch .isOp ?_ ?_
  · refine .bind .here fun opening hopening => .seq .op ?_
    refine .branch .isOp (callRest_gives hn hstart (forall_mem_nil _)) ?_
    refine (argument_gives hg).bind fun first hfirst => ?_
    have hcall := Gives.commaRest_bind (q := fun r => callRest n start (first :: r.1))
      (argument_gives hg) fun rest _ hrest =>
        callRest_gives hn hstart (forall_mem_cons.2 ⟨hfirst, hrest⟩)
    cases first with
    | positional value =>
      refine .branch startsClause_gives ?_ hcall
      refine (clauses_gives hg).bind fun generators hgenerators => .bind .isOp fun _ _ => ?_
      refine .failIf (.seq .op <| .bind (.span hopening) fun span hspan => ?_)
      have hcomp : (comp span .generator value generators).Within lines :=
        within_of_span rfl hspan (forall_mem_cons.2 ⟨hfirst, hgenerators⟩)
      refine .someNode hstart (fun _ => rfl) ?_
      simp [children, hn, hcomp]
    | _ => exact hcall
  · refine .branch .tryOp ?_ .none
    refine (slices_gives hg).bind fun index hindex => .seq .op ?_
    refine .someNode hstart (fun _ => rfl) ?_
    simp [children, hn, hindex]

end

theorem primary_gives : GivesNode lines (primary g) :=
  .bind .here fun _ hstart => (atom_gives hg).bind fun _ hfirst =>
    .fold (fun _ hn => trailer_gives hg hn hstart) hfirst

/-! ## Operators -/

theorem awaited_gives : GivesNode lines (awaited g) := by
  refine .bind .here fun start hstart => .branch .tryKeyword ?_ (primary_gives hg)
  refine (primary_gives hg).bind fun value hvalue => .node hstart (fun _ => rfl) fun _ => ?_
  exact forall_mem_singleton.2 hvalue

theorem power_gives : GivesNode lines (power g) := by
  refine .bind .here fun start hstart => (awaited_gives hg).bind fun base hbase => ?_
  refine .branch .tryOp ?_ (.pure hbase)
  refine hg.factor.bind fun exponent hexponent => .node hstart (fun _ => rfl) ?_
  simp [children, hbase, hexponent]

theorem factor_gives : GivesNode lines (factor g) := by
  refine .bind .here fun start hstart => ?_
  have hsigned : ∀ sign, GivesNode lines (do
      let _ ← next
      let operand ← g.factor
      return .unaryOp (← spanFrom start) sign operand) := by
    intro sign
    refine .seq .next <| hg.factor.bind fun operand hoperand => ?_
    refine .node hstart (fun _ => rfl) ?_
    simp [children, hoperand]
  refine .bind .peek fun _ _ => ?_
  split
  · exact hsigned .plus
  · exact hsigned .minus
  · exact hsigned .invert
  · exact power_gives hg

omit hg in
theorem leftAssociative_gives {ops : List (String × BinaryOp)} {operand : Parse Node}
    (h : GivesNode lines operand) :
    GivesNode lines (leftAssociative ops operand) := by
  refine .bind .here fun start hstart => h.bind fun first hfirst => ?_
  refine .fold (fun left hleft => .bind .peek fun _ _ => ?_) hfirst
  split
  · split
    · refine .seq .next <| h.bind fun right hright => ?_
      refine .someNode hstart (fun _ => rfl) ?_
      simp [children, hleft, hright]
    · exact .none
  · exact .none

theorem bitwiseOr_gives : GivesNode lines (bitwiseOr g) := by
  iterate 6 apply leftAssociative_gives
  exact factor_gives hg

omit hg in
theorem comparisonOp_gives : Gives lines comparisonOp (fun _ => True) := by
  refine .bind .peek fun _ _ => ?_
  split
  · split
    · exact .seq .next <| .pure trivial
    · exact .pure trivial
  · exact .seq .next <| .pure trivial
  · refine .bind .peekSecond fun _ _ => ?_
    split
    · exact .seq .next <| .seq .next <| .pure trivial
    · exact .pure trivial
  · refine .seq .next <| .bind .tryKeyword fun _ _ => ?_
    exact .ite (.pure trivial) (.pure trivial)
  · exact .pure trivial

theorem comparison_gives : GivesNode lines (comparison g) := by
  refine .bind .here fun start hstart => (bitwiseOr_gives hg).bind fun left hleft => ?_
  refine .bind (.many (Q := fun p => p.2.Within lines) ?_) fun rest hrest => ?_
  · refine comparisonOp_gives.bind fun kind _ => ?_
    split
    · exact .none
    · refine (bitwiseOr_gives hg).bind fun right hright => .pure ?_
      rintro _ ⟨⟩
      exact hright
  · refine .ite (.pure hleft) <| .node hstart (fun _ => rfl) fun _ => ?_
    refine forall_mem_cons.2 ⟨hleft, fun m hm => ?_⟩
    obtain ⟨p, hp, rfl⟩ := mem_map.1 hm
    exact hrest p hp

theorem inversion_gives : GivesNode lines (inversion g) := by
  refine .bind .here fun start hstart => .bind .tryKeyword fun _ _ => ?_
  refine .ite ?_ (comparison_gives hg)
  refine hg.inversion.bind fun operand hoperand => .node hstart (fun _ => rfl) ?_
  simp [children, hoperand]

omit hg in
theorem joined_gives {word : String} {isAnd : Bool} {operand : Parse Node}
    (h : GivesNode lines operand) :
    GivesNode lines (joined word isAnd operand) := by
  refine .bind .here fun start hstart => h.bind fun first hfirst => ?_
  refine .bind (.many (.ifNext .tryKeyword h)) fun rest hrest => ?_
  refine .ite (.pure hfirst) <| .node hstart (fun _ => rfl) fun _ => ?_
  exact forall_mem_cons.2 ⟨hfirst, hrest⟩

theorem disjunction_gives : GivesNode lines (disjunction g) :=
  joined_gives (joined_gives (inversion_gives hg))

/-! ## Parameters -/

/-- The nodes of `l` lie within the first `lines` lines. -/
def ParamList.Within (lines : Nat) (l : ParamList) : Prop := ∀ n ∈ l.toNode.children, n.Within lines

variable {annotated : Bool}

theorem param_gives {afterStar : Bool} : GivesNode lines (param g annotated afterStar) := by
  refine .bind .here fun start hstart => .bind .name fun id _ => ?_
  refine .branch .isOp ?_ <| .leaf hstart (fun _ => rfl) fun _ => rfl
  refine .seq .op <| .bind .isOp fun _ _ => ?_
  refine .ite_bind (starredItem_gives hg.bitwiseOr) hg.expression fun typeNote hnote => ?_
  exact .node hstart (fun _ => rfl) fun _ => forall_mem_singleton.2 hnote

theorem paramItem_gives {l : ParamList}
    (hl : l.Within lines) : Gives lines (paramItem g annotated l) (ParamList.Within lines) := by
  have hparam : ∀ afterStar, GivesNode lines (param g annotated afterStar) :=
    fun _ => param_gives hg
  refine .ite .failure ?_
  refine .branch .tryOp ?_ ?_
  · refine .ite .failure <| .pure fun n hn => hl n ?_
    grind [ParamList.toNode]
  refine .branch .tryOp ?_ ?_
  · refine .ite .failure <| (hparam _).bind fun p hp => .pure ?_
    grind [ParamList.Within, ParamList.toNode]
  refine .branch .tryOp ?_ ?_
  · refine .ite .failure <| .branch .isOp (.pure hl) ?_
    refine (hparam _).bind fun p hp => .pure ?_
    grind [ParamList.Within, ParamList.toNode]
  refine (hparam _).bind fun p hp => ?_
  refine .bind (.ifNext .tryOp hg.expression) fun default hdefault => .ite (.pure ?_) ?_
  · grind [ParamList.Within, ParamList.toNode]
  · split
    · refine .pure ?_
      grind [ParamList.Within, ParamList.toNode]
    · refine .ite (.pure ?_) .failure
      grind [ParamList.Within, ParamList.toNode]

omit hg in
theorem ParamList.Within.toNode {l : ParamList} (h : l.Within lines) : l.toNode.Within lines :=
  within_of_noSpan rfl h

omit hg in
theorem ParamList.within_empty : Within lines {} := forall_mem_nil _

theorem paramList_gives {closing : String} : GivesNode lines (paramList g annotated closing) := by
  refine .branch .isOp (.pure ParamList.within_empty.toNode) ?_
  refine (paramItem_gives hg ParamList.within_empty).bind fun first hfirst => ?_
  refine .bind (.fold (fun l hl => ?_) hfirst) fun all hall => ?_
  · refine .branch .tryOp ?_ .none
    exact .branch .isOp .none <| (paramItem_gives hg hl).some
  · exact .failIf (.bind .isOp fun _ _ => .failIf (.pure hall.toNode))

/-! ## Expressions and lists of them -/

theorem lambda_gives : GivesNode lines (lambda g) := by
  refine .bind .here fun start hstart => .seq .keyword ?_
  refine (paramList_gives hg).bind fun params hparams => .seq .op ?_
  refine hg.expression.bind fun body hbody => .node hstart (fun _ => rfl) ?_
  simp [children, hparams, hbody]

theorem conditionRest_gives :
    Gives lines (conditionRest g) (fun p => p.1.Within lines ∧ p.2.Within lines) := by
  refine .seq .keyword <| hg.disjunction.bind fun test htest => ?_
  refine .seq .keyword <| hg.expression.bind fun orElse horElse => ?_
  exact .pure ⟨htest, horElse⟩

theorem expression_gives : GivesNode lines (expression g) := by
  refine .branch .isKeyword (lambda_gives hg) ?_
  refine .bind .here fun start hstart => (disjunction_gives hg).bind fun body hbody => ?_
  refine .branch .isKeyword ?_ (.pure hbody)
  refine (conditionRest_gives hg).attempt.bind fun branch hparts => ?_
  split
  · next test orElse =>
    obtain ⟨htest, horElse⟩ := hparts _ rfl
    refine .node hstart (fun _ => rfl) ?_
    simp [children, htest, hbody, horElse]
  · exact .pure hbody

theorem starExpression_gives : GivesNode lines (starExpression g) :=
  .branch .isOp (starredItem_gives hg.bitwiseOr) (expression_gives hg)

theorem starExpressions_gives : GivesNode lines (starExpressions g) :=
  (starExpression_gives hg).tupleOf

end Rule
end SmellLint.Syntax
