import SmellLint.Proofs.Lines.Pattern
import SmellLint.Syntax.Grammar.Statement

/-!
# The lines of programs

One lemma for each rule of a statement, and from them, by induction on the depth of the grammar,
that every node of a program starts on a line of its text (`Node.ofSource?_within`).
-/

namespace SmellLint.Syntax.Rule

open Parse Argument Gives Syntax.Node

variable {lines : Nat} {g : Grammar}

/-! ## Simple statements -/

theorem assignedValue_gives (hg : g.Within lines) : GivesNode lines (assignedValue g) :=
  .branch .isKeyword (yieldExpression_gives hg) (starExpressions_gives hg)

variable {start : Pos}

theorem annotatedRest_gives (hg : g.Within lines) (hstart : start.Within lines)
    {target : Node} (htarget : target.Within lines) :
    GivesNode lines (annotatedRest g start target) := by
  refine .seq .op <| (expression_gives hg).bind fun typeNote hnote => ?_
  refine .bind (.ifNext .tryOp (assignedValue_gives hg)) fun value hvalue => ?_
  refine .node hstart (fun _ => rfl) ?_
  grind

theorem assignmentOrExpression_gives (hg : g.Within lines) :
    GivesNode lines (assignmentOrExpression g) := by
  refine .bind .here fun start hstart => ?_
  have hexpr : ∀ value : Node, value.Within lines → GivesNode lines (do
      return .exprStmt (← spanFrom start) value) :=
    fun value hvalue =>
      .node hstart (fun _ => rfl) fun _ => List.forall_mem_singleton.2 hvalue
  refine .bind .peek fun _ _ => .bind .peekSecond fun _ _ => ?_
  split
  · refine .seq .next <| .bind (.span hstart) fun span hspan => ?_
    exact annotatedRest_gives hg hstart (within_leaf rfl hspan rfl)
  · exact (yieldExpression_gives hg).bind hexpr
  refine (starExpressions_gives hg).bind fun first hfirst => .bind .peek fun _ _ => ?_
  split
  · exact .ite (annotatedRest_gives hg hstart hfirst) .failure
  · refine .bind (.many (.ifNext .tryOp (assignedValue_gives hg))) fun rest hrest => ?_
    have hall : ∀ n ∈ first :: rest, n.Within lines := List.forall_mem_cons.2 ⟨hfirst, hrest⟩
    refine .ite ?_ .failure
    split
    · next value hvalue =>
      refine .node hstart (fun _ => rfl) fun _ => List.forall_mem_append.2 ⟨?_, ?_⟩
      · exact fun n hn => hall n (List.dropLast_subset _ hn)
      · exact List.forall_mem_singleton.2 (hall value (List.mem_of_getLast? hvalue))
    · exact .failure
  · split
    · refine .ite (.seq .next ?_) .failure
      refine (assignedValue_gives hg).bind fun value hvalue => .node hstart (fun _ => rfl) ?_
      simp [children, hfirst, hvalue]
    · exact hexpr first hfirst
  · exact hexpr first hfirst

theorem dottedName_gives : Gives lines dottedName (fun _ => True) :=
  name.bind fun _ _ => .bind (.many (.ifNext .tryOp name)) fun _ _ => .pure trivial

theorem importedName_gives {nameRule : Parse String} {Q : String → Prop}
    (h : Gives lines nameRule Q) : GivesNode lines (importedName nameRule) := by
  refine .bind .here fun start hstart => h.bind fun id _ => ?_
  exact .bind (.ifNext .tryKeyword name) fun asName _ => .leaf hstart (fun _ => rfl) fun _ => rfl

theorem importNames_gives : GivesNode lines importNames := by
  refine .bind .here fun start hstart => .seq .keyword ?_
  refine (importedName_gives dottedName_gives).separated.bind fun names hnames => ?_
  exact .node hstart (fun _ => rfl) fun _ => hnames

theorem importedNames_gives : GivesNodes lines importedNames := by
  have hname : GivesNode lines (importedName name) := importedName_gives name
  refine .bind .here fun start hstart => .branch .tryOp ?_ (.branch .tryOp ?_ hname.separated)
  · refine .bind (.span hstart) fun span hspan => .pure ?_
    exact List.forall_mem_singleton.2 (within_leaf rfl hspan rfl)
  · exact hname.commaList.bind fun names hnames => .seq .op <| .pure hnames

theorem importFrom_gives : GivesNode lines importFrom := by
  refine .bind .here fun start hstart => .seq .keyword ?_
  refine .bind (.many (Q := fun _ => True) ?_) fun dots _ => ?_
  · refine .branch .tryOp (.pure fun _ _ => trivial) ?_
    exact .branch .tryOp (.pure fun _ _ => trivial) .none
  refine .bind .isKeyword fun _ _ => .ite_bind .none dottedName_gives.some fun library _ => ?_
  refine .seq .keyword <| importedNames_gives.bind fun names hnames => ?_
  exact .node hstart (fun _ => rfl) fun _ => hnames

theorem atLineEnd_gives : Gives lines atLineEnd (fun _ => True) :=
  .bind .peek fun _ _ => .pure trivial

variable (hg : g.Within lines)
include hg

theorem deletedTarget_gives : GivesNode lines (deletedTarget g) :=
  (primary_gives hg).bind fun _ hn => .ite (.pure hn) .failure

theorem deletion_gives : GivesNode lines (deletion g) := by
  refine .bind .here fun start hstart => .seq .keyword ?_
  refine (deletedTarget_gives hg).commaList.bind fun targets htargets => ?_
  refine atLineEnd_gives.bind fun _ _ => .branch .isOp ?_ .failure
  exact .node hstart (fun _ => rfl) fun _ => htargets

theorem simpleStatement_gives : GivesNode lines (simpleStatement g) := by
  have hexpr := expression_gives hg
  refine .bind .here fun start hstart => ?_
  have hjump : ∀ kind, GivesNode lines (do
      let _ ← next
      return .jump (← spanFrom start) kind) :=
    fun kind => .seq .next <| .leaf hstart (fun _ => rfl) fun _ => rfl
  have hscope : ∀ isGlobal, GivesNode lines (do
      let _ ← next
      let names ← separated Parse.name
      return .scopeDecl (← spanFrom start) isGlobal names) :=
    fun isGlobal => .seq .next <| name.separated.bind fun names _ =>
      .leaf hstart (fun _ => rfl) fun _ => rfl
  refine .bind .peek fun _ _ => ?_
  split
  · refine .seq .next <| (starExpressions_gives hg).attempt.bind fun value hvalue => ?_
    refine .node hstart (fun _ => rfl) ?_
    simpa [children] using hvalue
  · exact importNames_gives
  · exact importFrom_gives
  · refine .seq .next <| hexpr.attempt.bind fun exc hexc => ?_
    split
    · exact .leaf hstart (fun _ => rfl) fun _ => rfl
    · refine .bind (.ifNext .tryKeyword hexpr) fun cause hcause => .node hstart (fun _ => rfl) ?_
      grind
  · exact hjump .pass
  · exact hjump .break
  · exact hjump .continue
  · exact deletion_gives hg
  · refine .seq .next <| hexpr.bind fun test htest => ?_
    refine .bind (.ifNext .tryOp hexpr) fun message hmessage => .node hstart (fun _ => rfl) ?_
    grind
  · exact hscope true
  · exact hscope false
  · exact assignmentOrExpression_gives hg

theorem simpleStatements_gives : GivesNodes lines (simpleStatements g) := by
  have hstmt := simpleStatement_gives hg
  refine hstmt.bind fun first hfirst => .bind (.many (Q := Node.Within lines) ?_) ?_
  · refine .branch .tryOp ?_ .none
    exact .branch atLineEnd_gives .none hstmt.some
  · intro rest hrest
    exact .seq .layout <| .pure (List.forall_mem_cons.2 ⟨hfirst, hrest⟩)

/-! ## Blocks and compound statements -/

theorem statements_gives : GivesNodes lines (statements g) := by
  refine .bind (.many (Q := fun l => ∀ n ∈ l, n.Within lines) ?_) fun groups hgroups => .pure ?_
  · refine .bind .peek fun _ _ => ?_
    split
    · exact .none
    · exact .none
    · exact hg.statement.some
  · intro n hn
    obtain ⟨group, hgroup, hmem⟩ := List.mem_flatten.1 hn
    exact hgroups group hgroup n hmem

theorem block_gives : GivesNodes lines (block g) := by
  refine .seq .op <| atLineEnd_gives.bind fun _ _ => ?_
  refine .ite ?_ (simpleStatements_gives hg)
  refine .seq .layout <| .seq .layout ?_
  refine (statements_gives hg).bind fun body hbody => .seq .layout ?_
  exact .ite .failure (.pure hbody)

theorem blockAfter_gives {word : String} : GivesNodes lines (blockAfter g word) :=
  .branch .tryKeyword (block_gives hg) .nil

theorem conditional_gives {word : String} {orElse : Parse (List Node)}
    {make : Span → Node → List Node → List Node → Node} (horElse : GivesNodes lines orElse)
    (hspan : ∀ s test body rest, (make s test body rest).HasSpan s)
    (hchildren : ∀ s test body rest, (make s test body rest).children = test :: body ++ rest) :
    GivesNode lines (conditional g word orElse make) := by
  refine .bind .here fun start hstart => .seq .keyword ?_
  refine (namedExpression_gives hg).bind fun test htest => ?_
  refine (block_gives hg).bind fun body hbody => horElse.bind fun rest hrest => ?_
  refine .node hstart (fun _ => hspan ..) fun _ => ?_
  grind

theorem elseBranches_gives : GivesNodes lines (elseBranches g) := by
  refine .branch .isKeyword ?_ (blockAfter_gives hg)
  refine .bind (conditional_gives hg hg.elseBranches ?_ ?_) fun n hn => .pure ?_
  · exact fun _ _ _ _ => rfl
  · exact fun _ _ _ _ => rfl
  · exact List.forall_mem_singleton.2 hn

variable {isAsync : Bool}

theorem forStatement_gives (hstart : start.Within lines) :
    GivesNode lines (forStatement g start isAsync) := by
  refine .seq .keyword <| (starTargets_gives hg).bind fun target htarget => ?_
  refine .seq .keyword <| (starExpressions_gives hg).bind fun iter hiter => ?_
  refine (block_gives hg).bind fun body hbody => ?_
  refine (blockAfter_gives hg).bind fun orElse horElse => .node hstart (fun _ => rfl) ?_
  grind

theorem withItem_gives : GivesNode lines (withItem g) := by
  refine (expression_gives hg).bind fun context hcontext => .bind .tryKeyword fun _ _ => ?_
  refine .ite ?_ (.pure ?_)
  · refine (starTarget_gives hg).bind fun target htarget => .bind .isOp fun _ _ => ?_
    refine .bind .isOp fun _ _ => .bind .isOp fun _ _ => ?_
    refine .ite (.pure (within_of_noSpan rfl ?_)) .failure
    simp [children, hcontext, htarget]
  · exact within_of_noSpan rfl (List.forall_mem_singleton.2 hcontext)

theorem withItemsInParens_gives : GivesNodes lines (withItemsInParens g) := by
  refine .seq .op <| (withItem_gives hg).commaList.bind fun items hitems => .seq .op ?_
  exact .branch .isOp (.pure hitems) .failure

theorem withItems_gives : GivesNodes lines (withItems g) := by
  refine (withItemsInParens_gives hg).attempt.bind fun items hitems => ?_
  split
  · exact .pure (hitems _ rfl)
  · exact (withItem_gives hg).separated

theorem withStatement_gives (hstart : start.Within lines) :
    GivesNode lines (withStatement g start isAsync) := by
  refine .seq .keyword <| (withItems_gives hg).bind fun items hitems => ?_
  refine (block_gives hg).bind fun body hbody => .node hstart (fun _ => rfl) ?_
  grind

theorem exceptHandler_gives {isGroup : Bool} : GivesNode lines (exceptHandler g isGroup) := by
  refine .bind .here fun start hstart => .seq .keyword <| .when op ?_
  refine .branch .isOp ?_ ?_
  · refine (block_gives hg).bind fun body hbody => .node hstart (fun _ => rfl) ?_
    simpa [children] using hbody
  · refine (expression_gives hg).bind fun type htype => .bind (.ifNext .tryKeyword name) ?_
    refine fun id _ => (block_gives hg).bind fun body hbody => .node hstart (fun _ => rfl) ?_
    grind

theorem tryStatement_gives : GivesNode lines (tryStatement g) := by
  refine .bind .here fun start hstart => .seq .keyword ?_
  refine (block_gives hg).bind fun body hbody => ?_
  refine .branch .isKeyword (.bind .peekSecond fun _ _ => ?_) ?_
  · refine .bind (.many (.ifNext .isKeyword (exceptHandler_gives hg))) fun handlers hhandlers => ?_
    refine (blockAfter_gives hg).bind fun orElse horElse => ?_
    refine (blockAfter_gives hg).bind fun final hfinal => .node hstart (fun _ => rfl) ?_
    grind
  · refine .seq .keyword <| (block_gives hg).bind fun final hfinal => ?_
    refine .node hstart (fun _ => rfl) ?_
    grind

theorem functionDef_gives (hstart : start.Within lines) {decorators : List Node}
    (hdecorators : ∀ n ∈ decorators, n.Within lines) :
    GivesIf lines (From start.line) (functionDef g start isAsync decorators) (Within lines) := by
  have hafter := stable_after start.line
  refine .keyword_bind (.bind hafter name fun id hid => .bind hafter op fun _ _ => ?_)
  refine .bind hafter (paramList_gives hg) fun params hparams => .bind hafter op fun _ _ => ?_
  refine .bind hafter (.ifNext tryOp (expression_gives hg)) fun returns hreturns => ?_
  refine .bind hafter (block_gives hg) fun body hbody => ?_
  refine .function hstart (fun _ => rfl) (fun _ => hid) ?_
  grind

theorem classArguments_gives :
    Gives lines (classArguments g) (fun l => ∀ a ∈ l, Argument.Within lines a) :=
  .branch .tryOp ((arguments_gives hg).bind fun _ hargs => .seq .op <| .pure hargs) .nil

theorem classDef_gives {decorators : List Node} (hdecorators : ∀ n ∈ decorators, n.Within lines) :
    GivesNode lines (classDef g decorators) := by
  refine .bind .here fun start hstart => .seq .keyword ?_
  refine .bind .name fun id _ => (classArguments_gives hg).bind fun args hargs => ?_
  have hwithin := within_of_mem hargs
  refine (block_gives hg).bind fun body hbody => .node hstart (fun _ => rfl) ?_
  grind

theorem decorators_gives : GivesNodes lines (decorators g) := by
  refine .many (.branch .tryOp ?_ .none)
  refine (namedExpression_gives hg).bind fun n hn => .seq .layout <| .pure ?_
  rintro _ ⟨⟩
  exact hn

theorem decorated_gives : GivesNode lines (decorated g) := by
  refine (decorators_gives hg).bind fun decos hdecos => GivesIf.here_bind fun start hstart => ?_
  have hfrom := stable_from start.line
  refine .bind hfrom isKeyword fun _ _ => .ite (.of_gives (classDef_gives hg hdecos)) ?_
  refine .bind hfrom tryKeyword fun _ _ => .ite ?_ ?_
  · exact functionDef_gives hg hstart hdecos
  · exact functionDef_gives hg hstart hdecos

theorem asyncStatement_gives : GivesNode lines (asyncStatement g) := by
  refine GivesIf.here_bind fun start hstart => ?_
  have hfrom := stable_from start.line
  refine .bind hfrom keyword fun _ _ => .bind hfrom peek fun _ _ => ?_
  split
  · exact functionDef_gives hg hstart (List.forall_mem_nil _)
  · exact .of_gives (forStatement_gives hg hstart)
  · exact .of_gives (withStatement_gives hg hstart)
  · exact .of_gives .failure

theorem caseBlock_gives : GivesNode lines (caseBlock g) := by
  refine .seq .softKeyword <| (casePatterns_gives hg).bind fun shape hshape => ?_
  refine .bind (.ifNext .tryKeyword (namedExpression_gives hg)) ?_
  refine fun guard hguard => (block_gives hg).bind fun body hbody => .pure ?_
  refine within_of_noSpan rfl ?_
  grind

theorem matchSubject_gives : GivesNode lines (matchSubject g) := by
  have hitem := starNamedExpression_gives hg
  refine .bind .here fun start hstart => .bind .isOp fun isStarred _ => ?_
  refine hitem.bind fun first hfirst => .branch .isOp ?_ ?_
  · refine .commaRest_bind hitem fun rest _ hrest => .node hstart (fun _ => rfl) fun _ => ?_
    exact List.forall_mem_cons.2 ⟨hfirst, hrest⟩
  · exact .ite .failure (.pure hfirst)

theorem matchStatement_gives : GivesNode lines (matchStatement g) := by
  refine .bind .here fun start hstart => .seq .softKeyword ?_
  refine (matchSubject_gives hg).bind fun subject hsubject => .seq .op ?_
  refine .seq .layout <| .seq .layout ?_
  refine .bind (.many (Q := Node.Within lines) ?_) fun cases hcases => ?_
  · refine .bind .peek fun _ _ => ?_
    split
    · exact .none
    · exact (caseBlock_gives hg).some
  · refine .seq .layout <| .failIf (.node hstart (fun _ => rfl) fun _ => ?_)
    exact List.forall_mem_cons.2 ⟨hsubject, hcases⟩

theorem statement_gives : GivesNodes lines (statement g) := by
  have hone : ∀ p : Parse Node, GivesNode lines p →
      GivesNodes lines (do return [← p]) :=
    fun p hp => hp.bind fun n hn => .pure (List.forall_mem_singleton.2 hn)
  refine .bind .peek fun _ _ => ?_
  split
  · exact hone _ (conditional_gives hg (elseBranches_gives hg) (fun _ _ _ _ => rfl)
      fun _ _ _ _ => rfl)
  · exact hone _ (conditional_gives hg (blockAfter_gives hg) (fun _ _ _ _ => rfl)
      fun _ _ _ _ => rfl)
  · exact .bind .here fun start hstart => hone _ (forStatement_gives hg hstart)
  · exact hone _ (tryStatement_gives hg)
  · exact .bind .here fun start hstart => hone _ (withStatement_gives hg hstart)
  · exact hone _ (decorated_gives hg)
  · exact hone _ (decorated_gives hg)
  · exact hone _ (decorated_gives hg)
  · exact hone _ (asyncStatement_gives hg)
  · refine (matchStatement_gives hg).attempt.bind fun n hn => ?_
    split
    · exact .pure (List.forall_mem_singleton.2 (hn _ rfl))
    · exact simpleStatements_gives hg
  · exact simpleStatements_gives hg

/-! ## Programs -/

theorem level_within : (level g).Within lines where
  expression := expression_gives hg
  namedExpression := namedExpression_gives hg
  starExpressions := starExpressions_gives hg
  disjunction := disjunction_gives hg
  inversion := inversion_gives hg
  bitwiseOr := bitwiseOr_gives hg
  factor := factor_gives hg
  pattern := pattern_gives hg
  elseBranches := elseBranches_gives hg
  statement := statement_gives hg

omit hg in
theorem grammar_within (n : Nat) : (grammar n).Within lines := by
  induction n with
  | zero => constructor <;> exact .failure
  | succ n ih => exact level_within ih

theorem program_gives : GivesNode lines (program g) := by
  refine (statements_gives hg).bind fun body hbody => .seq .layout <| .pure ?_
  exact within_of_noSpan rfl hbody

end SmellLint.Syntax.Rule

namespace SmellLint.Syntax.Node

/-- Every node that `ofChars?` gives starts on a line of the text that the tokens are cut from. -/
theorem ofChars?_within {cs : List Char} {tree : Node} (h : ofChars? cs = some tree) :
    tree.Within (1 + (lexerText cs).dropLast.count '\n') := by
  unfold ofChars? at h
  split_ifs at h
  · cases h
  obtain ⟨tokens, htokens, h⟩ := Option.bind_eq_some_iff.1 h
  obtain ⟨⟨n, rest⟩, hn, heq⟩ := Option.bind_eq_some_iff.1 h
  cases heq
  have hinput := Input.within_ofTokens (tokens?_within htokens) (by omega)
  exact (Rule.program_gives (Rule.grammar_within _) hinput hn).1

/-- Every node that `ofSource?` gives starts on a line that a reader of the text sees. -/
theorem ofSource?_within {source : String} {tree : Node} (h : ofSource? source = some tree) :
    tree.Within (Text.displayLines source).length := by
  unfold ofSource? at h
  rw [Text.displayLines, List.length_map]
  by_cases hempty : source.toList = []
  · rw [hempty] at h
    cases h
    exact within_of_noSpan rfl (List.forall_mem_nil _)
  · exact (ofChars?_within h).mono (count_lexerText_le hempty)

end SmellLint.Syntax.Node
