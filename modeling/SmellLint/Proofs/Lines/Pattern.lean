import SmellLint.Proofs.Lines.Expression
import SmellLint.Syntax.Grammar.Pattern

/-!
# The lines of patterns

One lemma for each rule of what stands after `case`.
-/

namespace SmellLint.Syntax.Rule

open List Parse

variable {lines : Nat} {g : Grammar}

theorem signedNumber_gives : Gives lines signedNumber (fun p => p.1.Within lines) := by
  refine .bind .here fun start hstart => .bind .tryOp fun isNegative _ => ?_
  refine .bind .here fun digits hdigits => .bind .peek fun _ _ => ?_
  split
  · next value _ =>
    refine .seq .next <| .bind (.span hdigits) fun span hspan => ?_
    have hn : (Node.constant span value).Within lines := Node.within_leaf rfl hspan rfl
    refine .ite (.bind (.span hstart) fun outer houter => .pure ?_) (.pure hn)
    exact Node.within_of_span rfl houter (forall_mem_singleton.2 hn)
  · exact .failure

theorem complexNumber_gives {start : Pos} (hstart : start.Within lines) {real : Node}
    (hreal : real.Within lines) {value : Literal} {kind : BinaryOp} :
    GivesNode lines (complexNumber start real value kind) := by
  refine .seq .next <| .bind .here fun pos hpos => .bind .peek fun _ _ => ?_
  split
  · next imag _ =>
    refine .failIf (.seq .next <| .bind (.span hpos) fun span hspan => ?_)
    have hright : (Node.constant span imag).Within lines := Node.within_leaf rfl hspan rfl
    refine .node hstart (fun _ => rfl) fun _ => ?_
    exact forall_mem_cons.2 ⟨hreal, forall_mem_singleton.2 hright⟩
  · exact .failure

theorem patternNumber_gives : GivesNode lines patternNumber := by
  refine .bind .here fun start hstart => signedNumber_gives.bind ?_
  rintro ⟨real, value⟩ hreal
  refine .branch .isOp (complexNumber_gives hstart hreal) ?_
  exact .branch .isOp (complexNumber_gives hstart hreal) (.pure hreal)

theorem dotted_gives {least : Nat} : GivesNode lines (dotted least) := by
  refine .bind .here fun start hstart => .bind .name fun id _ => ?_
  refine .bind (.span hstart) fun span hspan => ?_
  have hfirst : (Node.name span id).Within lines := Node.within_leaf rfl hspan rfl
  refine .bind (.fold (Q := fun p => p.1.Within lines) ?_ hfirst) fun p hp =>
    .ite .failure (.pure hp)
  · rintro ⟨n, count⟩ hn
    refine .branch .tryOp ?_ .none
    refine .bind .name fun attr _ => .bind (.span hstart) fun outer houter => .pure ?_
    rintro _ ⟨⟩
    exact Node.within_of_span rfl houter (forall_mem_singleton.2 hn)

theorem isUnderscore_gives : Gives lines isUnderscore (fun _ => True) :=
  .bind .peek fun _ _ => .pure trivial

theorem captureName_gives : Gives lines captureName (fun _ => True) := by
  refine isUnderscore_gives.bind fun _ _ => .failIf (.bind .name fun id _ => ?_)
  refine .bind .isOp fun _ _ => .bind .isOp fun _ _ => ?_
  exact .branch .isOp .failure (.pure trivial)

variable (hg : g.Within lines)
include hg

theorem sequenceItem_gives : GivesNode lines (sequenceItem g) := by
  refine .bind .here fun start hstart => .branch .tryOp ?_ hg.pattern
  refine .branch isUnderscore_gives (.seq .next <| .leaf hstart (fun _ => rfl) fun _ => rfl) ?_
  exact captureName_gives.bind fun id _ => .leaf hstart (fun _ => rfl) fun _ => rfl

theorem mappingKey_gives : GivesNode lines (mappingKey g) := by
  refine .bind .here fun start hstart => .bind .peek fun kind _ => ?_
  split
  · exact patternNumber_gives
  · exact patternNumber_gives
  · exact strings_gives hg
  · exact dotted_gives
  · split
    · exact .seq .next <| .leaf hstart (fun _ => rfl) fun _ => rfl
    · exact .failure

/-- The key and the pattern of an item of a mapping. -/
def MappingItem.Within (lines : Nat) (item : (Node × Node) ⊕ String) : Prop :=
  ∀ p, item = .inl p → p.1.Within lines ∧ p.2.Within lines

theorem mappingItem_gives : Gives lines (mappingItem g) (MappingItem.Within lines) := by
  refine .branch .tryOp ?_ ?_
  · exact captureName_gives.bind fun id _ => .pure (by rintro _ ⟨⟩)
  · refine (mappingKey_gives hg).bind fun key hkey => .seq .op ?_
    refine hg.pattern.bind fun value hvalue => .pure ?_
    rintro _ ⟨⟩
    exact ⟨hkey, hvalue⟩

/-- The pattern in an item of a class pattern. -/
def ClassItem.Within (lines : Nat) : Node ⊕ (String × Node) → Prop
  | .inl n => n.Within lines
  | .inr p => p.2.Within lines

theorem classItem_gives : Gives lines (classItem g) (ClassItem.Within lines) := by
  refine .bind .peek fun _ _ => .bind .peekSecond fun _ _ => ?_
  split
  · refine .seq .next <| .seq .next ?_
    exact hg.pattern.bind fun n hn => .pure hn
  · exact hg.pattern.bind fun n hn => .pure hn

omit hg in
theorem itemsUpTo_gives {α : Type} {closing : String} {item : Parse α} {Q : α → Prop}
    (h : Gives lines item Q) : Gives lines (itemsUpTo closing item) (fun l => ∀ a ∈ l, Q a) := by
  refine .branch .tryOp .nil ?_
  exact h.commaList.bind fun items hitems => .seq .op <| .pure hitems

omit hg in
/-- The patterns by position, which are some of `items`, and those with names. -/
theorem classParts_within {items : List (Node ⊕ (String × Node))}
    (h : ∀ item ∈ items, ClassItem.Within lines item) :
    ∀ n ∈ (items.takeWhile Sum.isLeft).filterMap Sum.getLeft? ++
        (items.filterMap Sum.getRight?).map Prod.snd, n.Within lines := by
  intro n hn
  rcases mem_append.1 hn with hn | hn
  · obtain ⟨item, hitem, heq⟩ := mem_filterMap.1 hn
    have hwithin := h item ((takeWhile_sublist _).subset hitem)
    cases item with
    | inl m => cases heq; exact hwithin
    | inr p => cases heq
  · obtain ⟨p, hp, rfl⟩ := mem_map.1 hn
    obtain ⟨item, hitem, heq⟩ := mem_filterMap.1 hp
    cases item with
    | inl m => cases heq
    | inr q => cases heq; exact h _ hitem

theorem closedPattern_gives : GivesNode lines (closedPattern g) := by
  refine .bind .here fun start hstart => .bind .peek fun kind _ => ?_
  have hmake : ∀ (form : PatternForm) (parts : List Node), (∀ n ∈ parts, n.Within lines) →
      GivesNode lines (do return Node.pattern (← spanFrom start) form parts) :=
    fun form parts hparts => .node hstart (fun _ => rfl) fun _ => hparts
  split
  · refine patternNumber_gives.bind fun n hn => ?_
    exact hmake .value [n] (forall_mem_singleton.2 hn)
  · refine patternNumber_gives.bind fun n hn => ?_
    exact hmake .value [n] (forall_mem_singleton.2 hn)
  · refine (strings_gives hg).bind fun n hn => ?_
    exact hmake .value [n] (forall_mem_singleton.2 hn)
  · refine .seq .next <| (itemsUpTo_gives (sequenceItem_gives hg)).bind ?_
    exact fun items hitems => hmake .sequence items hitems
  · refine .seq .next <| .bind .tryOp fun _ _ => ?_
    refine .ite (hmake .sequence [] (forall_mem_nil _)) ?_
    refine .bind .isOp fun isStarred _ => ?_
    refine (sequenceItem_gives hg).bind fun first hfirst => .bind .isOp fun _ _ => ?_
    refine .ite ?_ <| .ite .failure ?_
    · refine .commaRest_bind (sequenceItem_gives hg) fun rest _ hrest => ?_
      refine .seq .op <| hmake .sequence (first :: rest) ?_
      exact forall_mem_cons.2 ⟨hfirst, hrest⟩
    · exact .seq .op <| .pure hfirst
  · refine .seq .next <| (itemsUpTo_gives (mappingItem_gives hg)).bind ?_
    intro items hitems
    have hpairs : ∀ p ∈ items.filterMap Sum.getLeft?, p.1.Within lines ∧ p.2.Within lines := by
      intro p hp
      obtain ⟨item, hitem, heq⟩ := mem_filterMap.1 hp
      cases item with
      | inl q => cases heq; exact hitems _ hitem _ rfl
      | inr r => cases heq
    refine .failIf (hmake _ _ fun n hn => ?_)
    rcases mem_append.1 hn with hn | hn
    · obtain ⟨p, hp, rfl⟩ := mem_map.1 hn
      exact (hpairs p hp).1
    · obtain ⟨p, hp, rfl⟩ := mem_map.1 hn
      exact (hpairs p hp).2
  · exact .seq .next <| hmake _ [] (forall_mem_nil _)
  · refine .bind .peekSecond fun _ _ => ?_
    split
    case h_3 =>
      exact captureName_gives.bind fun id _ => hmake _ [] (forall_mem_nil _)
    -- a dotted name, whether a dot or a parenthesis follows its first part
    all_goals
      refine dotted_gives.bind fun n hn => .branch .tryOp ?_ ?_
      · refine (itemsUpTo_gives (classItem_gives hg)).bind fun items hitems => ?_
        refine .failIf (.failIf (hmake _ _ ?_))
        exact forall_mem_cons.2 ⟨hn, classParts_within hitems⟩
      · refine .branch .isOp .failure ?_
        exact hmake .value [n] (forall_mem_singleton.2 hn)
  · split
    · exact .seq .next <| hmake _ [] (forall_mem_nil _)
    · exact .failure

theorem alternatives_gives : GivesNode lines (alternatives g) := by
  have hclosed := closedPattern_gives hg
  refine .bind .here fun start hstart => hclosed.bind fun first hfirst => ?_
  refine .bind (.many (.ifNext .tryOp hclosed)) fun rest hrest => .ite (.pure hfirst) ?_
  exact .node hstart (fun _ => rfl) fun _ => forall_mem_cons.2 ⟨hfirst, hrest⟩

theorem pattern_gives : GivesNode lines (pattern g) := by
  refine .bind .here fun start hstart => (alternatives_gives hg).bind fun n hn => ?_
  refine .branch .tryKeyword (captureName_gives.bind fun id _ => ?_) (.pure hn)
  exact .node hstart (fun _ => rfl) fun _ => forall_mem_singleton.2 hn

theorem casePatterns_gives : GivesNode lines (casePatterns g) := by
  have hitem : GivesNode lines (do if ← isOp "*" then sequenceItem g else pattern g) :=
    .branch .isOp (sequenceItem_gives hg) (pattern_gives hg)
  refine .bind .here fun start hstart => .bind .isOp fun isStarred _ => ?_
  refine hitem.bind fun first hfirst => .commaRest_bind hitem fun rest comma hrest => ?_
  refine .ite (.node hstart (fun _ => rfl) fun _ => ?_) ?_
  · exact forall_mem_cons.2 ⟨hfirst, hrest⟩
  · exact .ite .failure (.pure hfirst)

end SmellLint.Syntax.Rule
