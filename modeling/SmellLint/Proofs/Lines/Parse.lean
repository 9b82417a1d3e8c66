import SmellLint.Proofs.Lines.Lexer
import SmellLint.Syntax.Grammar.Basic

/-!
# The lines of what rules give

`Parse.Gives lines p Q` says that a rule, applied to tokens within the first `lines` lines, only
takes tokens from the front of them, and that its result satisfies `Q`.  There is one lemma for each
way in which rules are put together, so a fact about a rule is proved along its text.  Where a rule
needs to know more of its input, `Parse.GivesIf` has a condition on it.
-/

namespace SmellLint.Syntax

open List

/-- The tokens that are left stand within the first `lines` lines and follow each other, after the
last token that covers text. -/
structure Input.Within (lines : Nat) (i : Input) : Prop where
  tokens : Token.Follow lines i.tokens
  last : i.last.line ≤ lines
  left : ∀ t ∈ i.tokens, t.isLayout = false → i.last.line ≤ t.span.start.line

variable {lines : Nat}

theorem Input.within_ofTokens {tokens : List Token} (h : Token.Follow lines tokens)
    (hlines : 1 ≤ lines) : (ofTokens tokens).Within lines :=
  ⟨h, hlines, fun t ht hlayout => (h.within t ht hlayout).1⟩

/-- `j` is left of `i` after tokens have been taken: the end of the last token does not go back. -/
structure Input.Leaves (i j : Input) : Prop where
  tokens : j.tokens ⊆ i.tokens
  last : i.last.line ≤ j.last.line

theorem Input.Leaves.refl (i : Input) : i.Leaves i := ⟨Subset.refl _, Nat.le_refl _⟩

theorem Input.Leaves.trans {i j k : Input} (hj : i.Leaves j) (hk : j.Leaves k) : i.Leaves k :=
  ⟨Subset.trans hk.tokens hj.tokens, Nat.le_trans hj.last hk.last⟩

def Node.isFunction : Node → Bool
  | .functionDef .. => true
  | _ => false

/-- `s` does not end before it starts, and ends within the first `lines` lines. -/
def Span.EndsWithin (lines : Nat) (s : Span) : Prop :=
  s.start.line ≤ s.stop.line ∧ s.stop.line ≤ lines

/-- A node and all its parts start within the first `lines` lines, and the definitions of functions
end within them and have names without dots. -/
inductive Node.Within (lines : Nat) : Node → Prop
  | mk {n : Node} (hspan : ∀ s, n.span? = some s → s.start.Within lines)
      (hfunction : n.isFunction = true → ∀ s, n.span? = some s →
        s.EndsWithin lines ∧ '.' ∉ n.functionName.toList)
      (hchildren : ∀ m ∈ n.children, Within lines m) : Within lines n

attribute [grind =] Node.children

/-- `n` has the span `s` and is no definition of a function. -/
def Node.HasSpan (n : Node) (s : Span) : Prop := (n.span?, n.isFunction) = (some s, false)

variable {n : Node}

theorem Node.within_of_span {s : Span} (hspan : n.HasSpan s) (hs : s.start.Within lines)
    (hchildren : ∀ m ∈ n.children, m.Within lines) :
    n.Within lines := by
  refine .mk (fun s' hs' => ?_) (fun hn => ?_) hchildren
  · rw [(Prod.mk.inj hspan).1] at hs'
    cases hs'
    exact hs
  · rw [(Prod.mk.inj hspan).2] at hn
    cases hn

theorem Node.within_leaf {s : Span} (hspan : n.HasSpan s) (hs : s.start.Within lines)
    (hchildren : n.children = []) : n.Within lines :=
  within_of_span hspan hs (hchildren ▸ forall_mem_nil _)

theorem Node.within_of_noSpan (hspan : n.span? = none)
    (hchildren : ∀ m ∈ n.children, m.Within lines) : n.Within lines := by
  refine .mk (fun s' hs' => ?_) (fun _ s' hs' => ?_) hchildren
  all_goals
    rw [hspan] at hs'
    cases hs'

theorem Node.Within.mono {more : Nat} (h : n.Within lines) (hle : lines ≤ more) :
    n.Within more := by
  induction h with
  | mk hspan hfunction _ ih =>
    refine .mk (fun s hs => ⟨(hspan s hs).1, Nat.le_trans (hspan s hs).2 hle⟩)
      (fun hn s hs => ?_) ih
    obtain ⟨⟨hstart, hstop⟩, hname⟩ := hfunction hn s hs
    exact ⟨⟨hstart, Nat.le_trans hstop hle⟩, hname⟩

namespace Parse

/-- On tokens within the first `lines` lines `p` leaves such tokens, and what it gives satisfies
`Q`. -/
def Gives {α : Type} (lines : Nat) (p : Parse α) (Q : α → Prop) : Prop :=
  ∀ ⦃i a i'⦄, i.Within lines → p i = some (a, i') → Q a ∧ i'.Within lines ∧ i.Leaves i'

/-- `p` gives nodes within the first `lines` lines. -/
abbrev GivesNode (lines : Nat) (p : Parse Node) : Prop := Gives lines p (Node.Within lines)

abbrev GivesNodes (lines : Nat) (p : Parse (List Node)) : Prop :=
  Gives lines p (fun l => ∀ n ∈ l, n.Within lines)

namespace Gives

variable {α β : Type} {p : Parse α} {f : α → Parse β} {P Q : α → Prop} {R : β → Prop}

/-! ## Putting rules together -/

variable {a : α} {c : Prop} {start : Pos} {text word : String} {item : Parse α}

theorem pure (ha : Q a) : Gives lines (pure a) Q := by
  intro i a' i' hi hp
  cases hp
  exact ⟨ha, hi, .refl i⟩

theorem failure : Gives lines (failure : Parse α) Q := by
  intro i a i' hi hp
  cases hp

theorem bind (hp : Gives lines p P) (hf : ∀ a, P a → Gives lines (f a) R) :
    Gives lines (p >>= f) R := by
  intro i b i' hi h
  obtain ⟨⟨a, j⟩, ha, hb⟩ := Option.bind_eq_some_iff.1 h
  obtain ⟨hPa, hj, hleaves⟩ := hp hi ha
  obtain ⟨hRb, hi', hleaves'⟩ := hf a hPa hj hb
  exact ⟨hRb, hi', hleaves.trans hleaves'⟩

theorem seq {q : Parse β} (hp : Gives lines p P) (hq : Gives lines q R) :
    Gives lines (p >>= fun _ => q) R := hp.bind fun _ _ => hq

theorem ite [Decidable c] {q : Parse α} (hp : Gives lines p Q) (hq : Gives lines q Q) :
    Gives lines (if c then p else q) Q := by
  split
  · exact hp
  · exact hq

/-- A rule that goes on by what `test` says. -/
theorem branch {test : α → Bool} {q r : Parse β} (hp : Gives lines p P) (hq : Gives lines q R)
    (hr : Gives lines r R) : Gives lines (p >>= fun a => if test a = true then q else r) R :=
  hp.bind fun _ _ => hq.ite hr

/-- A part that is read in one of two ways, and `f` that follows it. -/
theorem ite_bind [Decidable c] {q : Parse α} (hp : Gives lines p P) (hq : Gives lines q P)
    (hf : ∀ a, P a → Gives lines (f a) R) :
    Gives lines (if c then p >>= f else q >>= f) R :=
  .ite (hp.bind hf) <| hq.bind hf

/-- A rule that takes the part `p` only if a condition holds. -/
theorem when [Decidable c] {p : Parse Unit} {P : Unit → Prop} {q : Unit → Parse β}
    (hp : Gives lines p P) (hq : Gives lines (q ()) R) :
    Gives lines (if c then p >>= q else q ()) R :=
  .ite (hp.bind fun _ _ => hq) hq

/-- A rule that goes on only if a condition does not hold. -/
theorem failIf [Decidable c] {q : Unit → Parse β} (h : Gives lines (q ()) R) :
    Gives lines (if c then Alternative.failure >>= q else q ()) R :=
  .ite (bind (P := fun _ => False) .failure fun _ => False.elim) h

theorem none : Gives lines (Pure.pure none) (fun o => ∀ a ∈ o, Q a) := by
  refine .pure ?_
  rintro _ ⟨⟩

theorem nil : Gives lines (Pure.pure []) (fun l => ∀ a ∈ l, Q a) := .pure (forall_mem_nil _)

theorem some {a : Parse α} (h : Gives lines a Q) :
    Gives lines (some <$> a) (fun o => ∀ a ∈ o, Q a) := by
  refine h.bind fun a ha => .pure ?_
  rintro _ ⟨⟩
  exact ha

theorem ifNext {test : Parse Bool} {P : Bool → Prop} (htest : Gives lines test P)
    (h : Gives lines p Q) : Gives lines (ifNext test p) (fun o => ∀ a ∈ o, Q a) :=
  .branch htest h.some .none

theorem attempt (h : Gives lines p Q) : Gives lines (attempt p) (fun o => ∀ a ∈ o, Q a) := by
  intro i o i' hi ho
  unfold Parse.attempt at ho
  split at ho
  · next a j ha =>
    cases ho
    obtain ⟨hQ, hj⟩ := h hi ha
    refine ⟨?_, hj⟩
    rintro _ ⟨⟩
    exact hQ
  · exact none hi ho

theorem repeatUpTo {q : Parse (Option α)} (h : Gives lines q (fun o => ∀ a ∈ o, Q a)) (n : Nat) :
    Gives lines (repeatUpTo q n) (fun l => ∀ a ∈ l, Q a) := by
  induction n with
  | zero => exact .failure
  | succ n ih =>
    refine h.bind fun o ho => ?_
    cases o with
    | none => exact .nil
    | some a =>
      refine ih.bind fun l hl => .pure ?_
      exact forall_mem_cons.2 ⟨ho a rfl, hl⟩

theorem foldUpTo {q : α → Parse (Option α)}
    (h : ∀ a, Q a → Gives lines (q a) (fun o => ∀ b ∈ o, Q b)) (n : Nat) (ha : Q a) :
    Gives lines (foldUpTo q n a) Q := by
  induction n generalizing a with
  | zero => exact .failure
  | succ n ih =>
    refine (h a ha).bind fun o ho => ?_
    cases o with
    | none => exact .pure ha
    | some b => exact ih (ho b rfl)

theorem many {q : Parse (Option α)} (h : Gives lines q (fun o => ∀ a ∈ o, Q a)) :
    Gives lines (many q) (fun l => ∀ a ∈ l, Q a) :=
  fun _ _ _ hi hl => repeatUpTo h _ hi hl

theorem fold {q : α → Parse (Option α)} (h : ∀ a, Q a → Gives lines (q a) (fun o => ∀ b ∈ o, Q b))
    (ha : Q a) :
    Gives lines (fold q a) Q :=
  fun _ _ _ hi hl => foldUpTo h _ ha hi hl

/-! ## Tokens -/

theorem peek : Gives lines peek TokenKind.IsDotless := by
  intro i k i' hi h
  unfold Parse.peek at h
  split at h
  · next t r hr =>
    cases h
    refine ⟨?_, hi, .refl i⟩
    cases hlayout : t.isLayout with
    | false => exact (hi.tokens.within t (by simp [hr]) hlayout).2.2.2
    | true => cases hk : t.kind <;> simp [Token.isLayout, hk, TokenKind.IsDotless] at hlayout ⊢
  · cases h
    exact ⟨trivial, hi, .refl i⟩

theorem peekSecond : Gives lines peekSecond (fun _ => True) := by
  intro i k i' hi h
  unfold Parse.peekSecond at h
  split at h <;> cases h <;> exact ⟨trivial, hi, .refl i⟩

theorem next : Gives lines next (Token.Within lines) := by
  intro i t i' hi h
  unfold Parse.next at h
  split at h
  · next u r hr =>
    cases h
    have htokens := hi.tokens
    rw [hr] at htokens
    obtain ⟨htoken, hrest⟩ := forall_mem_cons.1 htokens.within
    obtain ⟨hbefore, hordered⟩ := pairwise_cons.1 htokens.ordered
    have hmem : t ∈ i.tokens := hr ▸ mem_cons_self
    have hsubset : r ⊆ i.tokens := hr ▸ subset_cons_self t r
    cases hlayout : t.isLayout with
    | true =>
      -- layout leaves the end of the last token where it is
      exact ⟨htoken, ⟨⟨hrest, hordered⟩, hi.last, fun u hu => hi.left u (hsubset hu)⟩, hsubset,
        Nat.le_refl _⟩
    | false =>
      obtain ⟨hfirst, hlast, hstop, -⟩ := htoken hlayout
      have hleft := hi.left t hmem hlayout
      refine ⟨htoken, ⟨⟨hrest, hordered⟩, ?_, fun u hu _ => hbefore u hu⟩, hsubset, ?_⟩
      · exact hstop ▸ hlast
      · show i.last.line ≤ t.span.stop.line
        omega
  · cases h

/-- `here` is the start of a token that covers text, which is on one of the lines. -/
theorem here : Gives lines here (Pos.Within lines) := by
  intro i pos i' hi h
  unfold Parse.here at h
  split at h
  · next t r hr =>
    split_ifs at h with hlayout
    cases h
    obtain ⟨hfirst, hlast, -⟩ := hi.tokens.within t (by simp [hr]) (by simpa using hlayout)
    exact ⟨⟨hfirst, by omega⟩, hi, .refl i⟩
  · cases h

theorem span (h : start.Within lines) :
    Gives lines (spanFrom start) (fun s => s.start.Within lines) := by
  intro i s i' hi hs
  cases hs
  exact ⟨h, hi, .refl i⟩

variable {mk : Span → Node}

/-- A rule that ends with a node `mk` of the span that it has read. -/
theorem node (h : start.Within lines) (hspan : ∀ s, (mk s).HasSpan s)
    (hchildren : ∀ s, ∀ m ∈ (mk s).children, m.Within lines) :
    Gives lines (do return mk (← spanFrom start)) (Node.Within lines) :=
  (span h).bind fun s hs => .pure (Node.within_of_span (hspan s) hs (hchildren s))

theorem leaf (h : start.Within lines) (hspan : ∀ s, (mk s).HasSpan s)
    (hchildren : ∀ s, (mk s).children = []) :
    Gives lines (do return mk (← spanFrom start)) (Node.Within lines) :=
  node h hspan fun s => hchildren s ▸ forall_mem_nil _

theorem someNode (h : start.Within lines) (hspan : ∀ s, (mk s).HasSpan s)
    (hchildren : ∀ s, ∀ m ∈ (mk s).children, m.Within lines) :
    Gives lines (do return Option.some (mk (← spanFrom start)))
      (fun o => ∀ n ∈ o, Node.Within lines n) := by
  refine (span h).bind fun s hs => .pure ?_
  rintro _ ⟨⟩
  exact Node.within_of_span (hspan s) hs (hchildren s)

theorem isOp : Gives lines (isOp text) (fun _ => True) := by
  refine peek.bind fun kind _ => ?_
  split <;> exact .pure trivial

theorem isKeyword : Gives lines (isKeyword word) (fun _ => True) := by
  refine peek.bind fun kind _ => ?_
  split <;> exact .pure trivial

theorem tryOp : Gives lines (tryOp text) (fun _ => True) :=
  .branch isOp (next.bind fun _ _ => .pure trivial) (.pure trivial)

theorem tryKeyword : Gives lines (tryKeyword word) (fun _ => True) :=
  .branch isKeyword (next.bind fun _ _ => .pure trivial) (.pure trivial)

theorem op : Gives lines (op text) (fun _ => True) := .branch tryOp .failure (.pure trivial)

theorem keyword : Gives lines (keyword word) (fun _ => True) :=
  .branch tryKeyword .failure (.pure trivial)

theorem name : Gives lines name (fun id => '.' ∉ id.toList) := by
  refine peek.bind fun kind hkind => ?_
  split
  · exact next.bind fun _ _ => .pure hkind
  · exact .failure

theorem softKeyword : Gives lines (softKeyword word) (fun _ => True) := by
  refine peek.bind fun kind _ => ?_
  split
  · exact .ite (next.bind fun _ _ => .pure trivial) .failure
  · exact .failure

theorem layout {test : TokenKind → Bool} : Gives lines (layout test) (fun _ => True) :=
  .bind next fun _ _ => .ite .failure (.pure trivial)

/-! ## Lists -/

theorem commaRest (h : Gives lines item Q) :
    Gives lines (commaRest item) (fun r => ∀ a ∈ r.1, Q a) := by
  refine bind (many (Q := Q) ?_) fun rest hrest => tryOp.bind fun _ _ => .pure hrest
  refine .branch isOp ?_ .none
  exact attempt (op.bind fun _ _ => h)

theorem commaRest_bind {q : List α × Bool → Parse β} (h : Gives lines item Q)
    (hq : ∀ rest comma, (∀ a ∈ rest, Q a) → Gives lines (q (rest, comma)) R) :
    Gives lines (Parse.commaRest item >>= q) R :=
  h.commaRest.bind fun r hr => hq r.1 r.2 hr

theorem separated (h : Gives lines item Q) :
    Gives lines (separated item) (fun l => ∀ a ∈ l, Q a) := by
  refine h.bind fun first hfirst => .commaRest_bind h fun rest _ hrest => .ite .failure ?_
  exact .pure (forall_mem_cons.2 ⟨hfirst, hrest⟩)

theorem commaList (h : Gives lines item Q) :
    Gives lines (commaList item) (fun l => ∀ a ∈ l, Q a) := by
  refine h.bind fun first hfirst => .commaRest_bind h fun rest _ hrest => .pure ?_
  exact forall_mem_cons.2 ⟨hfirst, hrest⟩

theorem tupleOf {item : Parse Node} (h : GivesNode lines item) {isTuple : Bool} :
    GivesNode lines (tupleOf item isTuple) := by
  refine here.bind fun start hstart => h.bind fun first hfirst => ?_
  refine .commaRest_bind h fun rest _ hrest => .ite ?_ (.pure hfirst)
  exact .node hstart (fun _ => rfl) fun _ => forall_mem_cons.2 ⟨hfirst, hrest⟩

end Gives

/-! ## Inputs with a condition -/

/-- As `Gives`, for inputs that satisfy `I`. -/
def GivesIf {α : Type} (lines : Nat) (I : Input → Prop) (p : Parse α) (Q : α → Prop) : Prop :=
  ∀ ⦃i a i'⦄, I i → i.Within lines → p i = some (a, i') → Q a ∧ i'.Within lines ∧ i.Leaves i'

/-- `I` stays true when tokens are taken. -/
def Stable (I : Input → Prop) : Prop := ∀ ⦃i j : Input⦄, i.Leaves j → I i → I j

/-- No token that is left in `i` and covers text starts before `line`. -/
def From (line : Nat) (i : Input) : Prop :=
  ∀ t ∈ i.tokens, t.isLayout = false → line ≤ t.span.start.line

/-- The last token that covers text does not end before `line`. -/
def After (line : Nat) (i : Input) : Prop := line ≤ i.last.line

theorem stable_from (line : Nat) : Stable (From line) :=
  fun _ _ h hi t ht => hi t (h.tokens ht)

theorem stable_after (line : Nat) : Stable (After line) :=
  fun _ _ h hi => Nat.le_trans hi h.last

/-- `keyword` takes a token that covers text. -/
theorem exists_of_keyword {word : String} {i j : Input} (h : keyword word i = some ((), j)) :
    ∃ t ∈ i.tokens, t.isLayout = false ∧ j.last = t.span.stop := by
  obtain ⟨tokens, count, last⟩ := i
  cases tokens with
  | nil => cases h
  | cons t r =>
    obtain ⟨kind, span⟩ := t
    cases kind with
    | keyword w =>
      refine ⟨_, mem_cons_self, rfl, ?_⟩
      simp only [keyword, tryKeyword, isKeyword, peek, bind, StateT.bind, Option.bind] at h
      cases hw : w == word with
      | false =>
        rw [hw] at h
        cases h
      | true =>
        rw [hw] at h
        cases h
        rfl
    | _ => cases h

namespace GivesIf

variable {α β : Type} {line : Nat} {I : Input → Prop} {p : Parse α} {f : α → Parse β}
  {P Q : α → Prop} {R : β → Prop}

theorem of_gives (h : Gives lines p Q) : GivesIf lines I p Q := fun _ _ _ _ hi => h hi

theorem bind (hI : Stable I) (hp : Gives lines p P) (hf : ∀ a, P a → GivesIf lines I (f a) R) :
    GivesIf lines I (p >>= f) R := by
  intro i b i' hcond hi h
  obtain ⟨⟨a, j⟩, ha, hb⟩ := Option.bind_eq_some_iff.1 h
  obtain ⟨hPa, hj, hleaves⟩ := hp hi ha
  obtain ⟨hRb, hi', hleaves'⟩ := hf a hPa (hI hleaves hcond) hj hb
  exact ⟨hRb, hi', hleaves.trans hleaves'⟩

theorem ite {c : Prop} [Decidable c] {q : Parse α} (hp : GivesIf lines I p Q)
    (hq : GivesIf lines I q Q) : GivesIf lines I (if c then p else q) Q := by
  split
  · exact hp
  · exact hq

/-- What is left starts with the token whose start `here` gives. -/
theorem here_bind {f : Pos → Parse β}
    (hf : ∀ start, start.Within lines → GivesIf lines (From start.line) (f start) R) :
    Gives lines (here >>= f) R := by
  intro i b i' hi h
  obtain ⟨⟨start, j⟩, hstart, hb⟩ := Option.bind_eq_some_iff.1 h
  obtain ⟨hwithin, hj, -⟩ := Gives.here hi hstart
  unfold here at hstart
  split at hstart
  · next t r hr =>
    split_ifs at hstart with hcovers
    cases hstart
    refine hf _ hwithin (fun u hu hlayout => ?_) hj hb
    rw [hr] at hu
    rcases mem_cons.1 hu with rfl | hu
    · exact Nat.le_refl _
    · have hordered := hi.tokens.ordered
      rw [hr] at hordered
      have hbefore := (pairwise_cons.1 hordered).1 u hu
      have ht := hi.tokens.within t (hr ▸ mem_cons_self) (by simpa using hcovers)
      have hle : t.span.stop.line ≤ u.span.start.line := hbefore
      omega
  · cases hstart

/-- `keyword` takes a token that covers text, so what follows it comes after the line of its start.
-/
theorem keyword_bind {word : String} {f : Unit → Parse β}
    (hf : GivesIf lines (After line) (f ()) R) :
    GivesIf lines (From line) (keyword word >>= f) R := by
  intro i b i' hfrom hi h
  obtain ⟨⟨u, j⟩, hkeyword, hb⟩ := Option.bind_eq_some_iff.1 h
  obtain ⟨-, hj, hleaves⟩ := Gives.keyword hi hkeyword
  have hafter : After line j := by
    obtain ⟨t, ht, hcovers, hlast⟩ := exists_of_keyword hkeyword
    have hline := hfrom t ht hcovers
    have hstop := (hi.tokens.within t ht hcovers).2.2.1
    show line ≤ j.last.line
    rw [hlast]
    omega
  obtain ⟨hRb, hi', hleaves'⟩ := hf hafter hj hb
  exact ⟨hRb, hi', hleaves.trans hleaves'⟩

/-- A rule that ends with a definition of a function. -/
theorem function {start : Pos} {mk : Span → Node} (h : start.Within lines)
    (hspan : ∀ s, (mk s).span? = some s) (hname : ∀ s, '.' ∉ (mk s).functionName.toList)
    (hchildren : ∀ s, ∀ m ∈ (mk s).children, m.Within lines) :
    GivesIf lines (After start.line) (do return mk (← spanFrom start)) (Node.Within lines) := by
  intro i n i' hafter hi hn
  cases hn
  refine ⟨.mk (fun s hs => ?_) (fun _ s hs => ?_) (hchildren _), hi, .refl i⟩
  all_goals
    rw [hspan] at hs
    cases hs
  · exact h
  · exact ⟨⟨hafter, hi.last⟩, hname _⟩

end GivesIf
end Parse
end SmellLint.Syntax
