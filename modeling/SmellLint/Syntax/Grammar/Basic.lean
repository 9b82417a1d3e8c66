import SmellLint.Syntax.Lexer

/-!
# Reading tokens

A `Parse` takes tokens from the front of the input, and fails or gives a result and the input that
is left.  The input knows how many tokens it holds, which bounds every repetition, and where the
last token that covers text ended, which is where a node that is complete at this point ends.

Rules that refer to each other go through a `Grammar`: a rule of one level uses the rules of the
level below wherever the text nests.
-/

namespace SmellLint.Syntax

/-- The tokens that are left. -/
structure Input where
  tokens : List Token
  /-- The number of tokens that are left. -/
  count : Nat
  /-- Where the last token that covers text ended. -/
  last : Pos
deriving Inhabited

def Input.ofTokens (tokens : List Token) : Input := ⟨tokens, tokens.length, ⟨1, 0⟩⟩

/-- A rule for the front of the input. -/
abbrev Parse (α : Type) := StateT Input Option α

namespace Parse

def peek : Parse TokenKind := fun i =>
  match i.tokens with
  | t :: _ => some (t.kind, i)
  | [] => some (.finish, i)

def peekSecond : Parse TokenKind := fun i =>
  match i.tokens with
  | _ :: t :: _ => some (t.kind, i)
  | _ => some (.finish, i)

/-- Where the next token starts.  No node starts at layout. -/
def here : Parse Pos := fun i =>
  match i.tokens with
  | t :: _ => if t.isLayout then none else some (t.span.start, i)
  | [] => none

def next : Parse Token := fun i =>
  match i.tokens with
  | t :: r => some (t, ⟨r, i.count - 1, if t.isLayout then i.last else t.span.stop⟩)
  | [] => none

/-- The part of the text from `start` to the end of the last token. -/
def spanFrom (start : Pos) : Parse Span := fun i => some (⟨start, i.last⟩, i)

/-- Whether the next token is the operator `text`. -/
def isOp (text : String) : Parse Bool := do
  match ← peek with
  | .op t => return t == text
  | _ => return false

/-- Whether the next token is the keyword `word`. -/
def isKeyword (word : String) : Parse Bool := do
  match ← peek with
  | .keyword w => return w == word
  | _ => return false

/-- Takes the operator `text`, if it comes next. -/
def tryOp (text : String) : Parse Bool := do
  if ← isOp text then
    let _ ← next
    return true
  else return false

/-- Takes the keyword `word`, if it comes next. -/
def tryKeyword (word : String) : Parse Bool := do
  if ← isKeyword word then
    let _ ← next
    return true
  else return false

def op (text : String) : Parse Unit := do
  if !(← tryOp text) then failure

def keyword (word : String) : Parse Unit := do
  if !(← tryKeyword word) then failure

def name : Parse String := do
  match ← peek with
  | .name id _ =>
    let _ ← next
    return id
  | _ => failure

/-- Takes `word`, which is a keyword only in its place.  It counts only as it is written. -/
def softKeyword (word : String) : Parse Unit := do
  match ← peek with
  | .name id true => if id == word then let _ ← next else failure
  | _ => failure

/-- Takes a token of layout, whose kind `test` knows. -/
def layout (test : TokenKind → Bool) : Parse Unit := do
  if !test (← next).kind then failure

def newline : Parse Unit := layout (· matches .newline)

/-- Takes the start of an indented block. -/
def indent : Parse Unit := layout (· matches .indent)

/-- Takes the end of an indented block. -/
def dedent : Parse Unit := layout (· matches .dedent)

def finish : Parse Unit := layout (· matches .finish)

/-- Applies `p`, or takes nothing if it fails. -/
def attempt {α : Type} (p : Parse α) : Parse (Option α) := fun i =>
  match p i with
  | some (a, i') => some (some a, i')
  | none => some (none, i)

/-- Applies `p` if `test`, which may take a token, says so. -/
def ifNext {α : Type} (test : Parse Bool) (p : Parse α) : Parse (Option α) := do
  if ← test then return some (← p) else return none

/-- Repeats `p`, which says when to stop, at most as often as the bound allows. -/
def repeatUpTo {α : Type} (p : Parse (Option α)) : Nat → Parse (List α)
  | 0 => failure
  | n + 1 => do
    match ← p with
    | none => return []
    | some a => return a :: (← repeatUpTo p n)

/-- Repeats `p`, which says when to stop.  Each round takes a token, so the tokens that are left
bound the number of rounds. -/
def many {α : Type} (p : Parse (Option α)) : Parse (List α) := do
  repeatUpTo p ((← get).count + 1)

/-- `fold` with a bound for the number of rounds. -/
def foldUpTo {α : Type} (p : α → Parse (Option α)) : Nat → α → Parse α
  | 0, _ => failure
  | n + 1, a => do
    match ← p a with
    | none => return a
    | some b => foldUpTo p n b

/-- Combines `a` with the results of `p`, from the left, until `p` says to stop. -/
def fold {α : Type} (p : α → Parse (Option α)) (a : α) : Parse α := do
  foldUpTo p ((← get).count + 1) a

/-- What follows the first `item` of a list separated by commas: the other items, and whether a
comma ends the list. -/
def commaRest {α : Type} (item : Parse α) : Parse (List α × Bool) := do
  let rest ← many do
    if ← isOp "," then
      attempt (do op ","; item)
    else return none
  return (rest, ← tryOp ",")

/-- One or more of `item` separated by commas, without a final comma. -/
def separated {α : Type} (item : Parse α) : Parse (List α) := do
  let first ← item
  let (rest, comma) ← commaRest item
  if comma then failure else return first :: rest

/-- One or more of `item` separated by commas, with or without a final comma. -/
def commaList {α : Type} (item : Parse α) : Parse (List α) := do
  let first ← item
  let (rest, _) ← commaRest item
  return first :: rest

/-- One or more of `item`, as a tuple if there is a comma or `isTuple` says so. -/
def tupleOf (item : Parse Node) (isTuple : Bool := false) : Parse Node := do
  let start ← here
  let first ← item
  let (rest, comma) ← commaRest item
  if isTuple || comma || !rest.isEmpty then return .tuple (← spanFrom start) (first :: rest)
  else return first

end Parse

/-- The rules through which texts nest. -/
structure Grammar where
  /-- An expression that is neither starred nor an unparenthesised list. -/
  expression : Parse Node
  namedExpression : Parse Node
  /-- One or more expressions, starred ones among them, as a tuple if there is a comma. -/
  starExpressions : Parse Node
  /-- An expression without a condition around it. -/
  disjunction : Parse Node
  /-- A comparison or its negation. -/
  inversion : Parse Node
  /-- Arithmetic without comparisons. -/
  bitwiseOr : Parse Node
  /-- A signed operand. -/
  factor : Parse Node
  pattern : Parse Node
  /-- The `elif` and `else` branches of a condition. -/
  elseBranches : Parse (List Node)
  /-- A statement; several if they share a line. -/
  statement : Parse (List Node)

instance : Inhabited Grammar :=
  ⟨⟨failure, failure, failure, failure, failure, failure, failure, failure, failure, failure⟩⟩

end SmellLint.Syntax
