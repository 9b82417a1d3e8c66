import SmellLint.Syntax.Grammar.Basic
import SmellLint.Syntax.Template

/-!
# Expressions

The rules for expressions, from atoms up to lists of starred expressions.  A node starts at the
first token of its rule, so an operation whose left operand is in parentheses starts at the
parenthesis, while the operand itself does not include it.
-/

namespace SmellLint.Syntax.Rule

open Parse

/-! ## Strings -/

def fieldExpression (g : Grammar) (line : Nat) (expr : List Char) : Option Node := do
  let tokens ← expressionTokens? line expr
  let (n, _) ← g.starExpressions (Input.ofTokens tokens)
  return n

/-- A part of a format string after its fields have been read. -/
abbrev StringPart := List Char ⊕ Node

/-- Merges neighbouring texts of `parts` and drops empty ones. -/
def joinParts (span : Span) (parts : List StringPart) : List Node :=
  let close (chars : List Char) : List Node :=
    if chars.isEmpty then [] else [.constant span (.str (String.ofList chars))]
  let (chars, nodes) := parts.foldr
    (fun part (chars, nodes) =>
      match part with
      | .inl c => (c ++ chars, nodes)
      | .inr n => ([], n :: (close chars ++ nodes)))
    (([] : List Char), ([] : List Node))
  close chars ++ nodes

/-- The parts of a format string; `span` is the span of the whole literal, `line` the line of the
token. -/
def stringParts (g : Grammar) (span : Span) (line : Nat) (isRaw : Bool) (level : Nat)
    (pieces : List Piece) : Option (List StringPart) :=
  match level with
  | 0 => none
  | level + 1 =>
    (pieces.mapM (m := Option) fun
      | .text chars => do return [Sum.inl (← Escape.text? isRaw chars)]
      | .field expr lines shown conversion format => do
        let value ← fieldExpression g (line + lines) expr
        let spec ← match format with
          | none => pure none
          | some pieces => do
            let parts ← stringParts g span line isRaw level pieces
            pure (some (Node.joinedStr span (joinParts span parts)))
        let field := Sum.inr (Node.formatted span value conversion spec)
        return match shown with
          | none => [field]
          | some chars => [Sum.inl chars, field]).map List.flatten

def stringTokens : Parse (List (RawString × Nat)) :=
  many do
    match ← peek with
    | .string s =>
      let t ← next
      return some (s, t.span.start.line)
    | _ => return none

/-- Strings that follow each other, as one literal. -/
def strings (g : Grammar) : Parse Node := do
  let start ← here
  let parts ← stringTokens
  let span ← spanFrom start
  if parts.isEmpty then failure
  else if parts.all (·.1.isBytes) then
    match parts.mapM (m := Option) fun (s, _) => Escape.bytes? s.isRaw s.body with
    | some bytes => return .constant span (.bytes bytes.flatten)
    | none => failure
  else if parts.any (·.1.isBytes) then failure
  else
    let read (part : RawString × Nat) : Option (List StringPart) :=
      let (s, line) := part
      if s.isFormat then do stringParts g span line s.isRaw 3 (← Piece.ofBody? s.isRaw s.body)
      else do return [Sum.inl (← Escape.text? s.isRaw s.body)]
    match parts.mapM (m := Option) read with
    | none => failure
    | some pieces =>
      if parts.any (·.1.isFormat) then
        return .joinedStr span (joinParts span pieces.flatten)
      else
        let chars := pieces.flatten.flatMap fun
          | .inl c => c
          | .inr _ => []
        return .constant span (.str (String.ofList chars))

/-! ## Targets -/

def isSingleTarget : Node → Bool
  | .name .. | .attribute .. | .subscript .. => true
  | _ => false

mutual

def isTarget : Node → Bool
  | .name .. | .attribute .. | .subscript .. => true
  | .tuple _ items | .list _ items => areTargets items
  | .starred _ value => isTarget value
  | _ => false

def areTargets : List Node → Bool
  | [] => true
  | n :: ns => isTarget n && areTargets ns

end

mutual

def isDeletable : Node → Bool
  | .name .. | .attribute .. | .subscript .. => true
  | .tuple _ items | .list _ items => areDeletable items
  | _ => false

def areDeletable : List Node → Bool
  | [] => true
  | n :: ns => isDeletable n && areDeletable ns

end

/-! ## Small rules -/

/-- Whether the next tokens give a name a value inside an expression. -/
def assignsName : Parse Bool := do
  match ← peek, ← peekSecond with
  | .name .., .op ":=" => return true
  | _, _ => return false

def namedExpression (g : Grammar) : Parse Node := do
  if ← assignsName then
    let start ← here
    let id ← name
    let target := Node.name (← spanFrom start) id
    op ":="
    let value ← g.expression
    return .namedExpr (← spanFrom start) target value
  else g.expression

def starredItem (operand : Parse Node) : Parse Node := do
  let start ← here
  op "*"
  let value ← operand
  return .starred (← spanFrom start) value

def starNamedExpression (g : Grammar) : Parse Node := do
  if ← isOp "*" then starredItem g.bitwiseOr else namedExpression g

def yieldExpression (g : Grammar) : Parse Node := do
  let start ← here
  keyword "yield"
  if ← tryKeyword "from" then
    let value ← g.expression
    return .yieldFrom (← spanFrom start) value
  else
    let value ← attempt g.starExpressions
    return .yield (← spanFrom start) value

/-! ## Atoms and what follows them -/

def sliceRest (g : Grammar) (start : Pos) (lower : Option Node) : Parse Node := do
  op ":"
  let upper ← attempt g.expression
  let step ← if ← tryOp ":" then attempt g.expression else pure none
  return .slice (← spanFrom start) lower upper step

/-- An index: a slice or an `expression`. -/
def sliceItem (g : Grammar) : Parse Node := do
  let start ← here
  if ← isOp ":" then sliceRest g start none
  else if ← assignsName then namedExpression g
  else
    let e ← g.expression
    if ← isOp ":" then sliceRest g start (some e) else return e

/-- What stands between the brackets of an index: `sliceItem`s, as a tuple if there is a comma. -/
def slices (g : Grammar) : Parse Node := do
  let isStarred ← isOp "*"
  tupleOf (do if ← isOp "*" then starredItem g.expression else sliceItem g) isStarred

/-- An argument of a call. -/
inductive Argument where
  | positional (value : Node)
  | starred (value : Node)
  | keyword (value : Node)
  | unpacked (value : Node)

namespace Argument

/-- Whether arguments come in an order that is allowed: after a keyword (`keywordSeen`) only
keywords and starred arguments, after an unpacked mapping (`unpackedSeen`) only keywords and
unpacked mappings. -/
def inOrder (keywordSeen unpackedSeen : Bool) : List Argument → Bool
  | [] => true
  | .positional _ :: r => !keywordSeen && !unpackedSeen && inOrder keywordSeen unpackedSeen r
  | .starred _ :: r => !unpackedSeen && inOrder keywordSeen unpackedSeen r
  | .keyword _ :: r => inOrder true unpackedSeen r
  | .unpacked _ :: r => inOrder keywordSeen true r

def values (args : List Argument) : List Node :=
  args.filterMap fun
    | .positional v | .starred v => some v
    | _ => none

def keywords (args : List Argument) : List Node :=
  args.filterMap fun
    | .keyword v | .unpacked v => some v
    | _ => none

end Argument

def argument (g : Grammar) : Parse Argument := do
  let start ← here
  if ← isOp "*" then return .starred (← starredItem g.expression)
  else if ← tryOp "**" then
    let value ← g.expression
    return .unpacked (.keyword (← spanFrom start) none value)
  else
    match ← peek, ← peekSecond with
    | .name id _, .op "=" =>
      let _ ← next
      let _ ← next
      let value ← g.expression
      return .keyword (.keyword (← spanFrom start) (some id) value)
    | _, _ => return .positional (← namedExpression g)

/-- The arguments of a call or a class up to the closing parenthesis. -/
def arguments (g : Grammar) : Parse (List Argument) := do
  if ← isOp ")" then return []
  let args ← commaList (argument g)
  if Argument.inOrder false false args then return args else failure

/-- A target, starred or not.  What is no target is refused after it has been read. -/
def starTarget (g : Grammar) : Parse Node := do
  let start ← here
  let isStarred ← tryOp "*"
  let value ← g.factor
  if !isTarget value then failure
  else if isStarred then return .starred (← spanFrom start) value
  else return value

/-- Targets of a loop (`starTarget`), as a tuple if there is a comma. -/
def starTargets (g : Grammar) : Parse Node := tupleOf (starTarget g)

/-- Whether a clause of a comprehension comes next. -/
def startsClause : Parse Bool := do
  return (← isKeyword "for") || (← isKeyword "async")

def clauses (g : Grammar) : Parse (List Node) :=
  many do
    if ← startsClause then
      let isAsync ← tryKeyword "async"
      keyword "for"
      let target ← starTargets g
      keyword "in"
      let iter ← g.disjunction
      let conditions ← many (ifNext (tryKeyword "if") g.disjunction)
      return some (.comprehension target iter conditions isAsync)
    else return none

/-- What a pair of parentheses holds: nothing, one expression, several, or a generator. -/
def parenthesized (g : Grammar) : Parse Node := do
  let start ← here
  op "("
  if ← tryOp ")" then return .tuple (← spanFrom start) []
  else if ← isKeyword "yield" then
    let value ← yieldExpression g
    op ")"
    return value
  else
    let isStarred ← isOp "*"
    let first ← starNamedExpression g
    if (← startsClause) && !isStarred then
      let generators ← clauses g
      op ")"
      return .comp (← spanFrom start) .generator first generators
    else if ← isOp "," then
      let (rest, _) ← commaRest (starNamedExpression g)
      op ")"
      return .tuple (← spanFrom start) (first :: rest)
    else if isStarred then failure
    else
      op ")"
      return first

def bracketed (g : Grammar) : Parse Node := do
  let start ← here
  op "["
  if ← tryOp "]" then return .list (← spanFrom start) []
  else
    let isStarred ← isOp "*"
    let first ← starNamedExpression g
    if (← startsClause) && !isStarred then
      let generators ← clauses g
      op "]"
      return .comp (← spanFrom start) .list first generators
    else
      let (rest, _) ← commaRest (starNamedExpression g)
      op "]"
      return .list (← spanFrom start) (first :: rest)

/-- A key and its value, or an unpacked mapping. -/
def pair (g : Grammar) : Parse (Option Node × Node) := do
  if ← tryOp "**" then return (none, ← g.bitwiseOr)
  else
    let key ← g.expression
    op ":"
    let value ← g.expression
    return (some key, value)

def dictRest (g : Grammar) (start : Pos) (first : Option Node × Node) : Parse Node := do
  let (rest, _) ← commaRest (pair g)
  op "\x7d"
  let pairs := first :: rest
  return .dict (← spanFrom start) (pairs.map Prod.fst) (pairs.map Prod.snd)

/-- A dictionary, a set, or a comprehension of one of them. -/
def braced (g : Grammar) : Parse Node := do
  let start ← here
  op "\x7b"
  if ← tryOp "\x7d" then return .dict (← spanFrom start) [] []
  else if ← isOp "**" then dictRest g start (← pair g)
  else
    let isStarred ← isOp "*"
    let isNamed ← assignsName
    let first ← starNamedExpression g
    if !isStarred && !isNamed && (← isOp ":") then
      op ":"
      let value ← g.expression
      if ← startsClause then
        let generators ← clauses g
        op "\x7d"
        return .dictComp (← spanFrom start) first value generators
      else dictRest g start (some first, value)
    else if (← startsClause) && !isStarred then
      let generators ← clauses g
      op "\x7d"
      return .comp (← spanFrom start) .set first generators
    else
      let (rest, _) ← commaRest (starNamedExpression g)
      op "\x7d"
      return .set (← spanFrom start) (first :: rest)

def atom (g : Grammar) : Parse Node := do
  let start ← here
  let constant (value : Literal) : Parse Node := do
    let _ ← next
    return .constant (← spanFrom start) value
  match ← peek with
  | .name id _ =>
    let _ ← next
    return .name (← spanFrom start) id
  | .number value => constant value
  | .string _ => strings g
  | .keyword "True" => constant (.bool true)
  | .keyword "False" => constant (.bool false)
  | .keyword "None" => constant .none
  | .op "..." => constant .ellipsis
  | .op "(" => parenthesized g
  | .op "[" => bracketed g
  | .op "\x7b" => braced g
  | _ => failure

def callRest (n : Node) (start : Pos) (args : List Argument) : Parse (Option Node) := do
  if !Argument.inOrder false false args then failure
  op ")"
  return some (.call (← spanFrom start) n (Argument.values args) (Argument.keywords args))

/-- An attribute, a call or an index after the operand `n`. -/
def trailer (g : Grammar) (n : Node) (start : Pos) : Parse (Option Node) := do
  if ← tryOp "." then
    let attr ← name
    return some (.attribute (← spanFrom start) n attr)
  else if ← isOp "(" then
    let opening ← here
    op "("
    let args ← if ← isOp ")" then pure [] else do
      let first ← argument g
      match first with
      | .positional value =>
        if ← startsClause then
          let generators ← clauses g
          -- a generator as the only argument takes the parentheses of the call
          if !(← isOp ")") then failure
          op ")"
          let span ← spanFrom opening
          return some (.call (← spanFrom start) n [.comp span .generator value generators] [])
        else pure ()
      | _ => pure ()
      let (rest, _) ← commaRest (argument g)
      pure (first :: rest)
    callRest n start args
  else if ← tryOp "[" then
    let index ← slices g
    op "]"
    return some (.subscript (← spanFrom start) n index)
  else return none

/-- An operand with its `trailer`s. -/
def primary (g : Grammar) : Parse Node := do
  let start ← here
  let first ← atom g
  fold (fun n => trailer g n start) first

/-! ## Operators -/

/-- An operand, or the value that is awaited. -/
def awaited (g : Grammar) : Parse Node := do
  let start ← here
  if ← tryKeyword "await" then
    let value ← primary g
    return .await (← spanFrom start) value
  else primary g

def power (g : Grammar) : Parse Node := do
  let start ← here
  let base ← awaited g
  if ← tryOp "**" then
    let exponent ← g.factor
    return .binOp (← spanFrom start) base .pow exponent
  else return base

def factor (g : Grammar) : Parse Node := do
  let start ← here
  let signed (sign : UnaryOp) : Parse Node := do
    let _ ← next
    let operand ← g.factor
    return .unaryOp (← spanFrom start) sign operand
  match ← peek with
  | .op "+" => signed .plus
  | .op "-" => signed .minus
  | .op "~" => signed .invert
  | _ => power g

/-- Each `operand` of one rank of operators `ops`, combined from the left. -/
def leftAssociative (ops : List (String × BinaryOp)) (operand : Parse Node) : Parse Node := do
  let start ← here
  let first ← operand
  fold (fun left => do
    match ← peek with
    | .op text =>
      match ops.lookup text with
      | some kind =>
        let _ ← next
        let right ← operand
        return some (.binOp (← spanFrom start) left kind right)
      | none => return none
    | _ => return none) first

def bitwiseOr (g : Grammar) : Parse Node :=
  let term := leftAssociative
    [("*", .mult), ("/", .div), ("//", .floorDiv), ("%", .mod), ("@", .matMult)] (factor g)
  let sum := leftAssociative [("+", .add), ("-", .sub)] term
  let shift := leftAssociative [("<<", .lShift), (">>", .rShift)] sum
  let conj := leftAssociative [("&", .bitAnd)] shift
  let xor := leftAssociative [("^", .bitXor)] conj
  leftAssociative [("|", .bitOr)] xor

/-- A comparison operator, if one comes next. -/
def comparisonOp : Parse (Option Comparison) := do
  match ← peek with
  | .op text =>
    match [("==", Comparison.eq), ("!=", .notEq), ("<=", .ltE), ("<", .lt), (">=", .gtE),
        (">", .gt)].lookup text with
    | some kind =>
      let _ ← next
      return some kind
    | none => return none
  | .keyword "in" =>
    let _ ← next
    return some .isIn
  | .keyword "not" =>
    match ← peekSecond with
    | .keyword "in" =>
      let _ ← next
      let _ ← next
      return some .notIn
    | _ => return none
  | .keyword "is" =>
    let _ ← next
    if ← tryKeyword "not" then return some .isNot else return some .is
  | _ => return none

/-- Operands with a `comparisonOp` between them. -/
def comparison (g : Grammar) : Parse Node := do
  let start ← here
  let left ← bitwiseOr g
  let rest ← many do
    match ← comparisonOp with
    | none => return none
    | some kind => return some (kind, ← bitwiseOr g)
  if rest.isEmpty then return left
  else return .compare (← spanFrom start) left (rest.map Prod.fst) (rest.map Prod.snd)

def inversion (g : Grammar) : Parse Node := do
  let start ← here
  if ← tryKeyword "not" then
    let operand ← g.inversion
    return .unaryOp (← spanFrom start) .not operand
  else comparison g

/-- Each `operand` joined by `word`, which is `and` or `or`. -/
def joined (word : String) (isAnd : Bool) (operand : Parse Node) : Parse Node := do
  let start ← here
  let first ← operand
  let rest ← many (ifNext (tryKeyword word) operand)
  if rest.isEmpty then return first
  else return .boolOp (← spanFrom start) isAnd (first :: rest)

/-- An expression without a condition around it. -/
def disjunction (g : Grammar) : Parse Node := joined "or" false (joined "and" true (inversion g))

/-! ## Parameters -/

/-- The parameters of a function or a lambda as they are collected. -/
structure ParamList where
  positionalOnly : List Node := []
  args : List Node := []
  defaults : List Node := []
  varArg : Option Node := none
  keywordOnly : List Node := []
  keywordDefaults : List (Option Node) := []
  kwArg : Option Node := none
  hasSlash : Bool := false
  hasStar : Bool := false
  /-- A bare star waits for the parameter that has to follow it. -/
  awaitsKeyword : Bool := false

def ParamList.toNode (l : ParamList) : Node :=
  .params l.positionalOnly l.args l.varArg l.keywordOnly l.keywordDefaults l.kwArg l.defaults

/-- A parameter name with its annotation, if it may be `annotated`; `afterStar` the annotation may
be starred. -/
def param (g : Grammar) (annotated afterStar : Bool) : Parse Node := do
  let start ← here
  let id ← name
  if annotated && (← isOp ":") then
    op ":"
    let typeNote ← if afterStar && (← isOp "*") then starredItem g.bitwiseOr
      else g.expression
    return .param (← spanFrom start) id (some typeNote)
  else return .param (← spanFrom start) id none

def paramItem (g : Grammar) (annotated : Bool) (l : ParamList) : Parse ParamList := do
  if l.kwArg.isSome then failure
  else if ← tryOp "/" then
    if l.hasSlash || l.hasStar || l.args.isEmpty then failure
    else return { l with positionalOnly := l.args, args := [], hasSlash := true }
  else if ← tryOp "**" then
    if l.awaitsKeyword then failure
    else return { l with kwArg := some (← param g annotated false) }
  else if ← tryOp "*" then
    if l.hasStar then failure
    else if ← isOp "," then return { l with hasStar := true, awaitsKeyword := true }
    else return { l with hasStar := true, varArg := some (← param g annotated true) }
  else
    let p ← param g annotated false
    let default ← ifNext (tryOp "=") g.expression
    if l.hasStar then
      return { l with
        keywordOnly := l.keywordOnly ++ [p]
        keywordDefaults := l.keywordDefaults ++ [default]
        awaitsKeyword := false }
    else
      match default with
      | some d => return { l with args := l.args ++ [p], defaults := l.defaults ++ [d] }
      | none =>
        if l.defaults.isEmpty then return { l with args := l.args ++ [p] } else failure

def paramList (g : Grammar) (annotated : Bool) (closing : String) : Parse Node := do
  if ← isOp closing then return ParamList.toNode {}
  let first ← paramItem g annotated {}
  let all ← fold (fun l => do
    if ← tryOp "," then
      if ← isOp closing then return none
      else return some (← paramItem g annotated l)
    else return none) first
  if all.awaitsKeyword then failure
  if !(← isOp closing) then failure
  return all.toNode

/-! ## Expressions and lists of them -/

def lambda (g : Grammar) : Parse Node := do
  let start ← here
  keyword "lambda"
  let params ← paramList g false ":"
  op ":"
  let body ← g.expression
  return .lambda (← spanFrom start) params body

/-- What follows the body of a condition: the test and the other value. -/
def conditionRest (g : Grammar) : Parse (Node × Node) := do
  keyword "if"
  let test ← g.disjunction
  keyword "else"
  let orElse ← g.expression
  return (test, orElse)

/-- An expression that is neither starred nor an unparenthesised list. -/
def expression (g : Grammar) : Parse Node := do
  if ← isKeyword "lambda" then lambda g
  else
    let start ← here
    let body ← disjunction g
    if ← isKeyword "if" then
      match ← attempt (conditionRest g) with
      | some (test, orElse) => return .ifExp (← spanFrom start) test body orElse
      | none => return body
    else return body

def starExpression (g : Grammar) : Parse Node := do
  if ← isOp "*" then starredItem g.bitwiseOr else expression g

/-- One or more expressions, starred ones among them, as a tuple if there is a comma. -/
def starExpressions (g : Grammar) : Parse Node := tupleOf (starExpression g)

end SmellLint.Syntax.Rule
