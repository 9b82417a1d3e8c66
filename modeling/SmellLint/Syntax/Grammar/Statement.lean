import SmellLint.Syntax.Grammar.Pattern
import SmellLint.Fault

/-!
# Statements

The rules for statements, and `Node.ofSource?`, which reads a program text as a tree.
-/

namespace SmellLint.Syntax.Rule

open Parse

/-! ## Simple statements -/

/-- Operators that change their target. -/
def augmentedOps : List (String × BinaryOp) :=
  [("+=", .add), ("-=", .sub), ("*=", .mult), ("@=", .matMult), ("/=", .div), ("%=", .mod),
   ("&=", .bitAnd), ("|=", .bitOr), ("^=", .bitXor), ("<<=", .lShift), (">>=", .rShift),
   ("**=", .pow), ("//=", .floorDiv)]

def assignedValue (g : Grammar) : Parse Node := do
  if ← isKeyword "yield" then yieldExpression g else starExpressions g

def annotatedRest (g : Grammar) (start : Pos) (target : Node) : Parse Node := do
  op ":"
  let typeNote ← expression g
  let value ← ifNext (tryOp "=") (assignedValue g)
  return .annAssign (← spanFrom start) target typeNote value

def assignmentOrExpression (g : Grammar) : Parse Node := do
  let start ← here
  match ← peek, ← peekSecond with
  | .name id _, .op ":" =>
    let _ ← next
    annotatedRest g start (.name (← spanFrom start) id)
  | .keyword "yield", _ =>
    let value ← yieldExpression g
    return .exprStmt (← spanFrom start) value
  | _, _ =>
    let first ← starExpressions g
    match ← peek with
    | .op ":" => if isSingleTarget first then annotatedRest g start first else failure
    | .op "=" =>
      let rest ← many (ifNext (tryOp "=") (assignedValue g))
      let all := first :: rest
      if all.dropLast.all isTarget then
        match all.getLast? with
        | some value => return .assign (← spanFrom start) all.dropLast value
        | none => failure
      else failure
    | .op text =>
      match augmentedOps.lookup text with
      | some kind =>
        if isSingleTarget first then
          let _ ← next
          let value ← assignedValue g
          return .augAssign (← spanFrom start) first kind value
        else failure
      | none => return .exprStmt (← spanFrom start) first
    | _ => return .exprStmt (← spanFrom start) first

def dottedName : Parse String := do
  let first ← name
  let rest ← many (ifNext (tryOp ".") name)
  return ".".intercalate (first :: rest)

def importedName (nameRule : Parse String) : Parse Node := do
  let start ← here
  let id ← nameRule
  let asName ← ifNext (tryKeyword "as") name
  return .alias (← spanFrom start) id asName

def importNames : Parse Node := do
  let start ← here
  keyword "import"
  let names ← separated (importedName dottedName)
  return .importStmt (← spanFrom start) names

/-- What is imported from a module: all, or names in parentheses or not. -/
def importedNames : Parse (List Node) := do
  let start ← here
  if ← tryOp "*" then return [.alias (← spanFrom start) "*" none]
  else if ← tryOp "(" then
    let names ← commaList (importedName name)
    op ")"
    return names
  else separated (importedName name)

def importFrom : Parse Node := do
  let start ← here
  keyword "from"
  let dots ← many do
    if ← tryOp "." then return some 1 else if ← tryOp "..." then return some 3 else return none
  let level := dots.foldr (· + ·) 0
  let library ← if level > 0 && (← isKeyword "import") then pure none else some <$> dottedName
  keyword "import"
  let names ← importedNames
  return .importFrom (← spanFrom start) library names level

def deletedTarget (g : Grammar) : Parse Node := do
  let n ← primary g
  if isDeletable n then return n else failure

def atLineEnd : Parse Bool := return (← peek) matches .newline

def deletion (g : Grammar) : Parse Node := do
  let start ← here
  keyword "del"
  let targets ← commaList (deletedTarget g)
  if (← atLineEnd) || (← isOp ";") then return .delete (← spanFrom start) targets else failure

def simpleStatement (g : Grammar) : Parse Node := do
  let start ← here
  let jump (kind : Jump) : Parse Node := do
    let _ ← next
    return .jump (← spanFrom start) kind
  let scope (isGlobal : Bool) : Parse Node := do
    let _ ← next
    let names ← separated name
    return .scopeDecl (← spanFrom start) isGlobal names
  match ← peek with
  | .keyword "return" =>
    let _ ← next
    let value ← attempt (starExpressions g)
    return .returnStmt (← spanFrom start) value
  | .keyword "import" => importNames
  | .keyword "from" => importFrom
  | .keyword "raise" =>
    let _ ← next
    match ← attempt (expression g) with
    | none => return .raiseStmt (← spanFrom start) none none
    | some exc =>
      let cause ← ifNext (tryKeyword "from") (expression g)
      return .raiseStmt (← spanFrom start) (some exc) cause
  | .keyword "pass" => jump .pass
  | .keyword "break" => jump .break
  | .keyword "continue" => jump .continue
  | .keyword "del" => deletion g
  | .keyword "assert" =>
    let _ ← next
    let test ← expression g
    let message ← ifNext (tryOp ",") (expression g)
    return .assertStmt (← spanFrom start) test message
  | .keyword "global" => scope true
  | .keyword "nonlocal" => scope false
  | _ => assignmentOrExpression g

def simpleStatements (g : Grammar) : Parse (List Node) := do
  let first ← simpleStatement g
  let rest ← many do
    if ← tryOp ";" then
      if ← atLineEnd then return none else return some (← simpleStatement g)
    else return none
  newline
  return first :: rest

/-! ## Blocks and compound statements -/

/-- The statements up to the end of a block. -/
def statements (g : Grammar) : Parse (List Node) := do
  let groups ← many do
    match ← peek with
    | .dedent | .finish => return none
    | _ => return some (← g.statement)
  return groups.flatten

/-- What follows a colon: statements on the same line, or an indented block. -/
def block (g : Grammar) : Parse (List Node) := do
  op ":"
  if ← atLineEnd then
    newline
    indent
    let body ← statements g
    dedent
    if body.isEmpty then failure else return body
  else simpleStatements g

/-- A `block` after `word`, such as the `else` branch of a loop; nothing without the word. -/
def blockAfter (g : Grammar) (word : String) : Parse (List Node) := do
  if ← tryKeyword word then block g else return []

/-- `word`, a test, the statements under it and what stands else, from which `make` makes a node. -/
def conditional (g : Grammar) (word : String) (orElse : Parse (List Node))
    (make : Span → Node → List Node → List Node → Node) : Parse Node := do
  let start ← here
  keyword word
  let test ← namedExpression g
  let body ← block g
  let rest ← orElse
  return make (← spanFrom start) test body rest

/-- The `elif` and `else` branches of a condition. -/
def elseBranches (g : Grammar) : Parse (List Node) := do
  if ← isKeyword "elif" then return [← conditional g "elif" g.elseBranches .ifStmt]
  else blockAfter g "else"

/-- A loop over items; `async` may have been taken. -/
def forStatement (g : Grammar) (start : Pos) (isAsync : Bool) : Parse Node := do
  keyword "for"
  let target ← starTargets g
  keyword "in"
  let iter ← starExpressions g
  let body ← block g
  let orElse ← blockAfter g "else"
  return .forLoop (← spanFrom start) isAsync target iter body orElse

def withItem (g : Grammar) : Parse Node := do
  let context ← expression g
  if ← tryKeyword "as" then
    let target ← starTarget g
    if (← isOp ",") || (← isOp ")") || (← isOp ":") then return .withItem context (some target)
    else failure
  else return .withItem context none

/-- The contexts of a `with` in parentheses, which its block follows. -/
def withItemsInParens (g : Grammar) : Parse (List Node) := do
  op "("
  let items ← commaList (withItem g)
  op ")"
  if ← isOp ":" then return items else failure

/-- The contexts of a `with`, in parentheses or not. -/
def withItems (g : Grammar) : Parse (List Node) := do
  match ← attempt (withItemsInParens g) with
  | some items => return items
  | none => separated (withItem g)

/-- A block with contexts; `async` may have been taken. -/
def withStatement (g : Grammar) (start : Pos) (isAsync : Bool) : Parse Node := do
  keyword "with"
  let items ← withItems g
  let body ← block g
  return .withStmt (← spanFrom start) isAsync items body

/-- A handler of a `try`; if it `isGroup` a type has to be named. -/
def exceptHandler (g : Grammar) (isGroup : Bool) : Parse Node := do
  let start ← here
  keyword "except"
  if isGroup then op "*"
  if !isGroup && (← isOp ":") then
    let body ← block g
    return .exceptHandler (← spanFrom start) none none body
  else
    let type ← expression g
    let id ← ifNext (tryKeyword "as") name
    let body ← block g
    return .exceptHandler (← spanFrom start) (some type) id body

def tryStatement (g : Grammar) : Parse Node := do
  let start ← here
  keyword "try"
  let body ← block g
  if ← isKeyword "except" then
    let isGroup := (← peekSecond) matches .op "*"
    let handlers ← many (ifNext (isKeyword "except") (exceptHandler g isGroup))
    let orElse ← blockAfter g "else"
    let final ← blockAfter g "finally"
    return .tryStmt (← spanFrom start) isGroup body handlers orElse final
  else
    keyword "finally"
    let final ← block g
    return .tryStmt (← spanFrom start) false body [] [] final

def functionDef (g : Grammar) (start : Pos) (isAsync : Bool) (decorators : List Node) :
    Parse Node := do
  keyword "def"
  let id ← name
  op "("
  let params ← paramList g true ")"
  op ")"
  let returns ← ifNext (tryOp "->") (expression g)
  let body ← block g
  return .functionDef (← spanFrom start) isAsync id params body decorators returns

def classArguments (g : Grammar) : Parse (List Argument) := do
  if ← tryOp "(" then
    let args ← arguments g
    op ")"
    return args
  else return []

def classDef (g : Grammar) (decorators : List Node) : Parse Node := do
  let start ← here
  keyword "class"
  let id ← name
  let args ← classArguments g
  let body ← block g
  return .classDef (← spanFrom start) id (Argument.values args) (Argument.keywords args) body
    decorators

def decorators (g : Grammar) : Parse (List Node) :=
  many do
    if ← tryOp "@" then
      let n ← namedExpression g
      newline
      return some n
    else return none

/-- A definition with or without decorators. -/
def decorated (g : Grammar) : Parse Node := do
  let decos ← decorators g
  let start ← here
  if ← isKeyword "class" then classDef g decos
  else if ← tryKeyword "async" then functionDef g start true decos
  else functionDef g start false decos

def asyncStatement (g : Grammar) : Parse Node := do
  let start ← here
  keyword "async"
  match ← peek with
  | .keyword "def" => functionDef g start true []
  | .keyword "for" => forStatement g start true
  | .keyword "with" => withStatement g start true
  | _ => failure

def caseBlock (g : Grammar) : Parse Node := do
  softKeyword "case"
  let shape ← casePatterns g
  let guard ← ifNext (tryKeyword "if") (namedExpression g)
  let body ← block g
  return .matchCase shape guard body

def matchSubject (g : Grammar) : Parse Node := do
  let start ← here
  let isStarred ← isOp "*"
  let first ← starNamedExpression g
  if ← isOp "," then
    let (rest, _) ← commaRest (starNamedExpression g)
    return .tuple (← spanFrom start) (first :: rest)
  else if isStarred then failure
  else return first

def matchStatement (g : Grammar) : Parse Node := do
  let start ← here
  softKeyword "match"
  let subject ← matchSubject g
  op ":"
  newline
  indent
  let cases ← many do
    match ← peek with
    | .dedent => return none
    | _ => return some (← caseBlock g)
  dedent
  if cases.isEmpty then failure
  return .matchStmt (← spanFrom start) subject cases

/-- A statement; several if they share a line. -/
def statement (g : Grammar) : Parse (List Node) := do
  let one (p : Parse Node) : Parse (List Node) := do return [← p]
  match ← peek with
  | .keyword "if" => one (conditional g "if" (elseBranches g) .ifStmt)
  | .keyword "while" => one (conditional g "while" (blockAfter g "else") .whileLoop)
  | .keyword "for" => one (forStatement g (← here) false)
  | .keyword "try" => one (tryStatement g)
  | .keyword "with" => one (withStatement g (← here) false)
  | .keyword "def" | .keyword "class" | .op "@" => one (decorated g)
  | .keyword "async" => one (asyncStatement g)
  | .name "match" true =>
    match ← attempt (matchStatement g) with
    | some n => return [n]
    | none => simpleStatements g
  | _ => simpleStatements g

/-! ## Programs -/

def level (g : Grammar) : Grammar where
  expression := expression g
  namedExpression := namedExpression g
  starExpressions := starExpressions g
  disjunction := disjunction g
  inversion := inversion g
  bitwiseOr := bitwiseOr g
  factor := factor g
  pattern := pattern g
  elseBranches := elseBranches g
  statement := statement g

/-- The rules for texts that nest at most as deep as the number says. -/
def grammar : Nat → Grammar
  | 0 => default
  | n + 1 => level (grammar n)

def program (g : Grammar) : Parse Node := do
  let body ← statements g
  finish
  return .file body

end SmellLint.Syntax.Rule

namespace SmellLint.Syntax

/-- Reads a program text as a tree; `none` if it is no program.  No program holds half of a pair. -/
def Node.ofChars? (cs : List Char) : Option Node := do
  if cs.any Text.isHalf then none
  let tokens ← tokens? cs
  -- no text nests deeper than it has characters
  let (n, _) ← Rule.program (Rule.grammar ((lexerText cs).length + 2)) (Input.ofTokens tokens)
  return n

/-- Reads a program text as a tree; `none` if it is no program. -/
def Node.ofSource? (source : String) : Option Node := Node.ofChars? source.toList

/-!
## Programs

A text that is read as a program has to be one that can be written as bytes, and it has to follow
the grammar.
-/

def Node.parse (source : String) : Except Fault Node :=
  match Text.Utf8.encodeFault? source, Node.ofSource? source with
  | some fault, _ => .error (.unencodable fault)
  | none, some tree => .ok tree
  | none, none => .error .invalidSyntax

end SmellLint.Syntax
