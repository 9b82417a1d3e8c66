import SmellLint.Syntax.Literal

/-!
# Syntax trees

A program as a tree of `Node`s, the parts of a node in a fixed order (`Node.children`), and the part
of the text that it covers (`Node.span?`).
-/

namespace SmellLint.Syntax

/-- A place in a text: line from one, column in bytes from zero. -/
structure Pos where
  line : Nat
  column : Nat
deriving Inhabited, DecidableEq

/-- The part of a text that a node covers. -/
structure Span where
  start : Pos
  stop : Pos
deriving Inhabited, DecidableEq

/-- Comparison operators. -/
inductive Comparison where
  | eq | notEq | lt | ltE | gt | gtE | is | isNot | isIn | notIn
deriving Inhabited, DecidableEq

/-- Operators with two operands. -/
inductive BinaryOp where
  | add | sub | mult | matMult | div | mod | pow | lShift | rShift | bitOr | bitXor | bitAnd
  | floorDiv
deriving Inhabited, DecidableEq

/-- Operators with one operand. -/
inductive UnaryOp where
  | invert | not | plus | minus
deriving Inhabited, DecidableEq

/-- What a comprehension builds. -/
inductive Collection where
  | list | set | generator
deriving Inhabited, DecidableEq

/-- Statements of one word. -/
inductive Jump where
  | pass | break | continue
deriving Inhabited, DecidableEq

inductive PatternForm where
  | value
  | singleton (value : Literal)
  | sequence
  | mapping (rest : Option String)
  | classPattern (attributes : List String)
  | star (name : Option String)
  | capture (name : Option String)
  | alternatives
deriving Inhabited

/-- A part of a program: a statement, an expression, or one of the smaller pieces they are made
of. -/
inductive Node where
  | file (body : List Node)
  | functionDef (span : Span) (isAsync : Bool) (name : String) (params : Node)
      (body decorators : List Node) (returns : Option Node)
  | classDef (span : Span) (name : String) (bases keywords body decorators : List Node)
  | returnStmt (span : Span) (value : Option Node)
  | delete (span : Span) (targets : List Node)
  | assign (span : Span) (targets : List Node) (value : Node)
  | augAssign (span : Span) (target : Node) (op : BinaryOp) (value : Node)
  | annAssign (span : Span) (target typeNote : Node) (value : Option Node)
  | forLoop (span : Span) (isAsync : Bool) (target iter : Node) (body orElse : List Node)
  | whileLoop (span : Span) (test : Node) (body orElse : List Node)
  | ifStmt (span : Span) (test : Node) (body orElse : List Node)
  | withStmt (span : Span) (isAsync : Bool) (items body : List Node)
  | withItem (context : Node) (target : Option Node)
  | matchStmt (span : Span) (subject : Node) (cases : List Node)
  | matchCase (pattern : Node) (guard : Option Node) (body : List Node)
  | raiseStmt (span : Span) (exc cause : Option Node)
  | tryStmt (span : Span) (isGroup : Bool) (body handlers orElse final : List Node)
  | exceptHandler (span : Span) (type : Option Node) (name : Option String) (body : List Node)
  | assertStmt (span : Span) (test : Node) (message : Option Node)
  | importStmt (span : Span) (names : List Node)
  | importFrom (span : Span) (library : Option String) (names : List Node) (level : Nat)
  | alias (span : Span) (name : String) (asName : Option String)
  | scopeDecl (span : Span) (isGlobal : Bool) (names : List String)
  | exprStmt (span : Span) (value : Node)
  | jump (span : Span) (kind : Jump)
  | boolOp (span : Span) (isAnd : Bool) (values : List Node)
  | namedExpr (span : Span) (target value : Node)
  | binOp (span : Span) (left : Node) (op : BinaryOp) (right : Node)
  | unaryOp (span : Span) (op : UnaryOp) (operand : Node)
  | lambda (span : Span) (params body : Node)
  | ifExp (span : Span) (test body orElse : Node)
  | dict (span : Span) (keys : List (Option Node)) (values : List Node)
  | set (span : Span) (items : List Node)
  | comp (span : Span) (kind : Collection) (item : Node) (generators : List Node)
  | dictComp (span : Span) (key value : Node) (generators : List Node)
  | comprehension (target iter : Node) (conditions : List Node) (isAsync : Bool)
  | await (span : Span) (value : Node)
  | yield (span : Span) (value : Option Node)
  | yieldFrom (span : Span) (value : Node)
  | compare (span : Span) (left : Node) (ops : List Comparison) (comparators : List Node)
  | call (span : Span) (func : Node) (args keywords : List Node)
  | formatted (span : Span) (value : Node) (conversion : Option Char) (spec : Option Node)
  | joinedStr (span : Span) (values : List Node)
  | constant (span : Span) (value : Literal)
  | attribute (span : Span) (value : Node) (attr : String)
  | subscript (span : Span) (value index : Node)
  | starred (span : Span) (value : Node)
  | name (span : Span) (id : String)
  | list (span : Span) (items : List Node)
  | tuple (span : Span) (items : List Node)
  | slice (span : Span) (lower upper step : Option Node)
  | params (positionalOnly args : List Node) (varArg : Option Node) (keywordOnly : List Node)
      (keywordDefaults : List (Option Node)) (kwArg : Option Node) (defaults : List Node)
  | param (span : Span) (name : String) (typeNote : Option Node)
  | keyword (span : Span) (arg : Option String) (value : Node)
  | pattern (span : Span) (form : PatternForm) (parts : List Node)
deriving Inhabited

namespace Node

def children : Node → List Node
  | .file body => body
  | .functionDef _ _ _ parameters body decorators returns =>
    parameters :: (body ++ decorators ++ returns.toList)
  | .classDef _ _ bases keywords body decorators => bases ++ keywords ++ body ++ decorators
  | .returnStmt _ value => value.toList
  | .delete _ targets => targets
  | .assign _ targets value => targets ++ [value]
  | .augAssign _ target _ value => [target, value]
  | .annAssign _ target typeNote value => target :: typeNote :: value.toList
  | .forLoop _ _ target iter body orElse => target :: iter :: (body ++ orElse)
  | .whileLoop _ test body orElse => test :: (body ++ orElse)
  | .ifStmt _ test body orElse => test :: (body ++ orElse)
  | .withStmt _ _ items body => items ++ body
  | .withItem context target => context :: target.toList
  | .matchStmt _ subject cases => subject :: cases
  | .matchCase shape guard body => shape :: (guard.toList ++ body)
  | .raiseStmt _ exc cause => exc.toList ++ cause.toList
  | .tryStmt _ _ body handlers orElse final => body ++ handlers ++ orElse ++ final
  | .exceptHandler _ type _ body => type.toList ++ body
  | .assertStmt _ test message => test :: message.toList
  | .importStmt _ names => names
  | .importFrom _ _ names _ => names
  | .alias .. => []
  | .scopeDecl .. => []
  | .exprStmt _ value => [value]
  | .jump .. => []
  | .boolOp _ _ values => values
  | .namedExpr _ target value => [target, value]
  | .binOp _ left _ right => [left, right]
  | .unaryOp _ _ operand => [operand]
  | .lambda _ parameters body => [parameters, body]
  | .ifExp _ test body orElse => [test, body, orElse]
  | .dict _ keys values => keys.flatMap Option.toList ++ values
  | .set _ items => items
  | .comp _ _ item generators => item :: generators
  | .dictComp _ key value generators => key :: value :: generators
  | .comprehension target iter conditions _ => target :: iter :: conditions
  | .await _ value => [value]
  | .yield _ value => value.toList
  | .yieldFrom _ value => [value]
  | .compare _ left _ comparators => left :: comparators
  | .call _ func args keywords => func :: (args ++ keywords)
  | .formatted _ value _ spec => value :: spec.toList
  | .joinedStr _ values => values
  | .constant .. => []
  | .attribute _ value _ => [value]
  | .subscript _ value index => [value, index]
  | .starred _ value => [value]
  | .name .. => []
  | .list _ items => items
  | .tuple _ items => items
  | .slice _ lower upper step => lower.toList ++ upper.toList ++ step.toList
  | .params positionalOnly args varArg keywordOnly keywordDefaults kwArg defaults =>
    positionalOnly ++ args ++ varArg.toList ++ keywordOnly ++
      keywordDefaults.flatMap Option.toList ++ kwArg.toList ++ defaults
  | .param _ _ typeNote => typeNote.toList
  | .keyword _ _ value => [value]
  | .pattern _ _ parts => parts

/-- The part of the text that a node covers, if it has a place of its own. -/
def span? : Node → Option Span
  | .functionDef s .. | .classDef s .. | .returnStmt s .. | .delete s .. | .assign s ..
  | .augAssign s .. | .annAssign s .. | .forLoop s .. | .whileLoop s .. | .ifStmt s ..
  | .withStmt s .. | .matchStmt s .. | .raiseStmt s .. | .tryStmt s .. | .exceptHandler s ..
  | .assertStmt s .. | .importStmt s .. | .importFrom s .. | .alias s .. | .scopeDecl s ..
  | .exprStmt s .. | .jump s .. | .boolOp s .. | .namedExpr s .. | .binOp s .. | .unaryOp s ..
  | .lambda s .. | .ifExp s .. | .dict s .. | .set s .. | .comp s .. | .dictComp s ..
  | .await s .. | .yield s .. | .yieldFrom s .. | .compare s .. | .call s .. | .formatted s ..
  | .joinedStr s .. | .constant s .. | .attribute s .. | .subscript s .. | .starred s ..
  | .name s .. | .list s .. | .tuple s .. | .slice s .. | .param s .. | .keyword s ..
  | .pattern s .. => some s
  | .file .. | .withItem .. | .matchCase .. | .comprehension .. | .params .. => none

/-- The line on which a node starts, if it has a place of its own. -/
def line? (n : Node) : Option Nat := n.span?.map (·.start.line)

/-- The line on which a node starts; zero for a node without a place. -/
def line (n : Node) : Nat := n.line?.getD 0

/-! ## Kinds of nodes -/

def isFunctionDef : Node → Bool
  | .functionDef _ isAsync .. => !isAsync
  | _ => false

def definedName? : Node → Option String
  | .functionDef _ _ id .. => some id
  | .classDef _ id .. => some id
  | _ => none

def functionName (n : Node) : String := n.definedName?.getD ""

def isLoop : Node → Bool
  | .forLoop _ isAsync .. => !isAsync
  | .whileLoop .. => true
  | _ => false

def nameId? : Node → Option String
  | .name _ id => some id
  | _ => none

end Node

/-!
## Segments of a text

The text that a part of a program covers.  Columns count bytes of UTF-8, and lines end in `\n`,
`\r\n` or `\r`.
-/

/-- Cuts after each line end and keeps it. -/
def sourceLineChars : List Char → List (List Char)
  | [] => []
  | '\r' :: '\n' :: r => ['\r', '\n'] :: sourceLineChars r
  | c :: r =>
    if c = '\n' || c = '\r' then [c] :: sourceLineChars r
    else
      match sourceLineChars r with
      | [] => [[c]]
      | line :: lines => (c :: line) :: lines

def takeBytes : Nat → List Char → List Char
  | _, [] => []
  | 0, _ => []
  | n, c :: r => c :: takeBytes (n - c.utf8Size) r

/-- What follows the characters that fill a number of bytes. -/
def dropBytes : Nat → List Char → List Char
  | _, [] => []
  | 0, cs => cs
  | n, c :: r => dropBytes (n - c.utf8Size) r

namespace Span

/-- The characters of some lines that lie between the column `first` of the first and the column
`last` of the last. -/
def cutLines (first last : Nat) : List (List Char) → List Char
  | [] => []
  | [line] => dropBytes first (takeBytes last line)
  | line :: lines => dropBytes first line ++ (lines.dropLast.flatten ++
      takeBytes last (lines.getLast?.getD []))

/-- The part of `source` that `s` covers. -/
def cut (s : Span) (source : String) : String :=
  let lines := (sourceLineChars source.toList).drop (s.start.line - 1)
  String.ofList <|
    cutLines s.start.column s.stop.column (lines.take (s.stop.line + 1 - s.start.line))

end Span
end SmellLint.Syntax
