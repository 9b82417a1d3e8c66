import SmellLint.Syntax.Node
import SmellLint.Text.Identifier
import SmellLint.Text.NormalForm

/-!
# Tokens

What a program text is cut into before it is read as a tree.
-/

namespace SmellLint.Syntax

/-- A string token as it stands in the text, without its quotes. -/
structure RawString where
  isBytes : Bool
  isRaw : Bool
  isFormat : Bool
  body : List Char
deriving Inhabited

inductive TokenKind where
  /-- A name in its normal form; `isPlain` tells whether the text has it in this form. -/
  | name (id : String) (isPlain : Bool)
  | keyword (word : String)
  | number (value : Literal)
  | string (value : RawString)
  | op (text : String)
  | newline
  | indent
  | dedent
  | finish
deriving Inhabited

/-- A token and where it stands. -/
structure Token where
  kind : TokenKind
  span : Span
deriving Inhabited

namespace Token

/-- Tokens that stand for layout and cover no text of their own. -/
def isLayout (t : Token) : Bool :=
  match t.kind with
  | .newline | .indent | .dedent | .finish => true
  | _ => false

def keywords : List String :=
  ["False", "None", "True", "and", "as", "assert", "async", "await", "break", "class", "continue",
   "def", "del", "elif", "else", "except", "finally", "for", "from", "global", "if", "import",
   "in", "is", "lambda", "nonlocal", "not", "or", "pass", "raise", "return", "try", "while",
   "with", "yield"]

/-- Operators and punctuation, longer ones first. -/
def operators : List (List Char) :=
  ["**=", "//=", ">>=", "<<=", "...", "!=", "%=", "&=", "**", "*=", "+=", "-=", "->", "//", "/=",
   ":=", "<<", "<=", "==", ">=", ">>", "@=", "^=", "|=", "%", "&", "(", ")", "*", "+", ",", "-",
   ".", "/", ":", ";", "<", "=", ">", "@", "[", "]", "^", "\x7b", "|", "\x7d",
   "~"].map String.toList

end Token

/-!
## Cutting text into tokens

`tokens?` cuts a program text into tokens, or answers `none` if some part of it is no token.  Line
ends count only outside brackets.  The white space a line starts with is measured twice, once with
tab stops eight columns apart and once with each tab as one column: the two measures have to agree
on how lines nest, and each change of the nesting is a token of its own.
-/

/-- What is left of a text and where it starts. -/
structure Cursor where
  rest : List Char
  pos : Pos
deriving Inhabited

namespace Cursor

def advance (p : Pos) (c : Char) : Pos :=
  if c = '\n' then ⟨p.line + 1, 0⟩ else ⟨p.line, p.column + c.utf8Size⟩

/-- Moves over `count` characters. -/
def drop (c : Cursor) (count : Nat) : Cursor :=
  ⟨c.rest.drop count, (c.rest.take count).foldl advance c.pos⟩

end Cursor

/-- How deep lines nest: the widths of the enclosing indentations, innermost first, each with tab
stops of eight columns and of one. -/
abbrev Indentation := List (Nat × Nat)

/-- The state of the lexer between two tokens. -/
structure Scanner where
  cursor : Cursor
  /-- The next character is the first of a line that is not continued. -/
  atLineStart : Bool
  /-- Open brackets. -/
  depth : Nat
  indents : Indentation
  found : Array Token

namespace Scanner

def maxDepth : Nat := 200

/-- Most indentations that may enclose a line, with the outermost. -/
def maxIndents : Nat := 100

def skip (s : Scanner) (count : Nat) : Scanner := { s with cursor := s.cursor.drop count }

/-- Adds a token of `kind` that covers `count` characters. -/
def emit (s : Scanner) (kind : TokenKind) (count : Nat) : Scanner :=
  let next := s.cursor.drop count
  { s with cursor := next, found := s.found.push ⟨kind, ⟨s.cursor.pos, next.pos⟩⟩ }

/-- Adds a token of `kind` that covers no text. -/
def emitLayout (s : Scanner) (kind : TokenKind) : Scanner :=
  { s with found := s.found.push ⟨kind, ⟨s.cursor.pos, s.cursor.pos⟩⟩ }

/-- The number of blanks that `cs` starts with. -/
def blankCount (cs : List Char) : Nat :=
  (cs.takeWhile fun c => c == ' ' || c == '\t' || c == '\x0c').length

/-- Whether a backslash before this text continues a line: the next line must exist. -/
def continues : List Char → Bool
  | '\n' :: _ :: _ => true
  | _ => false

/-- The blanks that a line starts with: their width with tab stops of eight columns, the width with
tab stops of one, the width at the first continuation (zero if there is none), and how many
characters they are. -/
structure Margin where
  column : Nat
  alt : Nat
  continuedAt : Nat
  count : Nat

/-- Measures the blanks that `cs` starts with, after the margin `m`; `none` if a continuation in
them leads nowhere. -/
def measure (m : Margin) (fuel : Nat) (cs : List Char) : Option Margin :=
  match fuel, cs with
  | 0, _ => none
  | _, [] => some m
  | fuel + 1, c :: r =>
    if c = ' ' then measure ⟨m.column + 1, m.alt + 1, m.continuedAt, m.count + 1⟩ fuel r
    else if c = '\t' then
      measure ⟨(m.column / 8 + 1) * 8, m.alt + 1, m.continuedAt, m.count + 1⟩ fuel r
    else if c = '\x0c' then measure ⟨0, 0, m.continuedAt, m.count + 1⟩ fuel r
    else if c = '\\' then
      if continues r then
        let at' := if m.continuedAt = 0 then m.column else m.continuedAt
        measure ⟨m.column, m.alt, at', m.count + 2⟩ fuel (r.drop 1)
      else none
    else some m

def leave (column : Nat) : Nat → Indentation → Nat × Indentation
  | 0, indents => (0, indents)
  | fuel + 1, indents =>
    match indents with
    | (c, a) :: outer :: rest =>
      if column < c then
        let (n, left) := leave column fuel (outer :: rest)
        (n + 1, left)
      else (0, (c, a) :: outer :: rest)
    | _ => (0, indents)

/-- Enters or leaves indentations for a line with the widths `column` and `alt`. -/
def indentTo (s : Scanner) (column alt : Nat) : Option Scanner :=
  match s.indents with
  | [] => none
  | (c, a) :: rest =>
    if column = c then if alt = a then some s else none
    else if c < column then
      if maxIndents ≤ s.indents.length || alt ≤ a then none
      else some ({ s with indents := (column, alt) :: (c, a) :: rest }.emitLayout .indent)
    else
      let (n, left) := leave column s.indents.length s.indents
      match left with
      | (c', a') :: _ =>
        if column = c' && alt = a' then
          some ((List.range n).foldl (fun s _ => s.emitLayout .dedent) { s with indents := left })
        else none
      | [] => none

/-- The kind of a string by the letters in front of its quotes, in lower case. -/
def stringPrefix? : List Char → Option (Bool × Bool × Bool)
  | [] => some (false, false, false)
  | ['b'] => some (true, false, false)
  | ['u'] => some (false, false, false)
  | ['r'] => some (false, true, false)
  | ['f'] => some (false, false, true)
  | ['b', 'r'] | ['r', 'b'] => some (true, true, false)
  | ['f', 'r'] | ['r', 'f'] => some (false, true, true)
  | _ => none

def shortBody (quote : Char) : List Char → Option (List Char)
  | [] => none
  | '\\' :: c :: r => (shortBody quote r).map fun b => '\\' :: c :: b
  | c :: r =>
    if c = quote then some []
    else if c = '\n' || c = '\\' then none
    else (shortBody quote r).map fun b => c :: b

/-- The body of a string with three times `quote` at each end. -/
def longBody (quote : Char) : List Char → Option (List Char)
  | [] => none
  | '\\' :: c :: r => (longBody quote r).map fun b => '\\' :: c :: b
  | c :: r =>
    if (Text.dropStart? [quote, quote, quote] (c :: r)).isSome then some []
    else (longBody quote r).map fun b => c :: b

/-- The string that `cs` starts with: its body, and how many characters it takes with its quotes. -/
def stringBody (cs : List Char) : Option (List Char × Nat) :=
  match cs with
  | [] => none
  | q :: r =>
    match Text.dropStart? [q, q] r with
    | some rest => (longBody q rest).map fun b => (b, b.length + 6)
    | none => (shortBody q r).map fun b => (b, b.length + 2)

/-- Whether `c` can be part of a name as far as the cutting is concerned. -/
def isWordChar (c : Char) : Bool := c.isAlphanum || c == '_' || 0x80 ≤ c.toNat

/-- Reads a word: a name, a keyword, or the letters in front of a string. -/
def word (s : Scanner) : Option Scanner :=
  let letters := s.cursor.rest.takeWhile isWordChar
  let rest := s.cursor.rest.drop letters.length
  let isQuote := match rest with
    | q :: _ => q = '\'' || q = '"'
    | [] => false
  let kind? := if isQuote then stringPrefix? (letters.map Char.toLower) else none
  match kind? with
  | some (isBytes, isRaw, isFormat) =>
    (stringBody rest).map fun (body, count) =>
      s.emit (.string ⟨isBytes, isRaw, isFormat, body⟩) (letters.length + count)
  | none =>
    -- the normal form of a name is a name
    let normal := Text.normalForm letters
    if Text.isIdentifier letters && Text.isIdentifier normal then
      let written := String.ofList letters
      let id := String.ofList normal
      let kind := if Token.keywords.contains written then .keyword written
        else .name id (id == written)
      some (s.emit kind letters.length)
    else none

/-- Whether `c` can be part of a number, its sign of exponent included. -/
def isNumberChar (c : Char) : Bool := isWordChar c || c == '.' || c == '+' || c == '-'

def number (s : Scanner) : Option Scanner :=
  let candidate := s.cursor.rest.takeWhile isNumberChar
  (Number.read? candidate).map fun (value, rest) =>
    s.emit (.number value) (candidate.length - rest.length)

def operator (s : Scanner) : Option Scanner := do
  let cs := s.cursor.rest
  let text ← Token.operators.find? fun o => (Text.dropStart? o cs).isSome
  let next := s.emit (.op (String.ofList text)) text.length
  match text with
  | ['('] | ['['] | ['\x7b'] =>
    if maxDepth ≤ s.depth then none else some { next with depth := s.depth + 1 }
  | [')'] | [']'] | ['\x7d'] =>
    if s.depth = 0 then none else some { next with depth := s.depth - 1 }
  | _ => some next

/-- Reads what stands at the start of a line: a blank line, or the indentation of one with
tokens. -/
def lineStart (s : Scanner) : Option Scanner := do
  let m ← measure ⟨0, 0, 0, 0⟩ (s.cursor.rest.length + 1) s.cursor.rest
  let s := s.skip m.count
  match s.cursor.rest with
  | '\n' :: _ => some (s.skip 1)
  | '#' :: r => some (s.skip ((r.takeWhile (· != '\n')).length + 2))
  | _ =>
    let s ← if m.continuedAt = 0 then s.indentTo m.column m.alt
      else s.indentTo m.continuedAt m.continuedAt
    some { s with atLineStart := false }

/-- Reads one token, or skips what separates two of them. -/
def step (s : Scanner) : Option Scanner :=
  if s.atLineStart && s.depth = 0 then s.lineStart
  else
    let s := s.skip (blankCount s.cursor.rest)
    match s.cursor.rest with
    | [] => some s
    | '\n' :: _ =>
      if s.depth = 0 then some { s.emit .newline 1 with atLineStart := true } else some (s.skip 1)
    | '#' :: r => some (s.skip ((r.takeWhile (· != '\n')).length + 1))
    | '\\' :: r => if continues r then some (s.skip 2) else none
    | c :: r =>
      if c = '\'' || c = '"' then
        (stringBody (c :: r)).map fun (body, count) =>
          s.emit (.string ⟨false, false, false, body⟩) count
      else if c.isDigit || (c == '.' && (r.head?.map Char.isDigit).getD false) then s.number
      else if isWordChar c then s.word
      else s.operator

/-- Reads tokens to the end of the text. -/
def run : Nat → Scanner → Option Scanner
  | 0, _ => none
  | fuel + 1, s =>
    match s.cursor.rest with
    | [] => some s
    | _ :: _ =>
      match s.step with
      | none => none
      | some s => run fuel s

/-- Closes the open indentations at the end of the text. -/
def finish (s : Scanner) : Option (List Token) :=
  if s.depth ≠ 0 then none
  else
    let s := (List.range (s.indents.length - 1)).foldl (fun s _ => s.emitLayout .dedent) s
    some (s.emitLayout .finish).found.toList

end Scanner

/-- The text that is cut: line ends are unified, and the last line is ended. -/
def lexerText (cs : List Char) : List Char :=
  let cs := Text.unifyNewlineChars cs
  if cs.getLast? = some '\n' then cs else cs ++ ['\n']

def tokens? (cs : List Char) : Option (List Token) :=
  if cs.contains '\x00' then none
  else
    let cs := lexerText cs
    -- every step but an indentation takes a character, and no two indentations follow each other
    (Scanner.run (2 * cs.length + 2) ⟨⟨cs, ⟨1, 0⟩⟩, true, 0, [(0, 0)], #[]⟩).bind Scanner.finish

/-- The tokens of an expression inside a string, which stands on `line`, in brackets of its own. -/
def expressionTokens? (line : Nat) (cs : List Char) : Option (List Token) :=
  let cs := '(' :: cs ++ [')']
  (Scanner.run (2 * cs.length + 2) ⟨⟨cs, ⟨line, 0⟩⟩, false, 0, [(0, 0)], #[]⟩).bind fun s =>
    Scanner.finish (s.emitLayout .newline)

end SmellLint.Syntax
