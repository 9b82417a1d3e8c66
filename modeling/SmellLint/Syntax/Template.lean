import SmellLint.Syntax.Literal
import SmellLint.Text.CharacterName

/-!
# Escapes and templates

## Escapes in strings

What a backslash and the characters after it stand for, in text and in byte strings.  A backslash
that starts no escape stands for itself.
-/

namespace SmellLint.Syntax.Escape

/-- A fixed number of hexadecimal digits, and what follows them. -/
def hexDigits? : Nat → List Char → Option (Nat × List Char)
  | 0, cs => some (0, cs)
  | _ + 1, [] => none
  | n + 1, c :: r =>
    if Number.isHexDigit c then
      (hexDigits? n r).map fun (v, rest) => (Number.digitValue c * Nat.pow 16 n + v, rest)
    else none

/-- Up to `n` octal digits after a first one with value `v`. -/
def octal : Nat → Nat → List Char → Nat × List Char
  | 0, v, cs => (v, cs)
  | _ + 1, v, [] => (v, [])
  | n + 1, v, c :: r =>
    if '0' ≤ c && c ≤ '7' then octal n (v * 8 + Number.digitValue c) r else (v, c :: r)

/-- The characters with an escape of one letter. -/
def simple? : Char → Option Char
  | '\\' => some '\\'
  | '\'' => some '\''
  | '"' => some '"'
  | 'a' => some '\x07'
  | 'b' => some '\x08'
  | 'f' => some '\x0c'
  | 'n' => some '\n'
  | 'r' => some '\r'
  | 't' => some '\t'
  | 'v' => some '\x0b'
  | _ => none

/-- What an escape stands for: its code point or nothing, and what follows it. -/
structure Reading where
  value : Option Nat
  rest : List Char

/-- Reads the escape that starts after a backslash; the outer `none` is a malformed escape, the
inner one says that the backslash stands for itself. -/
def read (inText : Bool) (cs : List Char) : Option (Option Reading) :=
  match cs with
  | [] => some none
  | '\n' :: r => some (some ⟨none, r⟩)
  | 'x' :: r => (hexDigits? 2 r).map fun (v, rest) => some ⟨some v, rest⟩
  | c :: r =>
    match simple? c with
    | some d => some (some ⟨some d.toNat, r⟩)
    | none =>
      if '0' ≤ c && c ≤ '7' then
        let (v, rest) := octal 2 (Number.digitValue c) r
        some (some ⟨some v, rest⟩)
      else if !inText then some none
      else if c = 'u' then (hexDigits? 4 r).map fun (v, rest) => some ⟨some v, rest⟩
      else if c = 'U' then
        match hexDigits? 8 r with
        | some (v, rest) => if v < 0x110000 then some (some ⟨some v, rest⟩) else none
        | none => none
      else if c = 'N' then
        match r with
        | '\x7b' :: r =>
          match Text.charNamed? (String.ofList (r.takeWhile (· != '\x7d'))),
              r.dropWhile (· != '\x7d') with
          | some d, _ :: rest => some (some ⟨some d.toNat, rest⟩)
          | _, _ => none
        | _ => none
      else some none

/-- The code points of a string body. -/
def decode (inText : Bool) : Nat → List Char → Option (List Nat)
  | 0, _ => some []
  | _, [] => some []
  | fuel + 1, c :: r =>
    if c = '\\' then
      match read inText r with
      | none => none
      | some none => (decode inText fuel r).map (c.toNat :: ·)
      | some (some ⟨value, rest⟩) => (decode inText fuel rest).map (value.toList ++ ·)
    else (decode inText fuel r).map (c.toNat :: ·)

def text? (isRaw : Bool) (body : List Char) : Option (List Char) :=
  if isRaw then some body else (decode true body.length body).map (·.map Text.charOfCode)

/-- The bytes that `body`, whose characters are ASCII, stands for. -/
def bytes? (isRaw : Bool) (body : List Char) : Option (List UInt8) :=
  if body.any fun c => 0x80 ≤ c.toNat then none
  else if isRaw then some (body.map fun c => c.toNat.toUInt8)
  else (decode false body.length body).map (·.map Nat.toUInt8)

end SmellLint.Syntax.Escape

/-!
## Templates

A format string is text with fields in braces.  A field holds the text of an expression, and may ask
for its own text (`=`), a conversion (`!r`) and a format, which is a template itself, one level
deep.
-/

namespace SmellLint.Syntax

/-- A part of a format string: text as it stands there, or a field. -/
inductive Piece where
  | text (body : List Char)
  /-- `lines` is the number of line ends before the expression, `shown` the text that a field with
  `=` shows in front of its value. -/
  | field (expr : List Char) (lines : Nat) (shown : Option (List Char)) (conversion : Option Char)
      (format : Option (List Piece))

namespace Piece

/-- Most brackets that may be open in a field. -/
def maxDepth : Nat := 200

/-- Literal text up to a brace: the text as it stands, whether a doubled brace ended it, and what
follows.  Braces are not doubled `inFormat`. -/
def literal (isRaw inFormat : Bool) (fuel : Nat) (cs : List Char) :
    Option (List Char × Bool × List Char) :=
  match fuel, cs with
  | 0, _ => none
  | _, [] => some ([], false, [])
  | fuel + 1, c :: r =>
    let brace (before : List Char) (c : Char) (r : List Char) (back : List Char) :
        Option (List Char × Bool × List Char) :=
      if !inFormat && r.head? = some c then some (before ++ [c], true, r.drop 1)
      else if !inFormat && c = '\x7d' then none
      else some (before, false, back)
    if c = '\\' && !isRaw then
      match r with
      | 'N' :: '\x7b' :: r' =>
        let name := r'.takeWhile (· != '\x7d')
        (literal isRaw inFormat fuel ((r'.drop name.length).drop 1)).map fun (t, d, rest) =>
          ('\\' :: 'N' :: '\x7b' :: name ++ (r'.drop name.length).take 1 ++ t, d, rest)
      | d :: r' =>
        if d = '\x7b' || d = '\x7d' then brace ['\\'] d r' r
        else
          (literal isRaw inFormat fuel r').map fun (t, dbl, rest) => ('\\' :: d :: t, dbl, rest)
      | [] => some (['\\'], false, [])
    else if c = '\x7b' || c = '\x7d' then brace [] c r cs
    else (literal isRaw inFormat fuel r).map fun (t, d, rest) => (c :: t, d, rest)

def closer? : Char → Option Char
  | '(' => some ')'
  | '[' => some ']'
  | '\x7b' => some '\x7d'
  | _ => none

/-- The text of an expression up to what ends it.  `quote` is the string that the scan is in, with
whether it has three quotes; `opened` are the closers of the open brackets. -/
def expression (quote : Option (Char × Bool)) (opened : List Char) (fuel : Nat) (cs : List Char) :
    Option (List Char × List Char) :=
  match fuel, cs with
  | 0, _ => none
  | _, [] => none
  | fuel + 1, c :: r =>
    let keep (n : Nat) (quote : Option (Char × Bool)) (opened : List Char) :
        Option (List Char × List Char) :=
      (expression quote opened fuel (cs.drop n)).map (Prod.map (cs.take n ++ ·) id)
    if c = '\\' then none
    else
      match quote with
      | some (q, isLong) =>
        if c = q then
          if !isLong then keep 1 none opened
          else if r.take 2 = [q, q] then keep 3 none opened
          else keep 1 quote opened
        else keep 1 quote opened
      | none =>
        if c = '\'' || c = '"' then
          if r.take 2 = [c, c] then keep 3 (some (c, true)) opened
          else keep 1 (some (c, false)) opened
        else
          match closer? c with
          | some k => if maxDepth ≤ opened.length then none else keep 1 none (k :: opened)
          | none =>
            if c = '#' then none
            else
              match opened with
              | k :: outer =>
                if c = k then keep 1 none outer
                else if c = ')' || c = ']' || c = '\x7d' then none
                else keep 1 none opened
              | [] =>
                if (c = '!' || c = '=' || c = '<' || c = '>') && r.head? = some '=' then
                  keep 2 none []
                else if c = '!' || c = ':' || c = '\x7d' || c = '=' then some ([], cs)
                else if c = ')' || c = ']' then none
                else keep 1 none []

/-- White space that may follow the `=` of a field. -/
def isFieldBlank (c : Char) : Bool := c == ' ' || (9 ≤ c.toNat && c.toNat ≤ 13)

def conversion? (cs : List Char) : Option (Option Char × List Char) :=
  match cs with
  | '!' :: c :: r =>
    if c = 's' || c = 'r' || c = 'a' then
      match r with
      | d :: _ => if d = ':' || d = '\x7d' then some (some c, r) else none
      | [] => none
    else none
  | '!' :: [] => none
  | _ => some (none, cs)

/-- What comes first in the field `body`: its expression, the text that is shown before the value,
and the conversion. -/
def fieldHead (body : List Char) :
    Option (List Char × Option (List Char) × Option Char × List Char) := do
  let (expr, after) ← expression none [] (body.length + 1) body
  if expr.all fun c => isFieldBlank c then none
  else
    let (shown, after) := match after with
      | '=' :: r =>
        let blanks := r.takeWhile isFieldBlank
        (some (expr ++ '=' :: blanks), r.drop blanks.length)
      | _ => (none, after)
    let (conversion, after) ← conversion? after
    return (expr, shown, conversion, after)

def lineEnds (cs : List Char) : Nat := cs.count '\n'

/-- The pieces of a template, to its end or, inside a format, to the brace that closes the field.
`level` is how deep fields may still nest, `lines` the number of line ends before the text. -/
def read (isRaw : Bool) (inFormat : Bool) (level lines fuel : Nat) (cs : List Char) :
    Option (List Piece × List Char) :=
  match fuel with
  | 0 => none
  | fuel + 1 => do
    let (chars, doubled, rest) ← literal isRaw inFormat (cs.length + 1) cs
    let before := lines + lineEnds (cs.take (cs.length - rest.length))
    let here := if chars.isEmpty then [] else [Piece.text chars]
    if doubled then
      let (more, rest) ← read isRaw inFormat level before fuel rest
      return (here ++ more, rest)
    match rest with
    | [] => return (here, [])
    | '\x7b' :: body =>
      match level with
      | 0 => none
      | level' + 1 =>
        let (expr, shown, conversion, after) ← fieldHead body
        let (format, after) ← match after with
          | ':' :: r => do
            let inside := before + lineEnds (rest.take (rest.length - r.length))
            let (spec, r) ← read isRaw true level' inside fuel r
            pure (some spec, r)
          | _ => pure (none, after)
        match after with
        | '\x7d' :: r =>
          let conversion :=
            if shown.isSome && format.isNone && conversion.isNone then some 'r' else conversion
          let passed := before + lineEnds (rest.take (rest.length - r.length))
          let (more, rest) ← read isRaw inFormat level passed fuel r
          return (here ++ .field expr before shown conversion format :: more, rest)
        | _ => none
    | _ => if inFormat then return (here, rest) else none

def ofBody? (isRaw : Bool) (body : List Char) : Option (List Piece) :=
  (read isRaw false 2 0 (2 * body.length + 2) body).map Prod.fst

end Piece
end SmellLint.Syntax
