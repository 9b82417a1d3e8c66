import SmellLint.Decimal
import SmellLint.Text.Quoted

/-!
# Literals

The constants that a program text can hold, the text they show as (`Literal.text`), and the two
comparisons the analysis makes with them: being zero or empty, and being false in a condition.
-/

namespace SmellLint.Syntax

/-- A constant of a program. -/
inductive Literal where
  | none
  | ellipsis
  | bool (value : Bool)
  | int (value : Nat)
  | float (value : Float)
  | imaginary (value : Float)
  | str (value : String)
  | bytes (value : List UInt8)
deriving Inhabited

namespace Literal

/-- The greatest number of digits a whole number may have and still be shown in decimal. -/
def maxShownDigits : Nat := 4300

/-- How a constant shows in a message; `none` for a whole number with too many digits. -/
def text? : Literal → Option String
  | .none => some "None"
  | .ellipsis => some "Ellipsis"
  | .bool true => some "True"
  | .bool false => some "False"
  | .int n =>
    let digits := toString n
    if digits.length ≤ maxShownDigits then some digits else Option.none
  | .float x => some (Decimal.floatText x)
  | .imaginary x => some (Decimal.General.bare.float x ++ "j")
  | .str s => some s
  | .bytes bs => some (Text.quotedBytes bs)

/-- Whether a constant equals zero or the empty text: numbers of every kind compare by value, and
false counts as zero. -/
def isZeroOrEmpty : Literal → Bool
  | .bool b => !b
  | .int n => n == 0
  | .float x => x == 0.0
  | .imaginary x => x == 0.0
  | .str s => s.isEmpty
  | _ => false

/-- Whether a constant counts as true in a condition. -/
def isTruthy : Literal → Bool
  | .none => false
  | .ellipsis => true
  | .bytes bs => !bs.isEmpty
  | l => !l.isZeroOrEmpty

end Literal
end SmellLint.Syntax

/-!
## Numbers

Reading the number that a text starts with: whole numbers in base two, eight, ten and sixteen,
numbers with a fraction or an exponent, and imaginary ones.  An underscore may stand between two
digits.  A decimal whole number has no leading zero and at most `Literal.maxShownDigits` digits.
-/

namespace SmellLint.Syntax.Number

/-- Digits with single underscores between them, where the first character is a digit (`isDigit`);
`none` if an underscore is not followed by a digit. -/
def digitRun (isDigit : Char → Bool) : List Char → Option (List Char × List Char)
  | [] => some ([], [])
  | c :: r =>
    if isDigit c then (digitRun isDigit r).map fun (ds, rest) => (c :: ds, rest)
    else if c = '_' then
      match r with
      | d :: r' =>
        if isDigit d then (digitRun isDigit r').map fun (ds, rest) => (d :: ds, rest) else none
      | [] => none
    else some ([], c :: r)

def digitValue (c : Char) : Nat :=
  if c.isDigit then c.toNat - '0'.toNat
  else if 'a' ≤ c && c ≤ 'f' then c.toNat - 'a'.toNat + 10
  else c.toNat - 'A'.toNat + 10

def valueOf (base : Nat) (ds : List Char) : Nat := ds.foldl (fun n d => n * base + digitValue d) 0

def isHexDigit (c : Char) : Bool := c.isDigit || ('a' ≤ c && c ≤ 'f') || ('A' ≤ c && c ≤ 'F')

/-- Whether a number may end before `rest`: what follows is no character of a name, or it starts a
word that can follow a number. -/
def endsBefore (rest : List Char) : Bool :=
  match rest with
  | [] => true
  | c :: _ =>
    ["and", "else", "for", "if", "in", "is", "or", "not"].any
      (fun w => (Text.dropStart? w.toList rest).isSome) ||
    !(c.isAlphanum || c == '_' || 0x80 ≤ c.toNat)

def inBase (base : Nat) (isDigit : Char → Bool) (cs : List Char) : Option (Literal × List Char) :=
  let cs := match cs with
    | '_' :: r => r
    | _ => cs
  match cs with
  | [] => none
  | c :: _ =>
    if isDigit c then
      match digitRun isDigit cs with
      | none => none
      | some (ds, rest) => if endsBefore rest then some (.int (valueOf base ds), rest) else none
    else none

/-- The exponent after its mark: sign and digits. -/
def exponent (cs : List Char) : Option (Int × List Char) :=
  let (negative, cs) := match cs with
    | '-' :: r => (true, r)
    | '+' :: r => (false, r)
    | _ => (false, cs)
  match cs with
  | [] => none
  | c :: _ =>
    if c.isDigit then
      (digitRun Char.isDigit cs).map fun (ds, rest) =>
        let n : Int := valueOf 10 ds
        (if negative then -n else n, rest)
    else none

/-- A decimal whole number with the digits `ds`; zero is the only one with a leading zero, and may
have any number of them. -/
def wholeNumber? (ds : List Char) : Option Literal :=
  if ds.head? == some '0' then if ds.all (· == '0') then some (.int 0) else none
  else if Literal.maxShownDigits < ds.length then none
  else some (.int (valueOf 10 ds))

/-- A number that has its `whole` and `fraction` digits: reads exponent and imaginary mark.
`isWhole` says that no point has been seen. -/
def finish (whole fraction : List Char) (isWhole : Bool) (cs : List Char) :
    Option (Literal × List Char) :=
  let value (e : Int) : Float :=
    Decimal.nearestFloat (valueOf 10 (whole ++ fraction)) (e - (fraction.length : Int))
  let close (literal? : Option Literal) (e : Int) (cs : List Char) : Option (Literal × List Char) :=
    match cs with
    | c :: rest =>
      if c = 'j' || c = 'J' then
        if endsBefore rest then some (.imaginary (value e), rest) else none
      else if endsBefore cs then literal?.map (·, cs)
      else none
    | [] => literal?.map (·, cs)
  let plain := if isWhole then wholeNumber? whole else some (.float (value 0))
  match cs with
  | c :: r =>
    if c = 'e' || c = 'E' then
      match exponent r with
      | some (e, rest) => close (some (.float (value e))) e rest
      | none =>
        match r with
        | d :: _ =>
          if d = '+' || d = '-' || d.isDigit then none
          -- the letter starts a word; digits that are no whole number are a fraction before it
          else close (plain <|> some (.float (value 0))) 0 cs
        | [] => none
    else close plain 0 cs
  | [] => close plain 0 cs

/-- The number a text starts with, and what follows it.  The text starts with a digit, or with a
point and a digit. -/
def read? : List Char → Option (Literal × List Char)
  | '0' :: 'x' :: r | '0' :: 'X' :: r => inBase 16 isHexDigit r
  | '0' :: 'o' :: r | '0' :: 'O' :: r =>
    match inBase 8 (fun c => '0' ≤ c && c ≤ '7') r with
    | some (l, c :: rest) => if c.isDigit then none else some (l, c :: rest)
    | other => other
  | '0' :: 'b' :: r | '0' :: 'B' :: r =>
    match inBase 2 (fun c => c == '0' || c == '1') r with
    | some (l, c :: rest) => if c.isDigit then none else some (l, c :: rest)
    | other => other
  | cs =>
    match digitRun Char.isDigit cs with
    | none => none
    | some (whole, '.' :: rest) =>
      match rest with
      | d :: _ =>
        if d.isDigit then
          match digitRun Char.isDigit rest with
          | none => none
          | some (fraction, rest) => finish whole fraction false rest
        else finish whole [] false rest
      | [] => finish whole [] false rest
    | some (whole, rest) => finish whole [] true rest

end SmellLint.Syntax.Number
