import SmellLint.Decimal

/-!
# Cells

A value in a table.
-/

namespace SmellLint

/-- A value in a table, or none. -/
inductive Cell where
  | text (value : String)
  | int (value : Int)
  | float (value : Float)
  | bool (value : Bool)
  | missing
deriving Inhabited, DecidableEq

namespace Cell

/-- The kind of a value as messages name it; a missing one is a number that is none. -/
def kindName : Cell → String
  | .text _ => "str"
  | .int _ => "int"
  | .float _ => "float"
  | .bool _ => "bool"
  | .missing => "float"

def isMissing : Cell → Bool
  | .missing => true
  | .float x => x.isNaN
  | _ => false

def text? : Cell → Option String
  | .text s => some s
  | _ => none

end Cell
end SmellLint

/-!
## Numbers in cells

How the text of a cell is read as a whole number of 64 bits or as a number.  A number is built from
its first seventeen digits, one after the other, and then scaled by one power of ten; the result can
differ from the nearest number in its last digits.
-/

namespace SmellLint.Table

def isNumberBlank (c : Char) : Bool := c == ' ' || (9 ≤ c.toNat && c.toNat ≤ 13)

def onlyBlanks (cs : List Char) : Bool := cs.all isNumberBlank

def digitOf (c : Char) : Nat := c.toNat - 48

def splitSign (cs : List Char) : Bool × List Char :=
  match cs with
  | '-' :: r => (true, r)
  | '+' :: r => (false, r)
  | _ => (false, cs)

/-! ### Whole numbers -/

/-- Why a text is no whole number of 64 bits. -/
inductive WordFault where
  | noNumber
  | tooLarge
deriving DecidableEq

/-- Digits read one by one up to `limit`: their value and what follows them.  A number that is too
large is found before what follows it is looked at. -/
def digitsUpTo (limit : Nat) : Nat → List Char → Except WordFault (Nat × List Char)
  | n, [] => .ok (n, [])
  | n, c :: r =>
    if c.isDigit then
      let m := n * 10 + digitOf c
      if limit < m then .error .tooLarge else digitsUpTo limit m r
    else .ok (n, c :: r)

/-- The value of the digits that `cs` holds, with nothing but blanks behind them. -/
def magnitude (limit : Nat) (cs : List Char) : Except WordFault Nat :=
  if !(cs.head?.map Char.isDigit).getD false then .error .noNumber
  else
    match digitsUpTo limit 0 cs with
    | .error e => .error e
    | .ok (n, rest) => if onlyBlanks rest then .ok n else .error .noNumber

/-- The greatest magnitude of a negative number of 64 bits. -/
def halfRange : Nat := Nat.pow 2 63

/-- `s` as a whole number of 64 bits with a sign. -/
def readWord (s : String) : Except WordFault Int :=
  let (negative, cs) := splitSign (s.toList.dropWhile isNumberBlank)
  if negative then (magnitude halfRange cs).map fun n => -(n : Int)
  else (magnitude (halfRange - 1) cs).map fun n => (n : Int)

/-- A text as a whole number of 64 bits without a sign; `none` for any text with a minus sign. -/
def readUnsigned (s : String) : Except WordFault (Option Nat) :=
  match s.toList.dropWhile isNumberBlank with
  | '-' :: _ => .ok none
  | cs => (magnitude (2 * halfRange - 1) (splitSign cs).2).map some

def intToFloat (n : Int) : Float :=
  if n < 0 then -(Decimal.nearestFloat n.natAbs 0) else Decimal.nearestFloat n.natAbs 0

/-! ### Numbers -/

def maxDigits : Nat := 17

/-- Adds up to `left` digits to `x`: the number, how many were added, and what follows. -/
def addDigits (x : Float) : Nat → List Char → Float × Nat × List Char
  | 0, cs => (x, 0, cs)
  | _ + 1, [] => (x, 0, [])
  | left + 1, c :: r =>
    if c.isDigit then
      let (y, n, rest) := addDigits (x * 10.0 + (digitOf c).toFloat) left r
      (y, n + 1, rest)
    else (x, 0, c :: r)

def tenPower (k : Nat) : Float := Decimal.nearestFloat 1 k

/-- `x` times ten to the `exponent`; `none` if that leaves the range of numbers. -/
def scaled? (x : Float) (exponent : Int) : Option Float :=
  if 308 < exponent then none
  else
    let y :=
      if 0 < exponent then x * tenPower exponent.toNat
      else if exponent < -616 then 0.0
      else if exponent < -308 then x / tenPower (-308 - exponent).toNat / tenPower 308
      else x / tenPower (-exponent).toNat
    if y.isInf then none else some y

/-- The exponent that `cs` starts with, and what follows it; it has up to seventeen digits and is
counted in 32 bits. -/
def exponentPart? (cs : List Char) : Option (Int × List Char) :=
  match cs with
  | e :: r =>
    if e = 'e' || e = 'E' then
      let (negative, r) := splitSign r
      let digits := (r.takeWhile Char.isDigit).take maxDigits
      if digits.isEmpty then none
      else
        let n := Int.bmod (digits.foldl (fun n c => n * 10 + digitOf c) 0) (Nat.pow 2 32)
        some (if negative then -n else n, r.drop digits.length)
    else some (0, cs)
  | [] => some (0, [])

/-- The text of a number without words. -/
def readDecimal? (s : String) : Option Float :=
  let (negative, cs) := splitSign (s.toList.dropWhile isNumberBlank)
  let (x, wholeCount, rest) := addDigits 0.0 maxDigits cs
  -- digits beyond the last that counts raise the exponent before the point and are dropped after it
  let extra := rest.takeWhile Char.isDigit
  let (x, fractionCount, rest) := match rest.drop extra.length with
    | '.' :: r =>
      let (y, n, r) := addDigits x (maxDigits - wholeCount) r
      (y, n, if wholeCount + n < maxDigits then r else r.dropWhile Char.isDigit)
    | r => (x, 0, r)
  if wholeCount + fractionCount = 0 then none
  else
    match exponentPart? rest with
    | some (e, rest) =>
      match scaled? (if negative then -x else x)
          (e + (extra.length : Int) - (fractionCount : Int)) with
      | some y => if onlyBlanks rest then some y else none
      | none => none
    | none => none

/-- The words for an infinite number, in lower case. -/
def infinityWords : List (String × Float) :=
  [("inf", 1.0 / 0.0), ("+inf", 1.0 / 0.0), ("infinity", 1.0 / 0.0), ("+infinity", 1.0 / 0.0),
   ("-inf", -1.0 / 0.0), ("-infinity", -1.0 / 0.0)]

/-- `s` as a number: digits, with blanks around them or not, or a word for an infinite number. -/
def readFloat? (s : String) : Option Float :=
  match readDecimal? s with
  | some x => some x
  | none => infinityWords.lookup s.toLower

/-!
## Headers

The names of the columns of a table.  A column without a name is named by its place.  A name that
has been given away is followed by a number; the names that stand in the header are given away
before those that are made up.
-/

/-- A header with the empty ones among `names` filled in. -/
def namedHeader (names : List String) : List String :=
  names.mapIdx fun i n => if n.isEmpty then s!"Unnamed: {i}" else n

/-- The places of a header in the order in which names are given away. -/
def namingOrder (names : List String) : List Nat :=
  let (empty, given) := names.zipIdx.partition fun (n, _) => n.isEmpty
  (given ++ empty).map Prod.snd

/-- What is known while names are given away: the header as it stands, and how often each name has
been given away, the latest count first. -/
structure Naming where
  header : List String
  counts : List (String × Nat)

namespace Naming

def count (s : Naming) (name : String) : Nat := (s.counts.lookup name).getD 0

/-- Looks for a number that makes `name` new, from `k` on; the name, and the count it starts with.
-/
def numbered (s : Naming) (name : String) : Nat → Nat → Naming × String × Nat
  | 0, k => (s, name, k)
  | _ + 1, 0 => (s, name, 0)
  | fuel + 1, k + 1 =>
    let s := { s with counts := (name, k + 2) :: s.counts }
    let candidate := s!"{name}.{k + 1}"
    if s.header.contains candidate then numbered s name fuel (k + 2)
    else
      match s.count candidate with
      | 0 => (s, candidate, 0)
      | n => numbered s name fuel n

def place (s : Naming) (i : Nat) : Naming :=
  let name := s.header.getD i ""
  let (s, name, k) := match s.count name with
    | 0 => (s, name, 0)
    | n => s.numbered name (2 * s.header.length + 2) n
  ⟨s.header.set i name, (name, k + 1) :: s.counts⟩

end Naming

def distinctHeader (names : List String) : List String :=
  ((namingOrder names).foldl Naming.place ⟨namedHeader names, []⟩).header

end SmellLint.Table
