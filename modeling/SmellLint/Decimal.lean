/-!
# Decimals

## Shortest decimals

A finite binary floating-point number is `mantissa * 2 ^ exponent`.  The decimals that read back as
it fill an interval around it, whose ends belong to it exactly when the mantissa is even.
`Binary.shortest` finds the fewest digits of which some decimal lies in that interval, and of the
decimals with that many digits the one nearest to the number.  All arithmetic is on `Nat`.
-/

namespace SmellLint.Decimal

/-- A positive number `mantissa * 2 ^ exponent` of a binary format; `atPowerOfTwo` says that the
number below it is only half as far away as the number above it. -/
structure Binary where
  mantissa : Nat
  exponent : Int
  atPowerOfTwo : Bool

/-- A positive decimal `digits * 10 ^ exponent`. -/
structure Scientific where
  digits : Nat
  exponent : Int
deriving DecidableEq

def digitCount (n : Nat) : Nat := (Nat.toDigits 10 n).length

/-- A quotient `num / den` of natural numbers times `10 ^ e`, as a quotient. -/
def scaleTen (num den : Nat) (e : Int) : Nat × Nat :=
  if 0 ≤ e then (num * Nat.pow 10 e.toNat, den) else (num, den * Nat.pow 10 (-e).toNat)

/-- The `e` with `10 ^ e ≤ num / den < 10 ^ (e + 1)`. -/
def floorLogTen (num den : Nat) : Int :=
  if den ≤ num then (digitCount (num / den) : Int) - 1
  else
    let l := digitCount (den / num)
    if den ≤ num * Nat.pow 10 (l - 1) then -((l : Int) - 1) else -(l : Int)

namespace Binary

/-- The number, and the lower and upper end of its interval, in quarters of `2 ^ exponent`. -/
def quarters (b : Binary) : Nat × Nat × Nat :=
  (4 * b.mantissa, 4 * b.mantissa - (if b.atPowerOfTwo then 1 else 2), 4 * b.mantissa + 2)

/-- The number as a quotient of natural numbers, scaled by a count of quarters. -/
def quotient (b : Binary) (quarterCount : Nat) : Nat × Nat :=
  let e := b.exponent - 2
  if 0 ≤ e then (quarterCount * Nat.pow 2 e.toNat, 1) else (quarterCount, Nat.pow 2 (-e).toNat)

/-- Whether `d * 10 ^ e` reads back as the number. -/
def readsBack (b : Binary) (d : Nat) (e : Int) : Bool :=
  let (_, lo, hi) := b.quarters
  let (loNum, den) := b.quotient lo
  let (hiNum, _) := b.quotient hi
  let (dNum, dDen) := scaleTen d 1 e
  if b.mantissa % 2 = 0 then loNum * dDen ≤ dNum * den && dNum * den ≤ hiNum * dDen
  else loNum * dDen < dNum * den && dNum * den < hiNum * dDen

/-- Tries digit counts from `17 - fuel` on. -/
def shortestFrom (b : Binary) (num den : Nat) (lead : Int) : Nat → Scientific
  | 0 =>
    let e := lead - 16
    let (n, d) := scaleTen num den (-e)
    ⟨n / d, e⟩
  | fuel + 1 =>
    let e := lead - (16 - fuel : Nat)
    let (n, d) := scaleTen num den (-e)
    let below := n / d
    let above := below + 1
    let lowHit := 0 < below && b.readsBack below e
    let highHit := b.readsBack above e
    if lowHit && highHit then
      let twice := 2 * (n % d)
      if twice < d || (twice == d && below % 2 == 0) then ⟨below, e⟩ else ⟨above, e⟩
    else if lowHit then ⟨below, e⟩
    else if highHit then ⟨above, e⟩
    else shortestFrom b num den lead fuel

/-- The shortest decimal that reads back as the number, and the nearest of those. -/
def shortest (b : Binary) : Scientific :=
  let (num, den) := b.quotient (4 * b.mantissa)
  shortestFrom b num den (floorLogTen num den) 17

end Binary

/-- Drops final zeros of the digits, which a rounding up to a power of ten can leave. -/
def Scientific.normalize (s : Scientific) (fuel : Nat) : Scientific :=
  match fuel with
  | 0 => s
  | fuel + 1 =>
    if s.digits != 0 && s.digits % 10 == 0 then
      Scientific.normalize ⟨s.digits / 10, s.exponent + 1⟩ fuel
    else s

/-- A double-precision number, taken apart. -/
inductive Double where
  | nan
  | infinite (negative : Bool)
  | zero (negative : Bool)
  | finite (negative : Bool) (value : Binary)

/-- Takes the bits of a double-precision number apart. -/
def Double.ofBits (bits : UInt64) : Double :=
  let n : Nat := bits.toNat
  let negative := n / Nat.pow 2 63 == 1
  let biased : Nat := n / Nat.pow 2 52 % 2048
  let fraction : Nat := n % Nat.pow 2 52
  if biased = 2047 then (if fraction = 0 then .infinite negative else .nan)
  else if biased = 0 then
    if fraction = 0 then .zero negative else .finite negative ⟨fraction, -1074, false⟩
  else
    .finite negative
      ⟨fraction + Nat.pow 2 52, (biased : Int) - 1075, fraction == 0 && biased != 1⟩

def Double.ofFloat (x : Float) : Double := .ofBits x.toBits

/-- A number without its fraction, if it is finite. -/
def Double.truncated? : Double → Option Int
  | .nan => none
  | .infinite _ => none
  | .zero _ => some 0
  | .finite negative b =>
    let (num, den) := b.quotient (4 * b.mantissa)
    let n : Int := (num / den : Nat)
    some (if negative then -n else n)

/-- Rounds `num / den` to the nearest natural number; a half goes to the even neighbour. -/
def roundHalfEven (num den : Nat) : Nat :=
  let q := num / den
  let twice := 2 * (num % den)
  if twice < den || (twice == den && q % 2 == 0) then q else q + 1

/-!
## Decimal notation

How numbers are written in messages and files.  `General` holds the decisions: numbers whose
leading digit stands at `10 ^ e` with `e` from `-4` to `15` are written positionally, all others
with an exponent of a sign and at least two digits.  A whole number keeps `.0` where the format says
so.  `fixed` writes a set number of places, a half going to the even neighbour.
-/

/-- The decisions of a general number format. -/
structure General where
  /-- Smallest exponent that is written positionally. -/
  least : Int
  /-- Exponents from here on are written with an exponent mark. -/
  bound : Int
  /-- What follows a whole number. -/
  wholeSuffix : String

/-- The format of numbers in messages and tables. -/
def General.standard : General := ⟨-4, 16, ".0"⟩

/-- As the standard format, but whole numbers stand without `.0`. -/
def General.bare : General := ⟨-4, 16, ""⟩

def zeros (n : Nat) : String := String.ofList (List.replicate n '0')

/-- An exponent with its sign and at least two digits. -/
def exponentText (e : Int) : String :=
  let digits := toString e.natAbs
  (if e < 0 then "e-" else "e+") ++ (if digits.length < 2 then "0" ++ digits else digits)

def General.scientific (f : General) (s : Scientific) : String :=
  let s := s.normalize 400
  let digits := toString s.digits
  let lead := s.exponent + (digits.length : Int) - 1
  if f.least ≤ lead && lead < f.bound then
    if 0 ≤ s.exponent then digits ++ zeros s.exponent.toNat ++ f.wholeSuffix
    else if lead < 0 then "0." ++ zeros (-lead - 1).toNat ++ digits
    else
      let whole := (lead + 1).toNat
      String.ofList (digits.toList.take whole) ++ "." ++ String.ofList (digits.toList.drop whole)
  else
    let rest := String.ofList (digits.toList.drop 1)
    String.ofList (digits.toList.take 1) ++ (if rest.isEmpty then "" else "." ++ rest) ++
      exponentText lead

def signText (negative : Bool) : String := if negative then "-" else ""

/-- Writes `x` with the fewest digits that read back as it. -/
def General.float (f : General) (x : Float) : String :=
  match Double.ofFloat x with
  | .nan => "nan"
  | .infinite n => signText n ++ "inf"
  | .zero n => signText n ++ "0" ++ f.wholeSuffix
  | .finite n b => signText n ++ f.scientific b.shortest

/-- `x` as messages and tables write it. -/
def floatText (x : Float) : String := General.standard.float x

/-- A non-negative quotient with `places` digits after the point. -/
def fixedQuotient (places num den : Nat) : String :=
  let scaled := toString (roundHalfEven (num * Nat.pow 10 places) den)
  let digits := zeros (places + 1 - scaled.length) ++ scaled
  let whole := digits.length - places
  String.ofList (digits.toList.take whole) ++
    (if places = 0 then "" else "." ++ String.ofList (digits.toList.drop whole))

/-- `x` with `places` digits after the point. -/
def fixed (places : Nat) (x : Float) : String :=
  match Double.ofFloat x with
  | .nan => "nan"
  | .infinite n => signText n ++ "inf"
  | .zero n => signText n ++ fixedQuotient places 0 1
  | .finite n b =>
    let (num, den) := b.quotient (4 * b.mantissa)
    signText n ++ fixedQuotient places num den

/-- The double-precision number nearest to `digits * 10 ^ exponent`. -/
def nearestFloat (digits : Nat) (exponent : Int) : Float :=
  if digits = 0 then 0.0
  else
    let lead := exponent + (digitCount digits : Int)
    if 400 < lead then 1.0 / 0.0
    else if lead < -400 then 0.0
    else Float.ofScientific digits (exponent < 0) exponent.natAbs

/-!
## Statistics

The mean, the median, the deviation and the extremes of numbers.  A sum is formed in a fixed order:
eight sums side by side, and halves of long lists apart, so that rounding errors stay small.
-/

def plainSum (start : Float) (xs : List Float) : Float := xs.foldl (· + ·) start

/-- Adds the numbers of `xs` to those of `sums`, place by place. -/
def addPlaces (sums xs : List Float) : List Float := List.zipWith (· + ·) sums xs

def sumOfEight : List Float → Float
  | [a, b, c, d, e, f, g, h] => ((a + b) + (c + d)) + ((e + f) + (g + h))
  | xs => plainSum 0.0 xs

/-- Adds numbers in eight sums side by side, then what is left over. -/
def sumBlocks (sums : List Float) : Nat → List Float → Float
  | 0, rest => plainSum (sumOfEight sums) rest
  | blocks + 1, xs => sumBlocks (addPlaces sums (xs.take 8)) blocks (xs.drop 8)

/-- Adds numbers; `depth` bounds how often a list is halved. -/
def pairwiseSum : Nat → List Float → Float
  | 0, xs => plainSum 0.0 xs
  | depth + 1, xs =>
    let n := xs.length
    if n < 8 then plainSum 0.0 xs
    else if n ≤ 128 then sumBlocks (xs.take 8) (n / 8 - 1) (xs.drop 8)
    else
      let half := n / 2 - n / 2 % 8
      pairwiseSum depth (xs.take half) + pairwiseSum depth (xs.drop half)

def sum (xs : List Float) : Float := pairwiseSum xs.length xs

def mean (xs : List Float) : Float := sum xs / Float.ofNat xs.length

/-- The median of `xs`: the mean of the two in the middle where there is no one in the middle. -/
def median (xs : List Float) : Float :=
  let sorted := xs.mergeSort fun a b => a ≤ b
  let n := xs.length
  if n % 2 = 1 then mean ((sorted.drop (n / 2)).take 1)
  else mean ((sorted.drop (n / 2 - 1)).take 2)

/-- The standard deviation of all of `xs` from their mean. -/
def deviation (xs : List Float) : Float :=
  let m := mean xs
  Float.sqrt (mean (xs.map fun x => (x - m) * (x - m)))

def greatest? : List Float → Option Float
  | [] => none
  | x :: xs => some (xs.foldl (fun a b => if a < b then b else a) x)

def least? : List Float → Option Float
  | [] => none
  | x :: xs => some (xs.foldl (fun a b => if b < a then b else a) x)

end SmellLint.Decimal
