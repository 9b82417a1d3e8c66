import SmellLint.Text.Lines

/-!
# Whole numbers

## Decimal digits

The decimal digits of all scripts (Unicode standard, version 14): each script has its ten digits in
a row.
-/

namespace SmellLint.Text

def zeros : List Nat := [
  0x30, 0x660, 0x6f0, 0x7c0, 0x966, 0x9e6, 0xa66, 0xae6, 0xb66, 0xbe6, 0xc66, 0xce6, 0xd66, 0xde6,
  0xe50, 0xed0, 0xf20, 0x1040, 0x1090, 0x17e0, 0x1810, 0x1946, 0x19d0, 0x1a80, 0x1a90, 0x1b50,
  0x1bb0, 0x1c40, 0x1c50, 0xa620, 0xa8d0, 0xa900, 0xa9d0, 0xa9f0, 0xaa50, 0xabf0, 0xff10, 0x104a0,
  0x10d30, 0x11066, 0x110f0, 0x11136, 0x111d0, 0x112f0, 0x11450, 0x114d0, 0x11650, 0x116c0,
  0x11730, 0x118e0, 0x11950, 0x11c50, 0x11d50, 0x11da0, 0x16a60, 0x16ac0, 0x16b50, 0x1d7ce,
  0x1d7d8, 0x1d7e2, 0x1d7ec, 0x1d7f6, 0x1e140, 0x1e2f0, 0x1e950, 0x1fbf0]

def digitValue? (c : Char) : Option Nat :=
  (zeros.find? fun z => z ≤ c.toNat && c.toNat < z + 10).map (c.toNat - ·)

def isDecimalDigit (c : Char) : Bool := (digitValue? c).isSome

def decimalValue (digits : List Char) : Nat :=
  digits.foldl (fun n c => n * 10 + (digitValue? c).getD 0) 0

/-!
## Reading whole numbers

A whole number is written in decimal digits of any script, with a sign in front or not, and with
blanks around it.  Single underscores may stand between digits.  More digits than `maxIntegerDigits`
are refused.
-/

/-- Most digits of a whole number that is read from text. -/
def maxIntegerDigits : Nat := 4300

/-- Why a text is no whole number. -/
inductive IntegerFault where
  | malformed
  | tooLong (digits : Nat)

/-- Blanks that may stand around a whole number; the separators of the ASCII set are none. -/
def isIntegerBlank (c : Char) : Bool := isBlank c && !(0x1c ≤ c.toNat && c.toNat ≤ 0x1f)

/-- Digits with single underscores between them: the digits and what follows, or `none` if an
underscore stands where none may.  `afterDigit` tells whether a digit came last. -/
def groupedDigits? (afterDigit : Bool) : List Char → Option (List Char × List Char)
  | [] => if afterDigit then some ([], []) else none
  | c :: r =>
    if isDecimalDigit c then
      (groupedDigits? true r).map fun (digits, rest) => (c :: digits, rest)
    else if c = '_' then if afterDigit then groupedDigits? false r else none
    else if afterDigit then some ([], c :: r)
    else none

/-- The value of digits that stand alone; too many of them are refused before what follows them is
looked at. -/
def readMagnitude (cs : List Char) : Except IntegerFault Nat :=
  match groupedDigits? false cs with
  | none => .error .malformed
  | some (digits, rest) =>
    if maxIntegerDigits < digits.length then .error (.tooLong digits.length)
    else if rest.all isIntegerBlank then .ok (decimalValue digits)
    else .error .malformed

def readInt (s : String) : Except IntegerFault Int :=
  match s.toList.dropWhile isIntegerBlank with
  | '-' :: r => (readMagnitude r).map fun n => -(n : Int)
  | '+' :: r => (readMagnitude r).map fun n => (n : Int)
  | cs => (readMagnitude cs).map fun n => (n : Int)

end SmellLint.Text
