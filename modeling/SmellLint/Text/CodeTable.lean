import SmellLint.Text.Lines
import SmellLint.Text.Packed

/-!
# Tables over characters

A table that says something of single characters is kept as text: blocks of entries with semicolons
between them, for characters that follow each other.
-/

namespace SmellLint.Text

/-- Blocks of entries: the first code point, and the entries of it and of those that follow, in
rows, separated by semicolons.  A code point of which the table says nothing has the empty entry. -/
abbrev CodeTable := List (Nat × List String)

def rowEntries (rows : List String) : List String := rows.flatMap (splitOn ';')

/-- The entry of the code point `n`; the empty one if the table has none. -/
def CodeTable.entry (table : CodeTable) (n : Nat) : String :=
  match (table.takeWhile fun (first, _) => first ≤ n).getLast? with
  | some (first, rows) => (rowEntries rows).getD (n - first) ""
  | none => ""

/-- The value of hexadecimal digits in lower case. -/
def hexValue (digits : List Char) : Nat :=
  digits.foldl (fun n c => n * 16 + if c.isDigit then c.toNat - 48 else c.toNat - 87) 0

/-- The table that `p` packs: a line for each block, with the first code point in front. -/
def CodeTable.ofPacked (p : Packed) : CodeTable :=
  (splitOn '\n' p.text).map fun line =>
    let digits := line.toList.takeWhile (· != ';')
    (hexValue digits, [String.ofList (line.toList.drop (digits.length + 1))])

/-- The numbers of an entry: hexadecimal, with blanks between them. -/
def entryNumbers (entry : String) : List Nat :=
  if entry.isEmpty then [] else (splitOn ' ' entry).map fun digits => hexValue digits.toList

/-!
## Character classes by boundaries

A class of characters given by the sorted code points at which membership changes: the first
boundary starts the first run of members, the second is the first code point after it, and so on.
-/

/-- Boundaries by the distances from each to the next, in hexadecimal with blanks between them; the
first is its distance from zero. -/
def boundariesOf (distances : Packed) : Array Nat :=
  ((entryNumbers distances.text).foldl
    (fun (bounds, last) distance => (bounds.push (last + distance), last + distance)) (#[], 0)).1

/-- The number of boundaries up to `n`, which lies between `lo` and `hi`; `fuel` bounds the number
of halvings. -/
def countBoundaries (bounds : Array Nat) (n lo hi : Nat) : Nat → Nat
  | 0 => lo
  | fuel + 1 =>
    if lo < hi then
      let mid := (lo + hi) / 2
      if bounds.getD mid 0 ≤ n then countBoundaries bounds n (mid + 1) hi fuel
      else countBoundaries bounds n lo mid fuel
    else lo

/-- Whether `n` lies in the class with the boundaries `bounds`. -/
def inBoundaries (bounds : Array Nat) (n : Nat) : Bool :=
  countBoundaries bounds n 0 bounds.size bounds.size % 2 == 1

end SmellLint.Text
