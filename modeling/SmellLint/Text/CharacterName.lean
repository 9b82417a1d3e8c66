import SmellLint.Text.Name.Table
import SmellLint.Text.NormalForm

/-!
# Characters by name

The character that has a name of the Unicode standard (version 14).  Most names stand in a table and
are found without regard to case.  The names of ideographs end in their code points, and those of
Hangul syllables are spelled from the letters; both have to be written in capitals.
-/

namespace SmellLint.Text

/-! ## Names in the table -/

/-- The word that is `steps` after `word`, which ends in a number or a letter. -/
def advanceWord (word : String) (steps : Nat) : String :=
  let cs := word.toList
  let digits := (cs.reverse.takeWhile Char.isDigit).reverse
  match digits, cs.getLast? with
  | [], some c => String.ofList (cs.dropLast ++ [Char.ofNat (c.toNat + steps)])
  | [], none => word
  | _, _ =>
    let number := toString (Nat.ofDigitChars 10 digits 0 + steps)
    let zeros := List.replicate (digits.length - number.length) '0'
    String.ofList (cs.take (cs.length - digits.length) ++ zeros) ++ number

/-- Where the reading of the table stands: the next code point, how many leading words the last
entry has taken from the name before it, and the words of the last name. -/
structure NameReader where
  code : Nat := 0
  leading : Nat := 0
  before : List String := []

/-- The names that an entry stands for, and the reading after it.  `=` and a code point say where
the names go on.  The empty entry is a code point without a name.  `+` and a number are as many
names that count on in the last word.  Any other entry is one name: the number of leading words that
it takes from the name before, if that is not the number of the last entry, its own words, and after
a colon the number of closing words that it takes from there. -/
def NameReader.read (r : NameReader) (entry : String) : List (List String) × NameReader :=
  match entry.toList with
  | [] => ([[]], { r with code := r.code + 1 })
  | '=' :: digits => ([], { code := hexValue (digits.map Char.toLower) })
  | '+' :: digits =>
    let count := if digits.isEmpty then 1 else Nat.ofDigitChars 10 digits 0
    let names := (List.range count).map fun i =>
      r.before.dropLast ++ [advanceWord (r.before.getLast?.getD "") (i + 1)]
    (names, { r with code := r.code + count, before := names.getLast?.getD [] })
  | c :: rest =>
    -- no name starts with a digit
    let (leading, own) := if c.isDigit then (c.toNat - 48, rest) else (r.leading, c :: rest)
    let words := splitOn ' ' (String.ofList (own.takeWhile (· != ':')))
    let closing := Nat.ofDigitChars 10 (own.drop (own.takeWhile (· != ':')).length).tail 0
    let name := r.before.take leading ++ words ++ r.before.drop (r.before.length - closing)
    ([name], { code := r.code + 1, leading, before := name })

/-- The code point with `name` among those of entries. -/
def findName? (name : List String) (r : NameReader) : List String → Option Nat
  | [] => none
  | entry :: entries =>
    let (names, next) := r.read entry
    match names.idxOf? name with
    | some k => some (r.code + k)
    | none => findName? name next entries

def nameEntries : Thunk (List String) := .mk fun _ => splitOn ';' nameTable.text

def tableCode? (name : List String) : Option Nat := findName? name {} nameEntries.get

/-! ## Names that end in the code point -/

def capitalHex? (digits : List Char) : Option Nat :=
  if digits.all fun c => c.isDigit || ('A' ≤ c && c ≤ 'F') then
    some (hexValue (digits.map Char.toLower))
  else none

/-- Names that end in the code point, with their first and last. -/
def numberedRuns : List (String × Nat × Nat) :=
  [("CJK COMPATIBILITY IDEOGRAPH-", 0xf900, 0xfa6d),
   ("CJK COMPATIBILITY IDEOGRAPH-", 0xfa70, 0xfad9),
   ("CJK COMPATIBILITY IDEOGRAPH-", 0x2f800, 0x2fa1d),
   ("KHITAN SMALL SCRIPT CHARACTER-", 0x18b00, 0x18cd5),
   ("NUSHU CHARACTER-", 0x1b170, 0x1b2fb)]

/-- The code point of a name that ends in it, in the digits that it needs. -/
def numberedCode? (name : String) : Option Nat :=
  numberedRuns.findSome? fun (start, first, last) =>
    match dropStart? start.toList name.toList with
    | some ('0' :: _) => none
    | some digits =>
      match capitalHex? digits with
      | some n => if first ≤ n && n ≤ last then some n else none
      | none => none
    | none => none

def ideographRuns : List (Nat × Nat) :=
  [(0x3400, 0x4dbf), (0x4e00, 0x9fff), (0x20000, 0x2a6df), (0x2a700, 0x2b738),
   (0x2b740, 0x2b81d), (0x2b820, 0x2cea1), (0x2ceb0, 0x2ebe0), (0x30000, 0x3134a)]

/-- The unified ideograph with four or five digits. -/
def ideographCode? (digits : List Char) : Option Nat :=
  if digits.length = 4 || digits.length = 5 then
    match capitalHex? digits with
    | some n => if ideographRuns.any fun (a, b) => a ≤ n && n ≤ b then some n else none
    | none => none
  else none

/-! ## Hangul syllables -/

/-- The names of the leading, middle and closing letters. -/
def leadNames : List String :=
  ["G", "GG", "N", "D", "DD", "R", "M", "B", "BB", "S", "SS", "", "J", "JJ", "C", "K", "T", "P",
   "H"]
def vowelNames : List String :=
  ["A", "AE", "YA", "YAE", "EO", "E", "YEO", "YE", "O", "WA", "WAE", "OE", "YO", "U", "WEO", "WE",
   "WI", "YU", "EU", "YI", "I"]
def tailNames : List String :=
  ["", "G", "GG", "GS", "N", "NJ", "NH", "D", "L", "LG", "LM", "LB", "LS", "LT", "LP", "LH", "M",
   "B", "BS", "S", "SS", "NG", "J", "C", "K", "T", "P", "H"]

/-- The longest of `names` that `cs` starts with: its place, and what follows it. -/
def longestName? (names : List String) (cs : List Char) : Option (Nat × List Char) :=
  (names.zipIdx.foldl (fun best (name, i) =>
    match dropStart? name.toList cs, best with
    | some rest, some (_, shortest) =>
      if rest.length < shortest.length then some (i, rest) else best
    | some rest, none => some (i, rest)
    | none, _ => best) (none : Option (Nat × List Char)))

def syllableCode? (spelling : List Char) : Option Nat := do
  let (lead, rest) ← longestName? leadNames spelling
  let (vowel, rest) ← longestName? vowelNames rest
  let (tail, rest) ← longestName? tailNames rest
  if rest.isEmpty then some (syllableBase + (lead * vowelCount + vowel) * tailCount + tail)
  else none

/-! ## All names -/

def codeNamed? (name : String) : Option Nat :=
  match dropStart? "HANGUL SYLLABLE ".toList name.toList,
      dropStart? "CJK UNIFIED IDEOGRAPH-".toList name.toList with
  | some spelling, _ => syllableCode? spelling
  | none, some digits => ideographCode? digits
  | none, none =>
    let name := name.toUpper
    if name.isEmpty then none
    else
      (tableCode? (splitOn ' ' name)).orElse fun _ => numberedCode? name

def charNamed? (name : String) : Option Char := (codeNamed? name).map Char.ofNat

end SmellLint.Text
