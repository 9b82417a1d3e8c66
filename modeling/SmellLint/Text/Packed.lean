/-!
# Packed texts

Texts that are long and say the same again and again are kept in a short form: the digits that an
arithmetic coder makes of the text.  A character is seven bits.  The chance of each bit is foretold
by how it has come before in the same surroundings: after the same one to six characters, in the
same word, below the same characters or words of the entry before, and where the same character is
expected because the text repeats itself.  These forecasts are weighed together, and those that were
right gain weight.
-/

namespace SmellLint.Text

def packedDigits : List Char :=
  "/!$%&'()*+,@.0123456789:;<=>?ABCDEFGHIJKLMNOPQRSTUVWXYZ[]^_`abcdefghijklmnopqrstuvwxyz|~".toList

/-- How many digits there are, and the least width of the range in which a bit is told. -/
def packedBase : Nat := 88
def leastWidth : Nat := 5277319168

/-! ## Chances -/

/-- What a chance is a part of. -/
def chanceBase : Nat := 65536

/-- The chances at odds from the worst to the best. -/
def chancePoints : Array Nat := #[
  21, 36, 59, 98, 162, 266, 438, 720, 1178, 1921, 3108, 4971, 7812, 11955, 17625, 24742, 32768,
  40793, 47910, 53580, 57723, 60564, 62427, 63614, 64357, 64815, 65097, 65269, 65373, 65437,
  65476, 65499, 65514]

/-- The chance at `odds`, which are kept on a logarithmic scale. -/
def chanceOf (odds : Int) : Nat :=
  let above := if odds < -2047 then 1 else if 2047 < odds then 4095 else (odds + 2048).toNat
  let rest := above % 128
  (chancePoints.getD (above / 128) 0 * (128 - rest) +
    chancePoints.getD (above / 128 + 1) 0 * rest) / 128

/-- The odds of chances, by their first twelve bits. -/
def oddsTable : Array Int :=
  (List.range 4095).foldl (fun table (i : Nat) =>
    let odds : Int := i - 2047
    table ++ Array.replicate (chanceOf odds / 16 + 1 - table.size) odds) #[]

/-- A chance that is learned: how often it was put to the test, up to five times, is kept with
it. -/
abbrev Forecast := Nat

def Forecast.fresh : Forecast := 8 * 32768

def Forecast.odds (f : Forecast) : Int := if f % 8 = 0 then 0 else oddsTable.getD (f / 128) 2047

def Forecast.learn (isOne : Bool) (f : Forecast) : Forecast :=
  let chance := f / 8
  let pace := 5 * (f % 8) + 6
  let chance :=
    if isOne then chance + (65535 - chance) * 5 / pace else chance - chance * 5 / pace
  8 * chance + min (f % 8 + 1) 5

/-! ## Surroundings -/

/-- How many forecasts there are for each kind of surroundings, and how many kinds there are. -/
def placeCount : Nat := 2097143
def kindCount : Nat := 11

def nextNumber (n k : Nat) : Nat := (n * 1009 + k) % 2147483647

/-- What stands before a character: the text so far, also with the last character first, a number of
the letters of the word that it is in, where its entry and the one before start, numbers of the
words of the entry and of the one before, how many words of that one an entry goes on with (the last
digit at the start of an entry), and where the last four characters stood before and how many have
been the same since. -/
structure Surroundings where
  text : Array Char := #[]
  before : List Char := []
  word : Nat := 0
  entry : Nat := 0
  lastEntry : Nat := 0
  words : Array Nat := #[]
  lastWords : Array Nat := #[]
  kept : Nat := 0
  twin : Nat := 0
  twinLength : Nat := 0

namespace Surroundings

def charAt (s : Surroundings) (i : Nat) : Nat := ((s.text[i]?).map Char.toNat).getD 0

/-- A number for the last `count` characters. -/
def run (s : Surroundings) (count : Nat) : Nat :=
  (s.before.take count).foldl (fun n c => nextNumber n c.toNat) count

/-- The surroundings after a character.  `seen` tells where texts of four characters ended last, and
learns where this one does. -/
def read (s : Surroundings) (c : Char) (seen : Array Nat) : Surroundings × Array Nat :=
  let isTwin := s.twin ≠ 0 && s.charAt s.twin == c.toNat
  let ⟨text, before, word, entry, lastEntry, words, lastWords, kept, twin, twinLength⟩ := s
  let size := text.size + 1
  let isEnd := c == ';' || c == '\n'
  let words := if c.isAlpha || word = 0 then words else words.push word
  let next : Surroundings := {
    text := text.push c
    before := c :: before
    word := if c.isAlpha then nextNumber word c.toNat else 0
    entry := if isEnd then size else entry
    lastEntry := if isEnd then entry else lastEntry
    words := if isEnd then #[] else words
    lastWords := if isEnd && !words.isEmpty then lastWords.extract 0 kept ++ words else lastWords
    kept := if size ≠ entry + 1 then kept else if c.isDigit then c.toNat - 48
      else if c == '=' then 0 else kept }
  let place := next.run 4 % placeCount
  let (twin, twinLength) := if isTwin then (twin + 1, twinLength + 1) else (seen.getD place 0, 0)
  ({ next with twin, twinLength }, seen.setIfInBounds place size)

/-- A number for each kind of surroundings. -/
def numbers (s : Surroundings) : List Nat :=
  let above (i : Nat) : Nat :=
    let place := s.lastEntry + (s.text.size - s.entry) + i
    if place < s.entry then s.charAt place else 0
  let last := s.charAt (s.text.size - 1)
  let expected := if s.twin = 0 then 0 else s.charAt s.twin
  [s.run 1, s.run 2, s.run 3, s.run 4, s.run 6, s.word,
    nextNumber (nextNumber (above 0) (above 1)) last, nextNumber expected (min s.twinLength 15),
    nextNumber s.word (s.lastWords.getD (s.words.size + s.kept) 0),
    nextNumber s.word (s.lastWords.getD 0 0), nextNumber (nextNumber s.word s.kept) s.words.size]

end Surroundings

/-- The places of the forecasts for surroundings with some numbers, at a node of a character: the
bits of the character before, after a one. -/
def placesAt (node : Nat) : Nat → List Nat → List Nat
  | _, [] => []
  | kind, n :: numbers =>
    (kind * placeCount + (n * 128 + node) % placeCount) :: placesAt node (kind + 1) numbers

/-- Adds up odds with the weights from four places on. -/
def weighed (weights : Array Int) : Nat → Nat → Nat → Nat → List Int → Int
  | _, _, _, _, [] => 0
  | i, j, k, l, odds :: rest =>
    (weights.getD i 0 + weights.getD j 0 + weights.getD k 0 + weights.getD l 0) * odds +
      weighed weights (i + 1) (j + 1) (k + 1) (l + 1) rest

/-- Changes the weights from a place on. -/
def reweighed : List Int → Nat → Array Int → Array Int
  | [], _, weights => weights
  | change :: rest, i, weights =>
    reweighed rest (i + 1) (weights.setIfInBounds i (weights.getD i 0 + change))

/-! ## Unpacking -/

/-- Where the unpacking of a text stands: what was learned, the digits that are left, and a number
in a range of some width. -/
structure Unpacker where
  forecasts : Array Forecast
  weights : Array Int
  digits : List Nat
  number : Nat
  width : Nat

/-- Takes digits until the range is wide enough. -/
def widened (number width : Nat) : List Nat → Nat × Nat × List Nat
  | [] => (number, width, [])
  | d :: ds =>
    if width < leastWidth then widened (number * packedBase + d) (width * packedBase) ds
    else (number, width, d :: ds)

/-- The next bit of a character, by the forecasts at some places and the weights from some places on
and, by how many of the forecasts have been tested, from one more. -/
def Unpacker.bit (u : Unpacker) (places : List Nat) (i j column l : Nat) : Bool × Unpacker :=
  let ⟨forecasts, weights, digits, number, width⟩ := u
  let found := places.map fun place => forecasts.getD place 0
  let odds := found.map Forecast.odds
  let k := kindCount * (272 + 16 * found.countP (· % 8 ≠ 0) + column)
  let chance := min 65520 (max 16 (chanceOf (weighed weights i j k l odds / 65536)))
  let part := width / chanceBase * chance
  let isOne := number < part
  let (number, width, digits) :=
    if isOne then widened number part digits else widened (number - part) (width - part) digits
  let error : Int := (if isOne then chanceBase else 0 : Nat) - chance
  let changes := odds.map (· * error / 140000)
  let forecasts := places.foldl
    (fun fs place => fs.setIfInBounds place (Forecast.learn isOne (fs.getD place 0))) forecasts
  let weights := [i, j, k, l].foldl (fun weights row => reweighed changes row weights) weights
  (isOne, ⟨forecasts, weights, digits, number, width⟩)

/-- The next character as a node; its forecasts have weights at each node, others after each
character, others in each of the first columns of an entry, and others in each of its first words.
-/
def Unpacker.node (s : Surroundings) (numbers : List Nat) : Nat → Nat → Unpacker → Nat × Unpacker
  | 0, node, u => (node, u)
  | n + 1, node, u =>
    let size := s.text.size
    let (isOne, u) := u.bit (placesAt node 0 numbers) (kindCount * node)
      (kindCount * (128 + s.charAt (size - 1))) (min 15 (size - s.entry))
      (kindCount * (256 + min 15 (s.words.size + s.kept)))
    u.node s numbers n (2 * node + isOne.toNat)

def Unpacker.chars : Nat → Surroundings → Array Nat → Unpacker → List Char
  | 0, s, _, _ => s.text.toList
  | n + 1, s, seen, u =>
    let (node, u) := u.node s s.numbers 7 1
    let (s, seen) := s.read (Char.ofNat (node - 128)) seen
    u.chars n s seen

/-- A text that is packed: how long it is, and the digits, which may stand in lines. -/
structure Packed where
  size : Nat
  digits : String

def Packed.text (p : Packed) : String :=
  let digits := (p.digits.toList.filter fun c => !c.isWhitespace).map packedDigits.idxOf
  let (number, width, digits) := widened 0 1 digits
  let weights := Array.replicate (kindCount * 128) (17000 : Int) ++
    Array.replicate (kindCount * 336) 0
  String.ofList (Unpacker.chars p.size {} (Array.replicate placeCount 0)
    ⟨Array.replicate (kindCount * placeCount) .fresh, weights, digits, number, width⟩)

end SmellLint.Text
