/-!
# Blanks and lines

## Blank characters

The characters that count as white space when text is trimmed, and trimming itself.  The class is
the one of the Unicode standard's white-space property together with the four information
separators `U+001C` … `U+001F`, so that it is larger than that of `Char.isWhitespace`.
-/

namespace SmellLint.Text

/-- Whether `c` is white space. -/
def isBlank (c : Char) : Bool :=
  let n := c.toNat
  (9 ≤ n && n ≤ 13) || (28 ≤ n && n ≤ 32) || n == 0x85 || n == 0xA0 || n == 0x1680 ||
    (0x2000 ≤ n && n ≤ 0x200A) || n == 0x2028 || n == 0x2029 || n == 0x202F || n == 0x205F ||
    n == 0x3000

/-- Whether `c` ends a line when text is cut into lines for display. -/
def isLineBreak (c : Char) : Bool :=
  let n := c.toNat
  (10 ≤ n && n ≤ 13) || (28 ≤ n && n ≤ 30) || n == 0x85 || n == 0x2028 || n == 0x2029

/-- Drops characters that `p` accepts from both ends. -/
def trimWith (p : Char → Bool) (cs : List Char) : List Char :=
  ((cs.dropWhile p).reverse.dropWhile p).reverse

def trimChars (cs : List Char) : List Char := trimWith isBlank cs

def trim (s : String) : String := String.ofList (trimChars s.toList)

/-- A text with nothing but white space in it. -/
def isBlankText (s : String) : Bool := s.toList.all isBlank

/-!
## Lines

Three ways to see a text as lines, each used where its own rule applies:

* `unifyNewlines` is what reading a text file does: `\r\n` and a lone `\r` become `\n`;
* `splitOn` cuts at one separator character and keeps every piece, the empty ones too, so that
  joining the pieces gives the text back;
* `displayLines` cuts at every character of `isLineBreak` (with `\r\n` as one break) and has no
  empty last piece, and `linesKeepingEnds` cuts after each `\n` and keeps it.
-/

def unifyNewlineChars : List Char → List Char
  | [] => []
  | '\r' :: '\n' :: r => '\n' :: unifyNewlineChars r
  | c :: r => (if c = '\r' then '\n' else c) :: unifyNewlineChars r

def unifyNewlines (s : String) : String := String.ofList (unifyNewlineChars s.toList)

theorem unifyNewlineChars_of_not_mem {cs : List Char} (h : '\r' ∉ cs) :
    unifyNewlineChars cs = cs := by
  induction cs with
  | nil => rfl
  | cons c r ih =>
    rw [List.mem_cons, not_or] at h
    rw [unifyNewlineChars.eq_3 c r fun _ hc _ => h.1 hc.symm, if_neg (Ne.symm h.1), ih h.2]

/-- Cuts a list at every element that `p` accepts; always has at least one piece. -/
def splitChars (p : Char → Bool) : List Char → List (List Char)
  | [] => [[]]
  | c :: r =>
    match splitChars p r with
    | [] => [[c]]
    | piece :: pieces => if p c then [] :: piece :: pieces else (c :: piece) :: pieces

def splitOn (sep : Char) (s : String) : List String :=
  (splitChars (· == sep) s.toList).map String.ofList

/-- Printed text as lines: cut at `\n`, where a final `\n` adds no empty line. -/
def printedLines (s : String) : List String :=
  match (splitOn '\n' s).reverse with
  | "" :: r => r.reverse
  | r => r.reverse

/-- Cuts after each `\n` and keeps it; a text that ends in `\n` has no empty last line. -/
def linesKeepingEndChars : List Char → List (List Char)
  | [] => []
  | c :: r =>
    if c = '\n' then [c] :: linesKeepingEndChars r
    else
      match linesKeepingEndChars r with
      | [] => [[c]]
      | line :: lines => (c :: line) :: lines

/-- Cuts after each `\n` and keeps it; a text that ends in `\n` has no empty last line. -/
def linesKeepingEnds (s : String) : List String :=
  (linesKeepingEndChars s.toList).map String.ofList

/-- Cuts at every line-breaking character, with `\r\n` as one break. -/
def displayLineChars : List Char → List (List Char)
  | [] => []
  | '\r' :: '\n' :: r => [] :: displayLineChars r
  | c :: r =>
    if isLineBreak c then [] :: displayLineChars r
    else
      match r, displayLineChars r with
      | [], _ => [[c]]
      | _, [] => [[c]]
      | _, line :: lines => (c :: line) :: lines

/-- The lines of `s` as shown to a reader, without their ends. -/
def displayLines (s : String) : List String := (displayLineChars s.toList).map String.ofList

/-- Whether `p` starts the list; if so, what follows it. -/
def dropStart? : List Char → List Char → Option (List Char)
  | [], cs => some cs
  | _ :: _, [] => none
  | p :: ps, c :: cs => if p = c then dropStart? ps cs else none

def occursIn (needle : List Char) : List Char → Bool
  | [] => needle.isEmpty
  | c :: r => (dropStart? needle (c :: r)).isSome || occursIn needle r

def contains (text needle : String) : Bool := occursIn needle.toList text.toList

/-- Replaces every occurrence of `old`, which is not empty, by `new`, from left to right. -/
def replaceChars (old new : List Char) (fuel : Nat) (cs : List Char) : List Char :=
  match fuel, cs with
  | 0, cs => cs
  | _, [] => []
  | fuel + 1, c :: r =>
    match dropStart? old (c :: r) with
    | some rest => new ++ replaceChars old new fuel rest
    | none => c :: replaceChars old new fuel r

/-- Replaces every occurrence of `old`, which is not empty, by `new`, from left to right. -/
def replaceAll (s old new : String) : String :=
  if old.isEmpty then s
  else String.ofList (replaceChars old.toList new.toList s.toList.length s.toList)

/-- What precedes and what follows the first occurrence of `needle`. -/
def splitAtFirst? (needle : List Char) : List Char → Option (List Char × List Char)
  | [] => if needle.isEmpty then some ([], []) else none
  | c :: r =>
    match dropStart? needle (c :: r) with
    | some rest => some ([], rest)
    | none => (splitAtFirst? needle r).map fun (a, b) => (c :: a, b)

/-!
## Filling lines

Words are put on lines as long as they fit.
-/

/-- The words of `s`: what stands between blanks. -/
def words (s : String) : List String :=
  ((splitChars isBlank s.toList).filter fun w => !w.isEmpty).map String.ofList

/-- Puts words on lines.  `used` is the length of the line so far with a blank after it, `line`
holds its words in reverse. -/
def fill (width start used : Nat) (line : List String) : List String → List String
  | [] => if line.isEmpty then [] else [" ".intercalate line.reverse]
  | w :: r =>
    if width < used + w.length && !line.isEmpty then
      " ".intercalate line.reverse :: fill width start (start + w.length + 1) [w] r
    else fill width start (used + w.length + 1) (w :: line) r

/-- `s` as lines of at most `width` characters, cut between words. -/
def wrap (width : Nat) (s : String) : List String := fill width 0 0 [] (words s)

end SmellLint.Text
