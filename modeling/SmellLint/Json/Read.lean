import SmellLint.Json.Basic
import SmellLint.Text.Integer
import SmellLint.Text.Utf8

/-!
# Reading JSON

`Json.parse` reads a text as one JSON value.  A text that is none is reported with what was expected
and where.  Of members with one name the last one counts, at the place of the first.  Whole numbers
have a greatest number of digits.
-/

namespace SmellLint.Json

/-- What is wrong with a text that is no JSON value. -/
inductive Expectation where
  | value
  | propertyName
  | colon
  | comma
  | endOfString
  | plainCharacter
  | escape
  | unicodeEscape
  | endOfData
  | noByteOrderMark
deriving DecidableEq

def Expectation.text : Expectation → String
  | .value => "Expecting value"
  | .propertyName => "Expecting property name enclosed in double quotes"
  | .colon => "Expecting ':' delimiter"
  | .comma => "Expecting ',' delimiter"
  | .endOfString => "Unterminated string starting at"
  | .plainCharacter => "Invalid control character at"
  | .escape => "Invalid \\escape"
  | .unicodeEscape => "Invalid \\uXXXX escape"
  | .endOfData => "Extra data"
  | .noByteOrderMark => "Unexpected UTF-8 BOM (decode using utf-8-sig)"

/-- A text that is no JSON value: what is wrong, and where. -/
structure ParseFault where
  expected : Expectation
  position : Nat
  line : Nat
  column : Nat
deriving DecidableEq

/-- How a text that is no JSON value is reported. -/
def ParseFault.message (f : ParseFault) : String :=
  s!"{f.expected.text}: line {f.line} column {f.column} (char {f.position})"

/-- Why a text is not read as a JSON value. -/
inductive ReadFault where
  | malformed (fault : ParseFault)
  /-- A whole number has too many digits. -/
  | tooLong (digits : Nat)
deriving DecidableEq

/-- What ends the reading: something else than expected at a character, or a whole number with too
many digits. -/
inductive Stop where
  | unexpected (expected : Expectation) (position : Nat)
  | tooLong (digits : Nat)

/-- A place in the text. -/
structure Point where
  position : Nat
  rest : List Char

def Point.next? (p : Point) : Option (Char × Point) :=
  match p.rest with
  | c :: r => some (c, ⟨p.position + 1, r⟩)
  | [] => none

def Point.drop (p : Point) (n : Nat) : Point := ⟨p.position + n, p.rest.drop n⟩

def isSeparator (c : Char) : Bool := c == ' ' || c == '\t' || c == '\n' || c == '\r'

def Point.skipSeparators (p : Point) : Point := p.drop (p.rest.takeWhile isSeparator).length

/-- The value of the four hexadecimal digits that `cs` starts with. -/
def fourHex? (cs : List Char) : Option Nat :=
  let digit (c : Char) : Option Nat :=
    if c.isDigit then some (c.toNat - 48)
    else if 'a' ≤ c && c ≤ 'f' then some (c.toNat - 87)
    else if 'A' ≤ c && c ≤ 'F' then some (c.toNat - 55)
    else none
  if cs.length < 4 then none
  else (cs.take 4).foldl (fun n c => do return (← n) * 16 + (← digit c)) (some 0)

def simpleEscape? : Char → Option Char
  | '"' => some '"'
  | '\\' => some '\\'
  | '/' => some '/'
  | 'b' => some '\x08'
  | 'f' => some '\x0c'
  | 'n' => some '\n'
  | 'r' => some '\r'
  | 't' => some '\t'
  | _ => none

/-- A unicode escape after its letter: the character and how many characters it takes. -/
def unicodeEscape (at' : Nat) (cs : List Char) : Except Stop (Char × Nat) :=
  -- a character has to follow the digits
  if cs.length < 5 then .error (.unexpected .unicodeEscape at')
  else
    match fourHex? cs with
    | none => .error (.unexpected .unicodeEscape at')
    | some n =>
      if Text.isHighCode n && 10 < cs.length && (cs.drop 4).take 2 == ['\\', 'u'] then
        match fourHex? (cs.drop 6) with
        | none => .error (.unexpected .unicodeEscape (at' + 6))
        | some m =>
          if Text.isLowCode m then .ok (Char.ofNat (Text.joinedCode n m), 10)
          else .ok (Text.charOfCode n, 4)
      else .ok (Text.charOfCode n, 4)

/-- The rest of a string after its opening quote, which stands at `start`. -/
def stringRest (start : Nat) : Nat → Point → Except Stop (List Char × Point)
  | 0, _ => .error (.unexpected .endOfString start)
  | fuel + 1, p =>
    match p.next? with
    | none => .error (.unexpected .endOfString start)
    | some (c, q) =>
      if c = '"' then .ok ([], q)
      else if c = '\\' then
        match q.next? with
        | none => .error (.unexpected .endOfString start)
        | some ('u', r) => do
          let (d, n) ← unicodeEscape q.position r.rest
          let (cs, r) ← stringRest start fuel (r.drop n)
          return (d :: cs, r)
        | some (e, r) =>
          match simpleEscape? e with
          | none => .error (.unexpected .escape p.position)
          | some d => do
            let (cs, r) ← stringRest start fuel r
            return (d :: cs, r)
      else if c.toNat ≤ 0x1F then .error (.unexpected .plainCharacter p.position)
      else do
        let (cs, r) ← stringRest start fuel q
        return (c :: cs, r)

def digitsValue (cs : List Char) : Nat := cs.foldl (fun n c => n * 10 + (c.toNat - 48)) 0

/-- Whether a number starts with a minus sign, and what follows it. -/
def signAndBody : List Char → Bool × List Char
  | '-' :: r => (true, r)
  | cs => (false, cs)

/-- The digits of a number before its point: a single zero, or digits that start with another. -/
def wholeDigits : List Char → List Char
  | '0' :: _ => ['0']
  | cs => cs.takeWhile Char.isDigit

/-- The digits of a number after its point. -/
def fractionDigits : List Char → List Char
  | '.' :: r => r.takeWhile Char.isDigit
  | _ => []

/-- The digits of an exponent, whether it is negative, and how many characters its sign takes. -/
def exponentParts : List Char → List Char × Bool × Nat
  | e :: r =>
    if e = 'e' || e = 'E' then
      match r with
      | '+' :: r => (r.takeWhile Char.isDigit, false, 1)
      | '-' :: r => (r.takeWhile Char.isDigit, true, 1)
      | r => (r.takeWhile Char.isDigit, false, 0)
    else ([], false, 0)
  | [] => ([], false, 0)

/-- The number that `cs` starts with, and how many characters it takes. -/
def number (cs : List Char) : Except Stop (Option (Json × Nat)) :=
  let (negative, body) := signAndBody cs
  let whole := wholeDigits body
  if whole.isEmpty then .ok none
  else
    let afterWhole := body.drop whole.length
    let fraction := fractionDigits afterWhole
    let fractionLength := if fraction.isEmpty then 0 else fraction.length + 1
    let (exponentDigits, exponentSign, signLength) := exponentParts (afterWhole.drop fractionLength)
    let exponentLength :=
      if exponentDigits.isEmpty then 0 else exponentDigits.length + signLength + 1
    let length := (if negative then 1 else 0) + whole.length + fractionLength + exponentLength
    if fraction.isEmpty && exponentDigits.isEmpty then
      if Text.maxIntegerDigits < whole.length then .error (.tooLong whole.length)
      else
        let n : Int := digitsValue whole
        .ok (some (.int (if negative then -n else n), length))
    else
      let e : Int := digitsValue exponentDigits
      let e := (if exponentSign then -e else e) - (fraction.length : Int)
      let x := Decimal.nearestFloat (digitsValue (whole ++ fraction)) e
      .ok (some (.float (if negative then -x else x), length))

def words : List (List Char × Json) :=
  [("null".toList, .null), ("true".toList, .bool true), ("false".toList, .bool false),
   ("NaN".toList, .float (0.0 / 0.0)), ("Infinity".toList, .float (1.0 / 0.0)),
   ("-Infinity".toList, .float (-1.0 / 0.0))]

/-- Adds the member `key` to an object; a name that is there already keeps its place. -/
def setMember (members : List (String × Json)) (key : String) (value : Json) :
    List (String × Json) :=
  Keyed.alterEntries key (fun _ => value) members

mutual

def valueAt : Nat → Point → Except Stop (Json × Point)
  | 0, p => .error (.unexpected .value p.position)
  | fuel + 1, p =>
    match p.next? with
    | none => .error (.unexpected .value p.position)
    | some ('"', q) => do
      let (cs, r) ← stringRest p.position (q.rest.length + 1) q
      return (.str (String.ofList cs), r)
    | some ('[', q) =>
      let q := q.skipSeparators
      match q.next? with
      | some (']', r) => .ok (.arr [], r)
      | _ => do
        let (items, r) ← itemsAt fuel q
        return (.arr items, r)
    | some ('\x7b', q) =>
      let q := q.skipSeparators
      match q.next? with
      | some ('\x7d', r) => .ok (.obj [], r)
      | _ => do
        let (members, r) ← membersAt fuel [] q
        return (.obj members, r)
    | some _ =>
      match words.find? fun w => w.1.isPrefixOf p.rest with
      | some (w, j) => .ok (j, p.drop w.length)
      | none => do
        match ← number p.rest with
        | some (j, n) => return (j, p.drop n)
        | none => .error (.unexpected .value p.position)

/-- The items of an array from a place on. -/
def itemsAt : Nat → Point → Except Stop (List Json × Point)
  | 0, p => .error (.unexpected .value p.position)
  | fuel + 1, p => do
    let (j, q) ← valueAt fuel p
    let q := q.skipSeparators
    match q.next? with
    | some (']', r) => return ([j], r)
    | some (',', r) =>
      let (js, r) ← itemsAt fuel r.skipSeparators
      return (j :: js, r)
    | _ => throw (.unexpected .comma q.position)

/-- The members of an object from a place on, added to those before it. -/
def membersAt : Nat → List (String × Json) → Point → Except Stop (List (String × Json) × Point)
  | 0, _, p => .error (.unexpected .propertyName p.position)
  | fuel + 1, before, p => do
    match p.next? with
    | some ('"', q) =>
      let (key, q) ← stringRest p.position (q.rest.length + 1) q
      let q := q.skipSeparators
      match q.next? with
      | some (':', r) =>
        let (j, q) ← valueAt fuel r.skipSeparators
        let members := setMember before (String.ofList key) j
        let q := q.skipSeparators
        match q.next? with
        | some ('\x7d', r) => return (members, r)
        | some (',', r) => membersAt fuel members r.skipSeparators
        | _ => throw (.unexpected .comma q.position)
      | _ => throw (.unexpected .colon q.position)
    | _ => throw (.unexpected .propertyName p.position)

end

def lineAndColumn (cs : List Char) (position : Nat) : Nat × Nat :=
  let before := cs.take position
  (before.count '\n' + 1, (before.reverse.takeWhile (· != '\n')).length + 1)

def parseChars (cs : List Char) : Except ReadFault Json :=
  let fail : Stop → ReadFault
    | .unexpected expected position =>
      let (line, column) := lineAndColumn cs position
      .malformed ⟨expected, position, line, column⟩
    | .tooLong digits => .tooLong digits
  if cs.head? = some '\ufeff' then .error (fail (.unexpected .noByteOrderMark 0))
  else
    match valueAt (2 * cs.length + 2) (Point.mk 0 cs).skipSeparators with
    | .error stop => .error (fail stop)
    | .ok (j, p) =>
      let p := p.skipSeparators
      if p.rest.isEmpty then .ok j else .error (fail (.unexpected .endOfData p.position))

def parse (s : String) : Except ReadFault Json := parseChars s.toList

/-!
## Bytes of JSON texts

A JSON text that comes as bytes tells by its first ones how its characters are written: since it
starts with ASCII characters, zero bytes show how many bytes a character takes and in which order.
-/

/-- How characters are written as bytes; wide ones start with the high byte or with the low one. -/
inductive Encoding where
  | utf8
  | utf16 (highFirst : Bool)
  | utf32 (highFirst : Bool)
deriving DecidableEq

namespace Encoding

/-- The encoding that the first bytes show. -/
def detect : List UInt8 → Encoding
  | 0 :: 0 :: _ :: _ :: _ => .utf32 true
  | 0 :: _ :: _ :: _ :: _ => .utf16 true
  | _ :: 0 :: 0 :: 0 :: _ => .utf32 false
  | _ :: 0 :: _ :: _ :: _ => .utf16 false
  | [0, _] => .utf16 true
  | [_, 0] => .utf16 false
  | _ => .utf8

def pair (highFirst : Bool) (a b : UInt8) : Nat :=
  if highFirst then a.toNat * 256 + b.toNat else b.toNat * 256 + a.toNat

/-- Bytes as numbers of two bytes; an odd byte is left over. -/
def units? (highFirst : Bool) : List UInt8 → Option (List Nat)
  | [] => some []
  | [_] => none
  | a :: b :: r => (units? highFirst r).map (pair highFirst a b :: ·)

/-- The code points of UTF-16 units; half of a pair may stand alone. -/
def joinPairs : List Nat → List Nat
  | high :: low :: r =>
    if Text.isHighCode high && Text.isLowCode low then Text.joinedCode high low :: joinPairs r
    else high :: joinPairs (low :: r)
  | ns => ns
termination_by ns => ns.length

/-- Numbers of two bytes as numbers of four. -/
def codes? (highFirst : Bool) : List Nat → Option (List Nat)
  | [] => some []
  | [_] => none
  | a :: b :: r => do
    let n := if highFirst then a * 0x10000 + b else b * 0x10000 + a
    if n < 0x110000 then return n :: (← codes? highFirst r) else none

/-- The text that `bytes` stand for; a mark of the byte order before UTF-8 is dropped. -/
def decode? (e : Encoding) (bytes : List UInt8) : Option String :=
  match e with
  | .utf8 =>
    match Text.Utf8.decodeFrom 0 0 bytes with
    | .ok cs => some (String.ofList (if cs.head? = some '\ufeff' then cs.tail else cs))
    | .error _ => none
  | .utf16 highFirst =>
    (units? highFirst bytes).map fun ns => String.ofList ((joinPairs ns).map Text.charOfCode)
  | .utf32 highFirst => do
    let ns ← codes? highFirst (← units? highFirst bytes)
    return String.ofList (ns.map Text.charOfCode)

end Encoding

/-- The text of a JSON document that comes as bytes. -/
def textOfBytes? (bytes : List UInt8) : Option String := (Encoding.detect bytes).decode? bytes

end SmellLint.Json
