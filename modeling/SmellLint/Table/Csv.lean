import SmellLint.Fault

/-!
# Comma-separated records

A text is cut into records of fields.  A field that starts with a quote runs to the closing quote,
with commas and line ends in it and a doubled quote for one; what follows the closing quote up to
the next comma belongs to the field as it stands.  Lines with nothing but blanks are skipped.
Writing quotes only the fields that need it.
-/

namespace SmellLint.Csv

/-- The fields of a record, and the number of the line that ends it, not counting line ends inside
quotes. -/
structure Record where
  line : Nat
  fields : List String

/-- Where in a field the scan is. -/
inductive State where
  | fieldStart
  | inField
  | inQuotes
  | quoteInQuotes
deriving DecidableEq

/-- What has been read of the current record: finished fields and the current one, both in
reverse. -/
structure Unfinished where
  fields : List String
  chars : List Char

/-- Ends the current field; its text ends before the first NUL in it. -/
def Unfinished.endField (p : Unfinished) : Unfinished :=
  ⟨String.ofList (p.chars.reverse.takeWhile (· != '\x00')) :: p.fields, []⟩

def Unfinished.finish (p : Unfinished) : List String := p.endField.fields.reverse

/-- Whether the line that `cs` starts with holds nothing but blanks; if so, what follows it. -/
def dropBlankLine? (cs : List Char) : Option (List Char) :=
  match cs.dropWhile fun c => c == ' ' || c == '\t' with
  | '\r' :: '\n' :: r => some r
  | '\r' :: r => some r
  | '\n' :: r => some r
  | _ => none

/-- Cuts a text into records.  `line` is the number of lines before the text, `state` and `part`
describe the record that is being read; `none` for `part` is the start of a record. -/
def scan (line : Nat) (state : State) (part : Option Unfinished) :
    Nat → List Char → Except Fault (List Record)
  | 0, _ => .ok []
  | fuel + 1, cs =>
    match part with
    | none =>
      match cs with
      | [] => .ok []
      | _ :: _ =>
        match dropBlankLine? cs with
        | some r => scan (line + 1) .fieldStart none fuel r
        | none =>
          -- blanks at the end of the text are no record either
          if cs.all fun c => c == ' ' || c == '\t' then .ok []
          else scan line .fieldStart (some ⟨[], []⟩) fuel cs
    | some p =>
      let push (c : Char) (next : State) (r : List Char) : Except Fault (List Record) :=
        scan line next (some { p with chars := c :: p.chars }) fuel r
      let finish (r : List Char) : Except Fault (List Record) := do
        let rest ← scan (line + 1) .fieldStart none fuel r
        return ⟨line + 1, p.finish⟩ :: rest
      match cs with
      | [] => if state = .inQuotes then .error (.openQuote line) else finish []
      | c :: r =>
        if state = .inQuotes then
          if c = '"' then scan line .quoteInQuotes part fuel r else push c .inQuotes r
        else if state = .quoteInQuotes && c = '"' then push c .inQuotes r
        else if c = '\n' then finish r
        else if c = '\r' then finish (if r.head? = some '\n' then r.drop 1 else r)
        else if c = ',' then scan line .fieldStart (some p.endField) fuel r
        else if state = .fieldStart && c = '"' then scan line .inQuotes part fuel r
        else push c .inField r

def records (text : String) : Except Fault (List Record) :=
  let cs := match text.toList with
    | '\ufeff' :: r => r
    | cs => cs
  scan 0 .fieldStart none (3 * cs.length + 3) cs

def needsQuotes (field : String) : Bool :=
  field.toList.any fun c => c == ',' || c == '"' || c == '\n'

def fieldText (field : String) : String :=
  if needsQuotes field then
    let doubled := field.toList.flatMap fun c => if c = '"' then ['"', '"'] else [c]
    "\"" ++ String.ofList doubled ++ "\""
  else field

/-- A record as it is written; a single empty field is quoted, so that its line is not blank. -/
def recordText (fields : List String) : String :=
  match fields with
  | [""] => "\"\"\n"
  | _ => ",".intercalate (fields.map fieldText) ++ "\n"

end SmellLint.Csv
