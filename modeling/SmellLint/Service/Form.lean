import SmellLint.Service.Analysis

/-!
# Targets and forms

## Percent escapes

In addresses and forms a byte can be written as a percent sign and two hexadecimal digits.
Escapes are read as UTF-8, where the replacement character stands for bytes that are no text.  A
percent sign that starts no escape stands for itself.
-/

namespace SmellLint.Text.Percent

def isHexDigit (c : Char) : Bool := c.isDigit || ('a' ≤ c && c ≤ 'f') || ('A' ≤ c && c ≤ 'F')

/-- The bytes of ASCII characters, with escapes read. -/
def bytes : List Char → List UInt8
  | '%' :: a :: b :: r =>
    if isHexDigit a && isHexDigit b then
      UInt8.ofNat (hexDigit a * 16 + hexDigit b) :: bytes r
    else UInt8.ofNat '%'.toNat :: bytes (a :: b :: r)
  | c :: r => UInt8.ofNat c.toNat :: bytes r
  | [] => []
termination_by cs => cs.length

def decodeRun (run : List Char) : List Char := Utf8.decodeLossy 0 (bytes run)

/-- Reads escapes; characters outside ASCII stand for themselves and end what is read as one.
`run` holds the ASCII characters before, the last one first. -/
def decodeAfter (run : List Char) : List Char → List Char
  | [] => decodeRun run.reverse
  | c :: r =>
    if c.toNat < 0x80 then decodeAfter (c :: run) r
    else decodeRun run.reverse ++ c :: decodeAfter [] r

def decode (cs : List Char) : List Char := decodeAfter [] cs

def escape (b : UInt8) : List Char := '%' :: (hex 2 b.toNat).toList.map Char.toUpper

end SmellLint.Text.Percent

/-!
## Targets of requests

What a request names is a path, after which a query or a fragment may stand.  The path starts with
one slash, names of the same or the upper directory are followed, and its escapes are read.
-/

namespace SmellLint.Http

/-- Follows the names `.` and `..`; the start of the path cannot be left. -/
def followDots (names : List String) : List String :=
  names.foldl (fun out name =>
    if name == "." then out
    else if name == ".." then if out == [""] then out else out.dropLast
    else out ++ [name]) []

/-- A path after the name of a server, if it starts with one. -/
def dropServer : List Char → List Char
  | '/' :: '/' :: r => r.dropWhile (· != '/')
  | cs => cs

def targetPath (target : String) : String :=
  let path := dropServer (target.toList.takeWhile fun c => c != '?' && c != '#')
  let names := Text.splitOn '/' (String.ofList ('/' :: path.dropWhile (· == '/')))
  let followed := "/".intercalate (followDots names)
  String.ofList (Text.Percent.decode (if followed.isEmpty then "/" else followed).toList)

/-!
## Forms

A form has entries: texts and uploaded files.  A form of texts alone is sent as one text, in which
names and values are escaped; `Form.fieldsOfText` reads such a text.  A file is sent in a part of
its own: `Form.received` tells what arrives of it.
-/

open Service

/-- What an entry of a form holds. -/
inductive Form.Value where
  | text (value : String)
  | file (upload : Upload)

/-- The entries of a form, in order. -/
structure Form where
  entries : List (String × Form.Value) := []

namespace Form

def make (fields : List (String × String)) (file : Option Upload) : Form :=
  ⟨fields.map (fun (name, value) => (name, .text value)) ++ file.toList.map (("file", .file ·))⟩

def value? (form : Form) (name : String) : Option Value := form.entries.reverse.lookup name

/-- The texts of a form, if it has no files. -/
def fields? (form : Form) : Option (List (String × String)) :=
  form.entries.mapM fun (name, value) =>
    match value with
    | .text s => some (name, s)
    | .file _ => none

/-! ### Fields as values -/

def valueText : Json → String
  | .str s => s
  | .bool b => if b then "true" else "false"
  | .null => ""
  | j => j.render

/-- Members as fields; each item of a list is a field of its own. -/
def fieldsOf (members : List (String × Json)) : List (String × String) :=
  members.flatMap fun (name, value) =>
    match value with
    | .arr items => items.map fun item => (name, valueText item)
    | value => [(name, valueText value)]

/-! ### Fields as text -/

def isPlain (c : Char) : Bool := c.isAlphanum || c == '_' || c == '.' || c == '-' || c == '~'

def escaped (s : String) : String :=
  String.ofList (s.toList.flatMap fun c =>
    if isPlain c then [c]
    else if c = ' ' then ['+']
    else (Text.Utf8.encode (String.singleton c)).flatMap Text.Percent.escape)

def textOfFields (fields : List (String × String)) : String :=
  "&".intercalate (fields.map fun (name, value) => escaped name ++ "=" ++ escaped value)

def unescaped (cs : List Char) : String :=
  String.ofList (Text.Percent.decode (cs.map fun c => if c = '+' then ' ' else c))

/-- The fields of a text.  Ampersands divide fields, and in what follows the last of them also
semicolons.  A field without a sign of equality has an empty value, or is left out if it is the
last.  `fuel` bounds the number of fields. -/
def fieldsFrom : Nat → List Char → List (String × String)
  | 0, _ => []
  | fuel + 1, cs =>
    let cs := cs.dropWhile fun c => c == '&' || c == ';'
    let separator := if cs.contains '&' then '&' else ';'
    let part := cs.takeWhile (· != separator)
    let rest := cs.dropWhile (· != separator)
    let name := part.takeWhile (· != '=')
    let value := (part.dropWhile (· != '=')).drop 1
    if cs.isEmpty || (rest.isEmpty && name.length = part.length) then []
    else (unescaped name, unescaped value) :: fieldsFrom fuel rest

/-- The fields of a text that is sent byte by byte. -/
def fieldsOfText (text : String) : List (String × String) :=
  let cs := (Text.Utf8.encode text).map fun b => Char.ofNat b.toNat
  fieldsFrom (cs.length + 1) cs

/-! ### Uploaded files -/

/-- A character of a file's name as it is sent. -/
def sentChar (c : Char) : List Char :=
  if c = '"' || (c.toNat < 0x20 && c != '\x1b') then
    Text.Percent.escape (UInt8.ofNat c.toNat)
  else [c]

/-- The name of a file; of a path that starts with a drive or a server it is the last name. -/
def lastName (name : String) : String :=
  let cs := name.toList
  if (cs.drop 1).take 2 == [':', '\\'] || cs.take 2 == ['\\', '\\'] then
    String.ofList (cs.reverse.takeWhile (· != '\\')).reverse
  else name

/-- `name` as it arrives: quotes and control characters are escaped. -/
def receivedName (name : String) : String := lastName (String.ofList (name.toList.flatMap sentChar))

def uploadText : UploadContent → String
  | .plain c =>
    match c.rawText with
    | .ok s => s
    | .error _ => String.ofList (c.toBytes.map fun b => Char.ofNat b.toNat)
  | .archive _ => "PK"

/-- An entry as it arrives.  A file without a name is no more than a text. -/
def Value.received : Value → Value
  | .text s => .text s
  | .file u =>
    if u.name.isEmpty then .text (uploadText u.content)
    else .file { u with name := receivedName u.name }

def received (form : Form) : Form := ⟨form.entries.map fun (name, value) => (name, value.received)⟩

end Form
end SmellLint.Http

/-!
## Forms in parts

A form with files is sent in parts, one to an entry, with a line between them that occurs in none.
A part has headers, an empty line and its content; a header tells the name of the entry, and for a
file also the name of the file.  Texts are handled byte by byte, a character for each byte.
-/

namespace SmellLint.Http.Multipart

/-! ### Headers with options -/

/-- Pieces of a text between semicolons; a semicolon between quotes divides nothing.  `inQuotes`
tells whether the text starts between quotes. -/
def pieces (inQuotes : Bool) : List Char → List (List Char)
  | [] => [[]]
  | c :: r =>
    if c = ';' && !inQuotes then [] :: pieces false r
    else
      match pieces (inQuotes != (c == '"')) r with
      | piece :: rest => (c :: piece) :: rest
      | [] => [[c]]

/-- What stands between quotes, where a backslash comes before a quote or another backslash. -/
def unescaped : List Char → List Char
  | '\\' :: c :: r => if c = '\\' || c = '"' then c :: unescaped r else '\\' :: unescaped (c :: r)
  | c :: r => c :: unescaped r
  | [] => []

def optionValue (cs : List Char) : List Char :=
  match Text.trimChars cs with
  | '"' :: r => if r.getLast? = some '"' then unescaped r.dropLast else '"' :: r
  | value => value

/-- The options after the first piece of `header`, by name in lower case. -/
def options (header : List Char) : List (String × List Char) :=
  ((pieces false header).drop 1).filterMap fun piece =>
    let name := piece.takeWhile (· != '=')
    if name.length = piece.length then none
    else some (Text.lower (String.ofList (Text.trimChars name)),
      optionValue (piece.drop (name.length + 1)))

/-- The text that divides the parts, as `contentType` gives it. -/
def boundary? (contentType : String) : Option (List Char) :=
  (options contentType.toList).lookup "boundary"

/-! ### Parts -/

/-- The bytes `cs` as text; bytes that are no text are taken as characters. -/
def textOf (cs : List Char) : String :=
  match Text.Utf8.decode (cs.map fun c => UInt8.ofNat c.toNat) with
  | .ok s => s
  | .error _ => String.ofList cs

/-- The headers of a part, by name in lower case. -/
abbrev Headers := List (String × List Char)

/-- What is found where a part has its headers. -/
inductive Head where
  /-- Something that is no header. -/
  | malformed
  /-- The text ends before the headers do. -/
  | cut
  | complete (headers : Headers) (rest : List Char)

def isNameChar (c : Char) : Bool := c.isAlphanum || "!#$%&'*+-.^_|~".contains c || c.toNat = 0x60

/-- Reads headers up to an empty line.  `fuel` bounds their number. -/
def readHead (headers : Headers) : Nat → List Char → Head
  | 0, _ => .cut
  | fuel + 1, cs =>
    let name := cs.takeWhile isNameChar
    match cs, cs.drop name.length with
    | '\r' :: '\n' :: rest, _ => .complete headers rest
    | ['\r'], _ | _, [] => .cut
    | _, ':' :: r =>
      let line := r.dropWhile (· == ' ')
      let value := line.takeWhile (· != '\r')
      match line.drop value.length with
      | '\r' :: '\n' :: rest =>
        if name.isEmpty then .malformed
        else readHead (headers ++ [(Text.lower (String.ofList name), value)]) fuel rest
      | [] | ['\r'] => .cut
      | _ => .malformed
    | _, _ => .malformed

/-- The content of a part, whether it is the last one, and what follows it; `none` if the text ends
before the part does. -/
def readContent (divider : List Char) (cs : List Char) : Option (List Char × Bool × List Char) :=
  match Text.dropStart? divider cs with
  | some ('\r' :: '\n' :: rest) => some ([], false, rest)
  | some ('-' :: '-' :: rest) => some ([], true, rest)
  | _ =>
    match cs with
    | [] => none
    | c :: r => (readContent divider r).map fun (content, more) => (c :: content, more)

/-- The entry that a part stands for, if its `headers` name one. -/
def entryOf (headers : Headers) (content : List Char) : Option (String × Form.Value) := do
  let told := options ((headers.reverse.lookup "content-disposition").getD [])
  let name ← told.lookup "name"
  let value := match told.lookup "filename" with
    | some file =>
      .file ⟨Form.lastName (textOf file),
        .plain (.ofBytes (content.map fun c => UInt8.ofNat c.toNat))⟩
    | none => .text (textOf content)
  return (textOf name, value)

/-- The entries of parts; `none` if something is no part.  `fuel` bounds the number of parts. -/
def readParts (divider : List Char) : Nat → List Char → Option (List (String × Form.Value))
  | 0, _ => some []
  | fuel + 1, cs =>
    match readHead [] (cs.length + 1) cs with
    | .malformed => none
    | .cut => some []
    | .complete headers rest =>
      match readContent divider rest with
      | none => (entryOf headers []).map fun _ => []
      | some (content, isLast, rest) => do
        let e ← entryOf headers content
        let more ← if isLast then some [] else readParts divider fuel rest
        return e :: more

def read? (boundary : List Char) (text : String) : Option Form :=
  let cs := (Text.Utf8.encode text).map fun b => Char.ofNat b.toNat
  let cs := cs.dropWhile fun c => c == '\r' || c == '\n'
  let start := ['-', '-'] ++ boundary
  let first := start ++ ['\r', '\n']
  if cs.isPrefixOf first || (start ++ ['-', '-']).isPrefixOf cs then some {}
  else
    match Text.dropStart? first cs with
    | some rest => (readParts (['\r', '\n'] ++ start) (cs.length + 1) rest).map Form.mk
    | none => none

end SmellLint.Http.Multipart
