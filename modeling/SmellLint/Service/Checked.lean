import SmellLint.Fault
import SmellLint.Text.Case

/-!
# Checking requests

The members of a request are read as values of a kind.  Numbers are taken as texts, and texts that
spell numbers or truth values as those.  Everything that is wrong with a request is reported, in the
order of the members: each issue says where it is and what is wrong.
-/

namespace SmellLint.Service

/-- A step on the way to a value in a request. -/
inductive Step where
  | name (value : String)
  | index (value : Nat)

namespace Step

def text : Step → String
  | .name s => s
  | .index n => toString n

def toJson : Step → Json
  | .name s => .str s
  | .index n => .int n

end Step

/-- What is wrong with a value of a request. -/
inductive Cause where
  | missing
  | nothing
  | notText
  | notInteger
  /-- A number is infinite. -/
  | unbounded
  | notFlag
  | notList
  | notMapping
  | namesNotText
  /-- A text is given where a file is needed. -/
  | notUpload
  /-- The whole request is no JSON value. -/
  | notJson (fault : Json.ParseFault) (document : String)

namespace Cause

def code : Cause → String
  | .missing => "value_error.missing"
  | .nothing => "type_error.none.not_allowed"
  | .notText => "type_error.str"
  | .notInteger | .unbounded => "type_error.integer"
  | .notFlag => "type_error.bool"
  | .notList => "type_error.list"
  | .notMapping => "type_error.dict"
  | .namesNotText => "type_error"
  | .notUpload => "value_error"
  | .notJson _ _ => "value_error.jsondecode"

def message : Cause → String
  | .missing => "field required"
  | .nothing => "none is not an allowed value"
  | .notText => "str type expected"
  | .notInteger | .unbounded => "value is not a valid integer"
  | .notFlag => "value could not be parsed to a boolean"
  | .notList => "value is not a valid list"
  | .notMapping => "value is not a valid dict"
  | .namesNotText => "keywords must be strings"
  | .notUpload => "Expected UploadFile, received: <class 'str'>"
  | .notJson fault _ => fault.message

def context : Cause → List (String × Json)
  | .notJson fault document =>
    [("ctx", .obj [("msg", .str fault.expected.text), ("doc", .str document),
      ("pos", .int fault.position), ("lineno", .int fault.line), ("colno", .int fault.column)])]
  | _ => []

end Cause

/-- Something that is wrong with a request. -/
structure Issue where
  location : List Step
  cause : Cause

namespace Issue

/-- The place of an issue, its steps joined by dots. -/
def locationText (i : Issue) : String := ".".intercalate (i.location.map Step.text)

def under (s : Step) (i : Issue) : Issue := { i with location := s :: i.location }

def toJson (i : Issue) : Json :=
  .obj ([("loc", .arr (i.location.map Step.toJson)), ("msg", .str i.cause.message),
    ("type", .str i.cause.code)] ++ i.cause.context)

end Issue

/-- A value, or everything that is wrong with it. -/
abbrev Checked (α : Type) := Except (List Issue) α

/-- Reads a value of a request. -/
abbrev Reader (α : Type) := Json → Checked α

namespace Checked

variable {α β : Type}

def fail (cause : Cause) : Checked α := .error [⟨[], cause⟩]

/-- What is wrong with the part of a value after the step `s`. -/
def under (s : Step) (c : Checked α) : Checked α :=
  c.mapError fun issues => issues.map (Issue.under s)

/-- Applies `f` to the value of `c`; the issues of both are reported. -/
def app (f : Checked (α → β)) (c : Checked α) : Checked β :=
  match f, c with
  | .ok f, .ok x => .ok (f x)
  | .error a, .error b => .error (a ++ b)
  | .error a, .ok _ => .error a
  | .ok _, .error b => .error b

/-- The values of a list; the issues of all are reported. -/
def sequence : List (Checked α) → Checked (List α)
  | [] => .ok []
  | c :: r => app (c.map fun x xs => x :: xs) (sequence r)

end Checked

/-! ## Kinds of values -/

variable {α : Type}

/-- A text; numbers and truth values are taken as they are written. -/
def textValue : Reader String
  | .null => .fail .nothing
  | .str s => .ok s
  | .int n => .ok (toString n)
  | .float x => .ok (Decimal.floatText x)
  | .bool b => .ok (if b then "True" else "False")
  | _ => .fail .notText

/-- A whole number; fractions are cut off, and texts may spell it. -/
def integerValue : Reader Int
  | .null => .fail .nothing
  | .int n => .ok n
  | .bool b => .ok (if b then 1 else 0)
  | .float x =>
    match (Decimal.Double.ofFloat x).truncated? with
    | some n => .ok n
    | none => .fail (if x.isNaN then .notInteger else .unbounded)
  | .str s =>
    match Text.readInt s with
    | .ok n => .ok n
    | .error _ => .fail .notInteger
  | _ => .fail .notInteger

/-- The truth value that a text spells. -/
def flagText? (s : String) : Option Bool :=
  let s := Text.lower s
  if ["1", "on", "t", "true", "y", "yes"].contains s then some true
  else if ["0", "off", "f", "false", "n", "no"].contains s then some false
  else none

def flagValue : Reader Bool
  | .null => .fail .nothing
  | .bool b => .ok b
  | .int 1 => .ok true
  | .int 0 => .ok false
  | .float x => if x == 1.0 then .ok true else if x == 0.0 then .ok false else .fail .notFlag
  | .str s =>
    match flagText? s with
    | some b => .ok b
    | none => .fail .notFlag
  | _ => .fail .notFlag

def listValue (item : Reader α) : Reader (List α)
  | .null => .fail .nothing
  | .arr items =>
    Checked.sequence (items.zipIdx.map fun (j, i) => (item j).under (.index i))
  | _ => .fail .notList

/-- The two parts of an item that stands for a member of a mapping. -/
def memberOf? : Json → Option (Json × Json)
  | .arr [k, v] =>
    match k with
    | .arr _ => none
    | .obj _ => none
    | k => some (k, v)
  | .str s =>
    match s.toList with
    | [a, b] => some (.str (String.singleton a), .str (String.singleton b))
    | _ => none
  | .obj [(a, _), (b, _)] => some (.str a, .str b)
  | _ => none

/-- A value as a mapping: an object, or a list of pairs. -/
def mapping? : Json → Option (List (Json × Json))
  | .obj members => some (members.map fun (k, v) => (.str k, v))
  | .arr items => items.mapM memberOf?
  | .str s => if s.isEmpty then some [] else none
  | _ => none

def writtenName : Json → String
  | .str s => s
  | .int n => toString n
  | .float x => Decimal.floatText x
  | .bool b => if b then "true" else "false"
  | _ => "null"

/-- The members of a mapping with any names. -/
def mappingValue : Reader Json
  | .null => .fail .nothing
  | j =>
    match mapping? j with
    | none => .fail .notMapping
    | some pairs =>
      .ok (.obj (pairs.foldl (fun ms (k, v) => Json.setMember ms (writtenName k) v) []))

def recordValue (read : List (String × Json) → Checked α) : Reader α
  | .null => .fail .nothing
  | j =>
    match mapping? j with
    | none => .fail .notMapping
    | some pairs =>
      match pairs.mapM fun (k, v) => k.str?.map (·, v) with
      | none => .fail .namesNotText
      | some pairs => read (pairs.foldl (fun ms (k, v) => Json.setMember ms k v) [])

def required (members : List (String × Json)) (name : String) (read : Reader α) : Checked α :=
  match members.lookup name with
  | none => (Checked.fail .missing).under (.name name)
  | some j => (read j).under (.name name)

def optional (members : List (String × Json)) (name : String) (default : α) (read : Reader α) :
    Checked α :=
  match members.lookup name with
  | none => .ok default
  | some j => (read j).under (.name name)

/-! ## Refused requests -/

/-- Why a request is refused. -/
inductive Refusal where
  | invalid (issues : List Issue)
  | rejected (status : Nat) (detail : String)

namespace Refusal

def status : Refusal → Nat
  | .invalid _ => 422
  | .rejected status _ => status

def toJson : Refusal → Json
  | .invalid issues => .obj [("detail", .arr (issues.map Issue.toJson))]
  | .rejected _ detail => .obj [("detail", .str detail)]

end Refusal

/-- Refuses a request with issues.  An infinite number is not refused but ends the work. -/
def Checked.orRefuse (c : Checked α) : Except Fault (Except Refusal α) :=
  match c with
  | .ok x => .ok (.ok x)
  | .error issues =>
    if issues.any fun i => i.cause matches .unbounded then .error (.notFinite false)
    else .ok (.error (.invalid issues))

end SmellLint.Service
