import SmellLint.Decimal
import SmellLint.Keyed
import SmellLint.Text.Quoted

/-!
# JSON values

JSON values with their object members in the order in which they were written.  Whole numbers and
other numbers are told apart.
-/

namespace SmellLint

/-- A JSON value. -/
inductive Json where
  | null
  | bool (value : Bool)
  | int (value : Int)
  | float (value : Float)
  | str (value : String)
  | arr (items : List Json)
  | obj (members : List (String × Json))
deriving Inhabited

namespace Json

/-- The items of an array are smaller than it. -/
theorem sizeOf_lt_arr {j : Json} {items : List Json} (h : j ∈ items) :
    sizeOf j < sizeOf (arr items) := by
  have := List.sizeOf_lt_of_mem h
  simp only [arr.sizeOf_spec]
  omega

/-- The values of the members of an object are smaller than it. -/
theorem sizeOf_lt_obj {name : String} {j : Json} {members : List (String × Json)}
    (h : (name, j) ∈ members) : sizeOf j < sizeOf (obj members) := by
  have := List.sizeOf_lt_of_mem h
  simp only [obj.sizeOf_spec, Prod.mk.sizeOf_spec] at this ⊢
  omega

/-- The value of the member `key` of an object. -/
def get? (j : Json) (key : String) : Option Json :=
  match j with
  | .obj members => members.lookup key
  | _ => none

def str? : Json → Option String
  | .str s => some s
  | _ => none

def int? : Json → Option Int
  | .int n => some n
  | _ => none

def bool? : Json → Option Bool
  | .bool b => some b
  | _ => none

def arr? : Json → Option (List Json)
  | .arr items => some items
  | _ => none

def obj? : Json → Option (List (String × Json))
  | .obj members => some members
  | _ => none

def isNull : Json → Bool
  | .null => true
  | _ => false

/-- The items of an array; none for other values. -/
def items (j : Json) : List Json := j.arr?.getD []

/-- The members of an object; none for other values. -/
def members (j : Json) : List (String × Json) := j.obj?.getD []

/-- The texts of an array of strings; items of other kinds are left out. -/
def strings (j : Json) : List String := j.items.filterMap str?

def ofStrings (items : List String) : Json := .arr (items.map .str)

def ofString? : Option String → Json
  | some s => .str s
  | none => .null

/-- Whether a value counts as true in a condition. -/
def isTruthy : Json → Bool
  | .null => false
  | .bool b => b
  | .int n => n != 0
  | .float x => x != 0.0
  | .str s => !s.isEmpty
  | .arr items => !items.isEmpty
  | .obj members => !members.isEmpty

def kindName : Json → String
  | .null => "NoneType"
  | .bool _ => "bool"
  | .int _ => "int"
  | .float _ => "float"
  | .str _ => "str"
  | .arr _ => "list"
  | .obj _ => "dict"

end Json
end SmellLint

/-!
## Changing the parts of JSON values

One traversal changes the values that hold no others, and the names of members.
-/

namespace SmellLint.Json

/-- Changes the names of members by `name` and the values that hold no others by `leaf`. -/
def mapLeaves (name : String → String) (leaf : Json → Json) : Json → Json
  | .arr items => .arr (items.attach.map fun ⟨j, _⟩ => mapLeaves name leaf j)
  | .obj members => .obj (members.attach.map fun ⟨(k, j), _⟩ => (name k, mapLeaves name leaf j))
  | j => leaf j
termination_by j => sizeOf j
decreasing_by
  · exact sizeOf_lt_arr ‹_›
  · exact sizeOf_lt_obj ‹_›

/-- Changes all texts by `f`, the names of members too. -/
def mapTexts (f : String → String) : Json → Json :=
  mapLeaves f fun
    | .str s => .str (f s)
    | j => j

/-!
## Writing JSON

A value is written on one line, with a blank after each comma and colon, or indented with one item
to a line.  Characters outside ASCII are written as escapes of their UTF-16 units.
-/

def unitEscapes (c : Char) : String :=
  let n := Text.codeOfChar c
  if n < 0x10000 then "\\u" ++ Text.hex 4 n
  else
    let m := n - 0x10000
    "\\u" ++ Text.hex 4 (0xD800 + m / 0x400) ++ "\\u" ++ Text.hex 4 (0xDC00 + m % 0x400)

def escapedChar (asciiOnly : Bool) (c : Char) : String :=
  if c = '"' then "\\\""
  else if c = '\\' then "\\\\"
  else if c = '\n' then "\\n"
  else if c = '\r' then "\\r"
  else if c = '\t' then "\\t"
  else if c = '\x08' then "\\b"
  else if c = '\x0c' then "\\f"
  else if c.toNat < 0x20 then unitEscapes c
  else if asciiOnly && 0x7E < c.toNat then unitEscapes c
  else String.singleton c

def quotedText (asciiOnly : Bool) (s : String) : String :=
  "\"" ++ String.join (s.toList.map (escapedChar asciiOnly)) ++ "\""

def numberText (x : Float) : String :=
  match Decimal.Double.ofFloat x with
  | .nan => "NaN"
  | .infinite false => "Infinity"
  | .infinite true => "-Infinity"
  | _ => Decimal.floatText x

/-- A value on one line, with the separators `comma` and `colon`. -/
def renderWith (asciiOnly : Bool) (comma colon : String) : Json → String
  | .null => "null"
  | .bool b => if b then "true" else "false"
  | .int n => toString n
  | .float x => numberText x
  | .str s => quotedText asciiOnly s
  | .arr items =>
    "[" ++ comma.intercalate (items.attach.map fun ⟨j, _⟩ => renderWith asciiOnly comma colon j) ++
      "]"
  | .obj members =>
    "\x7b" ++ comma.intercalate (members.attach.map fun ⟨(k, j), _⟩ =>
      quotedText asciiOnly k ++ colon ++ renderWith asciiOnly comma colon j) ++ "\x7d"
termination_by j => sizeOf j
decreasing_by
  · exact sizeOf_lt_arr ‹_›
  · exact sizeOf_lt_obj ‹_›

/-- Whether a value holds half of a pair, so that it cannot be written without escapes. -/
def hasHalf (j : Json) : Bool := (renderWith false "," ":" j).toList.any Text.isHalf

def render (j : Json) : String := renderWith true ", " ": " j

def newlineAt (depth : Nat) : String := "\n" ++ String.ofList (List.replicate (4 * depth) ' ')

/-- A value with one item to a line, each level four columns further in. -/
def pretty (depth : Nat) : Json → String
  | .arr [] => "[]"
  | .obj [] => "\x7b\x7d"
  | .arr items =>
    "[" ++ newlineAt (depth + 1) ++
      ("," ++ newlineAt (depth + 1)).intercalate
        (items.attach.map fun ⟨j, _⟩ => pretty (depth + 1) j) ++
      newlineAt depth ++ "]"
  | .obj members =>
    "\x7b" ++ newlineAt (depth + 1) ++
      ("," ++ newlineAt (depth + 1)).intercalate (members.attach.map fun ⟨(k, j), _⟩ =>
        quotedText true k ++ ": " ++ pretty (depth + 1) j) ++
      newlineAt depth ++ "\x7d"
  | j => render j
termination_by j => sizeOf j
decreasing_by
  · exact sizeOf_lt_arr ‹_›
  · exact sizeOf_lt_obj ‹_›

/-- Members in the order of their names. -/
def sortMembers : Json → Json
  | .arr items => .arr (items.attach.map fun ⟨j, _⟩ => sortMembers j)
  | .obj members =>
    .obj ((members.attach.map fun ⟨(k, j), _⟩ => (k, sortMembers j)).mergeSort
      fun a b => a.1 ≤ b.1)
  | j => j
termination_by j => sizeOf j
decreasing_by
  · exact sizeOf_lt_arr ‹_›
  · exact sizeOf_lt_obj ‹_›

/-- The text by which values are put in order: on one line, after `sortMembers`. -/
def sortKey (j : Json) : String := render (sortMembers j)

end SmellLint.Json
