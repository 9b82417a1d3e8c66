import SmellLint.Fault

/-!
# Parts of JSON values

Taking a value apart where the parts have to be there: a part that is missing, or a value of another
kind, is a fault.
-/

namespace SmellLint.Json

def member (j : Json) (key : String) : Except Fault Json :=
  match j with
  | .obj members =>
    match members.lookup key with
    | some v => .ok v
    | none => .error (.missingKey key)
  | .arr _ => .error (.badIndex true)
  | .str _ => .error (.badIndex false)
  | j => .error (.notSubscriptable j.kindName)

/-- The item of an array, or the character of a string, at `place`. -/
def item (j : Json) (place : Nat) : Except Fault Json :=
  match j with
  | .arr items =>
    match items[place]? with
    | some v => .ok v
    | none => .error .indexOutOfRange
  | .str s =>
    match s.toList[place]? with
    | some c => .ok (.str (String.singleton c))
    | none => .error .characterOutOfRange
  | .obj _ => .error (.missingPlace place)
  | j => .error (.notSubscriptable j.kindName)

/-- What going through a value gives: the items of an array, the names of an object or the
characters of a string. -/
def each : Json → Except Fault (List Json)
  | .arr items => .ok items
  | .obj members => .ok (members.map fun m => .str m.1)
  | .str s => .ok (s.toList.map fun c => .str (String.singleton c))
  | j => .error (.notIterable j.kindName)

/-- Whether a value counts as true: it is not null, false, zero or empty. -/
def isTrue : Json → Bool
  | .null => false
  | .bool b => b
  | .int n => n != 0
  | .float x => x != 0
  | .str s => !s.isEmpty
  | .arr items => !items.isEmpty
  | .obj members => !members.isEmpty

/-- The number of items of an array, members of an object or characters of a string. -/
def length : Json → Except Fault Nat
  | .arr items => .ok items.length
  | .obj members => .ok members.length
  | .str s => .ok s.length
  | j => .error (.noLength j.kindName)

/-- The items of a value that has an order. -/
def sequence : Json → Except Fault (List Json)
  | .obj _ => .error .notASequence
  | j => j.each

/-- The whole number that stands for a number or a truth value. -/
def summand? : Json → Option Int
  | .int n => some n
  | .bool b => some (if b then 1 else 0)
  | _ => none

/-- The value of a number of either kind. -/
def float? : Json → Option Float
  | .int n => some (Float.ofInt n)
  | .float x => some x
  | _ => none

/-- The sum of `a` and `b`, or two lists or texts one after the other. -/
def plus (a b : Json) : Except Fault Json :=
  match a, b with
  | .arr xs, .arr ys => .ok (.arr (xs ++ ys))
  | .str s, .str t => .ok (.str (s ++ t))
  | .arr _, b => .error (.notJoinable "list" b.kindName)
  | .str _, b => .error (.notJoinable "str" b.kindName)
  | a, b =>
    let number (j : Json) : Option Float := j.float? <|> (j.summand?.map Float.ofInt)
    match a.summand?, b.summand?, number a, number b with
    | some m, some n, _, _ => .ok (.int (m + n))
    | _, _, some x, some y => .ok (.float (x + y))
    | _, _, _, _ => .error (.noSum a.kindName b.kindName)

/-- The items up to `place`; a place below zero is counted from the end. -/
def firstItems {α : Type} (place : Int) (items : List α) : List α :=
  if place < 0 then items.take (items.length - (-place).toNat) else items.take place.toNat

/-- The part of a list or a text up to `place`. -/
def upTo (place : Int) : Json → Except Fault Json
  | .arr items => .ok (.arr (firstItems place items))
  | .str s => .ok (.str (String.ofList (firstItems place s.toList)))
  | .obj _ => .error (.unhashable "slice")
  | j => .error (.notSubscriptable j.kindName)

def text : Json → Except Fault String
  | .str s => .ok s
  | j => .error (.notText j.kindName)

def textFor (operation : String) : Json → Except Fault String
  | .str s => .ok s
  | j => .error (.noOperation j.kindName operation)

def texts (j : Json) : Except Fault (List String) := do (← j.each).mapM text

/-- How a value stands in a list that is shown: a string has its quotes. -/
def literal : Json → String
  | .null => "None"
  | .bool true => "True"
  | .bool false => "False"
  | .int n => toString n
  | .float x => Decimal.floatText x
  | .str s => Text.quoted s
  | .arr items => "[" ++ ", ".intercalate (items.attach.map fun ⟨j, _⟩ => literal j) ++ "]"
  | .obj members =>
    "\x7b" ++ ", ".intercalate (members.attach.map fun ⟨(k, j), _⟩ =>
      Text.quoted k ++ ": " ++ literal j) ++ "\x7d"
termination_by j => sizeOf j
decreasing_by
  · exact sizeOf_lt_arr ‹_›
  · exact sizeOf_lt_obj ‹_›

/-- How a value stands in a text: a string is the text itself. -/
def shown : Json → String
  | .str s => s
  | j => j.literal

/-- The texts of a list of strings with `separator` between them. -/
def joined (separator : String) (j : Json) : Except Fault String := do
  let items ← j.each.mapError fun _ => Fault.noTexts
  let pieces ← items.zipIdx.mapM fun (item, i) =>
    match item with
    | .str s => .ok s
    | item => .error (.mixedItems i item.kindName)
  return separator.intercalate pieces

/-!
## Members that may be missing

Taking an object apart where every member has a value to fall back on.
-/

/-- The value of the member `key`; null if there is none. -/
def field (j : Json) (key : String) : Json := (j.get? key).getD .null

def listAt (j : Json) (key : String) : List Json := (j.field key).items

def textsAt (j : Json) (key : String) : List String := (j.field key).strings

def textAt? (j : Json) (key : String) : Option String := (j.field key).str?

def textAt (j : Json) (key : String) (default : String := "") : String :=
  (j.textAt? key).getD default

/-- The truth value of the member `key`, or `default`. -/
def flagAt (j : Json) (key : String) (default : Bool := false) : Bool :=
  (j.field key).bool?.getD default

/-- The whole number of the member `key`, or `default`. -/
def intAt (j : Json) (key : String) (default : Int := 0) : Int := (j.field key).int?.getD default

/-- The entries of a keyed list: arrays of a name and a value. -/
def pairs (j : Json) : List (String × Json) :=
  j.items.filterMap fun
    | .arr [.str key, value] => some (key, value)
    | _ => none

/-- A member that may be left out; one that `read` cannot read is given as nothing. -/
def givenAt {α : Type} (j : Json) (key : String) (read : Json → Option α) : Given α :=
  match j.get? key with
  | none => .absent
  | some v => ((read v).map .value).getD .nothing

end SmellLint.Json
