import SmellLint.Json.Encode
import SmellLint.Json.Member

/-!
# Values without parts

Texts, numbers, truth values and null can be told apart and counted.  Two numbers are the same if
their values are, whatever their kinds, and a truth value is the same as zero or one.
-/

namespace SmellLint

/-- A value without parts. -/
inductive Atom where
  | null
  | bool (value : Bool)
  | int (value : Int)
  | float (value : Float)
  | text (value : String)
deriving Inhabited

namespace Atom

def ofJson : Json → Except Fault Atom
  | .null => .ok .null
  | .bool b => .ok (.bool b)
  | .int n => .ok (.int n)
  | .float x => .ok (.float x)
  | .str s => .ok (.text s)
  | j => .error (.unhashable j.kindName)

def toJson : Atom → Json
  | .null => .null
  | .bool b => .bool b
  | .int n => .int n
  | .float x => .float x
  | .text s => .str s

instance : ToJson Atom := ⟨toJson⟩

def shown (a : Atom) : String := a.toJson.shown

/-- The whole number that a value is. -/
def integer? : Atom → Option Int
  | .bool b => some (if b then 1 else 0)
  | .int n => some n
  | .float x =>
    ((Decimal.Double.ofFloat x).truncated?).filter fun n => Float.ofInt n == x
  | _ => none

def same (a b : Atom) : Bool :=
  match a, b with
  | .text s, .text t => s == t
  | .null, .null => true
  | .float x, .float y => x == y
  | a, b =>
    match a.integer?, b.integer? with
    | some m, some n => m == n
    | _, _ => false

/-- The values of `atoms`, each once; the first of those that are the same is kept. -/
def distinct (atoms : List Atom) : List Atom :=
  atoms.foldl (fun kept a => if kept.any (same a) then kept else kept ++ [a]) []

/-- The values that `j` is gone through, each once. -/
def setOf (j : Json) : Except Fault (List Atom) := do
  return distinct (← (← j.each).mapM ofJson)

/-- Whether `a` does not come after `b`, which is of its sort. -/
def atMost (a b : Atom) : Bool :=
  match a, b with
  | .text s, .text t => s ≤ t
  | .float x, .float y => x ≤ y
  | .float x, b => (b.integer?).any fun n => x ≤ Float.ofInt n
  | a, .float y => (a.integer?).any fun n => Float.ofInt n ≤ y
  | a, b =>
    match a.integer?, b.integer? with
    | some m, some n => m ≤ n
    | _, _ => true

def sort (atoms : List Atom) : List Atom := atoms.mergeSort atMost

end Atom
end SmellLint
