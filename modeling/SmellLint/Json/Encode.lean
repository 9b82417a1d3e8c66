import SmellLint.Json.Basic
import SmellLint.Syntax.Literal
import SmellLint.Table.Cell

/-!
# Values as JSON

A class for the types whose values have a form in JSON, with its instances for the common types.  A
pair is an array of two items, and so is each entry of a keyed list.
-/

namespace SmellLint

/-- Types whose values have a form in JSON. -/
class ToJson (α : Type) where
  toJson : α → Json

export ToJson (toJson)

instance : ToJson Json := ⟨id⟩

instance : ToJson Unit := ⟨fun _ => .null⟩

instance : ToJson String := ⟨.str⟩

instance : ToJson Bool := ⟨.bool⟩

instance : ToJson Int := ⟨.int⟩

instance : ToJson Nat := ⟨fun n => .int n⟩

instance : ToJson Float := ⟨.float⟩

instance {α : Type} [ToJson α] : ToJson (List α) := ⟨fun items => .arr (items.map toJson)⟩

instance {α : Type} [ToJson α] : ToJson (Option α) := ⟨fun x => (x.map toJson).getD .null⟩

instance {α β : Type} [ToJson α] [ToJson β] : ToJson (α × β) :=
  ⟨fun (a, b) => .arr [toJson a, toJson b]⟩

instance {α : Type} [ToJson α] : ToJson (Keyed α) := ⟨fun m => toJson m.entries⟩

/-- A cell by its value; a missing one is not a number. -/
instance : ToJson Cell where
  toJson
    | .text s => .str s
    | .int n => .int n
    | .float x => .float x
    | .bool b => .bool b
    | .missing => .float (0.0 / 0.0)

def Cell.ofJson : Json → Cell
  | .str s => .text s
  | .int n => .int n
  | .float x => .float x
  | .bool b => .bool b
  | _ => .missing

/-- A constant of a program under the name of its kind. -/
instance : ToJson Syntax.Literal where
  toJson l :=
    let shown := Json.str (l.text?.getD "")
    match l with
    | .str s => .obj [("str", .str s)]
    | .int n => .obj [("int", .str (toString n))]
    | .float _ => .obj [("float", shown)]
    | .imaginary _ => .obj [("complex", shown)]
    | .bytes bs => .obj [("bytes", .str (Text.hexOfBytes bs))]
    | .bool b => .obj [("bool", .bool b)]
    | .none => .obj [("none", .bool true)]
    | .ellipsis => .obj [("ellipsis", .bool true)]

end SmellLint
