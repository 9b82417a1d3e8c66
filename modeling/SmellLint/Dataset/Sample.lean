import SmellLint.Json.Atom

/-!
# Samples

The items of a dataset: pieces of code with the labels they carry.  Code and labels that come from a
stored dataset can be values of any kind.
-/

namespace SmellLint

/-- A piece of code with its labels. -/
structure Sample (α : Type) where
  code : Json
  labels : List α
deriving Inhabited

namespace Sample

variable {α : Type}

def labelsOf (j : Json) : Except Fault (List Atom) := do
  (← (← j.member "labels").each).mapM Atom.ofJson

def toJson [ToJson α] (s : Sample α) : Json :=
  .obj [("code", s.code), ("labels", SmellLint.toJson s.labels)]

instance [ToJson α] : ToJson (Sample α) := ⟨toJson⟩

def listToJson [ToJson α] (samples : List (Sample α)) : Json := .arr (samples.map toJson)

end Sample
end SmellLint

/-!
## Datasets up to order

The order of the samples of a dataset, and that of the labels of a sample, depend on how the work
was shared.  Two datasets that differ in nothing else have the same canonical form.
-/

namespace SmellLint.Json

/-- Values in the order of their texts. -/
def sortByText (items : List Json) : List Json :=
  ((items.map fun j => (j.sortKey, j)).mergeSort fun a b => a.1 ≤ b.1).map Prod.snd

/-- Texts in order, or numbers in order; other values in the order of their texts. -/
def sortItems (items : List Json) : List Json :=
  match items.mapM fun j => (Atom.ofJson j).toOption with
  | some atoms =>
    if atoms.all (fun a => a matches .text _) || atoms.all (fun a => !(a matches .text _ | .null))
    then (Atom.sort atoms).map Atom.toJson
    else sortByText items
  | none => sortByText items

/-- A stored sample with its labels in order. -/
def sortLabels : Json → Json
  | .obj members => .obj (members.map fun (k, v) =>
      (k, match k, v.each with
        | "labels", .ok labels => .arr (sortItems labels)
        | _, _ => v))
  | j => j

/-- A stored dataset with its samples and their labels in order. -/
def canonical : Json → Json
  | .arr items => .arr (sortByText (items.map sortLabels))
  | j => j

end SmellLint.Json

/-!
## Drawing items

Datasets are thinned out by drawing some of their items at random.  Which ones are drawn is left to
a `Draw`; how many there may be is not.
-/

namespace SmellLint

/-- A choice of so many items of a list. -/
structure Draw (α : Type) where
  pick : Nat → List α → List α

namespace Draw

variable {α : Type}

def first : Draw α := ⟨List.take⟩

def sample (d : Draw α) (count : Int) (items : List α) : Except Fault (List α) :=
  if count < 0 || items.length < count then .error .badDraw else .ok (d.pick count.toNat items)

def atMost (d : Draw α) (count : Int) (items : List α) : Except Fault (List α) :=
  d.sample (min count items.length) items

end Draw
end SmellLint
