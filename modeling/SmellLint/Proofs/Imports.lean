import Mathlib.Data.List.Basic
import Mathlib.Data.List.TakeWhile
import SmellLint.Imports

/-!
# The library of a call

A program may import a library several times, under several names, but only the last import of a
library in the order of the walk counts (`LibraryMap.get?_ofImports`).  So a name that one import
binds leads back to its library exactly if no later import names that library again
(`LibraryMap.libraryOf_of_import`).
-/

namespace SmellLint

open Syntax (Node Span)
open List

namespace Import

def firstPart (name : String) : String := .ofList (name.toList.takeWhile (· != '.'))

/-- The imports that a statement makes, each with the name that it binds: the one that it gives, or
else the `firstPart` of the name of a library, or the name of what is taken from one. -/
def bindings : Node → List (String × Import)
  | .importStmt _ names => names.filterMap fun
    | .alias _ name asName => some (usedAs ⟨firstPart name, asName⟩, ⟨name, asName⟩)
    | _ => none
  | .importFrom _ library names _ => names.filterMap fun
    | .alias _ name asName => some (usedAs ⟨name, asName⟩, ⟨fullName library name, asName⟩)
    | _ => none
  | _ => []

def boundNames (tree : Node) : List String := (tree.walk.flatMap bindings).map Prod.fst

theorem map_snd_bindings (n : Node) : (bindings n).map Prod.snd = ofNode n := by
  cases n with
  | importStmt _ names =>
    rw [bindings, map_filterMap]
    refine filterMap_congr fun m _ => ?_
    cases m <;> rfl
  | importFrom _ library names _ =>
    rw [bindings, map_filterMap]
    refine filterMap_congr fun m _ => ?_
    cases m <;> rfl
  | _ => rfl

variable {name : String}

theorem usedAs_imp {library library' : String} {asName : Option String}
    (hlibrary : library = name → library' = name)
    (h : usedAs ⟨library, asName⟩ = name) : usedAs ⟨library', asName⟩ = name := by
  cases asName with
  | none => exact hlibrary h
  | some a =>
    unfold usedAs at h ⊢
    dsimp only at h ⊢
    split_ifs at h ⊢
    · exact hlibrary h
    · exact h

theorem firstPart_eq_self (h : '.' ∉ name.toList) : firstPart name = name := by
  have hall : name.toList.takeWhile (· != '.') = name.toList := by
    refine takeWhile_eq_self_iff.2 fun c hc => ?_
    rw [bne_iff_ne]
    rintro rfl
    exact h hc
  rw [firstPart, hall, String.ofList_toList]

theorem eq_of_fullName_eq {library : Option String} {bound : String}
    (h : '.' ∉ bound.toList) (heq : fullName library name = bound) : name = bound := by
  unfold fullName at heq
  split at heq
  · split_ifs at heq
    · exact heq
    · subst heq
      simp at h
  · exact heq

/-- A `name` without a dot that an import is used under is bound by it. -/
theorem bound_of_usedAs {n : Node} {p : String × Import} (h : '.' ∉ name.toList)
    (hp : p ∈ bindings n) (hname : p.2.usedAs = name) : p.1 = name := by
  unfold bindings at hp
  split at hp
  · obtain ⟨m, -, hp⟩ := mem_filterMap.1 hp
    split at hp
    · cases hp
      refine usedAs_imp ?_ hname
      rintro rfl
      exact firstPart_eq_self h
    · cases hp
  · obtain ⟨m, -, hp⟩ := mem_filterMap.1 hp
    split at hp
    · cases hp
      exact usedAs_imp (eq_of_fullName_eq h) hname
    · cases hp
  · cases hp

/-- An import `i` that alone binds `name` is the only one that is used under it. -/
theorem eq_of_usedAs {tree : Node} {i j : Import} (h : '.' ∉ name.toList)
    (honce : (boundNames tree).count name = 1) (hi : (name, i) ∈ tree.walk.flatMap bindings)
    (hj : j ∈ ofTree tree) (hname : j.usedAs = name) : j = i := by
  have hsnd : ofTree tree = (tree.walk.flatMap bindings).map Prod.snd := by
    simp [ofTree, map_flatMap, map_snd_bindings]
  rw [hsnd] at hj
  obtain ⟨p, hp, rfl⟩ := mem_map.1 hj
  obtain ⟨n, -, hpn⟩ := mem_flatMap.1 hp
  have hbound := bound_of_usedAs h hpn hname
  rw [boundNames, count_eq_countP, countP_map, countP_eq_length_filter] at honce
  obtain ⟨q, hq⟩ := length_eq_one_iff.1 honce
  have honly : ∀ r ∈ tree.walk.flatMap bindings, r.1 = name → r = q := by
    intro r hr hrname
    rw [← mem_singleton, ← hq, mem_filter]
    exact ⟨hr, beq_iff_eq.2 hrname⟩
  rw [honly p hp hbound, ← honly _ hi rfl]

end Import

namespace LibraryMap

/-- The last import of `library` decides under which name it is used. -/
theorem get?_ofImports (imports : List Import) (library : String) : (ofImports imports).get? library
      = (imports.filter (·.library == library)).getLast?.map Import.usedAs := by
  rw [ofImports, Keyed.get?_ofList, filter_map, getLast?_map, Option.map_map]
  rfl

/-- If `i` is the only import that is used under its name, the name leads to its library, unless the
library is imported again later. -/
theorem libraryNamed?_ofImports {imports : List Import} {i : Import}
    (honly : ∀ j ∈ imports, j.usedAs = i.usedAs → j = i) :
    (ofImports imports).libraryNamed? i.usedAs
      = if (imports.filter (·.library == i.library)).getLast? = some i then some i.library
        else none := by
  have hentry : ∀ e ∈ (ofImports imports).entries, e.2 = i.usedAs →
      e.1 = i.library ∧ (imports.filter (·.library == i.library)).getLast? = some i := by
    intro e he hname
    have hget := Keyed.get?_of_mem_entries (Keyed.nodup_keys_ofList _) he
    rw [← ofImports, get?_ofImports] at hget
    obtain ⟨j, hlast, hj⟩ := Option.map_eq_some_iff.1 hget
    obtain ⟨hmem, hlibrary⟩ := mem_filter.1 (mem_of_getLast? hlast)
    obtain rfl := honly j hmem (hj.trans hname)
    rw [← beq_iff_eq.1 hlibrary] at hlast
    exact ⟨(beq_iff_eq.1 hlibrary).symm, hlast⟩
  unfold libraryNamed? Keyed.findKey?
  split_ifs with hlast
  · have hget : (ofImports imports).get? i.library = some i.usedAs := by
      rw [get?_ofImports, hlast]
      rfl
    obtain ⟨before, after, heq, -⟩ := lookup_eq_some_iff.1 hget
    cases hfind : (ofImports imports).entries.find? fun e => e.2 == i.usedAs with
    | none =>
      have hnone := find?_eq_none.1 hfind (i.library, i.usedAs) (by simp [heq])
      simp at hnone
    | some e =>
      have hname := find?_some hfind
      rw [Option.map_some, (hentry e (mem_of_find?_eq_some hfind) (beq_iff_eq.1 hname)).1]
  · rw [Option.map_eq_none_iff, find?_eq_none]
    intro e he hname
    exact hlast (hentry e he (beq_iff_eq.1 hname)).2

/-- `libraryOf` a call of a function, under a name that only one import of `library` binds, is
`library` if this import is the last one of it in the order of the walk, and no known library
otherwise. -/
theorem libraryOf_of_import {tree : Node} {s s' : Span} {names : List Node}
    {library name : String} (hstatement : .importStmt s names ∈ tree.walk)
    (hentry : .alias s' library (some name) ∈ names) (hne : name ≠ "") (hdot : '.' ∉ name.toList)
    (honce : (Import.boundNames tree).count name = 1)
    (place place' place'' : Span) (function : String) (args keywords : List Node) :
    (ofTree tree).libraryOf
        (.call place (.attribute place' (.name place'' name) function) args keywords)
      = if ((Import.ofTree tree).filter (·.library == library)).getLast? = some ⟨library, some name⟩
        then library else unknown := by
  have hused : ∀ l, Import.usedAs ⟨l, some name⟩ = name := by
    intro l
    simp [Import.usedAs, hne]
  have hbinding : (name, ⟨library, some name⟩) ∈ tree.walk.flatMap Import.bindings := by
    refine List.mem_flatMap.2 ⟨_, hstatement, List.mem_filterMap.2 ⟨_, hentry, ?_⟩⟩
    simp only [hused]
  have honly : ∀ j ∈ Import.ofTree tree, j.usedAs = Import.usedAs ⟨library, some name⟩ →
      j = ⟨library, some name⟩ := by
    intro j hj hname
    exact Import.eq_of_usedAs hdot honce hbinding hj (hname.trans (hused library))
  have hnamed := libraryNamed?_ofImports honly
  rw [hused] at hnamed
  rw [libraryOf, ofTree, hnamed]
  split_ifs <;> rfl

/-- A program that imports a library under one name, and under another one in a function. -/
def importedTwice : Node :=
  let s : Span := ⟨⟨1, 0⟩, ⟨1, 0⟩⟩
  .file [.importStmt s [.alias s "pandas" (some "pd")],
    .functionDef s false "f" (.params [] [] none [] [] none [])
      [.importStmt s [.alias s "pandas" (some "p")]] [] none]

theorem libraryOf_of_import_importedTwice :
    let s : Span := ⟨⟨1, 0⟩, ⟨1, 0⟩⟩
    let read (name : String) : Node := .call s (.attribute s (.name s name) "read_csv") [] []
    (ofTree importedTwice).libraryOf (read "pd") = unknown ∧
      (ofTree importedTwice).libraryOf (read "p") = "pandas" := by
  have hmem (name : String) (h : name = "pd" ∨ name = "p") :
      .importStmt ⟨⟨1, 0⟩, ⟨1, 0⟩⟩ [.alias ⟨⟨1, 0⟩, ⟨1, 0⟩⟩ "pandas" (some name)]
        ∈ importedTwice.walk := by
    rcases h with rfl | rfl <;>
      simp [importedTwice, Node.walk, Node.walkLevels, Node.children]
  constructor
  · exact (libraryOf_of_import (hmem "pd" (.inl rfl)) List.mem_cons_self (by decide) (by decide)
      (by decide +kernel) _ _ _ _ _ _).trans (if_neg (by decide +kernel))
  · exact (libraryOf_of_import (hmem "p" (.inr rfl)) List.mem_cons_self (by decide) (by decide)
      (by decide +kernel) _ _ _ _ _ _).trans (if_pos (by decide +kernel))

end LibraryMap
end SmellLint
