import SmellLint.Proofs.Renaming.Rules

/-!
# Styles of imports

What is taken from a library may be given a short name or keep its own.  A short name leads to the
entry of the import and so to the full name; the name itself leads nowhere, as the entry then has
the full name in its place, and stands for itself.  Both end in the same part, and models are
looked up by the last part of their names: `lines_of_importStyle` says that they are found on the
same lines.
-/

namespace SmellLint

open Syntax (Node)
open Keyed LibraryMap Text

/-! ## Entries with another value -/

namespace Keyed

variable {α : Type} {key key' : String}

theorem alterEntries_alterEntries (f : Option α → α) (value : α) (l : List (String × α)) :
    alterEntries key (fun _ => value) (alterEntries key f l)
      = alterEntries key (fun _ => value) l := by
  induction l with
  | nil => simp [alterEntries]
  | cons e l ih => by_cases h : e.1 = key <;> simp [alterEntries, h, ih]

/-- `alterEntries` at `key` and `key'` may change places if `key` has its place. -/
theorem alterEntries_comm {l : List (String × α)} (hkey : key ∈ l.map Prod.fst) (h : key' ≠ key)
    (f g : Option α → α) :
    alterEntries key f (alterEntries key' g l) = alterEntries key' g (alterEntries key f l) := by
  induction l with
  | nil => cases hkey
  | cons e l ih =>
    obtain ⟨k, v⟩ := e
    by_cases hk : k = key
    · simp [alterEntries, hk, h.symm]
    · have hmem : key ∈ l.map Prod.fst := (List.mem_cons.1 hkey).resolve_left (Ne.symm hk)
      by_cases hk' : k = key' <;> simp [alterEntries, hk, hk', h, ih hmem]

theorem isEmpty_insert {m : Keyed α} {old : α} (h : m.get? key = some old) (new : α) :
    (m.insert key new).isEmpty = m.isEmpty := by
  obtain ⟨entries⟩ := m
  cases entries with
  | nil => cases h
  | cons e entries =>
    show (alterEntries key _ (e :: entries)).isEmpty = false
    rw [alterEntries]
    split_ifs <;> rfl

/-- A `key` that has its place may get its value before or after others get theirs. -/
theorem insert_foldl {after : List (String × α)} (hafter : ∀ e ∈ after, e.1 ≠ key) {m : Keyed α}
    (hkey : key ∈ m.keys) (new : α) :
    (after.foldl (fun m e => m.insert e.1 e.2) m).insert key new
      = after.foldl (fun m e => m.insert e.1 e.2) (m.insert key new) := by
  induction after generalizing m with
  | nil => rfl
  | cons e after ih =>
    obtain ⟨he, hafter⟩ := List.forall_mem_cons.1 hafter
    have hkey' : key ∈ (m.insert e.1 e.2).keys := by
      rw [insert, keys_alter]
      exact List.mem_append_left _ hkey
    have hcomm : (m.insert e.1 e.2).insert key new = (m.insert key new).insert e.1 e.2 :=
      congrArg mk (alterEntries_comm hkey he _ _)
    rw [List.foldl_cons, ih hafter hkey', hcomm, List.foldl_cons]

/-- The last value that `key` is given may also be given to it in the end. -/
theorem insert_ofList (before : List (String × α)) {after : List (String × α)} (old new : α)
    (hafter : ∀ e ∈ after, e.1 ≠ key) :
    (ofList (before ++ (key, old) :: after)).insert key new
      = ofList (before ++ (key, new) :: after) := by
  have hplace (m : Keyed α) : key ∈ (m.insert key old).keys := by
    rw [insert, keys_alter]
    split_ifs <;> simp [*]
  have hlist (l : List (String × α)) : ofList l = l.foldl (fun m e => m.insert e.1 e.2) empty := rfl
  rw [hlist, hlist, List.foldl_append, List.foldl_append, List.foldl_cons,
    insert_foldl hafter (hplace _)]
  exact congrArg (after.foldl _) (congrArg mk (alterEntries_alterEntries _ _ _))

end Keyed

namespace Smell

variable {libraries : LibraryMap} {package name short key : String}

theorem libraryNamed?_insert_of_ne {old new id : String} (hget : libraries.get? key = some old)
    (hold : id ≠ old) (hnew : id ≠ new) :
    libraryNamed? (libraries.insert key new) id = libraries.libraryNamed? id := by
  obtain ⟨entries⟩ := libraries
  refine congrArg (Option.map Prod.fst) ?_
  show (alterEntries key _ entries).find? _ = entries.find? _
  replace hget : entries.lookup key = some old := hget
  induction entries with
  | nil => cases hget
  | cons e entries ih =>
    obtain ⟨k, v⟩ := e
    by_cases hk : k = key
    · subst hk
      rw [List.lookup_cons_self] at hget
      cases hget
      simp [alterEntries, hold.symm, hnew.symm]
    · rw [List.lookup_cons, beq_false_of_ne (symm hk)] at hget
      simp [alterEntries, if_neg hk, List.find?_cons, ih hget]

theorem libraryNamed?_eq_none {id : String} (h : id ∉ libraries.values) :
    libraries.libraryNamed? id = none := by
  refine Option.map_eq_none_iff.2 (List.find?_eq_none.2 fun e he hid => h ?_)
  rw [← beq_iff_eq.1 hid]
  exact List.mem_map_of_mem he

/-! ## Last parts of names -/

theorem lastComponent_append (a b : String) : lastComponent (a ++ "." ++ b) = lastComponent b := by
  have hsplit : splitOn '.' (a ++ "." ++ b) = splitOn '.' a ++ splitOn '.' b :=
    splitOn_append '.' a b
  have hne : splitOn '.' b ≠ [] := by simpa [splitOn] using splitChars_ne_nil _ _
  rw [lastComponent, hsplit, List.getLast?_append_of_ne_nil _ hne, lastComponent]

theorem lastComponent_intercalate {a b : String} (h : lastComponent a = lastComponent b)
    (parts : List String) :
    lastComponent (".".intercalate (a :: parts))
      = lastComponent (".".intercalate (b :: parts)) := by
  cases parts with
  | nil => rwa [String.intercalate_singleton]
  | cons part parts =>
    rw [String.intercalate_cons_cons, String.intercalate_cons_cons, lastComponent_append,
      lastComponent_append]

/-- With its own `name` in place of `short`, what is imported has a full name with the same last
part, and other names lead where they did. -/
theorem lastComponent_fullName (hshort : libraries.get? (package ++ "." ++ name) = some short)
    (hother : ∀ e ∈ libraries.entries, e.2 = short → e.1 = package ++ "." ++ name)
    (hname : name ∉ libraries.values) {func : Node} (hfunc : func.Avoids (package ++ "." ++ name)) :
    lastComponent (fullName
        (libraries.insert (package ++ "." ++ name) (package ++ "." ++ name))
        (func.mapNames (renamed short name)))
      = lastComponent (libraries.fullName func) := by
  have hmem : short ∈ libraries.values := mem_values_of_get? hshort
  have hne : name ≠ short := by
    rintro rfl
    exact hname hmem
  have hfull : name ≠ package ++ "." ++ name := by
    intro heq
    have hlength := congrArg String.length heq
    simp at hlength
  have hbase := avoids_unwind hfunc
  simp only [fullName, unwind_mapNames]
  generalize (unwind func).1 = base at hbase
  cases base with
  | name _ id =>
    refine lastComponent_intercalate ?_ _
    by_cases hid : id = short
    · obtain ⟨library, hlibrary⟩ := exists_libraryNamed? hmem
      obtain ⟨e, he, rfl⟩ := Option.map_eq_some_iff.1 hlibrary
      have hvalue : e.2 = short := by simpa using List.find?_some he
      have hkey := hother e (List.mem_of_find?_eq_some he) hvalue
      rw [hid, renamed_self, hlibrary, libraryNamed?_insert_of_ne hshort hne hfull,
        libraryNamed?_eq_none hname, Option.getD_some, hkey, lastComponent_append]
      rfl
    · rw [renamed_of_ne hid, libraryNamed?_insert_of_ne hshort hid hbase.ne]
  | _ => rfl

/-- `hyperparameters` finds models without parameters on the same lines, whether what is taken from
`package` is used under a name `short` that nothing else has, or under its own `name`.  The
libraries then are those of a program with the other import in the place of the one that counts. -/
theorem lines_of_importStyle {n : Node} {facts : Facts} {libraries : LibraryMap}
    {package name short : String} (hlibraries : facts.libraries = some libraries)
    (hshort : libraries.get? (package ++ "." ++ name) = some short)
    (hother : ∀ e ∈ libraries.entries, e.2 = short → e.1 = package ++ "." ++ name)
    (hname : name ∉ libraries.values)
    -- a name in a program has no dot
    (hn : n.Avoids (package ++ "." ++ name)) :
    let key := package ++ "." ++ name
    hyperparameters.lines (n.mapNames (renamed short name))
        { facts with libraries := some (libraries.insert key key) }
      = hyperparameters.lines n facts ∧
    ∀ before after : List Import, (∀ i ∈ after, i.library ≠ key) →
      libraries = LibraryMap.ofImports (before ++ ⟨key, some short⟩ :: after) →
      libraries.insert key key = LibraryMap.ofImports (before ++ ⟨key, none⟩ :: after) := by
  constructor
  · exact lines_hyperparameters_mapNames hlibraries rfl (Keyed.isEmpty_insert hshort _) rfl hn
      fun func hfunc => lastComponent_fullName hshort hother hname hfunc
  · rintro before after hafter rfl
    unfold LibraryMap.ofImports
    rw [List.map_append, List.map_append, List.map_cons, List.map_cons]
    exact Keyed.insert_ofList _ _ _ (List.forall_mem_map.2 hafter)

/-- A program that makes a model by its short name, through an attribute, and with an argument. -/
def shortNames : Node :=
  let s (line : Nat) : Syntax.Span := ⟨⟨line, 0⟩, ⟨line, 0⟩⟩
  let name (line : Nat) (id : String) : Node := .name (s line) id
  .file [.exprStmt (s 1) (.call (s 1) (name 1 "KM") [] []),
    .exprStmt (s 2) (.call (s 2) (.attribute (s 2) (name 2 "KM") "KMeans") [] []),
    .exprStmt (s 3) (.call (s 3) (name 3 "KM") [name 3 "k"] [])]

theorem lines_of_importStyle_shortNames :
    let libraries : LibraryMap := ⟨[("numpy", "np"), ("sklearn.KMeans", "KM")]⟩
    let facts : Facts :=
      { libraries := some libraries, modelMethods := .value [.text "KMeans()"] }
    hyperparameters.lines shortNames facts = .ok [1, 2] ∧
    hyperparameters.lines (shortNames.mapNames (renamed "KM" "KMeans"))
      { facts with libraries := some (libraries.insert "sklearn.KMeans" "sklearn.KMeans") }
        = .ok [1, 2] := by
  intro libraries facts
  have hlines : hyperparameters.lines shortNames facts = .ok [1, 2] :=
    eq_ok_of_toOption (by decide +kernel)
  have hshort : libraries.get? ("sklearn" ++ "." ++ "KMeans") = some "KM" := by decide
  have hlibraries : facts.libraries = some libraries := rfl
  exact ⟨hlines, (lines_of_importStyle (n := shortNames) hlibraries hshort (by decide) (by decide)
    (by decide +kernel)).1.trans hlines⟩

end Smell
end SmellLint
