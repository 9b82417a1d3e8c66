/-!
# Keyed values in insertion order

A `Keyed α` maps names to values and remembers in which order the names first came.  Giving a name a
new value keeps its place.
-/

namespace SmellLint

open List

/-- Values by name, in the order in which the names were first given one. -/
structure Keyed (α : Type) where
  entries : List (String × α)
deriving Inhabited

namespace Keyed

variable {α β : Type}

def empty : Keyed α := ⟨[]⟩

def get? (m : Keyed α) (key : String) : Option α := m.entries.lookup key

def keys (m : Keyed α) : List String := m.entries.map Prod.fst

def values (m : Keyed α) : List α := m.entries.map Prod.snd

def contains (m : Keyed α) (key : String) : Bool := (m.get? key).isSome

/-- Changes the value of `key` in a list of entries, or adds it at the end. -/
def alterEntries (key : String) (f : Option α → α) : List (String × α) → List (String × α)
  | [] => [(key, f none)]
  | (k, v) :: r => if k = key then (k, f (some v)) :: r else (k, v) :: alterEntries key f r

/-- Changes the value of `key`, which may be new. -/
def alter (m : Keyed α) (key : String) (f : Option α → α) : Keyed α :=
  ⟨alterEntries key f m.entries⟩

def insert (m : Keyed α) (key : String) (value : α) : Keyed α := m.alter key fun _ => value

/-- Gives names values in turn, so that the last value of a name counts. -/
def ofList (entries : List (String × α)) : Keyed α :=
  entries.foldl (fun m (k, v) => m.insert k v) empty

def erase (m : Keyed α) (key : String) : Keyed α := ⟨m.entries.filter (·.1 != key)⟩

/-- The first name with a value that `p` accepts. -/
def findKey? (m : Keyed α) (p : α → Bool) : Option String :=
  (m.entries.find? fun e => p e.2).map Prod.fst

def map (m : Keyed α) (f : α → β) : Keyed β := ⟨m.entries.map fun (k, v) => (k, f v)⟩

def isEmpty (m : Keyed α) : Bool := m.entries.isEmpty

def sortKeys (m : Keyed α) : Keyed α := ⟨m.entries.mergeSort fun a b => a.1 ≤ b.1⟩

theorem lookup_alterEntries (key : String) (f : Option α → α) (l : List (String × α)) (k : String) :
    (alterEntries key f l).lookup k =
      if k = key then some (f (l.lookup key)) else l.lookup k := by
  induction l with
  | nil =>
    by_cases h : k = key
    · simp [alterEntries, h]
    · have hb : (k == key) = false := beq_false_of_ne h
      simp [alterEntries, lookup_cons, h, hb]
  | cons e l ih =>
    obtain ⟨n, v⟩ := e
    by_cases hn : n = key
    · subst hn
      by_cases h : k = n
      · simp [alterEntries, h]
      · have hb : (k == n) = false := beq_false_of_ne h
        simp [alterEntries, h, hb, lookup_cons]
    · by_cases h : k = n
      · subst h
        simp [alterEntries, hn]
      · have hb : (k == n) = false := beq_false_of_ne h
        have hk : (key == n) = false := beq_false_of_ne fun e => hn e.symm
        simp [alterEntries, hn, hb, hk, lookup_cons, ih]

theorem get?_alter (m : Keyed α) (key : String) (f : Option α → α) (k : String) :
    (m.alter key f).get? k = if k = key then some (f (m.get? key)) else m.get? k :=
  lookup_alterEntries key f m.entries k

@[simp]
theorem get?_insert (m : Keyed α) (key : String) (value : α) (k : String) :
    (m.insert key value).get? k = if k = key then some value else m.get? k :=
  m.get?_alter key (fun _ => value) k

theorem keys_alter (m : Keyed α) (key : String) (f : Option α → α) :
    (m.alter key f).keys = m.keys ++ if key ∈ m.keys then [] else [key] := by
  obtain ⟨entries⟩ := m
  show (alterEntries key f entries).map Prod.fst
    = entries.map Prod.fst ++ if key ∈ entries.map Prod.fst then [] else [key]
  induction entries with
  | nil => rfl
  | cons e entries ih =>
    rw [alterEntries]
    by_cases h : e.1 = key
    · rw [if_pos h, if_pos (by simp [h]), append_nil]
      rfl
    · have hmem : key ∈ (e :: entries).map Prod.fst ↔ key ∈ entries.map Prod.fst := by
        rw [map_cons, mem_cons]
        exact or_iff_right (Ne.symm h)
      simp only [if_neg h, hmem]
      rw [map_cons, ih, map_cons, cons_append]

theorem nodup_keys_alter {m : Keyed α} (h : m.keys.Nodup) (key : String) (f : Option α → α) :
    (m.alter key f).keys.Nodup := by
  rw [keys_alter]
  split
  · rw [append_nil]
    exact h
  · next hkey => exact nodup_append.2 ⟨h, by simp, by
      rintro a ha _ hb rfl
      exact hkey (mem_singleton.1 hb ▸ ha)⟩

/-- If no name comes twice, an entry is what its name stands for. -/
theorem get?_of_mem_entries {m : Keyed α} (h : m.keys.Nodup) {key : String} {value : α}
    (hmem : (key, value) ∈ m.entries) : m.get? key = some value := by
  obtain ⟨before, after, heq⟩ := append_of_mem hmem
  rw [get?, lookup_eq_some_iff]
  refine ⟨before, after, heq, fun e he => ?_⟩
  rw [keys, heq, map_append, map_cons] at h
  rw [bne_iff_ne]
  exact fun heq => (nodup_append.1 h).2.2 e.1 (mem_map_of_mem he) key
    mem_cons_self heq.symm

/-- `key` has the last of the values that it is given. -/
theorem get?_ofList (entries : List (String × α)) (key : String) :
    (ofList entries).get? key = (entries.filter (·.1 == key)).getLast?.map Prod.snd := by
  -- the value that the name has before counts if it is given none
  have hfold : ∀ m : Keyed α, (entries.foldl (fun m (k, v) => m.insert k v) m).get? key
      = ((entries.filter (·.1 == key)).getLast?.map Prod.snd).or (m.get? key) := by
    induction entries with
    | nil => exact fun _ => rfl
    | cons e entries ih =>
      intro m
      rw [foldl_cons, ih, get?_insert]
      by_cases h : e.1 = key
      · cases hlast : (entries.filter (·.1 == key)).getLast? <;>
          simp [h, hlast, getLast?_cons]
      · simp [h, Ne.symm h]
  rw [ofList, hfold]
  exact Option.or_none

theorem nodup_keys_ofList (entries : List (String × α)) : (ofList entries).keys.Nodup := by
  have hfold : ∀ m : Keyed α, m.keys.Nodup →
      (entries.foldl (fun m (k, v) => m.insert k v) m).keys.Nodup := by
    induction entries with
    | nil => exact fun _ h => h
    | cons e entries ih => exact fun m h => ih _ (nodup_keys_alter h e.1 _)
  exact hfold empty .nil

end Keyed

/-! ## Values that may be left out -/

/-- A value that may be left out, or be given as nothing. -/
inductive Given (α : Type) where
  | absent
  | nothing
  | value (a : α)
deriving Inhabited

end SmellLint
