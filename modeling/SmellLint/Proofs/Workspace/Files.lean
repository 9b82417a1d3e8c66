import SmellLint.Proofs.Workspace.MakeDirs

/-!
# Files and sound workspaces

## Reading and writing files

What reading and writing do, once it is known which place a path leads to.  Writing fails on a
directory, and else it puts a file there.  A text that cannot be written as bytes still makes the
file.
-/

namespace SmellLint

open Entry Path Tree Text.Utf8

/-- The content of a file that may not be there yet; that of a new one is the empty text. -/
def Entry.contentOf : Option Entry → Content
  | some (.file c) => c
  | _ => .text ""

/-- The content of a file, if there is one. -/
def Entry.content? : Option Entry → Option Content
  | some (.file c) => some c
  | _ => none

def Tree.file? (t : Tree) (p : Place) : Option Content := content? (t.lookup p)

theorem Tree.file?_eq_some_iff {t : Tree} {p : Place} {c : Content} :
    t.file? p = some c ↔ t.lookup p = some (.file c) := by
  rw [file?]
  cases t.lookup p with
  | none => simp [content?]
  | some e => cases e <;> simp [content?]

theorem Tree.isFile_eq_isSome (t : Tree) (p : Place) : t.isFile p = (t.file? p).isSome := by
  rw [isFile, file?]
  cases t.lookup p with
  | none => rfl
  | some e => cases e <;> rfl

namespace Run

variable {path text : String} {w : Workspace} {p : Place}

/-! ### Reading a file -/

theorem exec_readContent {c : Content} (h : w.tree.find w.place path = .ok (p, .file c)) :
    (readContent path).exec w = (.ok c, w) := by
  rw [readContent, exec_bind_ok _ ((exec_find path w).trans (by rw [h]))]
  rfl

theorem exec_readText_of_file {c : Content} (h : w.tree.find w.place path = .ok (p, .file c)) :
    (readText path).exec w = (c.readText, w) := exec_bind_ok _ (exec_readContent h)

theorem exec_listDir_of_dir (h : w.tree.find w.place path = .ok (p, .dir)) :
    (listDir path).exec w = (.ok (w.tree.names p), w) := by
  rw [listDir, exec_bind_ok _ ((exec_find path w).trans (by rw [h]))]
  rfl

/-- `listDir` succeeds for a folder, with its `names`. -/
theorem exec_listDir_eq_ok {w' : Workspace} {names : List String}
    (h : (listDir path).exec w = (.ok names, w')) :
    ∃ p, w.tree.find w.place path = .ok (p, .dir) ∧ names = w.tree.names p ∧ w' = w := by
  rw [listDir] at h
  cases hf : w.tree.find w.place path with
  | error f =>
    rw [exec_bind_error _ ((exec_find path w).trans (by rw [hf]))] at h
    cases h
  | ok found =>
    rw [exec_bind_ok _ ((exec_find path w).trans (by rw [hf]))] at h
    obtain ⟨p, e⟩ := found
    cases e with
    | file c => cases h
    | dir =>
      cases h
      exact ⟨p, rfl, rfl, rfl⟩

/-! ### Writing a file -/

theorem exec_writeContent_of_error {f : Fault} (h : w.tree.resolve w.place path = .error f)
    (c : Content) : (writeContent path c).exec w = (.error f, w) := by
  rw [writeContent, exec_bind_error _ ((exec_resolve path w).trans (by rw [h]))]

theorem exec_writeContent_of_isDir (h : w.tree.resolve w.place path = .ok p)
    (hp : w.tree.isDir p = true) (c : Content) :
    (writeContent path c).exec w = (.error (.isADirectory path), w) := by
  rw [writeContent, exec_bind_ok _ ((exec_resolve path w).trans (by rw [h])),
    exec_bind_ok _ (exec_get w), if_pos (by simp [hp]), exec_throw]

theorem exec_writeText_of_error {f : Fault} (h : w.tree.resolve w.place path = .error f)
    (text : String) : (writeText path text).exec w = (.error f, w) := by
  rw [writeText]
  cases encodeFault? text with
  | none => exact exec_writeContent_of_error h _
  | some fault => exact exec_bind_error _ (exec_writeContent_of_error h _)

theorem exec_writeText_of_isDir (h : w.tree.resolve w.place path = .ok p)
    (hp : w.tree.isDir p = true) (text : String) :
    (writeText path text).exec w = (.error (.isADirectory path), w) := by
  rw [writeText]
  cases encodeFault? text with
  | none => exact exec_writeContent_of_isDir h hp _
  | some fault => exact exec_bind_error _ (exec_writeContent_of_isDir h hp _)

/-- `writeTexts` writes one text if all can be encoded. -/
theorem writeTexts_eq_writeText {texts : List String}
    (h : encodeFault? (String.join texts) = none) (path : String) :
    writeTexts path texts = writeText path (String.join texts) := by
  rw [encodeFault?_join_eq_none_iff] at h
  rw [writeTexts, writable_eq_self h, List.findSome?_eq_none_iff.2 h]
  exact bind_pure _

/-- All `texts` can be encoded if `writeTexts` succeeds. -/
theorem encodeFault?_of_writeTexts {texts : List String} {u : Unit} {w' : Workspace}
    (hok : (writeTexts path texts).exec w = (.ok u, w')) :
    encodeFault? (String.join texts) = none := by
  rw [encodeFault?_join_eq_none_iff, ← List.findSome?_eq_none_iff]
  obtain ⟨_, v, -, hthrow⟩ := exec_bind_eq_ok hok
  cases hfault : texts.findSome? encodeFault? with
  | none => rfl
  | some fault =>
    rw [hfault] at hthrow
    cases hthrow

section

variable (h : w.tree.resolve w.place path = .ok p) (hp : w.tree.isDir p = false)
  (hpath : endsWith path "/" = false)
include h hp hpath

theorem exec_writeContent (c : Content) :
    (writeContent path c).exec w = (.ok (), w.withTree (w.tree.insert p (.file c))) := by
  rw [writeContent, exec_bind_ok _ ((exec_resolve path w).trans (by rw [h])),
    exec_bind_ok _ (exec_get w), if_neg (by simp [hp, hpath])]
  rfl

theorem exec_writeText (htext : encodeFault? text = none) :
    (writeText path text).exec w = (.ok (), w.withTree (w.tree.insert p (.file (.text text)))) := by
  rw [writeText, htext]
  exact exec_writeContent h hp hpath _

theorem exec_writeText_of_fault {fault : EncodeFault} (htext : encodeFault? text = some fault) :
    (writeText path text).exec w
      = (.error (.unencodable fault), w.withTree (w.tree.insert p (.file (.text "")))) := by
  rw [writeText, htext]
  exact exec_bind_ok _ (exec_writeContent h hp hpath _)

/-- `writeTexts` writes the texts before the first that cannot be encoded. -/
theorem exec_writeTexts_of_fault {texts : List String} {fault : EncodeFault}
    (htexts : texts.findSome? encodeFault? = some fault) :
    (writeTexts path texts).exec w = (.error (.unencodable fault),
      w.withTree (w.tree.insert p (.file (.text (String.join (writable texts)))))) := by
  rw [writeTexts, htexts]
  exact exec_bind_ok _ (exec_writeText h hp hpath (encodeFault?_join_writable texts))

end

/-- `writeText` succeeds by putting `text` into a file. -/
theorem exec_writeText_eq_ok (h : w.tree.resolve w.place path = .ok p)
    (hpath : endsWith path "/" = false) {u : Unit} {w' : Workspace}
    (hok : (writeText path text).exec w = (.ok u, w')) :
    w.tree.isDir p = false ∧ encodeFault? text = none ∧
      w' = w.withTree (w.tree.insert p (.file (.text text))) := by
  cases hp : w.tree.isDir p with
  | true =>
    rw [exec_writeText_of_isDir h hp] at hok
    cases hok
  | false =>
    cases htext : encodeFault? text with
    | some fault =>
      rw [exec_writeText_of_fault h hp hpath htext] at hok
      cases hok
    | none =>
      rw [exec_writeText h hp hpath htext] at hok
      cases hok
      exact ⟨rfl, rfl, rfl⟩

/-! ### Adding to a file -/

theorem exec_appendText_of_error {f : Fault} (h : w.tree.resolve w.place path = .error f)
    (text : String) : (appendText path text).exec w = (.error f, w) := by
  rw [appendText, exec_bind_ok _ ((exec_find? path w).trans (by rw [find_of_resolve_error h]))]
  exact exec_writeText_of_error h text

theorem exec_appendText_of_isDir (h : w.tree.resolve w.place path = .ok p)
    (hp : w.tree.lookup p = some .dir) (text : String) :
    (appendText path text).exec w = (.error (.isADirectory path), w) := by
  have hdir : w.tree.isDir p = true := isDir_of_lookup hp
  rw [appendText, exec_bind_ok _ ((exec_find? path w).trans (by rw [find_of_resolve h hp]))]
  exact exec_writeText_of_isDir h hdir text

section

variable (h : w.tree.resolve w.place path = .ok p) (hp : w.tree.isDir p = false)
  (hpath : endsWith path "/" = false)
include h hp hpath

theorem exec_appendText (htext : encodeFault? text = none) :
    (appendText path text).exec w = (.ok (), w.withTree
      (w.tree.insert p (.file ((contentOf (w.tree.lookup p)).append text)))) := by
  cases hl : w.tree.lookup p with
  | none =>
    rw [appendText, exec_bind_ok _ ((exec_find? path w).trans (by rw [find_of_resolve_none h hl]))]
    have happend : (contentOf none).append text = .text text :=
      congrArg Content.text String.empty_append
    exact (exec_writeText h hp hpath htext).trans (by rw [happend])
  | some e =>
    cases e with
    | dir => cases (isDir_of_lookup hl).symm.trans hp
    | file c =>
      rw [appendText, exec_bind_ok _ ((exec_find? path w).trans (by rw [find_of_resolve h hl]))]
      simp only [htext]
      exact exec_writeContent h hp hpath _

/-- `appendText` adds no text that cannot be encoded, but the file is there afterwards. -/
theorem exec_appendText_of_fault {fault : EncodeFault} (htext : encodeFault? text = some fault) :
    ∃ t, (appendText path text).exec w = (.error (.unencodable fault), w.withTree t) ∧
      (w.tree.Regular → t.Regular) ∧
      ∀ q, t.lookup q
        = if q = p then some (.file (contentOf (w.tree.lookup p))) else w.tree.lookup q := by
  cases hl : w.tree.lookup p with
  | none =>
    have hne : p ≠ [] := by
      rintro rfl
      cases hl
    rw [appendText, exec_bind_ok _ ((exec_find? path w).trans (by rw [find_of_resolve_none h hl]))]
    exact ⟨_, exec_writeText_of_fault h hp hpath htext, fun ht => ht.insert hne _,
      lookup_insert _ hne _⟩
  | some e =>
    cases e with
    | dir => cases (isDir_of_lookup hl).symm.trans hp
    | file c =>
      rw [appendText, exec_bind_ok _ ((exec_find? path w).trans (by rw [find_of_resolve h hl]))]
      simp only [htext]
      refine ⟨w.tree, rfl, id, fun q => ?_⟩
      split
      · next hq => rw [hq, hl]; rfl
      · rfl

end

end Run

end SmellLint

/-!
## Sound workspaces

A workspace as a computer has it: its tree is that of a file system, and the working directory is a
directory in it.  Making directories and writing files keep it so.
-/

namespace SmellLint

open Path Tree

/-! ### Checking trees -/

/-- Checks `Tree.Sound`: each place is there once, has names on the way to it, and is in a
directory. -/
def Tree.isSound (t : Tree) : Bool :=
  decide (t.entries.map Prod.fst).Nodup && t.entries.all fun x =>
    x.1 != [] && x.1.all (fun name => decide (IsName name)) && t.isDir x.1.dropLast

theorem Tree.isSound_iff (t : Tree) : t.isSound = true ↔ t.Sound := by
  have hentry : ∀ x ∈ t.entries, t.Sound → x.1 ≠ [] ∧ (∀ name ∈ x.1, IsName name) ∧
      t.isDir x.1.dropLast = true := by
    intro x hx h
    obtain ⟨hne, hlookup⟩ := h.mem_entries.1 hx
    obtain ⟨p, name, heq⟩ := List.eq_nil_or_concat x.1 |>.resolve_left hne
    refine ⟨hne, h.isName hlookup, ?_⟩
    rw [List.concat_eq_append] at heq
    rw [heq] at hlookup ⊢
    rw [List.dropLast_concat]
    exact isDir_of_lookup (h.parent hlookup)
  simp only [isSound, Bool.and_eq_true, decide_eq_true_eq, List.all_eq_true, bne_iff_ne, and_assoc]
  refine ⟨fun h => ?_, fun h => ⟨h.nodup, fun x hx => hentry x hx h⟩⟩
  have hregular : t.Regular := ⟨h.1, fun x hx => (h.2 x hx).1⟩
  refine ⟨hregular, fun {p name e} hlookup => ?_, fun {p e} hlookup => ?_⟩
  · have hx := (h.2 _ (hregular.mem_entries.2 ⟨by simp, hlookup⟩)).2.2
    rw [List.dropLast_concat] at hx
    exact lookup_of_isDir hx
  · by_cases hp : p = []
    · rw [hp]
      exact List.forall_mem_nil _
    · exact (h.2 _ (hregular.mem_entries.2 ⟨hp, hlookup⟩)).2.1

instance (t : Tree) : Decidable t.Sound := decidable_of_iff _ t.isSound_iff

/-! ### Workspaces -/

/-- The tree of `w` is that of a file system, and its working directory is there. -/
structure Workspace.Sound (w : Workspace) : Prop where
  tree : w.tree.Sound
  isAbsolute : isAbsolute w.cwd = true
  lookup_place : w.tree.lookup w.place = some .dir

theorem Workspace.Sound.isProper {w : Workspace} (h : w.Sound) : ∀ n ∈ w.place, IsProper n :=
  fun n hn => (h.tree.isName h.lookup_place n hn).1

theorem Workspace.Sound.lookup_origin {w : Workspace} (h : w.Sound) (path : String) :
    w.tree.lookup (origin w.place path) = some .dir := by
  rw [origin]
  split
  · rfl
  · exact h.lookup_place

theorem Workspace.Sound.insert {w : Workspace} (hw : w.Sound) {d : Place} {name : String}
    {e : Entry} (hd : w.tree.lookup d = some .dir) (hname : IsName name)
    (he : w.tree.lookup (d ++ [name]) = some .dir → e = .dir) :
    (w.withTree (w.tree.insert (d ++ [name]) e)).Sound where
  tree := hw.tree.insert hd hname he
  isAbsolute := hw.isAbsolute
  lookup_place := by
    show (w.tree.insert _ e).lookup w.place = some .dir
    rw [lookup_insert _ (by simp)]
    split
    · next h => rw [he (h ▸ hw.lookup_place)]
    · exact hw.lookup_place

/-! ### Places of paths -/

/-- The place that `path` leads to, if all on the way are directories. -/
def Workspace.placeOf (w : Workspace) (path : String) : Place :=
  reach (origin w.place path) (names path)

theorem Workspace.placeOf_congr {w v : Workspace} (h : v.cwd = w.cwd) (path : String) :
    v.placeOf path = w.placeOf path := by
  rw [placeOf, place, h]
  rfl

/-- `join base name` leads to `name` in the place of `base`. -/
theorem Workspace.placeOf_join (w : Workspace) (base : String) {name : String}
    (hname : IsProper name) :
    w.placeOf (join base name) = w.placeOf base ++ [name] := by
  rw [placeOf, origin, isAbsolute_join _ hname.1, names_join _ hname.1, reach_append]
  exact step_of_isProper _ hname

theorem Workspace.placeOf_joinAll (w : Workspace) (base : String) {ns : List String}
    (hns : ∀ n ∈ ns, IsProper n) : w.placeOf (joinAll base ns) = w.placeOf base ++ ns := by
  have hplain : ∀ n ∈ ns, IsPlain n := fun n hn => (hns n hn).1
  rw [placeOf, placeOf, origin, isAbsolute_joinAll _ hplain, ← origin,
    names_joinAll _ hplain, reach_append, reach_of_isProper _ hns]

/-- `absolute` gives the path from the root to `placeOf path`. -/
theorem Workspace.Sound.isPathTo {w : Workspace} (hw : w.Sound) (path : String) :
    IsPathTo (absolute w.cwd path) (w.placeOf path) :=
  isPathTo_absolute path hw.isAbsolute hw.isProper

theorem Workspace.Sound.placeOf_absolute {w : Workspace} (hw : w.Sound) {path : String}
    (hpath : ∀ n ∈ w.placeOf path, IsProper n) :
    w.placeOf (absolute w.cwd path) = w.placeOf path := by
  have hto := hw.isPathTo path
  rw [placeOf, origin, if_pos hto.isAbsolute, hto.names_eq fun n hn => (hpath n hn).1,
    reach_of_isProper [] hpath, List.nil_append]

/-- A path that leads to a place `p` with nothing there leads to a new name in a directory. -/
theorem Workspace.Sound.exists_of_lead {w : Workspace} (hw : w.Sound) {path : String} {p : Place}
    (h : w.tree.lead w.place path = .ok p) (hp : w.tree.lookup p = none) :
    ∃ d name, p = d ++ [name] ∧ w.tree.lookup d = some .dir ∧ IsName name := by
  have husable := usable_of_lead h
  rw [lead_eq _ _ husable] at h
  refine hw.tree.exists_of_follow (fun n hn => ?_) (hw.lookup_origin path) h hp
  exact ⟨isPlain_of_mem_names hn, husable.2.of_mem_names hn⟩

end SmellLint
