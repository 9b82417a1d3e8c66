import SmellLint.Proofs.Project.Log
import SmellLint.Proofs.Project.Tasks

/-!
# What effects come to

What is at a place after effects, said without their order.  The log has one line for each project
that was added, in this order, and so has the file for errors one record after the other.  What is
at any other place depends only on which effects there were, not on their order nor on how often
they happened (`Scene.after_eq_of_mem_iff`).
-/

namespace SmellLint

open Effect List String

/-- The record that an `Effect.note` adds. -/
def Effect.record? : Effect → Option String
  | .note record => record
  | _ => none

/-- Whether an effect opens the file for errors. -/
def Effect.isNote : Effect → Bool
  | .note _ => true
  | _ => false

namespace Scene

variable {s : Scene} {es es' : List Effect}

/-- The effects `es` can happen, and save one text only at a place. -/
structure Coherent (s : Scene) (es : List Effect) : Prop where
  allowed : ∀ e ∈ es, s.Allowed e
  saved : ∀ {p : Place} {t t' : String}, .save p t ∈ es → .save p t' ∈ es → t = t'

theorem Coherent.of_subset (h : s.Coherent es') (hes : es ⊆ es') : s.Coherent es :=
  ⟨fun e he => h.allowed e (hes he), fun hp hp' => h.saved (hes hp) (hes hp')⟩

theorem Coherent.of_append_left (h : s.Coherent (es ++ es')) : s.Coherent es :=
  h.of_subset (subset_append_left es es')

theorem after_concat (s : Scene) (es : List Effect) (e : Effect) (q : Place) :
    s.after (es ++ [e]) q = s.apply (s.after es) e q := s.after_append es [e] q

/-! ## Places that are written are different -/

theorem resultsPlace_ne_errorPlace (s : Scene) (name : String) :
    s.resultsPlace name ≠ s.errorPlace := by
  intro heq
  have := congrArg List.length heq
  simp [resultsPlace, errorPlace] at this

theorem resultsName_ne_log (name : String) : resultsName name ≠ "execution_log.txt" := by
  intro heq
  have hlast : "_results.csv".toList <:+ "execution_log.txt".toList := by
    rw [← heq]
    exact ⟨name.toList, toList_append.symm⟩
  revert hlast
  decide

theorem resultsPlace_ne_logPlace (s : Scene) (name : String) :
    s.resultsPlace name ≠ s.logPlace := fun heq =>
  resultsName_ne_log name (singleton_inj.1 (append_inj' heq rfl).2)

theorem resultsName_inj {name name' : String} (h : resultsName name = resultsName name') :
    name = name' := by
  have hlist := congrArg toList h
  rw [show (resultsName name).toList = name.toList ++ _ from toList_append,
    show (resultsName name').toList = name'.toList ++ _ from toList_append] at hlist
  exact toList_inj.1 (append_cancel_right hlist)

/-- Projects of different names have their results at different places. -/
theorem resultsPlace_inj {name name' : String} (h : s.resultsPlace name = s.resultsPlace name') :
    name = name' := resultsName_inj (singleton_inj.1 (append_inj' h rfl).2)

theorem errorPlace_ne_logPlace (s : Scene) : s.errorPlace ≠ s.logPlace := by
  intro heq
  obtain ⟨-, heq⟩ := append_inj' heq rfl
  simp at heq

/-! ## Which effects change a place -/

/-- An effect may change what is at `q`. -/
def Touches (s : Scene) (q : Place) : Effect → Prop
  | .make path => q ∈ s.dirsOf path
  | .note _ => q = s.errorPlace
  | .save p _ => q = p
  | .log _ => q = s.logPlace

theorem apply_of_not_touches {f : Place → Option Entry} {q : Place} {e : Effect}
    (h : ¬s.Touches q e) : s.apply f e q = f q := by
  cases e <;> exact if_neg h

theorem eq_save_of_touches {p : Place} {e : Effect} (he : s.Allowed e) (hp : s.IsResults p)
    (hdirs : p ∉ s.dirsOf s.details) (h : s.Touches p e) : ∃ text, e = .save p text := by
  obtain ⟨name, rfl, -⟩ := hp
  cases e with
  | make path => exact absurd (s.mem_dirsOf_of_allowed he h) hdirs
  | note record => exact absurd h (s.resultsPlace_ne_errorPlace name)
  | save q text => exact ⟨text, by rw [show s.resultsPlace name = q from h]⟩
  | log n => exact absurd h (s.resultsPlace_ne_logPlace name)

theorem eq_note_of_touches {e : Effect} (he : s.Allowed e)
    (hdirs : s.errorPlace ∉ s.dirsOf s.details) (h : s.Touches s.errorPlace e) :
    ∃ record, e = .note record := by
  cases e with
  | make path => exact absurd (s.mem_dirsOf_of_allowed he h) hdirs
  | note record => exact ⟨record, rfl⟩
  | save q text =>
    obtain ⟨⟨name, rfl, -⟩, -⟩ := he
    exact absurd h (s.resultsPlace_ne_errorPlace name).symm
  | log n => exact absurd h s.errorPlace_ne_logPlace

/-! ## Results -/

theorem after_of_mem_save {p : Place} {text : String} (h : s.Coherent es)
    (hp : .save p text ∈ es) : s.after es p = some (.file (.text text)) := by
  induction es using reverseRecOn with
  | nil => cases hp
  | append_singleton es e ih =>
    obtain ⟨hresults, hdirs, -⟩ := h.allowed _ hp
    have hlast : e ∈ es ++ [e] := mem_append_right es mem_cons_self
    rw [after_concat]
    by_cases htouches : s.Touches p e
    · obtain ⟨text', rfl⟩ := eq_save_of_touches (h.allowed _ hlast) hresults hdirs htouches
      rw [apply, if_pos rfl, h.saved hp hlast]
    · rw [apply_of_not_touches htouches]
      refine ih h.of_append_left ?_
      -- the text was saved before, as the last effect does not touch the place
      rcases mem_append.1 hp with hp | hp
      · exact hp
      · exact absurd (mem_singleton.1 hp ▸ rfl) htouches

/-- Whether an effect makes a folder at `q`, unless something is there. -/
def makes (s : Scene) (q : Place) : Effect → Bool
  | .make path => (s.dirsOf path).contains q
  | _ => false

/-- A place `q` where nothing is written has what it had, or is a folder that was made. -/
theorem after_of_not_mem_save {q : Place} (hlog : q ≠ s.logPlace)
    (herror : q = s.errorPlace → ∀ r, .note r ∉ es) (hsave : ∀ t, .save q t ∉ es) :
    s.after es q = if es.any (s.makes q) then some ((s.start.tree.lookup q).getD .dir)
      else s.start.tree.lookup q := by
  induction es using reverseRecOn with
  | nil => rfl
  | append_singleton es e ih =>
    have hes := ih (fun hq r hr => herror hq r (mem_append_left _ hr))
      fun t ht => hsave t (mem_append_left _ ht)
    have hlast : e ∈ es ++ [e] := mem_append_right es mem_cons_self
    rw [after_concat, any_append, any_cons, any_nil, Bool.or_false]
    by_cases htouches : s.Touches q e
    · cases e with
      | make path =>
        have hmem : q ∈ s.dirsOf path := htouches
        rw [apply, if_pos hmem, makes, contains_iff_mem.2 hmem, Bool.or_true, hes]
        split <;> rfl
      | note record => exact absurd hlast (herror htouches record)
      | save p t =>
        obtain rfl : q = p := htouches
        exact absurd hlast (hsave t)
      | log name => exact absurd htouches hlog
    · have hmakes : s.makes q e = false := by
        cases e with
        | make path => exact Bool.eq_false_iff.2 fun hmem => htouches (contains_iff_mem.1 hmem)
        | _ => rfl
      rw [apply_of_not_touches htouches, hmakes, Bool.or_false, hes]

/-- What is at `q`, neither the log nor the file for errors, does not depend on the order of
effects, nor on how often they happened. -/
theorem after_eq_of_mem_iff {q : Place} (h : s.Coherent es) (hmem : ∀ e, e ∈ es ↔ e ∈ es')
    (hlog : q ≠ s.logPlace) (herror : q = s.errorPlace → ∀ r, .note r ∉ es) :
    s.after es q = s.after es' q := by
  -- a text that was saved here is what is here; otherwise only folders can have been made
  by_cases hsave : ∃ t, .save q t ∈ es
  · obtain ⟨t, ht⟩ := hsave
    rw [after_of_mem_save h ht, after_of_mem_save (h.of_subset fun e => (hmem e).2) ((hmem _).1 ht)]
  · have hsave' : ∀ t, .save q t ∉ es := fun t ht => hsave ⟨t, ht⟩
    have hany : es.any (s.makes q) = es'.any (s.makes q) := by
      rw [Bool.eq_iff_iff, any_eq_true, any_eq_true]
      simp [hmem]
    rw [after_of_not_mem_save hlog herror hsave', after_of_not_mem_save hlog
      (fun hq r hr => herror hq r ((hmem _).2 hr)) fun t ht => hsave' t ((hmem _).2 ht), hany]

/-! ## The log -/

/-- `log` with lines for the projects `names` added at its end. -/
def withLines (log : Entry) (names : List String) : Entry :=
  names.foldl (fun e name => .file ((Entry.contentOf (some e)).append (name ++ "\n"))) log

theorem withLines_append (log : Entry) (names names' : List String) :
    withLines log (names ++ names') = withLines (withLines log names) names' := foldl_append

theorem withLines_text (text : String) (names : List String) :
    withLines (.file (.text text)) names = .file (.text (text ++ Project.Log.textOf names)) := by
  induction names generalizing text with
  | nil => rw [withLines, foldl_nil, Project.Log.textOf, map_nil, join_nil, append_empty]
  | cons name names ih =>
    refine (ih _).trans ?_
    rw [Project.Log.textOf, Project.Log.textOf, map_cons, join_cons, String.append_assoc]

/-- The log has what it had and a line for each project that was logged. -/
theorem after_logPlace (h : s.Coherent es) :
    s.after es s.logPlace = some (withLines s.log (es.filterMap logged?)) := by
  induction es using reverseRecOn with
  | nil => exact s.started
  | append_singleton es e ih =>
    have hes := ih h.of_append_left
    have hlast := h.allowed e (mem_append_right es mem_cons_self)
    rw [after_concat, filterMap_append, withLines_append]
    cases e with
    | make path =>
      rw [apply, hes]
      split <;> rfl
    | note record => exact (if_neg s.errorPlace_ne_logPlace.symm).trans hes
    | save p text =>
      obtain ⟨⟨name, rfl, -⟩, -⟩ := hlast
      exact (if_neg (s.resultsPlace_ne_logPlace name).symm).trans hes
    | log name =>
      rw [apply, if_pos rfl, hes]
      rfl

/-- A log that was empty has a line for each project that was logged. -/
theorem after_logPlace_of_empty (h : s.Coherent es) (hlog : s.log = .file (.text "")) :
    s.after es s.logPlace = some (.file (.text (Project.Log.textOf (es.filterMap logged?)))) := by
  rw [after_logPlace h, hlog, withLines_text, empty_append]

/-! ## The file for errors -/

/-- `c` with `records` added at its end. -/
def withRecords (c : Content) (records : List String) : Content := records.foldl Content.append c

theorem withRecords_append (c : Content) (records records' : List String) :
    withRecords c (records ++ records') = withRecords (withRecords c records) records' :=
  foldl_append

theorem filterMap_record_of_not_any (h : es.any isNote = false) : es.filterMap record? = [] := by
  refine filterMap_eq_nil_iff.2 fun e he => ?_
  have hnote := any_eq_false.1 h e he
  cases e with
  | note record => exact absurd rfl hnote
  | _ => rfl

/-- The file for errors has what it had and the records that were noted. -/
theorem after_errorPlace (h : s.Coherent es) (hdirs : s.errorPlace ∉ s.dirsOf s.details) :
    s.after es s.errorPlace = if es.any isNote
      then some (.file (withRecords (Entry.contentOf (s.start.tree.lookup s.errorPlace))
        (es.filterMap record?)))
      else s.start.tree.lookup s.errorPlace := by
  induction es using reverseRecOn with
  | nil => rfl
  | append_singleton es e ih =>
    have hes := ih h.of_append_left
    have hlast := h.allowed e (mem_append_right es mem_cons_self)
    rw [after_concat, any_append, filterMap_append, withRecords_append]
    by_cases htouches : s.Touches s.errorPlace e
    · obtain ⟨record, rfl⟩ := eq_note_of_touches hlast hdirs htouches
      have hcontent : Entry.contentOf (s.after es s.errorPlace)
          = withRecords (Entry.contentOf (s.start.tree.lookup s.errorPlace))
            (es.filterMap record?) := by
        rw [hes]
        cases hany : es.any isNote with
        | true => rfl
        | false =>
          rw [filterMap_record_of_not_any hany]
          rfl
      have hany : (es.any isNote || [note record].any isNote) = true :=
        Bool.or_true _
      rw [apply, if_pos rfl, hcontent, if_pos hany]
      cases record <;> rfl
    · have hnone : e.isNote = false ∧ e.record? = none := by
        cases e with
        | note record => exact absurd rfl htouches
        | _ => exact ⟨rfl, rfl⟩
      rw [apply_of_not_touches htouches, filterMap_cons_none hnone.2, any_cons, hnone.1,
        any_nil, Bool.or_false, Bool.or_false]
      exact hes

end Scene

end SmellLint
