import Mathlib.Data.List.Nodup
import SmellLint.Proofs.Except
import SmellLint.Proofs.Lists
import SmellLint.Proofs.Workspace.Paths
import SmellLint.Service.Assistant
import SmellLint.Training.Datasets

/-!
# Reading back lists of labels

A list of labels that has been written under its heading is read again in three ways: from an answer
of a model, from a stored conversation, and from a reply of a model server.  All of them find the
same items (`items_body`); they differ in what they do with an item that comes again
(`readings_of_listing`).
-/

namespace SmellLint

open Label Listing Text List

namespace Text

theorem dropStart?_append (p cs : List Char) : dropStart? p (p ++ cs) = some cs := by
  induction p with
  | nil => rfl
  | cons c p ih => rw [cons_append, dropStart?, if_pos rfl, ih]

/-- `p` at the start of a text is its own first occurrence. -/
theorem splitAtFirst?_append {p : List Char} (h : p ≠ []) (cs : List Char) :
    splitAtFirst? p (p ++ cs) = some ([], cs) := by
  obtain ⟨c, r, rfl⟩ := exists_cons_of_ne_nil h
  rw [cons_append, splitAtFirst?, ← cons_append, dropStart?_append]

/-- `trim` leaves a text `s` with no blank at either end as it is. -/
theorem trim_of_ends {s : String} (hfirst : s.toList.head?.any isBlank = false)
    (hlast : s.toList.getLast?.any isBlank = false) : trim s = s := by
  have hdrop : ∀ {cs : List Char}, cs.head?.any isBlank = false → cs.dropWhile isBlank = cs := by
    intro cs h
    cases cs with
    | nil => rfl
    | cons c r => exact dropWhile_cons_of_neg (by simpa using h)
  rw [trim, trimChars, trimWith, hdrop hfirst, hdrop (by rwa [head?_reverse]),
    reverse_reverse, String.ofList_toList]

end Text

namespace Listing

/-- `s` can be an item of a list: it is not empty, stands on one line with no blank at either end,
and holds nothing that would end it. -/
@[mk_iff]
structure IsLabel (s : String) : Prop where
  ne_empty : s ≠ ""
  no_newline : '\n' ∉ s.toList
  no_colon : ':' ∉ s.toList
  first : s.toList.head?.any isBlank = false
  last : s.toList.getLast?.any isBlank = false

instance : DecidablePred IsLabel := fun s => decidable_of_iff' _ (isLabel_iff s)

theorem isLabel_of_mem_known : ∀ l ∈ known, IsLabel l := by
  all_goals decide +kernel

/-! ## Lines and items -/

/-- What follows the heading of a list: a line end, and one line for each of `labels`. -/
def body (labels : List String) : String := "\n- " ++ "\n- ".intercalate labels

theorem after?_render (labels : List String) : after? (render labels) = some (body labels) := by
  rw [after?, render, String.append_assoc, String.toList_append]
  exact congrArg some String.ofList_toList

variable {labels : List String}

/-- A list without labels still has the dash of its first line. -/
theorem splitOn_body (h : ∀ l ∈ labels, '\n' ∉ l.toList) :
    splitOn '\n' (body labels)
      = "" :: (if labels = [] then [""] else labels).map ("- " ++ ·) := by
  have hline : ∀ {l : String}, '\n' ∉ l.toList → '\n' ∉ ("- " ++ l).toList := by
    simp
  have hbody : ∀ rest, splitOn '\n' ("\n- " ++ rest) = "" :: splitOn '\n' ("- " ++ rest) :=
    fun rest => splitOn_append '\n' "" ("- " ++ rest)
  rw [body, hbody]
  congr 1
  induction labels with
  | nil => rfl
  | cons l labels ih =>
    obtain ⟨hl, hlabels⟩ := forall_mem_cons.1 h
    cases labels with
    | nil => rw [String.intercalate_singleton, splitOn_of_not_mem (hline hl)]; rfl
    | cons next labels =>
      have hsplit : "- " ++ "\n- ".intercalate (l :: next :: labels)
          = ("- " ++ l) ++ String.singleton '\n' ++
            ("- " ++ "\n- ".intercalate (next :: labels)) := by
        apply String.toList_injective
        simp
      rw [hsplit, splitOn_append, splitOn_of_not_mem (hline hl), ih hlabels]
      rfl

theorem itemOfLine?_dash (l : String) :
    itemOfLine? ("- " ++ l) = if l = "" then none else some l := by
  rw [itemOfLine?, String.toList_append, show "- ".toList = ['-', ' '] from rfl,
    splitAtFirst?_append (by simp)]
  cases hl : l.toList with
  | nil =>
    rw [if_pos (String.toList_eq_nil_iff.1 hl)]
  | cons c r =>
    have hne : l ≠ "" := by
      rintro rfl
      cases hl
    rw [if_neg hne]
    dsimp only
    rw [← hl, String.ofList_toList]

/-- `items` of a list that has been written are its `labels`, repetitions included. -/
theorem items_body (h : ∀ l ∈ labels, l ≠ "" ∧ '\n' ∉ l.toList) :
    items (body labels) = labels := by
  rw [items, splitOn_body fun l hl => (h l hl).2, filterMap_cons, filterMap_map]
  have hempty : itemOfLine? "" = none := rfl
  rw [hempty]
  dsimp only
  split
  · next hnil => rw [hnil]; rfl
  · refine (filterMap_congr fun l hl => ?_).trans filterMap_some
    rw [Function.comp_apply, itemOfLine?_dash, if_neg (h l hl).1]

theorem IsLabel.itemName_eq {s : String} (h : IsLabel s) : itemName s = s := by
  rw [itemName, splitOn_of_not_mem h.no_colon, headD_cons, trim_of_ends h.first h.last]

theorem itemNames_body (h : ∀ l ∈ labels, IsLabel l) : itemNames (body labels) = labels := by
  rw [itemNames, items_body fun l hl => ⟨(h l hl).ne_empty, (h l hl).no_newline⟩]
  exact (map_congr_left fun l hl => (h l hl).itemName_eq).trans (map_id' labels)

end Listing

/-! ## Readings -/

/-- `joined` puts `texts` that are stored as a list together. -/
theorem Json.joined_strings (sep : String) (texts : List String) :
    (arr (texts.map .str)).joined sep = .ok (sep.intercalate texts) := by
  refine bind_eq_ok.2 ⟨texts.map .str, rfl, bind_eq_ok.2 ⟨texts, ?_, rfl⟩⟩
  rw [mapM_eq_ok (g := (fun j : Json => j.str?.getD "") ∘ Prod.fst)]
  · rw [← map_map, zipIdx_map_fst, map_map]
    exact congrArg Except.ok (map_id texts)
  · rintro ⟨item, i⟩ hitem
    obtain ⟨text, -, rfl⟩ := mem_map.1 (fst_mem_of_mem_zipIdx hitem)
    rfl

namespace Conversation

/-- `ofSample` of a stored sample that has a text as its code and texts as its labels. -/
theorem ofSample_eq {sample : Json} {code : String} {labels : List String}
    (hcode : sample.member "code" = .ok (.str code))
    (hlabels : sample.member "labels" = .ok (.arr (labels.map .str))) :
    ofSample sample = .ok (toJson (ofLabels code labels)) := by
  refine bind_eq_ok.2 ⟨_, hcode, bind_eq_ok.2 ⟨_, hlabels, bind_eq_ok.2 ⟨_, ?_, rfl⟩⟩⟩
  exact Json.joined_strings _ _

theorem trueLabels_ofLabels (code : String) {labels : List String} (h : ∀ l ∈ labels, IsLabel l) :
    trueLabels (toJson (ofLabels code labels)) = .ok ⟨[], labels.eraseDups⟩ := by
  have hlisted : listedLabels (render labels) = ⟨[], labels.eraseDups⟩ := by
    rw [listedLabels, after?_render]
    dsimp only
    rw [items_body fun l hl => ⟨(h l hl).ne_empty, (h l hl).no_newline⟩,
      map_congr_left fun l hl => trim_of_ends (h l hl).first (h l hl).last, map_id']
  exact congrArg Except.ok hlisted

theorem predictedLabels_render {known labels : List String} (h : ∀ l ∈ labels, IsLabel l)
    (hknown : ∀ l ∈ labels, l ∈ known) :
    predictedLabels known (render labels) = ⟨[], labels.eraseDups⟩ := by
  have hkept : labels.filter known.contains = labels :=
    filter_eq_self.2 fun l hl => contains_iff_mem.2 (hknown l hl)
  have hrefused : labels.filter (fun l => !known.contains l) = [] :=
    filter_eq_nil_iff.2 fun l hl => by simpa using hknown l hl
  rw [predictedLabels, after?_render]
  dsimp only
  rw [itemNames_body h, hkept, hrefused]
  rfl

end Conversation

theorem Assistant.smellsOfReply_render {labels : List String} (h : ∀ l ∈ labels, IsLabel l) :
    smellsOfReply (render labels) = labels.filter known.contains := by
  rw [smellsOfReply, after?_render]
  dsimp only
  rw [itemNames_body h]

/-- A list of known `labels` under its heading, as it is stored with a sample, is read back: an
answer of a model and a stored conversation give each label once, and a reply of a model server
gives them as they were listed. -/
theorem Listing.readings_of_listing {known labels : List String}
    (hknown : ∀ l ∈ known, IsLabel l) (hlabels : ∀ l ∈ labels, l ∈ known) (code : String) :
    let text := "The code smells are:\n- " ++ "\n- ".intercalate labels
    Conversation.predictedLabels known text = ⟨[], labels.eraseDups⟩ ∧
      (∀ sample : Json, sample.member "code" = .ok (.str code) →
        sample.member "labels" = .ok (.arr (labels.map .str)) →
        ∃ conversation reading, Conversation.ofSample sample = .ok conversation ∧
          conversation = Conversation.toJson (Conversation.messages code text) ∧
          Conversation.trueLabels conversation = .ok reading ∧
          reading.labels.Nodup ∧ ∀ l, l ∈ reading.labels ↔ l ∈ labels) ∧
      ((∀ l, l ∈ known ↔ l ∈ Label.known) → Assistant.smellsOfReply text = labels) := by
  intro text
  have htext : text = render labels := rfl
  have hall : ∀ l ∈ labels, IsLabel l := fun l hl => hknown l (hlabels l hl)
  rw [htext]
  refine ⟨?_, fun sample hcode hlist => ?_, fun hsame => ?_⟩
  · exact Conversation.predictedLabels_render hall hlabels
  · exact ⟨_, _, Conversation.ofSample_eq hcode hlist, rfl,
      Conversation.trueLabels_ofLabels code hall, nodup_eraseDups labels,
      fun _ => List.mem_eraseDups⟩
  · rw [Assistant.smellsOfReply_render hall]
    exact List.filter_eq_self.2 fun l hl => List.contains_iff_mem.2 ((hsame l).1 (hlabels l hl))

/-- A label with a dash, listed twice. -/
theorem Listing.readings_of_listing_repeated :
    (∀ l ∈ Label.known, IsLabel l) ∧
      Conversation.predictedLabels Label.known
          "The code smells are:\n- In-Place APIs Misused\n- No Smell\n- In-Place APIs Misused"
        = ⟨[], ["In-Place APIs Misused", "No Smell"]⟩ ∧
      (∃ conversation reading,
        Conversation.ofSample (.obj [("code", .str "x = 1"), ("labels", .arr
          [.str "In-Place APIs Misused", .str "No Smell", .str "In-Place APIs Misused"])])
          = .ok conversation ∧
        Conversation.trueLabels conversation = .ok reading ∧ reading.labels.Nodup ∧
          ∀ l, l ∈ reading.labels ↔
            l ∈ ["In-Place APIs Misused", "No Smell", "In-Place APIs Misused"]) ∧
      Assistant.smellsOfReply
          "The code smells are:\n- In-Place APIs Misused\n- No Smell\n- In-Place APIs Misused"
        = ["In-Place APIs Misused", "No Smell", "In-Place APIs Misused"] := by
  have hlabels : ∀ l ∈ ["In-Place APIs Misused", "No Smell", "In-Place APIs Misused"],
      l ∈ Label.known := by decide
  obtain ⟨hpredicted, htrue, hreply⟩ := readings_of_listing isLabel_of_mem_known hlabels "x = 1"
  obtain ⟨conversation, reading, hsample, -, hreading, hread⟩ := htrue
    (.obj [("code", .str "x = 1"), ("labels", .arr
      [.str "In-Place APIs Misused", .str "No Smell", .str "In-Place APIs Misused"])]) rfl rfl
  exact ⟨isLabel_of_mem_known, hpredicted, ⟨conversation, reading, hsample, hreading, hread⟩,
    hreply fun _ => Iff.rfl⟩

end SmellLint
