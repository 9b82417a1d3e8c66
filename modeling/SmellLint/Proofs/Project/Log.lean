import SmellLint.Project.Files

/-!
# The text of a log

A log is a text with one line for each project.  Its last line gives back the project that was added
last, if names of projects are lines of their own (`lastLine_textOf`).
-/

namespace SmellLint

open List Text

namespace Text

/-- What stands before the first line end is a line. -/
theorem linesKeepingEndChars_append {cs : List Char} (h : '\n' ∉ cs) (r : List Char) :
    linesKeepingEndChars (cs ++ '\n' :: r) = (cs ++ ['\n']) :: linesKeepingEndChars r := by
  induction cs with
  | nil => rfl
  | cons c cs ih =>
    rw [mem_cons, not_or] at h
    rw [cons_append, linesKeepingEndChars, if_neg (Ne.symm h.1), ih h.2]
    rfl

/-- `trimWith p` drops a character `c` of the class at the end of a text. -/
theorem trimWith_append_singleton {p : Char → Bool} {c : Char} (hc : p c = true)
    (cs : List Char) : trimWith p (cs ++ [c]) = trimWith p cs := by
  rw [trimWith, trimWith, dropWhile_append]
  split
  · next h =>
    rw [isEmpty_iff.1 h, dropWhile_cons_of_pos hc]
    rfl
  · rw [reverse_append, reverse_singleton, singleton_append, dropWhile_cons_of_pos hc]

end Text

namespace Project.Log

/-- The text of a log that names projects, each on a line. -/
def textOf (names : List String) : String := String.join (names.map (· ++ "\n"))

theorem toList_textOf_cons (name : String) (names : List String) :
    (textOf (name :: names)).toList = name.toList ++ '\n' :: (textOf names).toList := by
  rw [textOf, map_cons, String.join_cons, String.toList_append, String.toList_append, append_assoc]
  rfl

/-- `name` is a line of its own, with no white space around it. -/
structure IsLine (name : String) : Prop where
  no_newline : '\n' ∉ name.toList
  no_return : '\r' ∉ name.toList
  trim_eq : trim name = name

theorem trim_line {name : String} (h : IsLine name) : trim (name ++ "\n") = name := by
  have htrim : trimChars name.toList = name.toList := by
    rw [← String.toList_ofList (l := trimChars name.toList)]
    exact congrArg String.toList h.trim_eq
  rw [trim, String.toList_append, trimChars]
  rw [show "\n".toList = ['\n'] from rfl, trimWith_append_singleton (by decide),
    ← trimChars, htrim, String.ofList_toList]

variable {names : List String} (h : ∀ name ∈ names, IsLine name)
include h

theorem linesKeepingEnds_textOf :
    linesKeepingEnds (textOf names) = names.map (· ++ "\n") := by
  induction names with
  | nil => rfl
  | cons name names ih =>
    obtain ⟨hname, hnames⟩ := forall_mem_cons.1 h
    rw [linesKeepingEnds, toList_textOf_cons,
      linesKeepingEndChars_append hname.no_newline, map_cons, ← linesKeepingEnds,
      ih hnames, map_cons, String.ofList_append, String.ofList_toList]

theorem unifyNewlines_textOf : unifyNewlines (textOf names) = textOf names := by
  have hreturn : '\r' ∉ (textOf names).toList := by
    induction names with
    | nil => decide
    | cons name names ih =>
      obtain ⟨hname, hnames⟩ := forall_mem_cons.1 h
      rw [toList_textOf_cons, mem_append, mem_cons, not_or, not_or]
      exact ⟨hname.no_return, by decide, ih hnames⟩
  rw [unifyNewlines, unifyNewlineChars_of_not_mem hreturn, String.ofList_toList]

/-- `lastLine` gives the project that was added last. -/
theorem lastLine_textOf :
    lastLine (textOf names) = names.getLast?.getD "" := by
  rw [lastLine, linesKeepingEnds_textOf h, getLast?_map]
  cases hlast : names.getLast? with
  | none => rfl
  | some name => exact trim_line (h name (mem_of_getLast? hlast))

end Project.Log

end SmellLint
