import SmellLint.Proofs.Except
import SmellLint.Service.Assistant

/-!
# What comes of asking a model

A request about a program ends with the smells that the reply lists or is refused, whatever comes:
another status, no reply, lines that are no JSON.  Three things are left over (`answer_of_reply`).
A request that takes too long has no verdict to look into, one that is malformed no reply, and a
piece that is no text is not joined to the others.
-/

namespace SmellLint.Assistant

open List
open Syntax (Node)

variable {line : String} {reply : Reply}

/-! ## Lines of a reply -/

/-- `line` is no JSON, for instance empty, or an object. -/
def IsChunk (line : String) : Prop := (Json.parse line).toOption.all (·.obj?.isSome) = true

instance (line : String) : Decidable (IsChunk line) := inferInstanceAs (Decidable (_ = true))

/-- Why `line` is not read: a whole number in it has too many digits, or its piece is no text. -/
def stop? (line : String) : Option Fault :=
  match Json.parse line with
  | .error (.malformed _) => none
  | .error (.tooLong digits) => some (.integerTooLong digits)
  | .ok j => (j.get? "response").bind fun piece =>
    if piece.str?.isSome then none else some (.notJoinable "str" piece.kindName)

/-- What `line` adds to a reply. -/
def said (line : String) : String :=
  (((Json.parse line).toOption.bind (·.get? "response")).bind Json.str?).getD ""

theorem pieceOfLine_eq (h : IsChunk line) :
    pieceOfLine line = (stop? line).elim (.ok (said line)) .error := by
  unfold pieceOfLine stop? said
  split
  · next hempty =>
    obtain rfl := String.isEmpty_iff.1 hempty
    rfl
  · rw [IsChunk] at h
    cases hparsed : Json.parse line with
    | error fault => cases fault <;> rfl
    | ok j =>
      rw [hparsed] at h
      cases j with
      | obj members =>
        cases hpiece : members.lookup "response" with
        | none => simp [Except.toOption, Json.get?, hpiece]
        | some piece => cases piece <;> simp [Except.toOption, Json.get?, hpiece, Json.str?]
      | _ => cases h

/-- `replyText` stops at the first line that is not read. -/
theorem replyText_eq {lines : List String} (h : ∀ line ∈ lines, IsChunk line) :
    replyText lines = (lines.findSome? stop?).elim (.ok (String.join (lines.map said))) .error := by
  have hpieces : lines.mapM pieceOfLine
      = (lines.findSome? stop?).elim (.ok (lines.map said)) .error := by
    induction lines with
    | nil => rfl
    | cons line rest ih =>
      obtain ⟨hline, hrest⟩ := forall_mem_cons.1 h
      rw [mapM_cons, pieceOfLine_eq hline, findSome?_cons, ih hrest]
      cases stop? line <;> cases rest.findSome? stop? <;> rfl
  rw [replyText, hpieces]
  cases lines.findSome? stop? <;> rfl

/-! ## Replies -/

namespace Reply

def lines : Reply → List String
  | .failed _ => []
  | .answered _ lines _ => lines

/-- `reply` has something in it, of which reading stops for the reason `stopped?` or goes as far as
the reply does. -/
def IsRead (reply : Reply) (lines : List String) (stopped? : Option Fault)
    (broken? : Option Failure) : Prop :=
  reply = .answered 200 lines broken? ∧ "\n".intercalate lines ≠ "" ∧
    lines.findSome? stop? = stopped?

/-- The request takes too long, before `reply` or within it. -/
def IsGivenUp (reply : Reply) : Prop :=
  reply = .failed .timeout ∨ ∃ lines, reply.IsRead lines none (some .timeout)

/-- The first line that is not read has a piece that is no text, but of `kind`. -/
def IsUnjoinable (reply : Reply) (kind : String) : Prop :=
  ∃ lines broken?, reply.IsRead lines (some (.notJoinable "str" kind)) broken?

/-- `text` is the whole text of `reply`, and not empty. -/
def Tells (reply : Reply) (text : String) : Prop :=
  text ≠ "" ∧ ∃ lines, reply.IsRead lines none none ∧ text = String.join (lines.map said)

end Reply

variable {lines : List String}

theorem eq_of_findSome?_stop? {fault : Fault} (h : lines.findSome? stop? = some fault) :
    (∃ digits, fault = .integerTooLong digits) ∨ ∃ kind, fault = .notJoinable "str" kind := by
  obtain ⟨line, -, hstop⟩ := exists_of_findSome?_eq_some h
  unfold stop? at hstop
  split at hstop
  · cases hstop
  · cases hstop
    exact .inl ⟨_, rfl⟩
  · obtain ⟨piece, -, hpiece⟩ := Option.bind_eq_some_iff.1 hstop
    split at hpiece
    · cases hpiece
    · cases hpiece
      exact .inr ⟨_, rfl⟩

variable (hlines : ∀ line ∈ reply.lines, IsChunk line)
include hlines

theorem Reply.IsRead.replyText_eq {stopped? : Option Fault} {broken? : Option Failure}
    (h : reply.IsRead lines stopped? broken?) :
    replyText lines = stopped?.elim (.ok (String.join (lines.map said))) .error := by
  obtain ⟨rfl, -, rfl⟩ := h
  exact Assistant.replyText_eq hlines

theorem verdict_of_isGivenUp (h : reply.IsGivenUp) : verdict reply = .ok .none := by
  rcases h with rfl | ⟨lines, hread⟩
  · rfl
  · have htext := hread.replyText_eq hlines
    obtain ⟨rfl, hbody, -⟩ := hread
    simp [verdict, hbody, htext, Failure.verdict]

theorem verdict_of_isUnjoinable {kind : String} (h : reply.IsUnjoinable kind) :
    verdict reply = .error (.notJoinable "str" kind) := by
  obtain ⟨lines, broken?, hread⟩ := h
  have htext := hread.replyText_eq hlines
  obtain ⟨rfl, hbody, -⟩ := hread
  simp [verdict, hbody, htext]

theorem verdict_of_tells {text : String} (h : reply.Tells text) :
    verdict reply = .ok (.smells (smellsOfReply text)) := by
  obtain ⟨hne, lines, hread, rfl⟩ := h
  have htext := hread.replyText_eq hlines
  obtain ⟨rfl, hbody, -⟩ := hread
  simp [verdict, hbody, htext, hne]

/-- All else fails, in a way that has a name. -/
theorem verdict_of_not (hup : ¬reply.IsGivenUp) (hmalformed : reply ≠ .failed .malformed)
    (hjoined : ∀ kind, ¬reply.IsUnjoinable kind) (htells : ∀ text, ¬reply.Tells text) :
    ∃ label, verdict reply = .ok (.failed label) := by
  cases reply with
  | failed failure =>
    cases failure with
    | timeout => exact absurd (.inl rfl) hup
    | malformed => exact absurd rfl hmalformed
    | other => exact ⟨_, rfl⟩
  | answered status lines broken? =>
    by_cases hstatus : status = 200
    · subst hstatus
      by_cases hbody : "\n".intercalate lines = ""
      · exact ⟨_, by simp [verdict, hbody]; rfl⟩
      · have hread : (Reply.answered 200 lines broken?).IsRead lines (lines.findSome? stop?)
            broken? := ⟨rfl, hbody, rfl⟩
        have htext := hread.replyText_eq hlines
        -- of the faults that stop reading, too many digits are named like a malformed reply
        cases hstop : lines.findSome? stop? with
        | some fault =>
          rw [hstop] at hread htext
          rcases eq_of_findSome?_stop? hstop with ⟨digits, rfl⟩ | ⟨kind, rfl⟩
          · exact ⟨_, by simp [verdict, hbody, htext]; rfl⟩
          · exact absurd ⟨lines, broken?, hread⟩ (hjoined kind)
        | none =>
          rw [hstop] at hread htext
          cases broken? with
          | some failure =>
            cases failure with
            | timeout => exact absurd (.inr ⟨lines, hread⟩) hup
            | malformed | other => exact ⟨_, by simp [verdict, hbody, htext]; rfl⟩
          | none =>
            by_cases hempty : String.join (lines.map said) = ""
            · exact ⟨_, by simp [verdict, hbody, htext, hempty]; rfl⟩
            · exact absurd ⟨hempty, lines, hread, rfl⟩ (htells _)
    · exact ⟨_, by simp [verdict, hstatus]; rfl⟩

/-- `answer` about a program gives the smells in the text of `reply` or refuses the request, unless
it takes too long or is malformed, or a piece of the reply is no text. -/
theorem answer_of_reply {code : String} {tree : Node} (hcode : Node.parse code = .ok tree) :
    (reply.IsGivenUp → verdict reply = .ok .none ∧
      answer code reply = .error (.notSubscriptable "NoneType")) ∧
    (reply = .failed .malformed → verdict reply = .error .noResponse ∧
      answer code reply = .error .noResponse) ∧
    (∀ kind, reply.IsUnjoinable kind → verdict reply = .error (.notJoinable "str" kind) ∧
      answer code reply = .error (.notJoinable "str" kind)) ∧
    (∀ text, reply.Tells text → verdict reply = .ok (.smells (smellsOfReply text)) ∧
      answer code reply = .ok (.ok (.obj [("code_snippet", .str code), ("success", .bool true),
        ("smells", .arr ((smellsOfReply text).map fun n => .obj [("smell_name", .str n)]))]))) ∧
    (¬reply.IsGivenUp → reply ≠ .failed .malformed → (∀ kind, ¬reply.IsUnjoinable kind) →
      (∀ text, ¬reply.Tells text) → (∃ label, verdict reply = .ok (.failed label)) ∧
        answer code reply = .ok (.error (.rejected 500 "Error during AI analysis"))) := by
  have hprogram : isProgram code = .ok true := by rw [isProgram, hcode]
  refine ⟨fun hup => ?_, fun hmalformed => ?_, fun kind hkind => ?_, fun text htells => ?_,
    fun hup hmalformed hjoined htells => ?_⟩
  · have hverdict := verdict_of_isGivenUp hlines hup
    exact ⟨hverdict, by rw [answer, hprogram, hverdict]; rfl⟩
  · subst hmalformed
    exact ⟨rfl, by rw [answer, hprogram]; rfl⟩
  · have hverdict := verdict_of_isUnjoinable hlines hkind
    exact ⟨hverdict, by rw [answer, hprogram, hverdict]; rfl⟩
  · have hverdict := verdict_of_tells hlines htells
    exact ⟨hverdict, by rw [answer, hprogram, hverdict]; rfl⟩
  · obtain ⟨label, hverdict⟩ := verdict_of_not hlines hup hmalformed hjoined htells
    exact ⟨⟨label, hverdict⟩, by rw [answer, hprogram, hverdict]; rfl⟩

omit hlines in
/-- A reply in two pieces, with an empty line between them, and a request that takes too long. -/
theorem answer_of_reply_streamed :
    let lines := ["\x7b\"response\":\"The code smells are:\"\x7d", "",
      "\x7b\"response\":\"\\n- Chain Indexing\"\x7d"]
    answer "x" (.answered 200 lines none) = .ok (.ok (.obj [("code_snippet", .str "x"),
      ("success", .bool true), ("smells", .arr [.obj [("smell_name", .str "Chain Indexing")]])])) ∧
    answer "x" (.failed .timeout) = .error (.notSubscriptable "NoneType") := by
  intro lines
  have hsome : (Node.parse "x").toOption.isSome = true := by decide +kernel
  obtain ⟨tree, htree⟩ := Option.isSome_iff_exists.1 hsome
  have hcode : Node.parse "x" = .ok tree := eq_ok_of_toOption htree
  have hlines : ∀ line ∈ (Reply.answered 200 lines none).lines, IsChunk line := by
    decide +kernel
  have hsmells : smellsOfReply (String.join (lines.map said)) = ["Chain Indexing"] := by
    decide +kernel
  have hstop : (lines.findSome? stop?).isNone = true := by decide +kernel
  have htells : (Reply.answered 200 lines none).Tells (String.join (lines.map said)) :=
    ⟨by decide +kernel, lines, ⟨rfl, by decide +kernel, Option.isNone_iff_eq_none.1 hstop⟩, rfl⟩
  have hanswer := answer_of_reply hlines hcode
  refine ⟨?_, ((answer_of_reply (forall_mem_nil _) hcode).1 (.inl rfl)).2⟩
  rw [(hanswer.2.2.2.1 _ htells).2, hsmells]
  rfl

end SmellLint.Assistant
