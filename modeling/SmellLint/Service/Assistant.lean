import SmellLint.Json.Encode
import SmellLint.Listing
import SmellLint.Service.Checked
import SmellLint.Syntax.Grammar.Statement
import SmellLint.Workspace.Basic

/-!
# Asking a language model

A model server is asked for the smells of a program.  It answers in lines, each a JSON object with a
piece of the reply.  The smells are listed in the reply; names that are not known are left out.
-/

namespace SmellLint.Assistant

def smellsOfReply (text : String) : List String :=
  match Listing.after? text with
  | some rest => (Listing.itemNames rest).filter Label.known.contains
  | none => []

/-! ## Asking -/

/-- Why a request gets no reply, or a part of one. -/
inductive Failure where
  | timeout
  /-- The request itself, or what comes, is malformed. -/
  | malformed
  | other

/-- What comes of a request. -/
inductive Reply where
  | failed (failure : Failure)
  /-- A status code and lines; `broken?` tells why reading fails after the last line, if it does. -/
  | answered (status : Nat) (lines : List String) (broken? : Option Failure)

/-- A model and the server it is on. -/
structure Model where
  url : String := "http://localhost:11434/api/generate"
  name : String := "codesmile:latest"

/-- A request that was sent. -/
structure Sent where
  model : Model
  question : String
  /-- The time after which the request is given up, in seconds. -/
  timeout : Nat := 60
  stream : Bool := true

instance : ToJson Sent where
  toJson s := .arr [.str s.model.url, .str s.model.name, .str s.question, .int s.timeout,
    .bool s.stream]

def question (code : String) : String :=
  "You are an assistant trained to detect code smells in Python code.\n\nHere is the code:\n" ++
    code ++ "\n\nIdentify the code smell in the above code."

/-- What the model finds. -/
inductive Verdict where
  | smells (names : List String)
  | failed (label : String)
  /-- The request was given up. -/
  | none

instance : ToJson Verdict where
  toJson
    | .none => .null
    | .failed label => .obj [("success", .bool false), ("label", .str label)]
    | .smells names => .obj [("success", .bool true), ("smells", .ofStrings names)]

/-- The piece of the reply in `line`; lines that are no JSON have none, but a whole number with too
many digits is a fault. -/
def pieceOfLine (line : String) : Except Fault String :=
  if line.isEmpty then .ok ""
  else
    match Json.parse line with
    | .error (.malformed _) => .ok ""
    | .error fault => .error (.ofReadFault fault)
    | .ok (.obj members) =>
      match members.lookup "response" with
      | some (.str piece) => .ok piece
      | some j => .error (.notJoinable "str" j.kindName)
      | none => .ok ""
    | .ok (.arr items) =>
      if items.any fun j => j.str? == some "response" then .error (.badIndex true) else .ok ""
    | .ok (.str s) => if Text.contains s "response" then .error (.badIndex false) else .ok ""
    | .ok j => .error (.notSearchable j.kindName)

def replyText (lines : List String) : Except Fault String :=
  return String.join (← lines.mapM pieceOfLine)

def Failure.verdict : Failure → Verdict
  | .timeout => .none
  | .malformed => .failed "Invalid JSON response from AI model"
  | .other => .failed "Error in communication with the AI model"

/-- What the model finds, by what came of the request.  Of a malformed request no answer is there to
be shown. -/
def verdict : Reply → Except Fault Verdict
  | .failed .malformed => .error .noResponse
  | .failed failure => .ok failure.verdict
  | .answered status lines broken? =>
    if status != 200 then .ok (.failed "Error in AI model analysis")
    else if ("\n".intercalate lines).isEmpty then .ok (.failed "No response from AI model")
    else
      match replyText lines, broken? with
      | .error (.integerTooLong _), _ => .ok Failure.malformed.verdict
      | .error e, _ => .error e
      | .ok _, some failure => .ok failure.verdict
      | .ok text, none =>
        .ok (if text.isEmpty then .failed "Incomplete response from AI model"
          else .smells (smellsOfReply text))

/-- The requests that reach the server. -/
def sent (model : Model) (code : String) : Reply → List Sent
  | .failed _ => []
  | .answered .. => [{ model, question := question code }]

/-! ## Requests -/

open Service in
/-- Reads a request to ask about a program. -/
def readRequest : Reader String :=
  recordValue fun ms => required ms "code_snippet" textValue

def isProgram (code : String) : Except Fault Bool :=
  match Syntax.Node.parse code with
  | .ok _ => .ok true
  | .error .invalidSyntax => .ok false
  | .error e => .error e

open Service in
/-- Answers a request to ask about `code`; the model is asked only about programs. -/
def answer (code : String) (reply : Reply) : Except Fault (Except Refusal Json) := do
  if !(← isProgram code) then
    return .error (.rejected 400 "Invalid Python syntax in the code snippet.")
  match ← verdict reply with
  | .none => throw (.notSubscriptable "NoneType")
  | .failed _ => return .error (.rejected 500 "Error during AI analysis")
  | .smells names =>
    return .ok (.obj [("code_snippet", .str code), ("success", .bool true),
      ("smells", .arr (names.map fun n => .obj [("smell_name", .str n)]))])

end SmellLint.Assistant
