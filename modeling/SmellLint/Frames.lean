import SmellLint.Syntax.Walk
import SmellLint.Fault

/-!
# Variables and data frames

## Variables

The variables that assignments define in a part of a program, and the places where names occur.
-/

namespace SmellLint.Bindings

open Syntax (Node)

def assignedNames : Node → List String
  | .assign _ targets _ => targets.filterMap Node.nameId?
  | _ => []

/-- The variables that assignments in `n` define, each with the line of its last assignment in the
order of the walk. -/
def definitions (n : Node) : Keyed Nat :=
  Keyed.ofList (n.walk.flatMap fun m => (assignedNames m).map (·, m.line))

/-- The names that occur in `n`, each with the lines where it does. -/
def usage (n : Node) : Keyed (List Nat) :=
  n.walk.foldl (fun uses m =>
    match m with
    | .name span id => uses.alter id fun lines => lines.getD [] ++ [span.start.line]
    | _ => uses) .empty

end SmellLint.Bindings

/-!
## Data frames

Which variables of a part of a program hold data frames, which methods are called on them, and which
constants they are indexed with.  The methods that give data frames come from a list in which
entries may be unknown; looking for a member of it fails as soon as an unknown entry is met.
-/

namespace SmellLint.Frames

open Syntax (Node Literal)

/-- Names of methods, some of them unknown. -/
abbrev Methods := List (Option String)

def Methods.search (name : String) : Methods → Except Fault Bool
  | [] => .ok false
  | none :: _ => .error .unknownMember
  | some m :: r => if m = name then .ok true else Methods.search name r

/-- The parameters of a plain function that count as data frames. -/
def parameters : Node → List String
  | .functionDef _ false _ (.params _ args _ _ _ _ _) _ _ _ => args.filterMap fun
    | .param _ name _ => some name
    | _ => none
  | _ => []

/-- Whether an expression makes a new data frame. -/
def isConstructor (alias? : Option String) : Node → Bool
  | .call _ (.attribute _ (.name _ base) attr) _ _ => alias? == some base && attr == "DataFrame"
  | _ => false

/-- The targets of an assignment whose value is one of the `methods` called on a `known` variable.
-/
def derived (methods : Methods) (known targets : List String) : Node → Except Fault (List String)
  | .call _ (.attribute _ (.name _ base) attr) _ _ =>
    if known.contains base then do
      if ← methods.search attr then return targets else return []
    else return []
  | _ => return []

/-- The targets of an assignment whose value is any call of one of the `methods`, or another
variable. -/
def called (methods : Methods) (targets : List String) : Node → Except Fault (List String)
  | .call _ (.attribute _ _ attr) _ _ =>
    if targets.isEmpty then return []
    else do
      if ← methods.search attr then return targets else return []
  | .name _ id => return targets.filter (· != id)
  | _ => return []

/-- The variables that an assignment makes data frames, given the `known` ones. -/
def assigned (methods : Methods) (alias? : Option String) (known : List String) :
    Node → Except Fault (List String)
  | .assign _ targets value => do
    let names := targets.filterMap Node.nameId?
    let made := if isConstructor alias? value then names else []
    let fromKnown ← derived methods (known ++ made) names value
    let fromAny ← called methods names value
    return made ++ fromKnown ++ fromAny
  | _ => return []

/-- Goes through nodes and collects the variables they make data frames. -/
def collect (methods : Methods) (alias? : Option String) (known : List String) :
    List Node → Except Fault (List String)
  | [] => .ok known
  | n :: r => do
    let more ← assigned methods alias? known n
    collect methods alias? (known ++ more) r

/-- The data-frame variables of `n`, each once. -/
def names (methods : Methods) (alias? : Option String) (n : Node) : Except Fault (List String) := do
  return (← collect methods alias? (parameters n) n.walk).eraseDups

/-- The `methods` that are called on `vars`, per variable. -/
def methodCalls (methods : Methods) (vars : List String) (n : Node) :
    Except Fault (Keyed (List String)) :=
  n.walk.foldlM (fun calls m =>
    match m with
    | .call _ (.attribute _ (.name _ base) attr) _ _ => do
      if vars.contains base then
        if ← methods.search attr then
          return calls.alter base fun ms => ms.getD [] ++ [attr]
        else return calls
      else return calls
    | _ => return calls) (Keyed.ofList (vars.map (·, [])))

/-- The constants with which `vars` are indexed, per variable. -/
def accesses (vars : List String) (n : Node) : Keyed (List Literal) :=
  n.walk.foldl (fun found m =>
    match m with
    | .subscript _ (.name _ base) (.constant _ value) =>
      if vars.contains base then found.alter base fun vs => vs.getD [] ++ [value] else found
    | _ => found) (Keyed.ofList (vars.map (·, [])))

end SmellLint.Frames
