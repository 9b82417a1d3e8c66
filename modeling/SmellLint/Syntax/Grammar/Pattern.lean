import SmellLint.Syntax.Grammar.Expression

/-!
# Patterns

The rules for what stands after `case`.
-/

namespace SmellLint.Syntax.Rule

open Parse

def isImaginary : Literal → Bool
  | .imaginary _ => true
  | _ => false

def signedNumber : Parse (Node × Literal) := do
  let start ← here
  let isNegative ← tryOp "-"
  let digits ← here
  match ← peek with
  | .number value =>
    let _ ← next
    let n := Node.constant (← spanFrom digits) value
    if isNegative then return (.unaryOp (← spanFrom start) .minus n, value) else return (n, value)
  | _ => failure

/-- The sum or difference of the number `real`, which has been read, and an imaginary one. -/
def complexNumber (start : Pos) (real : Node) (value : Literal) (kind : BinaryOp) : Parse Node := do
  let _ ← next
  let pos ← here
  match ← peek with
  | .number imag =>
    if isImaginary value || !isImaginary imag then failure
    let _ ← next
    let right := Node.constant (← spanFrom pos) imag
    return .binOp (← spanFrom start) real kind right
  | _ => failure

/-- A number, or a `complexNumber`. -/
def patternNumber : Parse Node := do
  let start ← here
  let (real, value) ← signedNumber
  if ← isOp "+" then complexNumber start real value .add
  else if ← isOp "-" then complexNumber start real value .sub
  else return real

/-- A name with attributes, where at least `least` attributes are needed. -/
def dotted (least : Nat) : Parse Node := do
  let start ← here
  let id ← name
  let first := Node.name (← spanFrom start) id
  let (n, count) ← fold (fun (n, count) => do
    if ← tryOp "." then
      let attr ← name
      return some (Node.attribute (← spanFrom start) n attr, count + 1)
    else return none) (first, 0)
  if count < least then failure else return n

/-- Whether an underscore comes next, which gives no name. -/
def isUnderscore : Parse Bool := return (← peek) matches .name "_" true

/-- A name that a pattern gives to what it matches. -/
def captureName : Parse String := do
  if ← isUnderscore then failure
  let id ← name
  if (← isOp ".") || (← isOp "(") || (← isOp "=") then failure else return id

/-- A constant that is compared by identity. -/
def singleton? : TokenKind → Option Literal
  | .keyword "None" => some .none
  | .keyword "True" => some (.bool true)
  | .keyword "False" => some (.bool false)
  | _ => none

/-- A pattern of a sequence, possibly starred. -/
def sequenceItem (g : Grammar) : Parse Node := do
  let start ← here
  if ← tryOp "*" then
    if ← isUnderscore then
      let _ ← next
      return .pattern (← spanFrom start) (.star none) []
    else
      let id ← captureName
      return .pattern (← spanFrom start) (.star (some id)) []
  else g.pattern

def mappingKey (g : Grammar) : Parse Node := do
  let start ← here
  let kind ← peek
  match kind with
  | .number _ | .op "-" => patternNumber
  | .string _ => strings g
  | .name .. => dotted 1
  | _ =>
    match singleton? kind with
    | some value =>
      let _ ← next
      return .constant (← spanFrom start) value
    | none => failure

/-- A key with its pattern, or the rest of a mapping. -/
def mappingItem (g : Grammar) : Parse ((Node × Node) ⊕ String) := do
  if ← tryOp "**" then return .inr (← captureName)
  else
    let key ← mappingKey g
    op ":"
    let value ← g.pattern
    return .inl (key, value)

/-- A pattern of a class: by position, or with the name of an attribute. -/
def classItem (g : Grammar) : Parse (Node ⊕ (String × Node)) := do
  match ← peek, ← peekSecond with
  | .name id _, .op "=" =>
    let _ ← next
    let _ ← next
    return .inr (id, ← g.pattern)
  | _, _ => return .inl (← g.pattern)

/-- Each `item` of a bracketed list of patterns, up to `closing`. -/
def itemsUpTo {α : Type} (closing : String) (item : Parse α) : Parse (List α) := do
  if ← tryOp closing then return []
  else
    let items ← commaList item
    op closing
    return items

def closedPattern (g : Grammar) : Parse Node := do
  let start ← here
  let kind ← peek
  let make (form : PatternForm) (parts : List Node) : Parse Node := do
    return .pattern (← spanFrom start) form parts
  match kind with
  | .number _ | .op "-" =>
    let n ← patternNumber
    make .value [n]
  | .string _ =>
    let n ← strings g
    make .value [n]
  | .op "[" =>
    let _ ← next
    let items ← itemsUpTo "]" (sequenceItem g)
    make .sequence items
  | .op "(" =>
    let _ ← next
    if ← tryOp ")" then make .sequence []
    else
      let isStarred ← isOp "*"
      let first ← sequenceItem g
      if ← isOp "," then
        let (rest, _) ← commaRest (sequenceItem g)
        op ")"
        make .sequence (first :: rest)
      else if isStarred then failure
      else
        op ")"
        return first
  | .op "\x7b" =>
    let _ ← next
    let items ← itemsUpTo "\x7d" (mappingItem g)
    let pairs := items.filterMap Sum.getLeft?
    let rests := items.filterMap Sum.getRight?
    -- the rest of a mapping comes last, and once
    let lastIsRest := items.getLast?.any Sum.isRight
    if rests.length > 1 || (rests.length == 1 && !lastIsRest) then failure
    make (.mapping rests.head?) (pairs.map Prod.fst ++ pairs.map Prod.snd)
  -- an underscore is complete by itself, whatever follows it
  | .name "_" true =>
    let _ ← next
    make (.capture none) []
  | .name .. =>
    match ← peekSecond with
    | .op "." | .op "(" =>
      let n ← dotted 0
      if ← tryOp "(" then
        let items ← itemsUpTo ")" (classItem g)
        let named := items.filterMap Sum.getRight?
        let positional := (items.takeWhile Sum.isLeft).filterMap Sum.getLeft?
        -- patterns by position come first
        if positional.length + named.length != items.length then failure
        -- after them an underscore is read as one more of them, not as the name of an attribute
        if !positional.isEmpty && named.head?.map Prod.fst == some "_" then failure
        make (.classPattern (named.map Prod.fst)) (n :: positional ++ named.map Prod.snd)
      else if ← isOp "=" then failure
      else make .value [n]
    | _ =>
      let id ← captureName
      make (.capture (some id)) []
  | _ =>
    match singleton? kind with
    | some value =>
      let _ ← next
      make (.singleton value) []
    | none => failure

/-- A pattern with alternatives. -/
def alternatives (g : Grammar) : Parse Node := do
  let start ← here
  let first ← closedPattern g
  let rest ← many (ifNext (tryOp "|") (closedPattern g))
  if rest.isEmpty then return first
  else return .pattern (← spanFrom start) .alternatives (first :: rest)

/-- A pattern with `alternatives` and a name. -/
def pattern (g : Grammar) : Parse Node := do
  let start ← here
  let n ← alternatives g
  if ← tryKeyword "as" then
    let id ← captureName
    return .pattern (← spanFrom start) (.capture (some id)) [n]
  else return n

/-- What stands after `case`: a pattern, or a sequence of them without brackets. -/
def casePatterns (g : Grammar) : Parse Node := do
  let start ← here
  let isStarred ← isOp "*"
  let item : Parse Node := do
    if ← isOp "*" then sequenceItem g else pattern g
  let first ← item
  let (rest, comma) ← commaRest item
  if comma || !rest.isEmpty then return .pattern (← spanFrom start) .sequence (first :: rest)
  else if isStarred then failure
  else return first

end SmellLint.Syntax.Rule
