import SmellLint.Workspace.Basic

/-!
# Options of a command line

Commands that are told what to do by options with long names.  A name may be shortened as long as it
stays unambiguous, and a value may be joined to it by `=`.  `-h` and `--help` ask for a description
of the command.
-/

namespace SmellLint.CommandLine

/-- What an option takes. -/
inductive Kind where
  | flag
  | text
  | int
  | choice (choices : List String)

/-- An option; its name is given without the dashes. -/
structure Opt where
  name : String
  kind : Kind
  required : Bool
  help : String

/-- A command and its options. -/
structure Command where
  program : String
  description : String
  options : List Opt

/-- What an option was given. -/
inductive Value where
  | set
  | text (value : String)
  | int (value : Int)

/-- The outcome of reading arguments. -/
inductive Parsed where
  | values (given : Keyed Value)
  | help
  | refused

/-! ## Reading arguments -/

/-- How one argument is understood. -/
inductive Argument where
  | operand (text : String)
  /-- `isLong` tells which of the two spellings of the request for help is used. -/
  | help (isLong : Bool) (joined : Option String)
  | option (opt : Opt) (joined : Option String)
  | unknown
  | endOfOptions

/-- Cuts `arg` at its first `=`. -/
def splitJoined (arg : String) : String × Option String :=
  match Text.splitAtFirst? ['='] arg.toList with
  | some (a, b) => (String.ofList a, some (String.ofList b))
  | none => (arg, none)

/-- Whether `arg` looks like a negative number, with a line end behind it or not. -/
def isNegativeNumber (arg : String) : Bool :=
  let digits (cs : List Char) : Bool :=
    let cs := if cs.getLast? = some '\n' then cs.dropLast else cs
    !cs.isEmpty && cs.all Text.isDecimalDigit
  match arg.toList with
  | '-' :: r =>
    match r.dropWhile Text.isDecimalDigit with
    | '.' :: f => digits f
    | _ => digits r
  | _ => false

def startsWith (text start : String) : Bool := (Text.dropStart? start.toList text.toList).isSome

/-- The options of `c` as they are written, with what they mean; `none` is the request for help. -/
def Command.spellings (c : Command) : List (String × Option Opt) :=
  [("-h", none), ("--help", none)] ++ c.options.map fun o => ("--" ++ o.name, some o)

def named (spelling : String) (o : Option Opt) (joined : Option String) : Argument :=
  match o with
  | some o => .option o joined
  | none => .help (startsWith spelling "--") joined

/-- How `arg` is understood; `none` if it may mean several options. -/
def Command.classify (c : Command) (arg : String) : Option Argument :=
  if !startsWith arg "-" || arg == "-" then some (.operand arg)
  else
    match c.spellings.lookup arg with
    | some o => some (named arg o none)
    | none =>
      let (name, joined) := splitJoined arg
      match if joined.isSome then c.spellings.lookup name else none with
      | some o => some (named name o joined)
      | none =>
        let candidates : List Argument :=
          if startsWith arg "--" then
            (c.spellings.filter fun s => startsWith s.1 name).map fun s => named s.1 s.2 joined
          else
            c.spellings.filterMap fun s =>
              if s.1.toList == arg.toList.take 2 then
                some (named s.1 s.2 (some (String.ofList (arg.toList.drop 2))))
              else if startsWith s.1 arg then some (named s.1 s.2 none)
              else none
        match candidates with
        | [a] => some a
        | _ :: _ :: _ => none
        | [] =>
          if isNegativeNumber arg || arg.toList.contains ' ' then some (.operand arg)
          else some .unknown

/-- How all arguments are understood; after `--` everything is an operand. -/
def Command.classifyAll (c : Command) : List String → Option (List Argument)
  | [] => some []
  | "--" :: r => some (.endOfOptions :: r.map .operand)
  | a :: r => do
    let first ← c.classify a
    let rest ← c.classifyAll r
    return first :: rest

def Opt.read (o : Opt) (s : String) : Option Value :=
  match o.kind with
  | .flag => none
  | .text => some (.text s)
  | .int =>
    match Text.readInt s with
    | .ok n => some (.int n)
    | .error _ => none
  | .choice choices => if choices.contains s then some (.text s) else none

/-- What is known after some arguments: the values given, and whether something was not
understood. -/
structure Progress where
  given : Keyed Value
  surplus : Bool

/-- Goes through the arguments; a request for help ends the reading. -/
def collect (p : Progress) : List Argument → Option (Progress ⊕ Unit)
  | [] => some (.inl p)
  | .operand _ :: r => collect { p with surplus := true } r
  | .endOfOptions :: r => collect { p with surplus := true } r
  | .unknown :: r => collect { p with surplus := true } r
  | .help _ none :: _ => some (.inr ())
  | .help isLong (some joined) :: _ =>
    -- letters joined to the short spelling are short options themselves
    if !isLong && !joined.isEmpty && joined.toList.all (· == 'h') then some (.inr ()) else none
  | .option o joined :: r =>
    match o.kind, joined, r with
    | .flag, none, r => collect { p with given := p.given.insert o.name .set } r
    | .flag, some _, _ => none
    | _, some s, r => do
      let v ← o.read s
      collect { p with given := p.given.insert o.name v } r
    | _, none, .operand s :: r => do
      let v ← o.read s
      collect { p with given := p.given.insert o.name v } r
    | _, none, _ => none

def Command.parse (c : Command) (args : List String) : Parsed :=
  match (c.classifyAll args).bind (collect ⟨.empty, false⟩) with
  | none => .refused
  | some (.inr ()) => .help
  | some (.inl p) =>
    let complete := c.options.all fun o => !o.required || p.given.contains o.name
    if complete && !p.surplus then .values p.given else .refused

def textValue (given : Keyed Value) (name : String) : String :=
  match given.get? name with
  | some (.text s) => s
  | _ => ""

def isSet (given : Keyed Value) (name : String) : Bool := given.contains name

/-- The number that the option `name` was given, or `default`. -/
def intValue (given : Keyed Value) (name : String) (default : Int) : Int :=
  match given.get? name with
  | some (.int n) => n
  | _ => default

/-! ## Describing a command -/

def lineWidth : Nat := 78

/-- What stands for the value of an option. -/
def Opt.placeholder (o : Opt) : Option String :=
  match o.kind with
  | .flag => none
  | .choice choices => some ("\x7b" ++ ",".intercalate choices ++ "\x7d")
  | _ => some o.name.toUpper

/-- An option with its `placeholder`. -/
def Opt.invocation (o : Opt) : String :=
  match o.placeholder with
  | some p => s!"--{o.name} {p}"
  | none => s!"--{o.name}"

/-- The parts of the usage line for an option, between which a line may end. -/
def Opt.usageParts (o : Opt) : List String :=
  if o.required then Text.words o.invocation else [s!"[{o.invocation}]"]

def blanks (n : Nat) : String := String.ofList (List.replicate n ' ')

def Command.usage (c : Command) : List String :=
  let parts := "[-h]" :: c.options.flatMap Opt.usageParts
  let oneLine := " ".intercalate (s!"usage: {c.program}" :: parts)
  if oneLine.length ≤ lineWidth then [oneLine]
  else
    let start := s!"usage: {c.program}"
    let indent := start.length + 1
    match Text.fill lineWidth indent (start.length + 1) [start] parts with
    | [] => []
    | first :: rest => first :: rest.map (blanks indent ++ ·)

/-- The lines that describe one option; `column` is where the explanations start. -/
def optionLines (column : Nat) (invocation help : String) : List String :=
  let texts := Text.wrap (lineWidth - column) help
  let head := "  " ++ invocation
  if head.length + 2 ≤ column then
    match texts with
    | [] => [head]
    | t :: r => (head ++ blanks (column - head.length) ++ t) :: r.map (blanks column ++ ·)
  else head :: texts.map (blanks column ++ ·)

def Command.helpLines (c : Command) : List String :=
  let rows := ("-h, --help", "show this help message and exit") ::
    c.options.map fun o => (o.invocation, o.help)
  let column := min 24 ((rows.map fun r => r.1.length).foldl max 0 + 4)
  c.usage ++ [""] ++ Text.wrap lineWidth c.description ++ ["", "options:"] ++
    rows.flatMap fun r => optionLines column r.1 r.2

/-- Reads `args`; a request for help is answered and ends the run, and so do arguments that are not
understood. -/
def Command.parseOrExit (c : Command) (args : List String) : Run (Keyed Value) := do
  match c.parse args with
  | .help =>
    Run.printAll c.helpLines
    throw (.exit 0)
  | .refused => throw (.exit 2)
  | .values given => return given

end SmellLint.CommandLine
