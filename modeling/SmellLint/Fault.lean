import SmellLint.Json.Read

/-!
# Faults

Everything that can go wrong, one constructor for each cause, and how each is reported
(`Fault.message`).
-/

namespace SmellLint

/-- Why an operation fails. -/
inductive Fault where
  /-- A fact that an operation needs is not given. -/
  | missingKey (key : String)
  /-- A mapping is asked for the item at a place. -/
  | missingPlace (place : Nat)
  /-- Nothing is given where a list is gone through. -/
  | nothingToIterate
  /-- Nothing is given where a member is looked for. -/
  | nothingToSearch
  /-- A member is looked for among values of which one is unknown. -/
  | unknownMember
  /-- A text operation is applied to a value of another kind. -/
  | noOperation (kind operation : String)
  | tooManyDigits
  /-- A line number lies outside the text. -/
  | indexOutOfRange
  /-- A text has no character at a place. -/
  | characterOutOfRange
  | undecodable (fault : Text.Utf8.Fault)
  /-- A text cannot be written as bytes. -/
  | unencodable (fault : Text.Utf8.EncodeFault)
  /-- A text is no program. -/
  | invalidSyntax
  | fileNotFound (path : String)
  /-- A path leads through something that is no directory. -/
  | notADirectory (path : String)
  /-- A directory stands where a file is needed. -/
  | isADirectory (path : String)
  /-- There is something at a path where nothing should be. -/
  | fileExists (path : String)
  | nameTooLong (path : String)
  /-- A path holds the character that ends texts in memory. -/
  | nulInPath
  /-- The list of models is missing. -/
  | noModelFile (path : String)
  /-- The list of tensor operations is missing. -/
  | noTensorFile (path : String)
  | noModelColumns (path : String)
  /-- The list of tensor operations lacks a column. -/
  | noTensorColumn (path : String)
  | modelsNotLoaded
  /-- The list of models has no methods. -/
  | noMethodColumn
  /-- A quoted field of a table does not end. -/
  | openQuote (line : Nat)
  /-- A record of a table has more fields than those before it. -/
  | unevenRecord (expected line found : Nat)
  /-- A table has no header. -/
  | noColumns
  /-- Values of these kinds have no order. -/
  | notComparable (op left right : String)
  /-- A table lacks the column that is counted. -/
  | columnNotFound (name : String)
  | nothingToJoin
  /-- A folder holds no results of an analysis. -/
  | noProjectDetails (path : String)
  /-- The results of an analysis have no tables. -/
  | noTables (path : String)
  /-- The title of a sheet has a character that titles must not have. -/
  | forbiddenTitle (c : Char)
  /-- A cell of a sheet holds a control character. -/
  | forbiddenCell
  /-- A chart of nothing is asked for. -/
  | emptyChart
  /-- There is nothing left to read. -/
  | endOfInput
  /-- A project has no files to analyze. -/
  | noSourceFiles (path : String)
  | noWorkers
  /-- A request names no walkers. -/
  | noWalkers
  /-- A request lacks an argument. -/
  | missingArgument (name : String)
  /-- A value of another kind is given where a path is needed. -/
  | notAPath (kind : String)
  /-- A text is no whole number. -/
  | notAnInteger (text : String)
  | nothingToWrite
  /-- A file that should be an archive is none. -/
  | notAnArchive
  /-- A member is looked for in a value that has none. -/
  | notSearchable (kind : String)
  /-- A part is taken of a value that has none. -/
  | notSubscriptable (kind : String)
  /-- A part of a list or a text is asked for by a name. -/
  | badIndex (ofList : Bool)
  /-- A value of another kind is joined to a text or a list. -/
  | notJoinable (whole part : String)
  /-- Values of these kinds have no sum. -/
  | noSum (left right : String)
  /-- The length is asked of a value that has none. -/
  | noLength (kind : String)
  /-- Items are drawn from a value that has no order. -/
  | notASequence
  /-- A value with parts is used as a key. -/
  | unhashable (kind : String)
  /-- Lists of different lengths are compared item by item. -/
  | unequalLengths (left right : Nat)
  /-- A response is used that never came. -/
  | noResponse
  /-- A service cannot be reached. -/
  | unreachable
  /-- An answer is no JSON value. -/
  | notJson
  /-- A stored text is no JSON value. -/
  | malformed (fault : Json.ParseFault)
  /-- A text spells a whole number with too many digits. -/
  | integerTooLong (digits : Nat)
  | notText (kind : String)
  /-- A value of another kind is gone through. -/
  | notIterable (kind : String)
  /-- Texts are joined of a value that has no items. -/
  | noTexts
  /-- An item of another kind stands among texts that are joined. -/
  | mixedItems (index : Nat) (kind : String)
  /-- More items are to be drawn than there are, or fewer than none. -/
  | badDraw
  /-- A number is to be drawn from a range without numbers. -/
  | emptyRange (least greatest : Int)
  | modelFailed
  /-- A model has no answer left. -/
  | noReplyLeft
  /-- The extreme value of nothing is asked for. -/
  | noExtreme (name : String)
  /-- A cell is asked of a grid without rows. -/
  | noGrid
  /-- A cell is asked of a grid in a column that it does not have. -/
  | columnOutOfRange (column width : Nat)
  | unevenGrid (rows : Nat)
  /-- Nothing is given where rows are compared. -/
  | noRows
  /-- Two grids cannot be compared cell by cell. -/
  | unequalShapes (left right : List Nat)
  /-- A number is divided by zero. -/
  | divisionByZero (whole : Bool)
  /-- A number is not finite where a whole number is needed. -/
  | notFinite (isNan : Bool)
  /-- A whole number is too large to be turned into another kind of number. -/
  | tooLarge
  | tokenizerNotLoaded
  /-- A search needs a token and there is none. -/
  | noToken
  /-- The program ends with a code. -/
  | exit (code : Nat)
  /-- Something went wrong with a file that is inspected. -/
  | inFile (path : String) (cause : Fault)
deriving Inhabited

def Fault.isFileNotFound : Fault → Bool
  | .fileNotFound _ => true
  | .inFile _ cause => cause.isFileNotFound
  | _ => false

/-- Whether a path was refused before anything was looked for. -/
def Fault.isRefusal : Fault → Bool
  | .unencodable _ | .nulInPath => true
  | _ => false

def Fault.shapeText : List Nat → String
  | [n] => s!"({n},)"
  | extents => "(" ++ ",".intercalate (extents.map toString) ++ ")"

/-- Most characters of a quoted text that a report about whole numbers shows. -/
def Fault.shownLength : Nat := 200

def Fault.ofReadFault : Json.ReadFault → Fault
  | .malformed fault => .malformed fault
  | .tooLong digits => .integerTooLong digits

/-- A text that is not read as a whole number. -/
def Fault.ofIntegerFault (text : String) : Text.IntegerFault → Fault
  | .malformed => .notAnInteger text
  | .tooLong digits => .integerTooLong digits

def Fault.message : Fault → String
  | .missingKey key => Text.quoted key
  | .missingPlace place => toString place
  | .nothingToIterate => "'NoneType' object is not iterable"
  | .nothingToSearch => "argument of type 'NoneType' is not iterable"
  | .unknownMember => "boolean value of NA is ambiguous"
  | .noOperation kind operation => s!"'{kind}' object has no attribute '{operation}'"
  | .tooManyDigits =>
    "Exceeds the limit (4300 digits) for integer string conversion; use " ++
      "sys.set_int_max_str_digits() to increase the limit"
  | .indexOutOfRange => "list index out of range"
  | .characterOutOfRange => "string index out of range"
  | .undecodable fault => fault.message
  | .unencodable fault => fault.message
  | .invalidSyntax => "invalid syntax"
  | .fileNotFound path => s!"[Errno 2] No such file or directory: {Text.quoted path}"
  | .notADirectory path => s!"[Errno 20] Not a directory: {Text.quoted path}"
  | .isADirectory path => s!"[Errno 21] Is a directory: {Text.quoted path}"
  | .fileExists path => s!"[Errno 17] File exists: {Text.quoted path}"
  | .nameTooLong path => s!"[Errno 36] File name too long: {Text.quoted path}"
  | .nulInPath => "embedded null byte"
  | .noModelFile path => s!"Model file not found: {path}"
  | .noTensorFile path => s!"Tensor operations file not found: {path}"
  | .noModelColumns path => s!"Expected columns 'method' and'library' not found in {path}"
  | .noTensorColumn path => s!"Expected column 'number_of_tensors_input'not found in {path}"
  | .modelsNotLoaded => "Model dictionary not loaded. Call `load_model_dict` first."
  | .noMethodColumn => "'method' column not found in the model dictionary."
  | .openQuote line =>
    s!"Error tokenizing data. C error: EOF inside string starting at row {line}"
  | .unevenRecord expected line found =>
    s!"Error tokenizing data. C error: Expected {expected} fields in line {line}, saw {found}\n"
  | .noColumns => "No columns to parse from file"
  | .notComparable op left right =>
    s!"'{op}' not supported between instances of '{left}' and '{right}'"
  | .columnNotFound name => Text.quoted s!"Column not found: {name}"
  | .nothingToJoin => "No objects to concatenate"
  | .noProjectDetails path => s!"'project_details' folder not found in {path}."
  | .noTables path => s!"No CSV files found in {path}."
  | .forbiddenTitle c => s!"Invalid character {c} found in sheet title"
  | .forbiddenCell => ""
  | .emptyChart => "index 0 is out of bounds for axis 0 with size 0"
  | .endOfInput => "EOF when reading a line"
  | .noSourceFiles path => s!"The project '{path}' contains no Python files."
  | .noWorkers => "max_workers must be greater than 0"
  | .noWalkers => "max_walkers must be greater than 0."
  | .missingArgument name => s!"'Namespace' object has no attribute '{name}'"
  | .notAPath kind => s!"expected str, bytes or os.PathLike object, not {kind}"
  | .notAnInteger text =>
    "invalid literal for int() with base 10: " ++
      String.ofList ((Text.quoted text).toList.take shownLength)
  | .nothingToWrite => "write() argument must be str, not None"
  | .notAnArchive => "File is not a zip file"
  | .notSearchable kind => s!"argument of type '{kind}' is not iterable"
  | .notSubscriptable kind => s!"'{kind}' object is not subscriptable"
  | .badIndex true => "list indices must be integers or slices, not str"
  | .badIndex false => "string indices must be integers, not 'str'"
  | .notJoinable whole part => s!"can only concatenate {whole} (not \"{part}\") to {whole}"
  | .noSum left right => s!"unsupported operand type(s) for +: '{left}' and '{right}'"
  | .noLength kind => s!"object of type '{kind}' has no len()"
  | .notASequence => "Population must be a sequence.  For dicts or sets, use sorted(d)."
  | .unhashable kind => s!"unhashable type: '{kind}'"
  | .unequalLengths left right =>
    s!"('Lengths must match to compare', {shapeText [left]}, {shapeText [right]})"
  | .noResponse =>
    "cannot access local variable 'response' where it is not associated with a value"
  | .unreachable => "down"
  | .notJson => "Expecting value: line 1 column 1 (char 0)"
  | .malformed fault => fault.message
  | .integerTooLong digits =>
    "Exceeds the limit (4300 digits) for integer string conversion: value has " ++
      s!"{digits} digits; use sys.set_int_max_str_digits() to increase the limit"
  | .notText kind => s!"expected string or bytes-like object, got '{kind}'"
  | .notIterable kind => s!"'{kind}' object is not iterable"
  | .noTexts => "can only join an iterable"
  | .mixedItems index kind => s!"sequence item {index}: expected str instance, {kind} found"
  | .badDraw => "Sample larger than population or is negative"
  | .emptyRange least greatest =>
    s!"empty range for randrange() ({least}, {greatest + 1}, {greatest + 1 - least})"
  | .modelFailed => "model failed"
  | .noReplyLeft => "pop from empty list"
  | .noExtreme name => s!"zero-size array to reduction operation {name} which has no identity"
  | .noGrid => "too many indices for array: array is 1-dimensional, but 2 were indexed"
  | .columnOutOfRange column width =>
    s!"index {column} is out of bounds for axis 1 with size {width}"
  | .unevenGrid rows =>
    "setting an array element with a sequence. The requested array has an inhomogeneous shape " ++
      s!"after 1 dimensions. The detected shape was ({rows},) + inhomogeneous part."
  | .noRows => "axis 1 is out of bounds for array of dimension 1"
  | .unequalShapes left right =>
    s!"operands could not be broadcast together with shapes {shapeText left} {shapeText right} "
  | .divisionByZero true => "integer division or modulo by zero"
  | .divisionByZero false => "float floor division by zero"
  | .notFinite true => "cannot convert float NaN to integer"
  | .notFinite false => "cannot convert float infinity to integer"
  | .tooLarge => "int too large to convert to float"
  | .tokenizerNotLoaded => "Tokenizer is not loaded. Call `load_model` first."
  | .noToken => "GITHUB_TOKEN is not set in the environment variables."
  | .exit code => toString code
  | .inFile path cause => s!"Error in file {path}: {cause.message}"

end SmellLint

/-!
## Kinds of faults

Faults of one kind are told apart only by what they report.
-/

namespace SmellLint.Fault

/-- The kinds of faults. -/
inductive Kind where
  /-- A value of another kind is needed. -/
  | misuse
  | noOperation
  | noKey
  | outOfRange
  | undecodable
  | unencodable
  | invalidSyntax
  | fileNotFound
  | notADirectory
  | isADirectory
  | fileExists
  | nameTooLong
  | malformedTable
  | emptyTable
  | forbiddenCell
  | endOfInput
  | notAnArchive
  | noResponse
  | unreachable
  | notJson
  | modelFailed
  | noAxis
  | divisionByZero
  | tooLarge
  | exit
  /-- A value of the right kind is not allowed. -/
  | badValue
deriving DecidableEq

def kind : Fault → Kind
  | .nothingToIterate | .nothingToSearch | .unknownMember | .notComparable .. | .notAPath _
  | .nothingToWrite | .notSearchable _ | .notSubscriptable _ | .badIndex _ | .notJoinable ..
  | .notText _ | .notIterable _ | .noTexts | .mixedItems .. | .noLength _ | .notASequence
  | .unhashable _ | .noSum .. => .misuse
  | .noOperation .. | .missingArgument _ => .noOperation
  | .missingKey _ | .missingPlace _ | .columnNotFound _ => .noKey
  | .indexOutOfRange | .characterOutOfRange | .emptyChart | .noReplyLeft | .noGrid
  | .columnOutOfRange .. => .outOfRange
  | .undecodable _ => .undecodable
  | .unencodable _ => .unencodable
  | .invalidSyntax => .invalidSyntax
  | .fileNotFound _ | .noModelFile _ | .noTensorFile _ | .noProjectDetails _ | .noTables _ =>
    .fileNotFound
  | .notADirectory _ => .notADirectory
  | .isADirectory _ => .isADirectory
  | .fileExists _ => .fileExists
  | .nameTooLong _ => .nameTooLong
  | .openQuote _ | .unevenRecord .. => .malformedTable
  | .noColumns => .emptyTable
  | .forbiddenCell => .forbiddenCell
  | .endOfInput => .endOfInput
  | .notAnArchive => .notAnArchive
  | .noResponse => .noResponse
  | .unreachable => .unreachable
  | .notJson | .malformed _ => .notJson
  | .modelFailed => .modelFailed
  | .noRows => .noAxis
  | .divisionByZero _ => .divisionByZero
  | .notFinite false | .tooLarge => .tooLarge
  | .exit _ => .exit
  | .inFile _ cause => cause.kind
  | _ => .badValue

end SmellLint.Fault
