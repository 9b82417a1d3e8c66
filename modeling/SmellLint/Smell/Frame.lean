import SmellLint.Smell.Basic

/-!
# Smells of data-frame code

Rules for programs that import `pandas`.
-/

namespace SmellLint.Smell

open Syntax (Node Literal)

/-! ## Chained indexing -/

def chainedVariable? : Node → Option String
  | .subscript _ (.subscript _ (.name _ id) _) _ => some id
  | _ => none

/-- A data frame that is indexed twice in a row. -/
def chainIndexing : Rule where
  id := "ChainIndexingSmell"
  smell := "Chain_Indexing"
  description := "Using chain indexing may cause performance issues."
  detect n facts := whenImported "pandas" facts fun _ =>
    match facts.frameVariables with
    | .absent => .error (.missingKey "dataframe_variables")
    | _ => findAll (fun m => do
        match chainedVariable? m with
        | none => return none
        | some id =>
          if ← facts.isFrame id then
            return some ⟨m.line, s!"Chained indexing detected invariable '{id}'."⟩
          else return none) n.walk

/-! ## Conversion by `values` -/

def valuesVariable? : Node → Option String
  | .attribute _ (.name _ id) "values" => some id
  | _ => none

/-- A data frame that is converted by its `values` attribute. -/
def frameConversion : Rule where
  id := "DataFrameConversionAPIMisused"
  smell := "dataframe_conversion_api_misused"
  description := "Using the `values` attribute in Pandas is deprecated. " ++
    "Use NumPy or explicit methods instead."
  detect n facts := whenImported "pandas" facts fun _ =>
    findAll (fun m => do
      match valuesVariable? m with
      | none => return none
      | some id =>
        if ← facts.isFrame id then
          return some ⟨m.line,
            s!"Misuse of the 'values' attributedetected in variable '{id}'. Please consider" ++
            "using NumPy or explicit methods instead of `values` for DataFrame conversion. " ++
            "The function 'values' is deprecated and its return type is unclear. " ++
            s!"Code: {facts.lineText m.line}"⟩
        else return none) n.walk

/-! ## Columns and types -/

/-- What is said about a call that reads or makes a data frame without naming the types of its
columns. -/
def untypedFrame? (pandas : String) : Node → Option String
  | .call _ (.attribute _ (.name _ base) attr) _ keywords =>
    if (attr == "DataFrame" || attr == "read_csv") && base == pandas then
      if keywords.isEmpty then some s!"Missing explicit 'dtype'in {attr} call."
      else if (keywordNames keywords).contains "dtype" then none
      else some s!"'dtype' not explicitly setin {attr} call."
    else none
  | _ => none

/-- A data frame that is read or made without naming the types of its columns. -/
def columnTypes : Rule where
  id := "ColumnsAndDatatypeNotExplicitlySetSmell"
  smell := "columns_and_datatype_not_explicitly_set"
  description := "Pandas' DataFrame or read_csv methods should explicitlyset 'dtype' " ++
    "to avoid unexpected behavior."
  detect n facts := whenImported "pandas" facts fun pandas =>
    .ok (n.walk.filterMap fun m => (untypedFrame? pandas m).map (⟨m.line, ·⟩))

/-! ## Empty columns -/

/-- An assignment of a constant to a column of a variable: the variable, the index and the
constant. -/
def columnConstant? : Node → Option (String × Node × Literal)
  | .assign _ [.subscript _ (.name _ id) index] (.constant _ value) => some (id, index, value)
  | _ => none

/-- A column that is filled with zeros or empty texts. -/
def emptyColumn : Rule where
  id := "EmptyColumnMisinitializationSmell"
  smell := "empty_column_misinitialization"
  description := "Using zeros or empty strings to initialize new DataFrame columns may cause " ++
    "issues. Consider using NaN (e.g., np.nan) instead."
  detect n facts := whenImported "pandas" facts fun _ =>
    -- here a list that is given as nothing is an empty one
    let frames := match facts.frameVariables with
      | .value vs => vs
      | _ => []
    findAll (fun m => do
      match columnConstant? m with
      | some (id, .constant _ column, value) =>
        if frames.contains id && value.isZeroOrEmpty && column.isTruthy then
          match column.text? with
          | none => throw .tooManyDigits
          | some text =>
            return some ⟨m.line, s!"Column '{text}' in DataFrame '{id}' is initialized with a " ++
              "zero or an empty string. Consider using NaN instead."⟩
        else return none
      | _ => return none) n.walk

/-! ## Operations in place -/

/-- What an `inplace` argument says: nothing that decides, `False`, or something else. -/
inductive InPlace where
  | unset
  | no
  | other
deriving DecidableEq

/-- What an expression says as an `inplace` argument.  An expression that has no value of its own
says nothing. -/
def InPlace.ofNode : Node → InPlace
  | .constant _ .none => .unset
  | .constant _ (.bool false) => .no
  | .constant .. | .attribute .. | .subscript .. | .namedExpr .. | .await .. | .starred ..
  | .yieldFrom .. | .formatted .. | .dictComp .. => .other
  | .yield _ value => if value.isSome then .other else .unset
  | _ => .unset

/-- What the last `inplace` argument of a call says. -/
def inPlaceFlag (keywords : List Node) : InPlace :=
  keywords.foldl (fun flag k =>
    match k with
    | .keyword _ (some "inplace") value => .ofNode value
    | _ => flag) .unset

def refusedText (method : String) : String :=
  s!"Explicitly setting `inplace=False`for `{method}`may cause confusion. Consider assigning " ++
  "the result to a variable or explicitly using `inplace=True`."

def unassignedText (method : String) : String :=
  s!"The result of the `{method}` method is not assigned to a variable, and the `inplace` " ++
  "parameter is not explicitly set. Consider assigning the result or setting `inplace=True`."

/-- What is said about a call of `method`, by its `inplace` argument and whether it `isAssigned`. -/
def InPlace.remark? (method : String) (isAssigned : Bool) : InPlace → Option String
  | .no => some (refusedText method)
  | .unset => if isAssigned then none else some (unassignedText method)
  | .other => none

def isAssignedValue (_ : Bool) (parent : Node) (index : Nat) : Bool :=
  match parent with
  | .assign _ targets _ => index == targets.length
  | _ => false

/-- What is said about a node that is the value of an assignment if it `isAssigned`. -/
def Facts.inPlaceRemark? (facts : Facts) (isAssigned : Bool) : Node → Except Fault (Option String)
  | .call _ (.attribute _ (.name _ base) attr) _ keywords => do
    if ← facts.isFrame base then
      if ← facts.isFrameMethod attr then return (inPlaceFlag keywords).remark? attr isAssigned
    return none
  | _ => return none

/-- Goes through nodes, each with whether it is the value of an assignment. -/
def inPlaceFindings (facts : Facts) : List (Bool × Node) → Except Fault (List Finding)
  | [] => .ok []
  | (isAssigned, m) :: r => do
    let here ← facts.inPlaceRemark? isAssigned m
    let rest ← inPlaceFindings facts r
    return (here.map (⟨m.line, ·⟩)).toList ++ rest

/-- A method that is called on a data frame with neither its result used nor `inplace` set, or with
`inplace` set to false. -/
def inPlace : Rule where
  id := "InPlaceAPIsMisusedSmell"
  smell := "in_place_apis_misused"
  description := "Check whether the result of the operation is assigned to a variable or the " ++
    "in-place parameter is set. Some developers mistakenly assume in-place operations always " ++
    "save memory."
  detect n facts := whenImported "pandas" facts fun _ =>
    inPlaceFindings facts (n.walkWith isAssignedValue false)

/-! ## Merging -/

def mergeArguments : List String := ["how", "on", "validate"]

/-- Whether merges on an expression are looked at: on a data-frame variable or a part of the
library. -/
def Facts.isMergeBase (facts : Facts) (pandas : String) : Node → Except Fault Bool
  | .name _ id => facts.isFrame id
  | .attribute _ (.name _ id) _ => .ok (id == pandas)
  | _ => .ok false

/-- A merge that does not name all the arguments it should. -/
def mergeParameters : Rule where
  id := "MergeAPIParameterNotExplicitlySetSmell"
  smell := "merge_api_parameter_not_explicitly_set"
  description := "Calls to Pandas' `merge` API should explicitly set parameters like 'how', " ++
    "'on', and 'validate' to avoid unexpected behavior."
  detect n facts := whenImported "pandas" facts fun pandas =>
    findAll (fun m => do
      match m with
      | .call _ (.attribute _ base "merge") _ keywords =>
        if (← facts.isMergeBase pandas base) &&
            !mergeArguments.all fun a => (keywordNames keywords).contains a then
          return some ⟨m.line, "Incomplete parameters in `merge`. Consider specifying 'how', " ++
            "'on',  and 'validate'."⟩
        else return none
      | _ => return none) n.walk

/-! ## Iteration -/

/-- The methods that go through a data frame item by item. -/
def slowMethods : List String := ["iterrows", "itertuples", "apply", "applymap"]

/-- Whether an expression is one of `frames` or an index into one. -/
def isFrameExpr (frames : List String) : Node → Bool
  | .name _ id => frames.contains id
  | .subscript _ (.name _ id) _ => frames.contains id
  | _ => false

/-- Whether an expression goes through one of `frames` item by item. -/
def isSlowCall (frames : List String) : Node → Bool
  | .call _ (.attribute _ base attr) _ _ => slowMethods.contains attr && isFrameExpr frames base
  | _ => false

def slowLoop? (frames : List String) (loop : Node) : Option Finding :=
  let iterates := match loop with
    | .forLoop _ _ _ iter _ _ => isSlowCall frames iter
    | _ => false
  if iterates then
    some ⟨loop.line,
      "Inefficient iteration detected. Consider using vectorized operations instead."⟩
  else
    (loop.walk.find? (isSlowCall frames)).map fun call =>
      ⟨call.line, "Inefficient operation detected inside the loop. " ++
        "Consider using vectorized operations instead."⟩

/-- A loop over a data frame, or one that calls a slow method of a data frame. -/
def unnecessaryIteration : Rule where
  id := "UnnecessaryIterationSmell"
  smell := "unnecessary_iteration"
  description := "Iterating through Pandas objects or using inefficient operations like `apply` " ++
    "is generally slow. Use built-in vectorized methods (e.g., join, groupby) instead of loops. "
  detect n facts := whenImported "pandas" facts fun _ =>
    match facts.frameVariables with
    | .nothing => .error .nothingToIterate
    | .absent => .ok ((n.walk.filter Node.isLoop).filterMap (slowLoop? []))
    | .value frames => .ok ((n.walk.filter Node.isLoop).filterMap (slowLoop? frames))

end SmellLint.Smell
