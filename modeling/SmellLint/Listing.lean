import SmellLint.Text.Lines

/-!
# Labels of smells

The names by which people and models call smells, and how the names that the rules use become
labels.
-/

namespace SmellLint.Label

def clean : String := "No Smell"

def known : List String :=
  ["Broadcasting Feature Not Used", "Chain Indexing", "Columns and DataType Not Explicitly Set",
   "Dataframe Conversion API Misused", "Deterministic Algorithm Option Not Used",
   "In-Place APIs Misused", "Empty Column Misinitialization",
   "Gradients Not Cleared Before Backward Propagation", "Memory Not Freed",
   "Merge API Parameter Not Explicitly Set", "NaN Equivalence Comparison Misused",
   "TensorArray Not Used", "Randomness Uncontrolled", "Hyperparameter Not Explicitly Set",
   "Matrix Multiplication API Misused", "PyTorch Call Method Misused", "Unnecessary Iteration",
   clean]

/-- Names of smells and the labels they stand for. -/
def readableNames : List (String × String) :=
  [("hyperparameters_not_explicitly_set", "Hyperparameter Not Explicitly Set"),
   ("pytorch_call_method_misused", "PyTorch Call Method Misused"),
   ("gradients_not_cleared_before_backward_propagation",
     "Gradients Not Cleared Before Backward Propagation"),
   ("matrix_multiplication_api_misused", "Matrix Multiplication API Misused"),
   ("dataframe_conversion_api_misused", "Dataframe Conversion API Misused"),
   ("columns_and_datatype_not_explicitly_set", "Columns and DataType Not Explicitly Set"),
   ("in_place_apis_misused", "In-Place APIs Misused"),
   ("unnecessary_iteration", "Unnecessary Iteration"),
   ("empty_column_misinitialization", "Empty Column Misinitialization"),
   ("chain_indexing", "Chain Indexing"),
   ("nan_equivalence_comparison_misused", "NaN Equivalence Comparison Misused"),
   ("deterministic_algorithm_option_not_used", "Deterministic Algorithm Option Not Used"),
   ("randomness_uncontrolled", "Randomness Uncontrolled"),
   ("merge_api_parameter_not_explicitly_set", "Merge API Parameter Not Explicitly Set"),
   ("memory_not_freed", "Memory Not Freed"),
   ("tensorarray_not_used", "TensorArray Not Used"),
   ("broadcasting_feature_not_used", "Broadcasting Feature Not Used"),
   ("Chain_Indexing", "Chain Indexing"),
   ("Pytorch Call Method Misused", "PyTorch Call Method Misused")]

/-- The label of `name`; a name without one stands for itself. -/
def readable (name : String) : String := (readableNames.lookup name).getD name

end SmellLint.Label

/-!
## Lists of smells in texts

A text for or from a language model lists smells after a heading, one to a line that has a dash and
a blank.  `render` writes such a list; `after?` and `items` find it again in a longer text.
-/

namespace SmellLint.Listing

def heading : String := "The code smells are:"

def render (labels : List String) : String :=
  heading ++ "\n- " ++ "\n- ".intercalate labels

/-- What follows the first heading of a text. -/
def after? (text : String) : Option String :=
  (Text.splitAtFirst? heading.toList text.toList).map fun (_, rest) => String.ofList rest

/-- The item of `line`: what follows its first dash and blank, if anything does. -/
def itemOfLine? (line : String) : Option String :=
  match Text.splitAtFirst? ['-', ' '] line.toList with
  | some (_, c :: r) => some (String.ofList (c :: r))
  | _ => none

def items (text : String) : List String := (Text.splitOn '\n' text).filterMap itemOfLine?

/-- The name that `item` starts with: what precedes its first colon, without blanks around it. -/
def itemName (item : String) : String := Text.trim ((Text.splitOn ':' item).headD "")

def itemNames (text : String) : List String := (items text).map itemName

end SmellLint.Listing
