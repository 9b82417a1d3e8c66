import SmellLint.Frames
import SmellLint.Table.Cell

/-!
# The catalogue of known methods

The methods that give data frames, and the models whose parameters should be set.
`Catalogue.shipped` is the catalogue that comes with the program.
-/

namespace SmellLint

/-- The methods the analysis knows. -/
structure Catalogue where
  frameMethods : Frames.Methods
  modelMethods : List Cell
deriving Inhabited

namespace Catalogue

def shippedFrameMethods : List String := [
  "read_csv", "read_excel", "read_sql_query", "from_dict", "from_records", "concat", "merge",
  "pivot_table", "crosstab", "melt", "get_dummies", "pivot", "set_index", "fillna", "dropna",
  "replace", "stack", "unstack", "transpose", "T", "query", "loc", "iloc", "drop",
  "drop_duplicate", "reset_index", "melt", "merge", "join", "append", "pivot_table", "groupby",
  "crosstab", "melt", "get_dummies", "pivot", "set_index", "reset_index", "sort_values",
  "sort_index", "rename", "drop", "fillna", "replace", "apply", "loc", "iloc", "xs", "assign",
  "where", "mask", "nlargest", "nsmallest", "quantile", "corr", "cov", "describe", "mean",
  "median", "mode", "sum", "prod", "min", "max", "var", "std", "cumsum", "cumprod", "cummin",
  "cummax", "select_dtypes", "set_flags", "convert_dtypes", "infer_objects", "copy", "head",
  "isin", "__add__", "add", " sub", "mul", "div", "truediv", "floordiv", "mod", "pow", "dot",
  "radd", "rsub", "rmul", "rmul", "rdiv", "rtruediv", "rfloordiv", "rmod", "rpow", "combine",
  "combine_first", "applymap", "transform", "diff", "pct_change", "round", "add_prefix",
  "add_suffix", "between_time", "DataFrame"]

def shippedModelMethods : List String := [
  "Model()", "Sequential()", "DecisionTreeClassifier()", "KNeighborsClassifier()",
  "LogisticRegression()", "MLPClassifier()", "RandomForestClassifier()", "SVC()",
  "LinearRegression()", "Ridge()", "Lasso()", "ElasticNet()", "SVR()", "LinearSVC()", "KMeans()",
  "PCA()", "GaussianMixture()", "GradientBoostingClassifier()", "AdaBoostClassifier()",
  "XGBClassifier()", "LGBMClassifier()", "CatBoostClassifier()", "SGD()", "Model()",
  "Sequential()"]

/-- The catalogue that comes with the program. -/
def shipped : Catalogue := ⟨shippedFrameMethods.map some, shippedModelMethods.map .text⟩

end Catalogue
end SmellLint
