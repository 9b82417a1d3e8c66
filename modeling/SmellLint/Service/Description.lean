import SmellLint.Json.Basic
import SmellLint.Text.Lines

/-!
# Descriptions of applications

An application describes itself in a document: the operations it offers, what they take and what
they give, and the shapes of the records that go in and out.
-/

namespace SmellLint.Http

abbrev Members := List (String × Json)

/-! ## Shapes of values -/

def ofType (type : String) : Members := [("type", .str type)]

def listOf (item : Members) : Members := ofType "array" ++ [("items", .obj item)]

def oneOf (shapes : List Members) : Members := [("anyOf", .arr (shapes.map .obj))]

def mappingTo (value : Members) : Members :=
  ofType "object" ++ [("additionalProperties", .obj value)]

def byDefault (value : Json) (shape : Members) : Members := ("default", value) :: shape

/-- The shape of the records called `name`. -/
def named (name : String) : Members := [("$ref", .str ("#/components/schemas/" ++ name))]

/-- The words of `name`, in capitals. -/
def titleOf (name : String) : String :=
  " ".intercalate ((Text.splitOn '_' name).map String.capitalize)

def field (name : String) (shape : Members) (title : String := titleOf name) : String × Json :=
  (name, .obj (("title", .str title) :: shape))

def textField (name : String) : String × Json := field name (ofType "string")

/-- What is said about something, if anything is. -/
def remarks (remark : String) : Members :=
  if remark.isEmpty then [] else [("description", .str remark)]

/-- The records called `name`.  The first `count` of the `fields` have to be there; `remark` and
`sample` are left out where they are empty. -/
def record (name : String) (count : Nat) (fields : Members) (remark : String := "")
    (sample : Members := []) : String × Json :=
  let required := (fields.take count).map fun (name, _) => Json.str name
  (name, .obj ([("title", .str name)] ++ ofType "object" ++ [("properties", .obj fields)] ++
    remarks remark ++ (if required.isEmpty then [] else [("required", .arr required)]) ++
    if sample.isEmpty then [] else [("example", .obj sample)]))

/-! ## Operations -/

def content (type : String) (shape : Members) : String × Json :=
  ("content", .obj [(type, .obj [("schema", .obj shape)])])

def jsonContent (shape : Members) : String × Json := content "application/json" shape

def answerWith (status remark : String) (shape : Members) : String × Json :=
  (status, .obj [("description", .str remark), jsonContent shape])

def operationId (method path name : String) : String :=
  name ++ path.map (fun c => if c == '/' then '_' else c) ++ "_" ++ method

/-- An operation that answers with a record of the shape `answer`. -/
def operation (method path name : String) (tags answer refusals rest : Members) : String × Json :=
  (path, .obj [(method, .obj (tags ++ [("summary", .str (titleOf name)),
    ("operationId", .str (operationId method path name)),
    ("responses", .obj (answerWith "200" "Successful Response" answer :: refusals))] ++ rest))])

/-- The operation `name` below `base` that takes `body` and may refuse it. -/
def posting (base name : String) (answer : Members) (remark : String) (body : Members)
    (tags : Members := []) : String × Json :=
  operation "post" (base ++ name) name tags answer
    [answerWith "422" "Validation Error" (named "HTTPValidationError")]
    (remarks remark ++ [("requestBody", .obj body)])

def jsonBody (shape : Members) : Members := [jsonContent shape, ("required", .bool true)]

/-- The name of the form that is sent to the operation `name` below `base`. -/
def formName (base name : String) : String := "Body_" ++ operationId "post" (base ++ name) name

def formBody (base name : String) : Members :=
  [content "multipart/form-data" (named (formName base name))]

/-- The document of an application; what is said about refused requests is always the same. -/
def document (title : String) (operations records : Members) : Json :=
  .obj [("openapi", .str "3.0.2"),
    ("info", .obj [("title", .str title), ("version", .str "0.1.0")]),
    ("paths", .obj operations),
    ("components", .obj [("schemas", .obj (records ++
      [record "HTTPValidationError" 0 [field "detail" (listOf (named "ValidationError"))],
       record "ValidationError" 3
        [field "loc" (listOf (oneOf [ofType "string", ofType "integer"])) "Location",
         field "msg" (ofType "string") "Message", field "type" (ofType "string") "Error Type"]]))])]

/-! ## The documents -/

def snippetField : String × Json := textField "code_snippet"

def graphFlag (default : Bool) : String × Json :=
  field "include_call_graph" (byDefault (.bool default) (ofType "boolean"))

/-- The form that takes a program, or a text, and asks for its call graph. -/
def graphForm (base : String) : String × Json :=
  record (formName base "detect_call_graph") 0
    [field "file" (ofType "string" ++ [("format", .str "binary")]), snippetField, graphFlag true]

def smellFields : Members :=
  [textField "function_name", field "line" (ofType "integer"), textField "smell_name",
   textField "description", textField "additional_info"]

/-- What an answer tells about the smells of a program. -/
def outcomeFields : Members :=
  [field "success" (ofType "boolean"),
   field "smells" (byDefault (.arr []) (oneOf [listOf (named "Smell"), ofType "string"]))]

def sampleSnippet : String × Json :=
  ("code_snippet", .str "def example_function():\n    print('Hello, world!')")

def analysisDocument : Json :=
  document "Static Analysis Service"
    [posting "/" "detect_smell_static" (named "DetectSmellStaticResponse") ""
      (jsonBody (named "DetectSmellRequest")),
     posting "/" "detect_call_graph" (named "DetectCallGraphResponse")
      ("Detects code smells and optionally generates a call graph.\n" ++
        "Accepts either a code_snippet string OR a file (single .py or .zip).")
      (formBody "/" "detect_call_graph")]
    [graphForm "/",
     record "DetectSmellRequest" 1 [snippetField, graphFlag false]
      "Schema for the request body to detect code smells."
      [sampleSnippet, ("include_call_graph", .bool true)],
     record "DetectSmellStaticResponse" 1 outcomeFields
      "Schema for the static analysis code smell detection response."
      [("success", .arr [.str "true"]),
       ("smells", .arr [.obj [("function_name", .str "example_function"),
        ("smell_name", .str "Unnecessary DataFrame Operation"), ("line", .int 2),
        ("description", .str "The column 'b' is created but not used further."),
        ("additional_info", .str "Consider removing or optimizing the operation.")]])],
     record "DetectCallGraphResponse" 1 (outcomeFields ++ [field "call_graph" (ofType "object")])
      "Schema for the response including call graph."
      [("success", .bool true), ("smells", .arr []),
       ("call_graph", .obj [("nodes", .arr []), ("edges", .arr [])])],
     record "Smell" 5 (smellFields ++ [textField "file", textField "filename"])
      "Represents a detected code smell."]

def reportDocument : Json :=
  let count (smell file : String) (n : Int) : Json :=
    .obj [("smell_name", .str smell), ("filename", .str file), ("count", .int n)]
  document "Report Service"
    [posting "/" "generate_report" (named "GenerateReportResponse")
      "Generate a report by aggregating smells across multiple projects."
      (jsonBody (named "GenerateReportRequest")) [("tags", .arr [.str "Report"])]]
    [record "SmellInfo" 5 smellFields,
     record "FileInfo" 4
      [textField "name", field "size" (ofType "integer"), textField "type", textField "path"],
     record "ProjectData" 4
      [field "files" (listOf (named "FileInfo")), textField "message", textField "result",
       field "smells" (listOf (named "SmellInfo"))],
     record "Project" 2 [textField "name", ("data", .obj (named "ProjectData"))],
     record "GenerateReportRequest" 1 [field "projects" (listOf (named "Project"))]
      "Request model for generating reports.",
     record "GenerateReportResponse" 1
      [field "report_data"
        (mappingTo (listOf (mappingTo (oneOf [ofType "string", ofType "integer"]))))]
      "Response model for generating reports that returns data for charting."
      [("all_projects_combined", .arr [count "Unnecessary DataFrame Operation" "file1.py" 5,
        count "Code Duplication" "file2.py" 3])]]

def assistantDocument : Json :=
  document "AI Analysis Service"
    [posting "/" "detect_smell_ai" (named "DetectSmellResponse")
      "Endpoint for detecting code smells using AI-based analysis."
      (jsonBody (named "DetectSmellRequest"))]
    [record "DetectSmellRequest" 1 [snippetField]
      "Schema for the request body to detect code smells using AI analysis." [sampleSnippet],
     record "DetectSmellResponse" 2 (snippetField :: outcomeFields)
      "Schema for the AI-based code smell detection response.",
     record "Smell" 1 [textField "smell_name"] "Represents a detected code smell."]

def gatewayDocument : Json :=
  let forwarding (name : String) : String × Json :=
    posting "/api/" name [] "" (jsonBody (("title", .str "Request") :: ofType "object"))
  document "FastAPI"
    [operation "get" "/" "read_root" [] [] [] [], forwarding "detect_smell_ai",
     forwarding "detect_smell_static",
     posting "/api/" "detect_call_graph" [] "" (formBody "/api/" "detect_call_graph"),
     forwarding "generate_report"]
    [graphForm "/api/"]

end SmellLint.Http
