import SmellLint.Service.Assistant
import SmellLint.Service.Description
import SmellLint.Service.Form
import SmellLint.Service.Tally

/-!
# Applications behind HTTP

Four applications answer requests: one analyzes programs, one counts smells, one asks a language
model, and a gateway passes requests on to the other three.  All of them allow requests from pages
of any origin.
-/

namespace SmellLint.Http

open Service

/-- The applications. -/
inductive App where
  | gateway
  | analysis
  | report
  | assistant
deriving DecidableEq

/-- What comes with a request. -/
inductive Body where
  | empty
  | text (value : String)
  | form (value : Form)

/-- A request; its method is in upper case and the names of its headers in lower case. -/
structure Request where
  method : String
  path : String
  headers : List (String × String)
  body : Body

/-- The type of content that forms without files have. -/
def formType : String := "application/x-www-form-urlencoded"

def partsType : String := "multipart/form-data"

/-- A request as it arrives.  A form of texts whose type of content is given is no more than its
text. -/
def Request.make (method target : String) (headers : List (String × String)) (body : Body) :
    Request :=
  let headers := headers.map fun (name, value) => (Text.lower name, value)
  let request (body : Body) : Request := ⟨method.toUpper, targetPath target, headers, body⟩
  match body with
  | .form form =>
    match form.fields?, headers.lookup "content-type" with
    | some fields, some _ => request (.text (Form.textOfFields fields))
    | _, _ => request (.form form.received)
  | body => request body

def Request.header? (r : Request) (name : String) : Option String := r.headers.lookup name

/-- What an answer holds. -/
inductive Payload where
  | json (value : Json)
  | text (value : String)

/-- Whether an answer cannot be written as bytes. -/
def Payload.isUnwritable : Payload → Bool
  | .json value => value.hasHalf
  | .text _ => false

/-- An answer, with those of its headers that tell which pages may use it. -/
structure Response where
  status : Nat
  payload : Payload
  access : List (String × String) := []

/-- What applications meet when they ask others. -/
structure Surroundings where
  /-- The applications that cannot be reached, and whether the gateway can tell. -/
  down : List (App × Bool) := []
  /-- The message of a failed connection. -/
  downMessage : String := "down"
  /-- What the model server replies. -/
  reply : Assistant.Reply := .failed .other

/-! ## Pages of other origins -/

def allowedMethods : List String := ["DELETE", "GET", "HEAD", "OPTIONS", "PATCH", "POST", "PUT"]

/-- Answers the question of a page whether it may send a request. -/
def preflight (r : Request) (origin method : String) : Response :=
  let allowed := allowedMethods.contains method
  { status := if allowed then 200 else 400
    payload := .text (if allowed then "OK" else "Disallowed CORS method")
    access := [("access-control-allow-methods", ", ".intercalate allowedMethods),
        ("access-control-max-age", "600"), ("access-control-allow-credentials", "true"),
        ("access-control-allow-origin", origin)] ++
      (r.header? "access-control-request-headers").toList.map ("access-control-allow-headers", ·) }

/-- The headers of an answer to a page; a page that sends cookies is named. -/
def accessHeaders (r : Request) (origin : String) : List (String × String) :=
  [("access-control-allow-origin", if (r.header? "cookie").isSome then origin else "*"),
   ("access-control-allow-credentials", "true")]

/-! ## Bodies -/

/-- A type of content without what is said about it. -/
def plainType (contentType : String) : String :=
  Text.lower (Text.trim ((Text.splitOn ';' contentType).headD ""))

def isJsonType (contentType : String) : Bool :=
  match Text.splitOn '/' (plainType contentType) with
  | ["application", subtype] => subtype == "json" || Path.endsWith subtype "+json"
  | _ => false

def unreadable : Refusal := .rejected 400 "There was an error parsing the body"

def textValue? (text : String) : Except Refusal (Checked (Option Json)) :=
  match Json.textOfBytes? (Text.Utf8.encode text) with
  | none => .error unreadable
  | some s =>
    match Json.parse s with
    | .ok .null => .ok (.ok none)
    | .ok j => .ok (.ok (some j))
    | .error (.malformed fault) => .ok (.error [⟨[.index fault.position], .notJson fault s⟩])
    | .error (.tooLong _) => .error unreadable

/-- The value of a body where JSON is expected.  Without a content type a text is taken as JSON; any
other body is no value. -/
def bodyValue (r : Request) : Except Refusal (Checked (Option Json)) :=
  match r.body with
  | .empty => .ok (.ok none)
  | .form form =>
    -- a form is no mapping
    .ok (if form.entries.isEmpty then .ok none else .fail .notMapping)
  | .text s =>
    let contentType := (r.header? "content-type").getD ""
    if s.isEmpty then .ok (.ok none)
    else if !contentType.isEmpty && !isJsonType contentType then .ok (.fail .notMapping)
    else textValue? s

def readBody {α : Type} (read : Reader α) (r : Request) : Except Fault (Except Refusal α) :=
  match bodyValue r with
  | .error refusal => .ok (.error refusal)
  | .ok value =>
    let checked : Checked α := do
      match ← value with
      | none => .fail .missing
      | some j => read j
    (checked.under (.name "body")).orRefuse

/-- A request for smells with a call graph. -/
structure GraphRequest where
  file : Option Upload
  snippet : Option String
  withGraph : Bool

/-- The form that a request brings.  It is read as its type of content says; with another type there
is nothing in it. -/
def formOf (r : Request) : Except Refusal Form :=
  let contentType := r.header? "content-type"
  let kind := plainType (contentType.getD "")
  let boundary? := contentType.bind Multipart.boundary?
  match r.body, boundary? with
  | .empty, _ => .ok {}
  | .form form, some _ => .ok (if kind == partsType then form else {})
  | .form form, none =>
    if contentType.isNone then .ok form
    else if kind == partsType then .error unreadable
    else .ok {}
  | .text s, boundary? =>
    if kind == formType then .ok (.make (Form.fieldsOfText s) none)
    else if kind == partsType then
      match boundary?.bind (Multipart.read? · s) with
      | some form => .ok form
      | none => .error unreadable
    else .ok {}

/-- Reads the entry `name` of `form`; one that is left out or empty has the value `default`. -/
def readEntry {α : Type} (form : Form) (name : String) (default : α)
    (read : Form.Value → Checked α) : Checked α :=
  match form.value? name with
  | none | some (.text "") => .ok default
  | some value => (read value).under (.name name)

def readGraphForm (r : Request) : Except Fault (Except Refusal GraphRequest) :=
  match formOf r with
  | .error refusal => .ok (.error refusal)
  | .ok form =>
    let file := readEntry form "file" none fun
      | .text _ => .fail .notUpload
      | .file u => .ok (some u)
    let snippet := readEntry form "code_snippet" none fun
      | .text s => .ok (some s)
      | .file _ => .fail .notText
    let withGraph := readEntry form "include_call_graph" true fun
      | .text s => flagValue (.str s)
      | .file _ => .fail .notFlag
    let checked : Checked GraphRequest :=
      Checked.app (Checked.app (file.map GraphRequest.mk) snippet) withGraph
    (checked.under (.name "body")).orRefuse

/-! ## Routes -/

/-- What a route gives: a value, a refusal, or a fault. -/
abbrev Handler := Request → Run (Except Refusal Json)

/-- A place of an application that answers requests of some methods. -/
structure Route where
  methods : List String
  path : String
  handle : Handler

/-- A route that answers what `read` finds in a request. -/
def readingRoute {α : Type} (path : String) (read : Request → Except Fault (Except Refusal α))
    (answer : α → Run (Except Refusal Json)) : Route :=
  ⟨["POST"], path, fun r => do
    match ← Run.lift (read r) with
    | .error refusal => return .error refusal
    | .ok request => answer request⟩

def jsonRoute {α : Type} (path : String) (read : Reader α)
    (answer : α → Run (Except Refusal Json)) : Route :=
  readingRoute path (readBody read) answer

/-- A route that reads a form for smells with a call graph. -/
def graphRoute (path : String) (answer : GraphRequest → Run (Except Refusal Json)) : Route :=
  readingRoute path readGraphForm answer

/-- The places where an application describes itself: its document, and pages that show it to
readers, of which nothing is kept here. -/
def pageRoutes (document : Json) : List Route :=
  let page (path : String) (shown : Json) : Route :=
    ⟨["GET", "HEAD"], path, fun _ => return .ok shown⟩
  page "/openapi.json" document ::
    ["/docs", "/docs/oauth2-redirect", "/redoc"].map (page · .null)

/-- Whether `route` lies at `path`; a line may end after it. -/
def Route.isAt (route : Route) (path : String) : Bool :=
  path == route.path || path == route.path ++ "\n"

/-- The path that is tried if nothing lies at `path`: without slashes at its end, or with one. -/
def otherPath (path : String) : String :=
  if Path.endsWith path "/" then
    String.ofList (path.toList.reverse.dropWhile (· == '/')).reverse
  else path ++ "/"

/-- The answer of an application with these `routes` to `r`.  From a path where nothing lies a
request is sent to `otherPath`, if something lies there. -/
def dispatch (routes : List Route) (r : Request) : Run Response := do
  let refused (refusal : Refusal) : Response := ⟨refusal.status, .json refusal.toJson, []⟩
  let onPath := routes.filter (·.isAt r.path)
  match onPath.find? (·.methods.contains r.method) with
  | some route =>
    match ← route.handle r with
    | .ok j => return ⟨200, .json j, []⟩
    | .error refusal => return refused refusal
  | none =>
    if !onPath.isEmpty then return refused (.rejected 405 "Method Not Allowed")
    else if r.path != "/" && routes.any (·.isAt (otherPath r.path)) then
      return ⟨307, .text "", []⟩
    else return refused (.rejected 404 "Not Found")

/-- The answer of an application to `r` by `dispatch`, with what pages are told; a fault is an error
of the server. -/
def serve (routes : List Route) (r : Request) : Run Response := do
  match r.header? "origin", r.header? "access-control-request-method" with
  | some origin, some method =>
    if r.method == "OPTIONS" then return preflight r origin method
  | _, _ => pure ()
  let failed : Response := ⟨500, .text "Internal Server Error", []⟩
  match ← Run.outcome (dispatch routes r) with
  | .error _ => return failed
  | .ok response =>
    if response.payload.isUnwritable then return failed
    let payload := if r.method == "HEAD" then .text "" else response.payload
    let access := match r.header? "origin" with
      | some origin => accessHeaders r origin
      | none => []
    return { response with payload, access }

/-! ## The applications -/

/-- The routes of the applications that answer by themselves. -/
def serviceRoutes (s : Surroundings) : App → List Route
  | .analysis =>
    [jsonRoute "/detect_smell_static" SnippetRequest.read fun request =>
      return .ok (← detectSmells request),
     graphRoute "/detect_call_graph" fun request =>
      return .ok (← detectCallGraph request.file request.snippet)]
  | .report =>
    [jsonRoute "/generate_report" readReportRequest fun projects =>
      return .ok (reportAnswer projects)]
  | .assistant =>
    [jsonRoute "/detect_smell_ai" Assistant.readRequest fun code =>
      Run.lift (Assistant.answer code s.reply)]
  | .gateway => []

def forwarded (path : String) (body : Body) : Request := .make "POST" path [] body

/-- Passes a request on and gives the JSON value of the answer.  The answer `unreachable` is given
instead if the connection fails in a way that the caller expects. -/
def pass (s : Surroundings) (app : App) (r : Request) (unreachable : Option Json) :
    Run (Except Refusal Json) := do
  match s.down.lookup app with
  | some expected =>
    match expected, unreachable with
    | true, some j => return .ok j
    | _, _ => throw .unreachable
  | none =>
    match (← serve (serviceRoutes s app) r).payload with
    | .json j => return .ok j
    | .text _ => throw .notJson

def gatewayRoutes (s : Surroundings) : List Route :=
  [⟨["GET"], "/", fun _ =>
    return .ok (.obj [("message", .str "Welcome to CodeSmile API Gateway")])⟩,
   jsonRoute "/api/detect_smell_ai" mappingValue fun j =>
    pass s .assistant (forwarded "/detect_smell_ai" (.text j.render)) (some (.obj
      [("success", .bool false),
       ("error", .str ("Request to AI Analysis Service failed: " ++ s.downMessage))])),
   jsonRoute "/api/detect_smell_static" mappingValue fun j =>
    pass s .analysis (forwarded "/detect_smell_static" (.text j.render)) none,
   graphRoute "/api/detect_call_graph" fun request =>
    let flag := ("include_call_graph", if request.withGraph then "True" else "False")
    let body : Body := match request.file with
      | some u => .form (.make [flag] (some u))
      | none => .form (.make [("code_snippet", request.snippet.getD ""), flag] none)
    pass s .analysis (forwarded "/detect_call_graph" body) none,
   jsonRoute "/api/generate_report" mappingValue fun j =>
    pass s .report (forwarded "/generate_report" (.text j.render)) none]

def App.document : App → Json
  | .analysis => analysisDocument
  | .report => reportDocument
  | .assistant => assistantDocument
  | .gateway => gatewayDocument

def App.routes (s : Surroundings) (app : App) : List Route :=
  pageRoutes app.document ++
    match app with
    | .gateway => gatewayRoutes s
    | app => serviceRoutes s app

def App.answer (app : App) (s : Surroundings) (r : Request) : Run Response := serve (app.routes s) r

end SmellLint.Http
