import GenericApp.Foundation.Json

/-!
# The two fetching clients of the browser

`apiFetch` sends a request and reads its answer as JSON, and `apiFetchStream` sends one whose answer is read
while it comes. Each builds the headers, refreshes the session once after a 401 answer, and maps what goes
wrong to an `ApiError`, in its own copy of the code.

What a call meets is in `Browser`: the answers to its first and its second attempt, the cookie at the time
of each, how the refresh ends. When the caller aborts is in the signal of the call, as one of the moments at
which the call can notice. Answers come before `API_REQUEST_TIMEOUT_MS` is over, so the timer of
`createRequestSignal` does not fire.
-/

namespace GenericApp.Frontend

open Py

/-! ### Headers -/

/-- A list of headers, whose names are in lower case. -/
structure Headers where
  entries : List (String × String) := []
deriving DecidableEq

namespace Headers

/-- `headers.get(name)` -/
def get (headers : Headers) (name : String) : Option String :=
  (headers.entries.find? fun entry ↦ entry.1 = name.toLower).map Prod.snd

/-- `headers.has(name)` -/
def has (headers : Headers) (name : String) : Bool := (headers.get name).isSome

/-- `headers.set(name, value)` -/
def set (headers : Headers) (name value : String) : Headers :=
  ⟨headers.entries.filter (fun entry ↦ entry.1 ≠ name.toLower) ++ [(name.toLower, value)]⟩

/-- `headers.append(name, value)`: a value that is there is kept in front. -/
def append (headers : Headers) (name value : String) : Headers :=
  match headers.get name with
  | some old => headers.set name (old ++ ", " ++ value)
  | none => headers.set name value

/-- `new Headers(init)` -/
def ofInit (init : List (String × String)) : Headers :=
  init.foldl (fun headers entry ↦ headers.append entry.1 entry.2) {}

variable {headers : Headers} {name other value : String}

theorem get_set_self : (headers.set name value).get name = some value := by
  have hnone : (headers.entries.filter fun entry ↦ entry.1 ≠ name.toLower).find?
      (fun entry ↦ entry.1 = name.toLower) = none := by
    rw [List.find?_eq_none]
    intro entry hentry heq
    exact of_decide_eq_true (List.mem_filter.1 hentry).2 (of_decide_eq_true heq)
  have hlast : [(name.toLower, value)].find? (fun entry ↦ entry.1 = name.toLower) =
      some (name.toLower, value) := List.find?_cons_of_pos (decide_eq_true rfl)
  rw [get, set, List.find?_append, hnone, Option.none_or, hlast]
  rfl

theorem get_set_of_ne (h : other.toLower ≠ name.toLower) :
    (headers.set name value).get other = headers.get other := by
  have hlast : [(name.toLower, value)].find? (fun entry ↦ entry.1 = other.toLower) = none :=
    List.find?_cons_of_neg fun heq ↦ h (of_decide_eq_true heq).symm
  rw [get, set, List.find?_append, hlast, Option.or_none, get, List.find?_filter]
  congr 2
  funext entry
  by_cases heq : entry.1 = other.toLower
  · simp [heq, h]
  · simp [heq]

end Headers

/-! ### Moments and signals -/

/-- How far an attempt has come. -/
inductive FetchStage
  | starting
  | fetching
  /-- The answer is there, and the call goes on. -/
  | answered
  | refreshing
  | refreshed
  /-- The body of the answer is being read. -/
  | reading

namespace FetchStage

/-- The place among the stages. -/
def rank : FetchStage → ℕ
  | starting => 0
  | fetching => 1
  | answered => 2
  | refreshing => 3
  | refreshed => 4
  | reading => 5

end FetchStage

/-- A stage of an attempt. -/
structure Moment where
  attempt : ℕ
  stage : FetchStage

/-- The one moment is not after the other. -/
def Moment.le (a b : Moment) : Bool :=
  a.attempt < b.attempt || a.attempt = b.attempt && a.stage.rank ≤ b.stage.rank

/-- `AbortSignal`: when it is aborted, if it is. -/
structure AbortSignal where
  abortedAt : Option Moment

/-- `signal.aborted` at the moment. -/
def AbortSignal.aborted (signal : AbortSignal) (moment : Moment) : Bool :=
  signal.abortedAt.any fun at' ↦ at'.le moment

/-- `signal?.aborted ?? false` -/
def aborted (signal : Option AbortSignal) (moment : Moment) : Bool :=
  signal.any fun signal ↦ signal.aborted moment

/-- The signal of `createRequestSignal`. It follows the parent until the cleanup, which comes as soon as
the attempt is answered. -/
def createRequestSignal (parentSignal : Option AbortSignal) (attempt : ℕ) : AbortSignal :=
  ⟨parentSignal.bind fun signal ↦ signal.abortedAt.filter fun at' ↦ at'.le ⟨attempt, .answered⟩⟩

/-! ### What `fetch` does -/

/-- The body of a request. -/
inductive RequestBody
  | null
  | string (text : String)
  | formData (fields : List (String × String))
deriving DecidableEq

/-- `RequestInit` -/
structure RequestInit where
  method : Option String := none
  headers : List (String × String) := []
  body : Option RequestBody := none
  signal : Option AbortSignal := none

/-- A request as it is sent. -/
structure SentRequest where
  url : String
  method : String
  headers : Headers
  body : Option RequestBody
  credentials : String
deriving DecidableEq

/-- A response. Its text may not be JSON. -/
structure ServerResponse where
  status : ℕ
  json : Option Json
  correlationId : Option String := none

/-- `response.ok` -/
def ServerResponse.ok (response : ServerResponse) : Bool := 200 ≤ response.status && response.status ≤ 299

/-- What a call meets. -/
structure Browser where
  /-- `API_BASE` -/
  apiBase : String
  /-- `readCookie("csrf_token")`, at the time of each attempt. -/
  csrfCookie : ℕ → Option String
  /-- What separates the parts of a form, in each attempt. -/
  boundary : ℕ → String
  /-- The answer to each attempt, with none where the server cannot be reached. -/
  answers : ℕ → Option ServerResponse
  /-- `authSessionActive` -/
  authSessionActive : Bool
  /-- What the promise of the refresh resolves to. -/
  refreshed : Bool
  /-- `String(value)` of a number. -/
  numberText : NumberLiteral → Text

/-- The methods that `fetch` writes in upper case. -/
def normalizeMethod (method : String) : String :=
  if method.toUpper ∈ ["DELETE", "GET", "HEAD", "OPTIONS", "POST", "PUT"] then method.toUpper else method

/-- A character of a token. -/
def isTokenChar (c : Char) : Bool := c.isAlphanum || c ∈ "!#$%&'*+-.^_|~".toList || c.toNat = 96

/-- `fetch` throws a `TypeError` before it sends anything. -/
def refused (method : Option String) (body : Option RequestBody) : Bool :=
  let method := normalizeMethod (method.getD "GET")
  method.isEmpty || !method.toList.all isTokenChar || method.toUpper ∈ ["CONNECT", "TRACE", "TRACK"] ||
    method ∈ ["GET", "HEAD"] && body ≠ none && body ≠ some .null

namespace Browser

variable (b : Browser)

/-- The headers that go out: a body brings a type if none is named. -/
def withBodyType (attempt : ℕ) (body : Option RequestBody) (headers : Headers) : Headers :=
  if headers.has "Content-Type" then headers
  else match body with
    | some (.string _) => headers.append "Content-Type" "text/plain;charset=UTF-8"
    | some (.formData _) =>
      headers.append "Content-Type" ("multipart/form-data; boundary=" ++ b.boundary attempt)
    | _ => headers

/-- `fetch(url, { ...options, credentials: "include", headers, signal })`: what is sent, and the
response, with none if the promise is rejected. -/
def fetch (attempt : ℕ) (path : String) (options : RequestInit) (headers : Headers)
    (signal : Option AbortSignal) : List SentRequest × Option ServerResponse :=
  if refused options.method options.body || aborted signal ⟨attempt, .starting⟩ then ([], none)
  else
    ([{ url := b.apiBase ++ path
        method := normalizeMethod (options.method.getD "GET")
        headers := b.withBodyType attempt options.body headers
        body := options.body
        credentials := "include" }],
      if aborted signal ⟨attempt, .fetching⟩ then none else b.answers attempt)

end Browser

/-- `response.json()`, with none if the promise is rejected: the text is not JSON, or the signal of the
request has been aborted. -/
def readJson (attempt : ℕ) (signal : Option AbortSignal) (response : ServerResponse) : Option Json :=
  if aborted signal ⟨attempt, .reading⟩ then none else response.json

/-! ### Errors -/

/-- `ApiError` -/
structure ApiError where
  message : String
  status : ℕ := 0
  code : Option Text := none
  correlationId : Option String := none
  fieldErrors : List (Text × List Text) := []
  cancelled : Bool := false
  retryable : Bool := false
deriving DecidableEq

/-- What a call rejects with. -/
inductive Failure
  | api (error : ApiError)
  | typeError
  /-- `response.json()` has been rejected. -/
  | unreadable
deriving DecidableEq

/-- `cancelledRequestError` -/
def cancelledRequestError : ApiError := { message := "The request was cancelled.", cancelled := true }

/-- The error after a refresh that has failed. -/
def sessionExpiredError : ApiError := { message := "Session expired. Please sign in again.", status := 401 }

/-- A value that is a string. -/
def Json.asString : Option Json → Option Text
  | some (.string s) => some s
  | _ => none

/-- `getErrorCode` -/
def getErrorCode (error : Json) : Option Text :=
  Json.asString (error.member "error_code".toList) <|> Json.asString (error.member "code".toList) <|>
    Json.asString ((error.member "error".toList).bind (Json.member "code".toList))

/-- `typeof error?.detail === "string" ? error.detail : "Request failed"` -/
def errorMessage (error : Json) : String :=
  match error.member "detail".toList with
  | some (.string detail) => String.ofList detail
  | _ => "Request failed"

mutual

/-- `String(value)`, with none where it throws: an object whose `toString` is not a function. -/
def jsString (numberText : NumberLiteral → Text) : Json → Option Text
  | .null => some "null".toList
  | .bool true => some "true".toList
  | .bool false => some "false".toList
  | .number n => some (numberText n)
  | .string s => some s
  | .array items => jsJoin numberText items
  | .object members =>
    if (Json.object members).member "toString".toList = none then some "[object Object]".toList else none

/-- `items.join(",")` -/
def jsJoin (numberText : NumberLiteral → Text) : List Json → Option Text
  | [] => some []
  | item :: items =>
    match (match item with
      | .null => some []
      | item => jsString numberText item), jsJoin numberText items with
    | some text, some rest => some (if items.isEmpty then text else text ++ ',' :: rest)
    | _, _ => none

end

/-- `Object.entries(value)` of the members of an object: a name that is there twice has its last value. -/
def objectEntries (members : List (Text × Json)) : List (Text × Json) :=
  (members.map Prod.fst).eraseDups.filterMap fun name ↦
    ((Json.object members).member name).map fun value ↦ (name, value)

section FieldErrors

variable (numberText : NumberLiteral → Text)

/-- `Array.isArray(value) ? value.map(String) : [String(value)]` -/
def fieldMessages : Json → Option (List Text)
  | .array items => items.mapM (jsString numberText)
  | value => (jsString numberText value).map fun text ↦ [text]

/-- `getFieldErrors` -/
def getFieldErrors (error : Json) : Option (List (Text × List Text)) :=
  match error.member "errors".toList with
  | some (.object members) => (objectEntries members).mapM fun (field, value) ↦
      (fieldMessages numberText value).map fun messages ↦ (field, messages)
  | _ => some []

/-- The properties that every object inherits. None of them is iterable. -/
def inheritedNames : List String :=
  ["constructor", "__defineGetter__", "__defineSetter__", "hasOwnProperty", "__lookupGetter__",
    "__lookupSetter__", "isPrototypeOf", "propertyIsEnumerable", "toString", "valueOf", "__proto__",
    "toLocaleString"]

/-- `fieldErrors[field] = [...(fieldErrors[field] ?? []), message]` -/
def addFieldError (fieldErrors : List (Text × List Text)) (field : Text) (message : Option Text) :
    Option (List (Text × List Text)) :=
  match fieldErrors.find? fun entry ↦ entry.1 = field with
  | some _ => message.map fun message ↦ fieldErrors.map fun entry ↦
      if entry.1 = field then (field, entry.2 ++ [message]) else entry
  | none =>
    if String.ofList field ∈ inheritedNames then none
    else message.map fun message ↦ fieldErrors ++ [(field, [message])]

/-- One item of `error.detail`. -/
def addDetail (fieldErrors : List (Text × List Text)) (item : Json) : Option (List (Text × List Text)) :=
  match item.member "loc".toList with
  | some (.array path) =>
    match path.getLast? with
    | some (.string field) =>
      addFieldError fieldErrors field <| match item.member "msg".toList with
        | none | some .null => some "Invalid value".toList
        | some message => jsString numberText message
    | _ => some fieldErrors
  | _ => some fieldErrors

/-- The field errors of `apiFetch`, with none where collecting them throws. -/
def collectFieldErrors (error : Json) : Option (List (Text × List Text)) :=
  match getFieldErrors numberText error, error.member "detail".toList with
  | some fieldErrors, some (.array items) => items.foldlM (addDetail numberText) fieldErrors
  | fieldErrors, _ => fieldErrors

end FieldErrors

/-! ### The clients -/

/-- What a call has sent to its path, and how it has ended. -/
abbrev Exchange (α : Type) := List SentRequest × Except Failure α

namespace Browser

variable (b : Browser)

/-- `if (!headers.has("X-CSRF-Token")) { … }` -/
def withCsrf (attempt : ℕ) (headers : Headers) : Headers :=
  if headers.has "X-CSRF-Token" then headers
  else match (b.csrfCookie attempt).filter fun csrfValue ↦ csrfValue ≠ "" with
    | some csrfValue => headers.set "X-CSRF-Token" csrfValue
    | none => headers

/-- `refreshForRetry(signal)` -/
def refreshForRetry (attempt : ℕ) (signal : Option AbortSignal) : Except Failure Bool :=
  if aborted signal ⟨attempt, .answered⟩ then .error (.api cancelledRequestError)
  else if !b.authSessionActive then .ok false
  else if aborted signal ⟨attempt, .refreshing⟩ then .error (.api cancelledRequestError)
  else .ok b.refreshed

/-- The headers of `apiFetchStream`. -/
def streamHeaders (attempt : ℕ) (options : RequestInit) : Headers :=
  b.withCsrf attempt (.ofInit options.headers)

/-- `apiFetchStream`, once the response is there and is not going to be followed by a retry. -/
def finishStream (attempt : ℕ) (options : RequestInit) (response : ServerResponse) :
    Except Failure ServerResponse :=
  if !response.ok then
    let error := (readJson attempt options.signal response).getD (.object [])
    .error (.api {
      message := errorMessage error
      status := response.status
      code := getErrorCode error
      correlationId := response.correlationId
      retryable := response.status = 429 || 500 ≤ response.status })
  else .ok response

/-- `apiFetchStream(path, options, retry)`, with the call that follows a refresh in place of `retry`. -/
def streamAttempt (attempt : ℕ) (path : String) (options : RequestInit)
    (retry : Option (Exchange ServerResponse)) : Exchange ServerResponse :=
  let (sent, response) := b.fetch attempt path options (b.streamHeaders attempt options) options.signal
  match response with
  | none =>
    let cancelled := aborted options.signal ⟨attempt, .answered⟩
    (sent, .error (.api {
      message := if cancelled then "The request was cancelled."
        else "The server could not be reached. Please try again."
      cancelled := cancelled
      retryable := !cancelled }))
  | some response =>
    match retry with
    | none => (sent, finishStream attempt options response)
    | some again =>
      if response.status = 401 && !aborted options.signal ⟨attempt, .answered⟩ then
        match b.refreshForRetry attempt options.signal with
        | .error failure => (sent, .error failure)
        | .ok false => (sent, .error (.api sessionExpiredError))
        | .ok true => (sent ++ again.1, again.2)
      else (sent, finishStream attempt options response)

/-- `apiFetchStream(path, options)` -/
def apiFetchStream (path : String) (options : RequestInit) : Exchange ServerResponse :=
  b.streamAttempt 0 path options (some (b.streamAttempt 1 path options none))

/-- The headers of `apiFetch`. -/
def jsonHeaders (attempt : ℕ) (options : RequestInit) : Headers :=
  let headers := Headers.ofInit options.headers
  let isFormData := match options.body with
    | some (.formData _) => true
    | _ => false
  b.withCsrf attempt <|
    if !isFormData && options.body ≠ none && !headers.has "Content-Type" then
      headers.set "Content-Type" "application/json"
    else headers

/-- `apiFetch`, once the response is there and is not going to be followed by a retry. A response without
content has no value. -/
def finishJson (attempt : ℕ) (options : RequestInit) (response : ServerResponse) :
    Except Failure (Option Json) :=
  let body := readJson attempt (some (createRequestSignal options.signal attempt)) response
  if !response.ok then
    let error := body.getD (.object [])
    match collectFieldErrors b.numberText error with
    | none => .error .typeError
    | some fieldErrors =>
      .error (.api {
        message := errorMessage error
        status := response.status
        code := getErrorCode error
        correlationId := response.correlationId
        fieldErrors := fieldErrors
        retryable := response.status = 429 || 500 ≤ response.status })
  else if response.status = 204 then .ok none
  else match body with
    | some value => .ok (some value)
    | none => .error .unreadable

/-- `apiFetch(path, options, retry)`, with the call that follows a refresh in place of `retry`. -/
def jsonAttempt (attempt : ℕ) (path : String) (options : RequestInit)
    (retry : Option (Exchange (Option Json))) : Exchange (Option Json) :=
  let requestSignal := createRequestSignal options.signal attempt
  let (sent, response) := b.fetch attempt path options (b.jsonHeaders attempt options) (some requestSignal)
  match response with
  | none =>
    let cancelled := aborted options.signal ⟨attempt, .answered⟩
    (sent, .error (.api {
      message := if cancelled then "The request was cancelled."
        else "The server could not be reached. Please try again."
      cancelled := cancelled
      retryable := !cancelled }))
  | some response =>
    match retry with
    | none => (sent, b.finishJson attempt options response)
    | some again =>
      if response.status = 401 && !aborted options.signal ⟨attempt, .answered⟩ then
        match b.refreshForRetry attempt options.signal with
        | .error failure => (sent, .error failure)
        | .ok false => (sent, .error (.api sessionExpiredError))
        | .ok true =>
          if aborted options.signal ⟨attempt, .refreshed⟩ then (sent, .error (.api cancelledRequestError))
          else (sent ++ again.1, again.2)
      else (sent, b.finishJson attempt options response)

/-- `apiFetch(path, options)` -/
def apiFetch (path : String) (options : RequestInit) : Exchange (Option Json) :=
  b.jsonAttempt 0 path options (some (b.jsonAttempt 1 path options none))

end Browser

end GenericApp.Frontend
