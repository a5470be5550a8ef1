import Mathlib.Data.List.Infix
import TorMarketplace.Error
import TorMarketplace.Gateway.StatelessAuth

/-!
# The layers around the router

`build_router` of `gateway/mod.rs` with its seven layers, and what the framework and the handlers
answer inside of them. A response is a value of the stack: of an answer to `HEAD` the server drops the
body afterwards, and where the length header is missing it puts the length of the body.
-/

namespace TorMarketplace

open Encoding

/-! ## Requests and responses -/

/-- `HeaderMap`: the names are in lower case. -/
abbrev HeaderMap := List (String × Bytes)

namespace HeaderMap

/-- `get`: the first value of the name. -/
def get (headers : HeaderMap) (name : String) : Option Bytes := List.lookup name headers

/-- `remove`. -/
def remove (headers : HeaderMap) (name : String) : HeaderMap := headers.filter fun h => h.1 ≠ name

/-- `insert`: the value replaces every value of the name. -/
def insert (headers : HeaderMap) (name : String) (value : Bytes) : HeaderMap :=
  headers.remove name ++ [(name, value)]

theorem get_cons (n : String) (v : Bytes) (headers : HeaderMap) (name : String) :
    HeaderMap.get ((n, v) :: headers) name = if name = n then some v else headers.get name := by
  by_cases h : name = n
  · simp [get, h]
  · have hb : (name == n) = false := beq_false_of_ne h
    simp [get, List.lookup_cons, hb, h]

theorem get_append (headers headers' : HeaderMap) (name : String) :
    HeaderMap.get (headers ++ headers') name = (headers.get name).or (headers'.get name) :=
  List.lookup_append

theorem get_remove (headers : HeaderMap) (name name' : String) :
    (headers.remove name).get name' = if name' = name then none else headers.get name' := by
  induction headers with
  | nil => simp [remove, get]
  | cons p headers ih =>
    obtain ⟨n, v⟩ := p
    rw [get_cons]
    by_cases hn : n = name
    · subst hn
      have hdrop : remove ((n, v) :: headers) n = remove headers n := by simp [remove]
      rw [hdrop, ih]
      split <;> rfl
    · have hkeep : remove ((n, v) :: headers) name = (n, v) :: remove headers name := by
        simp [remove, hn]
      rw [hkeep, get_cons, ih]
      by_cases hn' : name' = n
      · simp [hn', hn]
      · simp [hn']

theorem get_insert (headers : HeaderMap) (name : String) (value : Bytes) (name' : String) :
    (headers.insert name value).get name' = if name' = name then some value else headers.get name' := by
  rw [insert, get_append, get_remove, get_cons]
  by_cases h : name' = name
  · simp [h]
  · simp [h, get]

end HeaderMap

/-- `HeaderValue::to_str`: a value of visible ASCII is text. -/
def headerText (value : Bytes) : Option String :=
  if value.all fun b => b = 9 || (32 ≤ b && b < 127) then ofUtf8 value else none

structure HttpRequest where
  method : String
  path : String
  headers : HeaderMap

structure HttpResponse where
  status : Nat
  headers : HeaderMap
  /-- `none`: the body can not be read. -/
  body : Option Bytes
  deriving DecidableEq

/-- `StatusCode::is_client_error`. -/
def HttpResponse.isClientError (r : HttpResponse) : Bool := 400 ≤ r.status && r.status < 500

/-- `Json(…)` with a status. -/
def jsonResponse (status : Nat) (body : Bytes) : HttpResponse :=
  ⟨status, [("content-type", utf8 "application/json")], some body⟩

/-- A text with a status, as the framework answers it. -/
def textResponse (status : Nat) (text : String) : HttpResponse :=
  ⟨status, [("content-type", utf8 "text/plain; charset=utf-8")], some (utf8 text)⟩

/-- `json!({"error":"error"})`. -/
def errorBody : Bytes := utf8 "\x7b\"error\":\"error\"\x7d"

def errorResponse : HttpResponse := jsonResponse 500 errorBody

/-- `AppError::into_response`: the kind of the error goes to the log. -/
def AppError.intoResponse (_ : AppError) : HttpResponse := errorResponse

/-! ## What the router answers -/

/-- How a request ends inside of the layers, when it is no protocol upgrade. -/
inductive Outcome where
  /-- A handler's `Ok(Json(…))`. -/
  | json (body : Bytes)
  /-- A handler's `Err(AppError)`. -/
  | appError (e : AppError)
  /-- The `Err(&'static str)` of `ws_handler`: a text, with status 200. -/
  | wsError (text : String)
  /-- An extractor has rejected the request: its JSON, its query, its path, its extensions. -/
  | rejection (status : Nat) (text : String)
  /-- The path is there, the method is not. -/
  | methodNotAllowed
  /-- `fallback_500`. -/
  | fallback

def Outcome.intoResponse : Outcome → HttpResponse
  | .json body => jsonResponse 200 body
  | .appError e => e.intoResponse
  | .wsError text => textResponse 200 text
  | .rejection status text => textResponse status text
  | .methodNotAllowed => ⟨405, [], some []⟩
  | .fallback => errorResponse

/-! ## The layers -/

/-- `Next`. -/
abbrev Next := HttpRequest → HttpResponse

/-- The headers that `security_headers_middleware` sets in every response. -/
def securityHeaders : List (String × Bytes) :=
  [("x-content-type-options", utf8 "nosniff"),
    ("x-frame-options", utf8 "DENY"),
    ("referrer-policy", utf8 "no-referrer"),
    ("x-robots-tag", utf8 "noindex, nofollow"),
    ("permissions-policy",
      utf8 "camera=(), microphone=(), geolocation=(), interest-cohort=()"),
    ("content-security-policy",
      utf8 ("default-src 'self'; script-src 'self' 'wasm-unsafe-eval'; style-src 'self'; " ++
        "img-src 'self' data:; connect-src 'self'; frame-ancestors 'none'; base-uri 'self'; " ++
        "form-action 'self'")),
    ("cache-control", utf8 "no-store, max-age=0"),
    ("pragma", utf8 "no-cache")]

/-- The `Onion-Location` of a request whose host is an onion address. -/
def onionLocation (request : HttpRequest) : Option Bytes := do
  let host ← request.headers.get "host"
  let _ ← headerText host
  if utf8 ".onion" <:+: host then some host else none

def securityHeadersMiddleware (next : Next) : Next := fun request =>
  let response := next request
  let headers := securityHeaders.foldl (fun h p => h.insert p.1 p.2) response.headers
  let headers := match onionLocation request with
    | some host => headers.insert "onion-location" host
    | none => headers
  { response with headers }

/-- `tor_guard_middleware`: the circuit slot that it draws is an extension that nothing reads. -/
def torGuardMiddleware (next : Next) : Next := next

def maxRequestSize : UInt64 := 1048576

def maxPathLength : Nat := 256

def maxHeaderCount : Nat := 50

def maxHeaderValueLength : Nat := 8192

/-- The declared length of a request's body. -/
def contentLength (request : HttpRequest) : Option UInt64 := do
  let value ← request.headers.get "content-length"
  let text ← headerText value
  parseU64 text

/-- The content type that a request with a body needs. -/
def contentTypeOk (request : HttpRequest) : Bool :=
  match request.headers.get "content-type" with
  | none => false
  | some value => (headerText value).all fun text =>
      startsWith text "application/json" || startsWith text "multipart/form-data"

/-- What `validation_middleware` lets through. -/
def validRequest (request : HttpRequest) : Bool :=
  (contentLength request).all (fun len => len ≤ maxRequestSize) &&
    (utf8 request.path).length ≤ maxPathLength &&
    request.headers.length ≤ maxHeaderCount &&
    (request.headers.all fun h =>
      (headerText h.2).all fun text => (utf8 text).length ≤ maxHeaderValueLength) &&
    (if request.method ∈ ["POST", "PUT", "PATCH"] then contentTypeOk request else true)

def uniformRejection : HttpResponse := errorResponse

def validationMiddleware (next : Next) : Next := fun request =>
  if validRequest request then next request else uniformRejection

/-- `rate_limit_middleware`; `check` is the verdict of the rate limiter. -/
def rateLimitMiddleware (check : HttpRequest → Bool) (next : Next) : Next := fun request =>
  if check request then next request else AppError.rateLimited.intoResponse

/-- `stateless_auth_middleware`; `auth` is its verdict. -/
def statelessAuthLayer (auth : HttpRequest → Option AppError) (next : Next) : Next := fun request =>
  match auth request with
  | some e => e.intoResponse
  | none => next request

def paddedSize : Nat := 4096

/-- `resize` to `PADDED_SIZE` with spaces, of a body that is no longer. -/
def padBody (body : Bytes) : Bytes := body ++ List.replicate (paddedSize - body.length) 32

def responsePaddingMiddleware (next : Next) : Next := fun request =>
  let response := next request
  match response.body with
  | none =>
    { response with
      headers := response.headers.insert "content-length" (utf8 "4096")
      body := some (List.replicate paddedSize 32) }
  | some bodyBytes =>
    if bodyBytes.length > paddedSize then
      { response with
        headers := response.headers.insert "content-length" (utf8 (toString bodyBytes.length)) }
    else
      { response with
        headers := response.headers.insert "content-length" (utf8 "4096")
        body := some (padBody bodyBytes) }

def errorUnifierMiddleware (next : Next) : Next := fun request =>
  let response := next request
  if response.isClientError then
    { errorResponse with headers := response.headers.remove "content-length" }
  else response

/-! ## The stack -/

/-- The verdicts of the two layers that keep a state. -/
structure Verdicts where
  /-- The error of `stateless_auth_middleware`, if it refuses the request. -/
  auth : HttpRequest → Option AppError
  /-- `rate_limiter.check`. -/
  check : HttpRequest → Bool

/-- The layers below the two that rewrite bodies. -/
def innerStack (v : Verdicts) (router : HttpRequest → Outcome) : Next :=
  statelessAuthLayer v.auth <| rateLimitMiddleware v.check <| validationMiddleware <|
    torGuardMiddleware <| securityHeadersMiddleware fun request => (router request).intoResponse

/-- `build_router`: the last layer is the outermost. -/
def buildRouter (v : Verdicts) (router : HttpRequest → Outcome) : Next :=
  errorUnifierMiddleware <| responsePaddingMiddleware <| innerStack v router

end TorMarketplace
