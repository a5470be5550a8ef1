import TorMarketplace.Background.Amounts
import TorMarketplace.Gateway.Layers

/-!
# The rate limiter

`gateway/ratelimit.rs` and `gateway/rate_limit_middleware.rs`: one map of windows, whose keys come
from the auth middleware's extension or, without one, from headers. `enter` is the way of a request
through `stateless_auth_middleware` and then `rate_limit_middleware`.
-/

namespace TorMarketplace

open Encoding Interleave

/-- An `Instant`, in nanoseconds; the difference of two saturates at zero. -/
abbrev Instant := Nat

structure RateEntry where
  count : UInt32
  windowStart : Instant
  deriving DecidableEq

/-- `HashMap<String, RateEntry>`. -/
abbrev RateBuckets := String → Option RateEntry

structure RateLimiter where
  maxRequests : UInt32
  windowDuration : Nat

namespace RateLimiter

/-- `RateLimiter::new`. -/
def new (maxRequests : UInt32) (windowSeconds : UInt64) : RateLimiter where
  maxRequests
  windowDuration := windowSeconds.toNat * 1000000000

/-- `check`; the instant is read under the lock. -/
def check (limiter : RateLimiter) (buckets : RateBuckets) (key : String) (now : Instant) :
    Bool × RateBuckets :=
  match buckets key with
  | some entry =>
    if now - entry.windowStart > limiter.windowDuration then
      (true, Function.update buckets key (some ⟨1, now⟩))
    else if entry.count ≥ limiter.maxRequests then (false, buckets)
    else (true, Function.update buckets key (some { entry with count := entry.count + 1 }))
  | none => (true, Function.update buckets key (some ⟨1, now⟩))

end RateLimiter

/-! ## The key of a request -/

/-- `headers.get(name)` and `to_str`. -/
def textHeader (headers : HeaderMap) (name : String) : Option String :=
  (headers.get name).bind headerText

/-- The key that a request names itself by, where it is no request of an authenticated client. -/
def pubkeyHeaderKey (headers : HeaderMap) : Option String :=
  (textHeader headers "x-auth-pubkey").filter fun s => s ≠ "" && s ≠ "anonymous"

/-- `get_rate_limit_key`. -/
def getRateLimitKey (auth : Option Authed) (headers : HeaderMap) : String :=
  match auth.bind fun a => if hexEncode a.pubkeyHash = "" then none else some a.pubkeyHash with
  | some hash => hexEncode hash
  | none =>
    match pubkeyHeaderKey headers with
    | some pubkey => pubkey
    | none =>
      match textHeader headers "x-forwarded-for" with
      | some ip => "ip:" ++ String.ofList (trim (((splitOn (· = ',') ip.toList).head?).getD []))
      | none =>
        match textHeader headers "x-real-ip" with
        | some ip => "ip:" ++ ip
        | none => "anonymous"

/-! ## The two layers -/

/-- The headers that `stateless_auth_middleware` reads. -/
def authHeaders (headers : HeaderMap) : AuthHeaders where
  pubkey := textHeader headers "x-auth-pubkey"
  hmac := textHeader headers "x-auth-hmac"
  hour := textHeader headers "x-auth-hour"
  nonce := textHeader headers "x-auth-nonce"
  signature := textHeader headers "x-auth-signature"

/-- A request, and what the two clocks say when the layers read them. -/
structure Arrival where
  request : HttpRequest
  /-- `OffsetDateTime::now_utc`, which can go back. -/
  unixTime : Int64
  instant : Instant

/-- What the layers keep. -/
structure LayerState where
  shared : Shared
  buckets : RateBuckets

/-- Where a request has come to. -/
inductive Passage where
  | refused (e : Failure)
  /-- Let through by the auth middleware with these extensions: the verdict of the limiter. -/
  | checked (auth : Option Authed) (allowed : Bool)

/-- `stateless_auth_middleware`, then `rate_limit_middleware`. -/
def enter (st : AppState) (limiter : RateLimiter) (s : LayerState) (a : Arrival) :
    Option (Passage × LayerState) :=
  let auth := statelessAuthMiddleware st a.request.path (authHeaders a.request.headers)
  match server.solo { time := a.unixTime } auth { s.shared with clock := a.unixTime } with
  | none => none
  | some (.error e, shared) => some (.refused e, { s with shared })
  | some (.ok auth, shared) =>
    let (allowed, buckets) := limiter.check s.buckets (getRateLimitKey auth a.request.headers) a.instant
    some (.checked auth allowed, ⟨shared, buckets⟩)

/-- A sequence of requests, each with the way it went. -/
def enterAll (st : AppState) (limiter : RateLimiter) :
    LayerState → List Arrival → Option (List (Arrival × Passage))
  | _, [] => some []
  | s, a :: arrivals => do
    let (passage, s) ← enter st limiter s a
    let rest ← enterAll st limiter s arrivals
    pure ((a, passage) :: rest)

/-- The API as it starts. -/
def LayerState.initial : LayerState where
  shared := Shared.initial .empty
  buckets := fun _ => none

end TorMarketplace
