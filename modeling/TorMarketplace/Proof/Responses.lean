import TorMarketplace.Gateway.Layers

/-!
# Uniform responses

What leaves the stack of layers for each way in which a request can end. The padding is inside the
error unifier, so a response of the framework with a client error, which the unifier replaces, leaves
without padding and with the headers that it had (`buildRouter_unified`). The responses are uniform
exactly when the router answers by itself (`uniformResponses_iff`).
-/

namespace TorMarketplace

open Encoding

/-! ## The layers below -/

/-- A layer answers for the router. -/
def Verdicts.stops (v : Verdicts) (request : HttpRequest) : Bool :=
  (v.auth request).isSome || !v.check request || !validRequest request

theorem innerStack_of_stops {v : Verdicts} {router : HttpRequest → Outcome} {request : HttpRequest}
    (h : v.stops request = true) : innerStack v router request = errorResponse := by
  unfold innerStack statelessAuthLayer
  cases hauth : v.auth request with
  | some e => rfl
  | none =>
    simp only [Verdicts.stops, hauth, Option.isSome_none, Bool.false_or, Bool.or_eq_true,
      Bool.not_eq_true'] at h
    change rateLimitMiddleware _ _ request = _
    unfold rateLimitMiddleware
    rcases h with hcheck | hvalid
    · rw [if_neg (by simp [hcheck])]
      rfl
    · split
      · unfold validationMiddleware
        rw [if_neg (by simp [hvalid])]
        rfl
      · rfl

theorem innerStack_of_passes {v : Verdicts} {router : HttpRequest → Outcome} {request : HttpRequest}
    (h : v.stops request = false) :
    innerStack v router request =
      securityHeadersMiddleware (fun request => (router request).intoResponse) request := by
  simp only [Verdicts.stops, Bool.or_eq_false_iff, Bool.not_eq_false', Option.isSome_eq_false_iff,
    Option.isNone_iff_eq_none] at h
  obtain ⟨⟨hauth, hcheck⟩, hvalid⟩ := h
  simp [innerStack, statelessAuthLayer, rateLimitMiddleware, validationMiddleware, torGuardMiddleware,
    hauth, hcheck, hvalid]

/-- The headers that say what the body is. -/
def contentHeaders (headers : HeaderMap) : Option Bytes × Option Bytes :=
  (headers.get "content-type", headers.get "content-length")

theorem get_foldl_insert (l : List (String × Bytes)) (headers : HeaderMap) {name : String}
    (h : name ∉ l.map Prod.fst) :
    (l.foldl (fun h p => HeaderMap.insert h p.1 p.2) headers).get name = headers.get name := by
  induction l generalizing headers with
  | nil => rfl
  | cons p l ih =>
    simp only [List.map_cons, List.mem_cons, not_or] at h
    rw [List.foldl_cons, ih _ h.2, HeaderMap.get_insert, if_neg h.1]

/-- The security headers are none of the content headers. -/
theorem securityHeaders_content (next : Next) (request : HttpRequest) :
    contentHeaders (securityHeadersMiddleware next request).headers =
      contentHeaders (next request).headers := by
  have hget : ∀ name ∈ ["content-type", "content-length"],
      (securityHeadersMiddleware next request).headers.get name = (next request).headers.get name := by
    intro name hname
    have hset : name ∉ securityHeaders.map Prod.fst ∧ name ≠ "onion-location" := by
      revert name
      decide
    simp only [securityHeadersMiddleware]
    split
    · rw [HeaderMap.get_insert, if_neg hset.2, get_foldl_insert _ _ hset.1]
    · exact get_foldl_insert _ _ hset.1
  rw [contentHeaders, contentHeaders, hget _ (by simp), hget _ (by simp)]

/-! ## The two layers that rewrite bodies -/

section Stack

variable {v : Verdicts} {router : HttpRequest → Outcome} {request : HttpRequest}

theorem padding_status (next : Next) (request : HttpRequest) :
    (responsePaddingMiddleware next request).status = (next request).status := by
  unfold responsePaddingMiddleware
  simp only
  split
  · rfl
  · split <;> rfl

theorem padding_contentType (next : Next) (request : HttpRequest) :
    (responsePaddingMiddleware next request).headers.get "content-type" =
      (next request).headers.get "content-type" := by
  unfold responsePaddingMiddleware
  simp only
  split
  · simp [HeaderMap.get_insert]
  · split <;> simp [HeaderMap.get_insert]

/-- A body that is not too long is padded. -/
theorem padding_body {next : Next} {b : Bytes} (hb : (next request).body = some b)
    (hlen : b.length ≤ paddedSize) :
    (responsePaddingMiddleware next request).body = some (padBody b) ∧
      (responsePaddingMiddleware next request).headers.get "content-length" = some (utf8 "4096") := by
  have hle : ¬ b.length > paddedSize := by omega
  simp [responsePaddingMiddleware, hb, hle, HeaderMap.get_insert]

theorem padBody_length {b : Bytes} (hlen : b.length ≤ paddedSize) :
    (padBody b).length = paddedSize := by
  simp only [padBody, List.length_append, List.length_replicate]
  omega

theorem isClientError_padding :
    (responsePaddingMiddleware (innerStack v router) request).isClientError =
      (innerStack v router request).isClientError := by
  rw [HttpResponse.isClientError, HttpResponse.isClientError, padding_status]

/-- What is no client error leaves as the padding has left it. -/
theorem buildRouter_kept (h : (innerStack v router request).isClientError = false) :
    buildRouter v router request = responsePaddingMiddleware (innerStack v router) request := by
  simp [buildRouter, errorUnifierMiddleware, isClientError_padding, h]

/-- **A client error leaves unpadded**, with the content type that it had. -/
theorem buildRouter_unified (h : (innerStack v router request).isClientError = true) :
    (buildRouter v router request).body = some errorBody ∧
      contentHeaders (buildRouter v router request).headers =
        ((innerStack v router request).headers.get "content-type", none) := by
  simp only [buildRouter, errorUnifierMiddleware, isClientError_padding, h, if_true, contentHeaders,
    HeaderMap.get_remove, if_neg (show "content-type" ≠ "content-length" by decide),
    padding_contentType]
  exact ⟨rfl, trivial⟩

/-! ## Uniform responses -/

/-- What an observer compares: the status, the body and the content headers. -/
def HttpResponse.shown (r : HttpResponse) : Nat × Option Bytes × Option Bytes × Option Bytes :=
  (r.status, r.body, contentHeaders r.headers)

def Outcome.isError : Outcome → Bool
  | .json _ => false
  | _ => true

/-- The request ends in an error. -/
def EndsInError (v : Verdicts) (router : HttpRequest → Outcome) (request : HttpRequest) : Prop :=
  v.stops request = true ∨ (router request).isError = true

/-- **Uniform responses**: a body that is not too long leaves with the size `PADDED_SIZE`, and all the
errors look the same. -/
structure UniformResponses (v : Verdicts) (router : HttpRequest → Outcome) : Prop where
  padded : ∀ request b, (innerStack v router request).body = some b → b.length ≤ paddedSize →
    ∃ b', (buildRouter v router request).body = some b' ∧ b'.length = paddedSize ∧
      b' = b ++ List.replicate (paddedSize - b.length) 32
  errors : ∀ request request', EndsInError v router request → EndsInError v router request' →
    (buildRouter v router request).shown = (buildRouter v router request').shown

/-- The application has made the response, and not the framework or the error text of the
subscription. -/
def Outcome.ofApplication : Outcome → Bool
  | .json _ => true
  | .appError _ => true
  | .fallback => true
  | _ => false

/-- How an error leaves that the application has made. -/
def uniformError : Nat × Option Bytes × Option Bytes × Option Bytes :=
  (500, some (padBody errorBody), some (utf8 "application/json"), some (utf8 "4096"))

theorem errorBody_length : errorBody.length = 17 := by decide +kernel

theorem padded_ne_errorBody : padBody errorBody ≠ errorBody := by
  intro h
  have hlen := congrArg List.length h
  rw [padBody_length (by rw [errorBody_length]; decide), errorBody_length] at hlen
  exact absurd hlen (by decide)

/-- The response below the two layers is that of an application's error. -/
theorem shown_of_errorResponse (hstatus : (innerStack v router request).status = 500)
    (hbody : (innerStack v router request).body = some errorBody)
    (htype : (innerStack v router request).headers.get "content-type" =
      some (utf8 "application/json")) :
    (buildRouter v router request).shown = uniformError := by
  have hkept : buildRouter v router request =
      responsePaddingMiddleware (innerStack v router) request :=
    buildRouter_kept (by simp [HttpResponse.isClientError, hstatus])
  obtain ⟨hpad, hlen⟩ := padding_body hbody (by rw [errorBody_length]; decide)
  rw [hkept, HttpResponse.shown, contentHeaders, padding_status, padding_contentType, hpad, hlen, hstatus,
    htype]
  rfl

theorem shown_of_stops (h : v.stops request = true) :
    (buildRouter v router request).shown = uniformError := by
  have hinner : innerStack v router request = errorResponse := innerStack_of_stops h
  exact shown_of_errorResponse (by rw [hinner]; rfl) (by rw [hinner]; rfl) (by rw [hinner]; rfl)

/-- Some request is stopped: one with a path that is too long. -/
theorem exists_stops (v : Verdicts) : ∃ request, v.stops request = true := by
  obtain ⟨request, hvalid⟩ : ∃ request, validRequest request = false :=
    ⟨⟨"GET", String.ofList (List.replicate 257 'a'), []⟩, by decide +kernel⟩
  exact ⟨request, by simp [Verdicts.stops, hvalid]⟩

variable (router) in
/-- The status, the body and the content type of the router's answer reach the padding. -/
theorem innerStack_passes (h : v.stops request = false) :
    (innerStack v router request).status = (router request).intoResponse.status ∧
      (innerStack v router request).body = (router request).intoResponse.body ∧
      (innerStack v router request).headers.get "content-type" =
        (router request).intoResponse.headers.get "content-type" := by
  rw [innerStack_of_passes h]
  exact ⟨rfl, rfl, congrArg Prod.fst (securityHeaders_content _ request)⟩

/-- A text does not leave as an error of the application does. -/
theorem shown_ne_of_text (h : v.stops request = false) {status : Nat} {text : String}
    (htext : (router request).intoResponse = textResponse status text) :
    (buildRouter v router request).shown ≠ uniformError := by
  intro hshown
  obtain ⟨_, _, htype⟩ := innerStack_passes router h
  rw [htext] at htype
  have hsame : (contentHeaders (buildRouter v router request).headers).1 =
      (innerStack v router request).headers.get "content-type" := by
    cases hclient : (innerStack v router request).isClientError with
    | true => rw [(buildRouter_unified hclient).2]
    | false => rw [buildRouter_kept hclient, contentHeaders, padding_contentType]
  have hjson := congrArg (fun x => x.2.2.1) hshown
  change (contentHeaders (buildRouter v router request).headers).1 = _ at hjson
  rw [hsame, htype] at hjson
  have htext : utf8 "text/plain; charset=utf-8" = utf8 "application/json" := Option.some.inj hjson
  exact absurd htext (by decide +kernel)

/-- What the application has not made itself does not leave as its errors do. -/
theorem shown_ne_of_framework (h : v.stops request = false)
    (happ : (router request).ofApplication = false) :
    (router request).isError = true ∧ (buildRouter v router request).shown ≠ uniformError := by
  cases hout : router request with
  | json _ => exact absurd (hout ▸ happ) (by simp [Outcome.ofApplication])
  | appError _ => exact absurd (hout ▸ happ) (by simp [Outcome.ofApplication])
  | fallback => exact absurd (hout ▸ happ) (by simp [Outcome.ofApplication])
  | wsError text => exact ⟨rfl, shown_ne_of_text h (by rw [hout]; rfl)⟩
  | rejection status text => exact ⟨rfl, shown_ne_of_text h (by rw [hout]; rfl)⟩
  | methodNotAllowed =>
    refine ⟨rfl, fun hshown => ?_⟩
    have hclient : (innerStack v router request).isClientError = true := by
      rw [HttpResponse.isClientError, (innerStack_passes router h).1, hout]
      rfl
    have hbody := congrArg (fun x => x.2.1) hshown
    exact padded_ne_errorBody (Option.some.inj (hbody.symm.trans (buildRouter_unified hclient).1))

/-- What the application has made leaves padded, and its errors leave as `uniformError`. -/
theorem buildRouter_of_application (h : v.stops request = false)
    (happ : (router request).ofApplication = true) :
    (innerStack v router request).isClientError = false ∧
      ((router request).isError = true → (buildRouter v router request).shown = uniformError) := by
  obtain ⟨hstatus, hbody, htype⟩ := innerStack_passes router h
  cases hout : router request with
  | json _ =>
    rw [hout] at hstatus
    exact ⟨by rw [HttpResponse.isClientError, hstatus]; rfl,
      fun herror => absurd herror (by simp [Outcome.isError])⟩
  | appError e =>
    rw [hout] at hstatus hbody htype
    exact ⟨by rw [HttpResponse.isClientError, hstatus]; rfl,
      fun _ => shown_of_errorResponse hstatus hbody htype⟩
  | fallback =>
    rw [hout] at hstatus hbody htype
    exact ⟨by rw [HttpResponse.isClientError, hstatus]; rfl,
      fun _ => shown_of_errorResponse hstatus hbody htype⟩
  | _ => exact absurd (hout ▸ happ) (by simp [Outcome.ofApplication])

/-- **The responses are uniform exactly when every request that the layers let through is answered by
the application**, and not by the framework. -/
theorem uniformResponses_iff (v : Verdicts) (router : HttpRequest → Outcome) :
    UniformResponses v router ↔
      ∀ request, v.stops request = true ∨ (router request).ofApplication = true := by
  constructor
  · intro huniform request
    by_contra hno
    simp only [not_or, Bool.not_eq_true] at hno
    obtain ⟨hpasses, happ⟩ := hno
    obtain ⟨herror, hshown⟩ := shown_ne_of_framework hpasses happ
    obtain ⟨request', hstops⟩ := exists_stops v
    exact hshown ((huniform.errors request request' (.inr herror) (.inl hstops)).trans
      (shown_of_stops hstops))
  · intro hall
    have hkept : ∀ request, (innerStack v router request).isClientError = false := by
      intro request
      cases hstops : v.stops request with
      | true => rw [innerStack_of_stops hstops]; rfl
      | false =>
        exact (buildRouter_of_application hstops ((hall request).resolve_left (by simp [hstops]))).1
    have herrors : ∀ request, EndsInError v router request →
        (buildRouter v router request).shown = uniformError := by
      intro request hends
      cases hstops : v.stops request with
      | true => exact shown_of_stops hstops
      | false =>
        exact (buildRouter_of_application hstops ((hall request).resolve_left (by simp [hstops]))).2
          (hends.resolve_left (by simp [hstops]))
    refine ⟨fun request b hb hlen => ?_, fun request request' h h' => ?_⟩
    · rw [buildRouter_kept (hkept request)]
      exact ⟨padBody b, (padding_body hb hlen).1, padBody_length hlen, rfl⟩
    · rw [herrors request h, herrors request' h']

end Stack

namespace Sample

/-- A request of the challenge, with no body. -/
def emptyChallenge : HttpRequest :=
  ⟨"POST", "/auth/challenge", [("content-type", utf8 "application/json")]⟩

/-- No request has the headers of the authentication, and none is too many. -/
def anonymous : Verdicts where
  auth request := if exemptPath request.path then none else some (.authFailed "missing pubkey")
  check _ := true

/-- What the `Json` extractor answers to the empty body. -/
def challengeRouter (_ : HttpRequest) : Outcome :=
  .rejection 400 ("Failed to parse the request body as JSON: " ++
    "EOF while parsing a value at line 1 column 0")

theorem emptyChallenge_passes : anonymous.stops emptyChallenge = false := by decide +kernel

end Sample

open Sample in
/-- The request without a body is answered with the 17 bytes of the error. -/
theorem rejection_unpadded : ¬ UniformResponses anonymous challengeRouter := by
  intro huniform
  obtain ⟨hstatus, hbody, _⟩ := innerStack_passes challengeRouter emptyChallenge_passes
  have hclient : (innerStack anonymous challengeRouter emptyChallenge).isClientError = true := by
    rw [HttpResponse.isClientError, hstatus]
    rfl
  obtain ⟨b, hb, hlen, _⟩ := huniform.padded emptyChallenge _ hbody (by decide +kernel)
  obtain rfl := Option.some.inj ((buildRouter_unified hclient).1.symm.trans hb)
  rw [errorBody_length] at hlen
  exact absurd hlen (by decide)

end TorMarketplace
