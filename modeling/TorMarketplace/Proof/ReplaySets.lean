import TorMarketplace.Proof.FailedRequests
import TorMarketplace.Proof.Lifetime

/-!
# Nonces used once

The replay sets of the handlers hold the strings of the requests, an id and a nonce as the client has
spelled them; what the handlers work with are the bytes that they spell. So a nonce of an order, of its
chat or dispute, or of a listing is accepted once in one lifetime of the API if its requests spell it in one
way (`nonces_accepted_once`), and twice if they do not (`nonce_accepted_twice`).
-/

namespace TorMarketplace

open Encoding Interleave Prog

/-- The strings spell the same bytes. -/
def SameBytes (text text' : String) : Prop := ∃ b, hexDecode text = some b ∧ hexDecode text' = some b

/-- The resource that a request names and its nonce, as the request spells them. -/
structure Spelling (κ : Type) where
  kind : κ
  id : String
  nonce : String
  deriving DecidableEq

/-- The requests are of one kind, on one resource, with one nonce. -/
structure Spelling.Same {κ : Type} (a b : Spelling κ) : Prop where
  kind : a.kind = b.kind
  id : SameBytes a.id b.id
  nonce : a.nonce = b.nonce ∨ SameBytes a.nonce b.nonce

section Processes

variable {I : Interface} {J ε ρ κ : Type}

/-- The process has ended, and has not failed. -/
def accepted (p : Proc I J ε ρ) : Bool := p.prog.result.any Except.isOk

/-- Of the requests that are the same, one is accepted at most. -/
def AcceptedOnce (spelling : Proc I J ε ρ → Option (Spelling κ)) (procs : List (Proc I J ε ρ)) : Prop :=
  ∀ (pid pid' : Nat) p p' a b, procs[pid]? = some p → procs[pid']? = some p' → spelling p = some a →
    spelling p' = some b → a.Same b → accepted p = true → accepted p' = true → pid = pid'

/-- Requests that are the same are spelled in one way. -/
def SpelledAlike (spelling : Proc I J ε ρ → Option (Spelling κ)) (procs : List (Proc I J ε ρ)) : Prop :=
  ∀ p ∈ procs, ∀ p' ∈ procs, ∀ a b, spelling p = some a → spelling p' = some b → a.Same b → a = b

/-- If success needs a reply that is given for a spelling once, no other request spelled so succeeds. -/
theorem acceptedOnce_of_needs {spelling : Proc I J ε ρ → Option (Spelling κ)} {procs : List (Proc I J ε ρ)}
    (reply : Spelling κ → Reply I)
    (hneeds : ∀ p ∈ procs, ∀ a, spelling p = some a → accepted p = true → reply a ∈ p.past)
    (honce : ∀ (pid pid' : Nat) (p p' : Proc I J ε ρ) a, procs[pid]? = some p → procs[pid']? = some p' →
      reply a ∈ p.past → reply a ∈ p'.past → pid = pid')
    (halike : SpelledAlike spelling procs) : AcceptedOnce spelling procs := by
  intro pid pid' p p' a b hp hp' ha hb hsame hok hok'
  have hmem := List.mem_of_getElem? hp
  have hmem' := List.mem_of_getElem? hp'
  obtain rfl := halike p hmem p' hmem' a b ha hb hsame
  exact honce pid pid' p p' a hp hp' (hneeds p hmem a ha hok) (hneeds p' hmem' a hb hok')

end Processes

/-! ## Orders -/

/-- What a request to the handlers of an order, of its chat and of its dispute spells. -/
def Route.spelling : Route → Body → Option (Spelling NonceSet)
  | .updateOrder id, .updateOrder req => some ⟨.updateOrder, id, req.nonce⟩
  | .openDispute, .openDispute req => some ⟨.dispute, req.orderId, req.nonce⟩
  | .updateDispute id, .updateDispute req => some ⟨.dispute, id, req.nonce⟩
  | .updateChat orderId, .sendMessage req => some ⟨.chat, orderId, req.nonce⟩
  | _, _ => none

def Request.spelling (r : Request) : Option (Spelling NonceSet) :=
  (route r.method r.path).bind fun target => target.spelling r.body

def spelling (p : Process) : Option (Spelling NonceSet) :=
  match p.job with
  | .request r => r.spelling
  | _ => none

/-- The reply that a request needs. -/
def Spelling.recorded (a : Spelling NonceSet) : Reply Server :=
  TorMarketplace.recorded a.kind (nonceKey a.id a.nonce)

section Handlers

variable {α : Type}

theorem needs_nonce {set : NonceSet} {key : String} {e : Failure} {f : Unit → Program α} :
    Needs server.May (recorded set key)
      (exec (.insertNonce set key) >>= fun fresh => ensure fresh e >>= f) := by
  refine needs_call fun fresh hother => ?_
  cases fresh with
  | true => exact absurd rfl hother
  | false => exact needs_fail

theorem updateOrder_needs (st : AppState) (auth : Authed) (id : String) (req : UpdateOrderRequest) :
    Needs server.May (recorded .updateOrder (nonceKey id req.nonce)) (updateOrder st auth id req) := by
  unfold updateOrder
  refine needs_bind fun _ => needs_bind fun _ => needs_bind fun _ => needs_bind fun _ => ?_
  exact needs_nonce

theorem openDispute_needs (req : OpenDisputeRequest) :
    Needs server.May (recorded .dispute (nonceKey req.orderId req.nonce)) (openDispute req) := by
  unfold openDispute
  refine needs_bind fun _ => needs_bind fun _ => needs_bind fun _ => ?_
  exact needs_nonce

theorem updateDispute_needs (id : String) (req : UpdateDisputeRequest) :
    Needs server.May (recorded .dispute (nonceKey id req.nonce)) (updateDispute id req) := by
  unfold updateDispute
  refine needs_bind fun _ => needs_bind fun _ => needs_bind fun _ => ?_
  exact needs_nonce

theorem updateChat_needs (orderId : String) (req : SendMessageRequest) :
    Needs server.May (recorded .chat (nonceKey orderId req.nonce)) (updateChat orderId req) := by
  unfold updateChat
  refine needs_bind fun _ => needs_bind fun _ => needs_bind fun _ => ?_
  -- the nonce is used after the row is read
  refine needs_bind fun _ => needs_bind fun _ => needs_bind fun _ => ?_
  exact needs_nonce

theorem handle_needs (st : AppState) (auth : Option Authed) {target : Route} {body : Body}
    {a : Spelling NonceSet} (ha : target.spelling body = some a) :
    Needs server.May a.recorded (handle st auth target body) := by
  unfold Route.spelling at ha
  split at ha
  · obtain rfl := Option.some.inj ha
    exact needs_bind fun auth => (updateOrder_needs st auth _ _).map _
  · obtain rfl := Option.some.inj ha
    exact needs_bind fun _ => (openDispute_needs _).map _
  · obtain rfl := Option.some.inj ha
    exact needs_bind fun _ => (updateDispute_needs _ _).map _
  · obtain rfl := Option.some.inj ha
    exact needs_bind fun _ => (updateChat_needs _ _).map _
  · exact absurd ha (by simp)

end Handlers

theorem handleRequest_needs (st : AppState) {r : Request} {a : Spelling NonceSet}
    (ha : r.spelling = some a) : Needs server.May a.recorded (handleRequest st r) := by
  obtain ⟨target, htarget, ha⟩ := Option.bind_eq_some_iff.mp ha
  unfold handleRequest
  refine needs_bind fun auth => needs_bind fun _ => needs_bind fun _ => ?_
  rw [htarget]
  exact handle_needs st auth ha

section Reaches

variable {D : Deployment} {orders : OrdersTable} {g : System}

/-- An accepted request has put its key into the set of its kind. -/
theorem Deployment.Reaches.needs_recorded {allow : System → Job → Prop} (h : D.Reaches allow orders g)
    {p : Process} (hp : p ∈ g.procs) {a : Spelling NonceSet} (ha : spelling p = some a)
    (hok : accepted p = true) : a.recorded ∈ p.past := by
  have hspec : ∀ r, Spec server.May (fun _ _ => True)
      (OnOk fun past _ => r.spelling = some a → a.recorded ∈ past) [] (handleRequest D.api r) := by
    intro r
    by_cases hr : r.spelling = some a
    · refine spec_mono (fun _ _ h => h) (fun past result hresult => ?_) (handleRequest_needs D.api hr [])
      cases result with
      | ok _ => exact fun _ => hresult
      | error _ => trivial
    · refine spec_of_forall (fun _ _ => trivial) fun past result => ?_
      cases result with
      | ok _ => exact fun heq => absurd heq hr
      | error _ => trivial
  unfold spelling at ha
  split at ha
  · rename_i r hjob
    obtain ⟨result, hresult, hok⟩ := (Option.any_eq_true _ _).mp hok
    cases result with
    | ok _ => exact h.post_request hspec hp hjob hresult ha
    | error _ => exact absurd hok (by simp [Except.isOk, Except.toBool])
  · exact absurd ha (by simp)

theorem Deployment.Reaches.accepted_once (h : D.Reaches noRestart orders g)
    (halike : SpelledAlike spelling g.procs) : AcceptedOnce spelling g.procs :=
  acceptedOnce_of_needs Spelling.recorded (fun _ hp _ ha hok => h.needs_recorded hp ha hok)
    (fun _ _ _ _ _ hp hp' hr hr' => h.nonce_once hp hp' hr hr') halike

end Reaches

/-! ## Listings -/

namespace Listings

/-- What a request to `update_listing` spells. -/
def spelling (p : Process) : Option (Spelling Unit) :=
  match p.job with
  | .updateListing _ id req => some ⟨(), id, req.nonce⟩
  | _ => none

/-- The reply that a request needs. -/
def recorded (a : Spelling Unit) : Reply Server := ⟨.insertUpdateNonce (nonceKey a.id a.nonce), true⟩

/-- One lifetime of the API process. -/
def noRestart : System → Job → Prop := fun _ j => j ≠ .restartApi

theorem updateListing_needs (key : Bytes) (id : String) (req : UpdateListingRequest) :
    Needs server.May (recorded ⟨(), id, req.nonce⟩) (updateListing key id req) := by
  unfold updateListing
  refine needs_bind fun _ => needs_bind fun _ => needs_bind fun _ => needs_bind fun _ => ?_
  refine needs_bind fun _ => needs_call fun fresh hother => ?_
  cases fresh with
  | true => exact absurd rfl hother
  | false => exact needs_fail

/-- Only its own job restarts the API. -/
theorem program_noRestart (worker : AppState) {j : Job} (hj : j ≠ .restartApi) :
    Spec server.May (fun _ c => c ≠ .restartApi) (fun _ _ => True) [] (program worker j) := by
  cases j with
  | createListing key req =>
    refine spec_map ?_
    unfold createListing
    refine spec_still (decodeBlob_result _) fun blob => ?_
    refine spec_still (decodeSearchToken_result _) fun token => ?_
    refine spec_still (validateLabel_result _ _) fun status => ?_
    refine spec_still (validateLabel_result _ _) fun currency => ?_
    simp
  | listListings query =>
    refine spec_map ?_
    unfold listListings
    refine spec_still (decodeQuery_result _) fun token => ?_
    simp
  | getListing key id =>
    refine spec_map ?_
    simp [getListing]
  | updateListing key id req =>
    exact spec_map (updateListing_calls key id req fun _ _ => ⟨by simp, by simp, by simp, by simp⟩)
  | checkListingExpiry =>
    refine spec_map (spec_mono (fun past c hc => ?_) (fun _ _ h => h) (checkListingExpiry_calls worker))
    rintro rfl
    exact hc
  | restartApi => exact absurd rfl hj

theorem answer_recorded {a : Spelling Unit} {e : Choice} {s s' : Shared} {c : Call} {x : c.Ans}
    (ha : server.answer c e s = some (x, s')) (hr : (⟨c, x⟩ : Reply Server) = recorded a) :
    nonceKey a.id a.nonce ∉ s.updateNonces ∧ nonceKey a.id a.nonce ∈ s'.updateNonces := by
  cases hr
  simp only [server] at ha
  split at ha
  · exact absurd ha (by simp)
  · rename_i hfree
    obtain ⟨_, rfl⟩ := Prod.mk.inj (Option.some.inj ha)
    exact ⟨hfree, List.mem_cons_self⟩

/-- The set forgets nothing until the API restarts. -/
theorem answer_updateNonces {c : Call} {e : Choice} {s s' : Shared} {a : c.Ans}
    (ha : server.answer c e s = some (a, s')) (hc : c ≠ .restartApi) {key : String}
    (hkey : key ∈ s.updateNonces) : key ∈ s'.updateNonces := by
  cases c with
  | restartApi => exact absurd rfl hc
  | insertUpdateNonce key' =>
    simp only [server] at ha
    split at ha
    · obtain ⟨_, rfl⟩ := Prod.mk.inj (Option.some.inj ha)
      exact hkey
    · obtain ⟨_, rfl⟩ := Prod.mk.inj (Option.some.inj ha)
      exact List.mem_cons_of_mem _ hkey
  | _ =>
    simp only [server] at ha
    repeat' split at ha
    all_goals first
      | obtain ⟨_, rfl⟩ := Prod.mk.inj (Option.some.inj ha)
        exact hkey
      | cases ha

section Reaches

variable {worker : AppState} {listings : ListingsTable} {g : System}

theorem needs_recorded {allow : System → Job → Prop}
    (h : Reachable server (program worker) allow (Shared.initial listings) g) {p : Process}
    (hp : p ∈ g.procs) {a : Spelling Unit} (ha : spelling p = some a) (hok : accepted p = true) :
    recorded a ∈ p.past := by
  unfold spelling at ha
  split at ha
  · rename_i key id req hjob
    obtain rfl := Option.some.inj ha
    obtain ⟨result, hresult, hok⟩ := (Option.any_eq_true _ _).mp hok
    have hspec : ∀ j, Spec server.May (fun _ _ => True) (OnOk fun past _ =>
        ∀ key id req, j = .updateListing key id req → recorded ⟨(), id, req.nonce⟩ ∈ past) []
        (program worker j) := by
      intro j
      cases j with
      | updateListing key id req =>
        refine spec_mono (fun _ _ h => h) (fun past result hresult => ?_)
          (((updateListing_needs key id req).map Response.listing) [])
        cases result with
        | ok _ =>
          intro key' id' req' heq
          cases heq
          exact hresult
        | error _ => trivial
      | _ =>
        refine spec_of_forall (fun _ _ => trivial) fun past result => ?_
        cases result with
        | ok _ => exact fun _ _ _ heq => Job.noConfusion heq
        | error _ => trivial
    cases result with
    | ok _ => exact Reachable.post (fun _ j _ => hspec j) h hp hresult key id req hjob
    | error _ => exact absurd hok (by simp [Except.isOk, Except.toBool])
  · exact absurd ha (by simp)

theorem accepted_once (h : Reachable server (program worker) noRestart (Shared.initial listings) g)
    (halike : SpelledAlike spelling g.procs) : AcceptedOnce spelling g.procs := by
  refine acceptedOnce_of_needs recorded (fun _ hp _ ha hok => needs_recorded h hp ha hok)
    (fun pid pid' p p' a hp hp' hr hr' => ?_) halike
  exact Reachable.hit_proc (P := fun _ _ (c : Call) => c ≠ .restartApi) (Q := fun _ _ _ => True)
    (fun _ _ hj => program_noRestart worker hj) (fun r => r = recorded a)
    (fun s => nonceKey a.id a.nonce ∈ s.updateNonces) (fun _ ha hr => answer_recorded ha hr)
    (fun hc ha hkey => answer_updateNonces ha hc hkey) h hp hp' hr hr' rfl rfl

end Reaches

end Listings

/-! ## Both systems -/

/-- **A nonce of a resource is accepted once**, in one lifetime of the API in which the requests that are the
same are spelled in one way. -/
theorem nonces_accepted_once {D : Deployment} {orders : OrdersTable} {g : System} {worker : AppState}
    {listings : ListingsTable} {gl : Listings.System} (h : D.Reaches noRestart orders g)
    (hl : Reachable Listings.server (Listings.program worker) Listings.noRestart
      (Listings.Shared.initial listings) gl)
    (halike : SpelledAlike spelling g.procs) (halike' : SpelledAlike Listings.spelling gl.procs) :
    AcceptedOnce spelling g.procs ∧ AcceptedOnce Listings.spelling gl.procs :=
  ⟨h.accepted_once halike, Listings.accepted_once hl halike'⟩

/-! ### A nonce in two spellings -/

namespace Sample

/-- A chat message with this nonce. -/
def noted (l : Login) (nonce : String) : Request := l.post (.sendMessage ⟨"AQID", "", nonce⟩)

/-- A message, and a second one whose process makes `n` calls. -/
def notedTwice (nonce : String) (n : Nat) : List (Label Job Choice) :=
  .spawn (.request (noted firstChat "a1")) ::
    (acts 0 6 ++ .spawn (.request (noted secondChat nonce)) :: acts 1 n)

/-- Both messages have been served, with these verdicts. -/
def served (nonce : String) (verdicts : List Bool) (g : System) : Bool :=
  decide (g.procs.map Proc.job = [.request (noted firstChat "a1"), .request (noted secondChat nonce)]) &&
    decide (g.procs.map accepted = verdicts)

def repeated : (deployment (loginTables [firstChat, secondChat]) none).Trace noRestart (orders [])
    (served "a1" [true, false]) where
  labels := notedTwice "a1" 5
  allowed := keepsRunning_noRestart rfl
  passes := by decide +kernel

def respelled : (deployment (loginTables [firstChat, secondChat]) none).Trace noRestart (orders [])
    (served "A1" [true, true]) where
  labels := notedTwice "A1" 6
  allowed := keepsRunning_noRestart rfl
  passes := by decide +kernel

theorem noted_spelling {l : Login} (hpath : l.path = "/chat/" ++ orderId) (nonce : String) :
    (noted l nonce).spelling = some ⟨.chat, orderId, nonce⟩ := by
  have hroute := message_route l hpath
  rw [Request.spelling, show route (noted l nonce).method (noted l nonce).path = _ from hroute]
  rfl

/-- What the two processes spell. -/
theorem served_spellings {nonce : String} {verdicts : List Bool} {g : System}
    (h : served nonce verdicts g = true) :
    ∃ p p', g.procs = [p, p'] ∧ spelling p = some ⟨.chat, orderId, "a1"⟩ ∧
      spelling p' = some ⟨.chat, orderId, nonce⟩ ∧ verdicts = [accepted p, accepted p'] := by
  simp only [served, Bool.and_eq_true, decide_eq_true_eq] at h
  obtain ⟨hjobs, hverdicts⟩ := h
  obtain ⟨p, rest, hprocs, hp, hrest⟩ := List.map_eq_cons_iff.mp hjobs
  obtain ⟨p', rest', rfl, hp', hnil⟩ := List.map_eq_cons_iff.mp hrest
  obtain rfl := List.map_eq_nil_iff.mp hnil
  refine ⟨p, p', hprocs, ?_, ?_, ?_⟩
  · rw [spelling, hp]
    exact noted_spelling rfl "a1"
  · rw [spelling, hp']
    exact noted_spelling rfl nonce
  · rw [← hverdicts, hprocs]
    rfl

end Sample

open Sample Listings.ListingSample in
/-- A message sent twice under two logins, beside listings that nobody has asked for. -/
theorem nonces_accepted_once_sample :
    ∃ g, (deployment (loginTables [firstChat, secondChat]) none).Reaches noRestart (orders []) g ∧
      g.procs.map accepted = [true, false] ∧ AcceptedOnce spelling g.procs := by
  obtain ⟨g, hg, hcheck⟩ := repeated.reaches
  obtain ⟨p, p', hprocs, hp, hp', hverdicts⟩ := served_spellings hcheck
  have halike : SpelledAlike spelling g.procs := by
    intro q hq q' hq' a b ha hb _
    have hall : ∀ q ∈ g.procs, spelling q = some ⟨.chat, orderId, "a1"⟩ := by
      rw [hprocs]
      exact List.forall_mem_cons.mpr ⟨hp, List.forall_mem_singleton.mpr hp'⟩
    exact Option.some.inj (ha.symm.trans ((hall q hq).trans ((hall q' hq').symm.trans hb)))
  have hlistings : Reachable Listings.server (Listings.program worker) Listings.noRestart
      (Listings.Shared.initial (Table.empty Listing.id)) _ := .init
  refine ⟨g, hg, by rw [hprocs, hverdicts]; rfl, ?_⟩
  exact (nonces_accepted_once hg hlistings halike fun p hp => absurd hp List.not_mem_nil).1

open Sample in
/-- **A nonce is accepted twice**: in lower case and in upper case. -/
theorem nonce_accepted_twice :
    ∃ g, (deployment (loginTables [firstChat, secondChat]) none).Reaches noRestart (orders []) g ∧
      ¬ AcceptedOnce spelling g.procs := by
  obtain ⟨g, hg, hcheck⟩ := respelled.reaches
  obtain ⟨p, p', hprocs, hp, hp', hverdicts⟩ := served_spellings hcheck
  obtain ⟨hok, hverdicts⟩ := List.cons.inj hverdicts
  obtain ⟨hok', _⟩ := List.cons.inj hverdicts
  refine ⟨g, hg, fun honce => ?_⟩
  have hid : SameBytes orderId orderId := ⟨hex orderId, by decide +kernel, by decide +kernel⟩
  have hnonce : SameBytes "a1" "A1" := ⟨[0xa1], by decide +kernel, by decide +kernel⟩
  have hsame := honce 0 1 p p' _ _ (by rw [hprocs]; rfl) (by rw [hprocs]; rfl) hp hp'
    ⟨rfl, hid, .inr hnonce⟩ hok.symm hok'.symm
  exact absurd hsame (by decide)

end TorMarketplace
