import TorMarketplace.Proof.Credits
import TorMarketplace.Proof.FundingNotice
import TorMarketplace.Services.Payments.Subscribe

/-!
# Who is told of a payment

A WebSocket tells its client once, and exactly if the id of the order was sent since it was opened, as
long as the client is silent and not too much is sent at once (`subscriber_told_iff`). But only the
worker's passes send anything, and on the channel of their own process: the sockets are open in the other
one, where in every run nothing is ever sent (`api_subscribers_hear_nothing`).
-/

namespace TorMarketplace

open Broadcast Encoding Interleave Prog

/-! ## One socket -/

/-- What is sent on the channel. -/
def published (events : List SocketEvent) : List String :=
  events.filterMap fun
    | .publish id => some id
    | _ => none

namespace Subscription

variable {start : Nat} {s : Subscription} {ev : SocketEvent} {events : List SocketEvent}

/-- What holds of a socket that was opened when `start` messages had been sent. -/
structure Sound (start : Nat) (s : Subscription) : Prop where
  since : s.rx.Since start
  waiting : s.live = true → s.orderId ∉ s.rx.heard ∧ s.frames = []
  told : s.frames = [] ∨ s.frames = [fundedPayload s.orderId] ∧ s.orderId ∈ s.rx.heard

theorem sound_open {orderId : String} {log : List String} (h : wsHandler orderId log = .ok s) :
    Sound log.length s ∧ s.orderId = orderId ∧ s.rx = .subscribe log ∧ s.live = true := by
  unfold wsHandler at h
  split at h
  · exact absurd h (by simp)
  · obtain rfl := Except.ok.inj h
    exact ⟨⟨Receiver.since_subscribe log, fun _ => ⟨List.not_mem_nil, rfl⟩, .inl rfl⟩, rfl, rfl, rfl⟩

/-- How one turn of the loop takes a message. -/
inductive Receives (delivered : Bool) (s : Subscription) : Subscription → Prop
  | own (hlive : s.live = true)
      (hheard : (s.rx.recv paymentChannelCapacity).2.heard = s.rx.heard ++ [s.orderId]) :
      Receives delivered s
        { s with
          rx := (s.rx.recv paymentChannelCapacity).2
          live := false
          frames := if delivered then s.frames ++ [fundedPayload s.orderId] else s.frames }
  | other (hlive : s.live = true)
      (hheard : s.orderId ∉ s.rx.heard → s.orderId ∉ (s.rx.recv paymentChannelCapacity).2.heard) :
      Receives delivered s { s with rx := (s.rx.recv paymentChannelCapacity).2 }
  | closed (hlive : s.live = true) (hrx : s.rx.closed = true) :
      Receives delivered s { s with live := false }
  | idle : Receives delivered s s

theorem receives (delivered : Bool) : Receives delivered s (s.step (.receive delivered)) := by
  unfold Subscription.step
  dsimp only
  split
  · rename_i hlive
    have hheard : (s.rx.recv paymentChannelCapacity).2.heard = s.rx.heard ++ _ := Receiver.recv_heard
    split
    · rename_i id rx hrecv
      rw [hrecv] at hheard
      split
      · rename_i hid
        have hown : Receives delivered s _ := .own hlive (by rw [hrecv, hheard, hid])
        rwa [hrecv] at hown
      · rename_i hid
        have hother : Receives delivered s _ := .other hlive (fun hno => by
          rw [hrecv, hheard]
          simpa [hno] using fun h => hid h.symm)
        rwa [hrecv] at hother
    · rename_i skipped rx hrecv
      rw [hrecv] at hheard
      have hother : Receives delivered s _ := .other hlive (fun hno => by
        rw [hrecv, hheard]
        simpa using hno)
      rwa [hrecv] at hother
    · exact .idle
    · rename_i rx hrecv
      refine .closed hlive ?_
      unfold Receiver.recv at hrecv
      split at hrecv
      · exact absurd (Prod.mk.inj hrecv).1 (by simp)
      · split at hrecv
        · exact absurd (Prod.mk.inj hrecv).1 (by simp)
        · by_contra hopen
          rw [if_neg hopen] at hrecv
          exact absurd (Prod.mk.inj hrecv).1 (by simp)
  · exact .idle

theorem Sound.step (h : Sound start s) (ev : SocketEvent) :
    Sound start (s.step ev) ∧ (s.step ev).orderId = s.orderId := by
  obtain ⟨hsince, hwaiting, htold⟩ := h
  cases ev with
  | publish id => exact ⟨⟨hsince.send id, hwaiting, htold⟩, rfl⟩
  | shutdown => exact ⟨⟨hsince.close, hwaiting, htold⟩, rfl⟩
  | clientFrame => exact ⟨⟨hsince, fun h => absurd h (by simp [Subscription.step]), htold⟩, rfl⟩
  | receive delivered =>
    have hrec := receives (s := s) delivered
    generalize s.step (.receive delivered) = s' at hrec
    cases hrec with
    | own hlive hheard =>
      refine ⟨⟨hsince.recv, fun h => absurd h (by simp), ?_⟩, rfl⟩
      dsimp only
      rw [(hwaiting hlive).2, hheard]
      cases delivered with
      | true => exact .inr ⟨rfl, by simp⟩
      | false => exact .inl rfl
    | other hlive hheard =>
      obtain ⟨hno, hframes⟩ := hwaiting hlive
      exact ⟨⟨hsince.recv, fun _ => ⟨hheard hno, hframes⟩, .inl hframes⟩, rfl⟩
    | closed hlive hrx =>
      exact ⟨⟨hsince, fun h => absurd h (by simp), .inl (hwaiting hlive).2⟩, rfl⟩
    | idle => exact ⟨⟨hsince, hwaiting, htold⟩, rfl⟩

theorem step_log (s : Subscription) (ev : SocketEvent) :
    (s.step ev).rx.log = s.rx.log ++ published [ev] := by
  cases ev with
  | publish id => rfl
  | shutdown => exact (List.append_nil _).symm
  | clientFrame => exact (List.append_nil _).symm
  | receive delivered =>
    have hrec := receives (s := s) delivered
    rw [show published [.receive delivered] = [] from rfl, List.append_nil]
    generalize s.step (.receive delivered) = s' at hrec
    cases hrec with
    | own _ _ => exact Receiver.recv_log
    | other _ _ => exact Receiver.recv_log
    | closed _ _ => rfl
    | idle => rfl

theorem run_log (s : Subscription) (events : List SocketEvent) :
    (s.run events).rx.log = s.rx.log ++ published events := by
  induction events generalizing s with
  | nil => exact (List.append_nil _).symm
  | cons ev events ih =>
    rw [Subscription.run, List.foldl_cons, ← Subscription.run, ih, step_log, List.append_assoc, published,
      published, ← List.filterMap_append]
    rfl

theorem Sound.run (h : Sound start s) (events : List SocketEvent) :
    Sound start (s.run events) ∧ (s.run events).orderId = s.orderId := by
  induction events generalizing s with
  | nil => exact ⟨h, rfl⟩
  | cons ev events ih =>
    obtain ⟨hstep, hid⟩ := h.step ev
    obtain ⟨hrun, hid'⟩ := ih hstep
    exact ⟨hrun, hid'.trans hid⟩

/-- The client is silent, what is sent to it arrives, and the channel stays open. -/
def Quiet (events : List SocketEvent) : Prop :=
  .clientFrame ∉ events ∧ .receive false ∉ events ∧ .shutdown ∉ events

instance (events : List SocketEvent) : Decidable (Quiet events) := inferInstanceAs (Decidable (_ ∧ _))

/-- No message is overwritten before the socket has got to it. -/
def Kept (s : Subscription) (events : List SocketEvent) : Prop :=
  ∀ l, l <+: events → (s.run l).live = true → ¬ (s.run l).rx.Overrun paymentChannelCapacity

theorem Kept.cons (h : Kept s (ev :: events)) :
    (s.live = true → ¬ s.rx.Overrun paymentChannelCapacity) ∧ Kept (s.step ev) events :=
  ⟨h [] List.nil_prefix, fun l hl => h (ev :: l) (List.cons_prefix_cons.mpr ⟨rfl, hl⟩)⟩

/-- What holds in addition while nothing goes wrong. -/
structure Attentive (start : Nat) (s : Subscription) : Prop where
  opened : s.rx.closed = false
  complete : s.live = true → s.rx.Complete start
  ended : s.live = false → s.frames = [fundedPayload s.orderId]

theorem Attentive.step (h : Attentive start s) (hs : Sound start s) (hquiet : Quiet [ev])
    (hkept : s.live = true → ¬ s.rx.Overrun paymentChannelCapacity) : Attentive start (s.step ev) := by
  obtain ⟨hopened, hcomplete, hended⟩ := h
  cases ev with
  | publish id => exact ⟨hopened, fun hlive => (hcomplete hlive).send hs.since id, hended⟩
  | shutdown => exact absurd hquiet (by decide)
  | clientFrame => exact absurd hquiet (by decide)
  | receive delivered =>
    have hdelivered : delivered = true := by
      cases delivered with
      | true => rfl
      | false => exact absurd hquiet (by decide)
    subst hdelivered
    have hclosed : (s.rx.recv paymentChannelCapacity).2.closed = s.rx.closed := by
      unfold Receiver.recv
      split
      · rfl
      · split <;> rfl
    have hrec := receives (s := s) true
    generalize s.step (.receive true) = s' at hrec
    cases hrec with
    | own hlive _ =>
      refine ⟨hclosed.trans hopened, fun h => absurd h (by simp), fun _ => ?_⟩
      rw [if_pos rfl, (hs.waiting hlive).2, List.nil_append]
    | other hlive _ =>
      exact ⟨hclosed.trans hopened, fun _ => (hcomplete hlive).recv hs.since (hkept hlive), hended⟩
    | closed hlive hrx => exact absurd (hrx.symm.trans hopened) (by simp)
    | idle => exact ⟨hopened, hcomplete, hended⟩

theorem Quiet.cons (h : Quiet (ev :: events)) : Quiet [ev] ∧ Quiet events := by
  simp only [Quiet, List.mem_cons, not_or, List.not_mem_nil, not_false_eq_true, and_true] at h ⊢
  exact ⟨⟨h.1.1, h.2.1.1, h.2.2.1⟩, h.1.2, h.2.1.2, h.2.2.2⟩

theorem Attentive.run (h : Attentive start s) (hs : Sound start s) (hquiet : Quiet events)
    (hkept : Kept s events) : Attentive start (s.run events) := by
  induction events generalizing s with
  | nil => exact h
  | cons ev events ih =>
    obtain ⟨hev, hrest⟩ := hquiet.cons
    obtain ⟨hnow, hlater⟩ := hkept.cons
    exact ih (h.step hs hev hnow) (hs.step ev).1 hrest hlater

end Subscription

open Subscription in
/-- **A subscriber is told exactly of its order**: in whatever order messages are sent and read, at most
one frame is sent, and only of what was sent since the socket was opened; and while the client is silent
and nothing is overwritten, once all is read that frame is sent if and only if the id was. -/
theorem subscriber_told_iff {orderId : String} {log : List String} {s : Subscription}
    (hopen : wsHandler orderId log = .ok s) (events : List SocketEvent) :
    ((s.run events).frames = [] ∨
      (s.run events).frames = [fundedPayload orderId] ∧ orderId ∈ published events) ∧
    (Quiet events → Kept s events →
      ((s.run events).live = true → (s.run events).rx.next = (s.run events).rx.log.length) →
      ((s.run events).frames = [fundedPayload orderId] ↔ orderId ∈ published events)) := by
  obtain ⟨hsound, rfl, hrx, hlive⟩ := sound_open hopen
  obtain ⟨hrun, hid⟩ := hsound.run events
  have hsent : (s.run events).rx.log.drop log.length = published events := by
    rw [run_log, hrx, Receiver.subscribe, List.drop_left]
  have hheard : ∀ id, id ∈ (s.run events).rx.heard → id ∈ published events := fun id h =>
    hsent ▸ hrun.since.heard_sublist.subset h
  have htold := hrun.told
  rw [hid] at htold
  refine ⟨htold.imp_right fun h => ⟨h.1, hheard _ h.2⟩, fun hquiet hkept hdrained => ⟨fun hframes => ?_,
    fun hpublished => ?_⟩⟩
  · rcases htold with hnone | ⟨_, hin⟩
    · exact absurd (hframes.symm.trans hnone) (by simp)
    · exact hheard _ hin
  · have hattentive : Attentive log.length s :=
      ⟨by rw [hrx]; rfl, fun _ => hrx ▸ Receiver.complete_subscribe log,
        fun hdead => absurd (hlive.symm.trans hdead) (by simp)⟩
    have hend := hattentive.run hsound hquiet hkept
    by_cases hstill : (s.run events).live = true
    · -- everything was read, so the id was, and the loop has ended
      have hall := (hend.complete hstill).drained (hdrained hstill)
      rw [hsent] at hall
      exact absurd (hall ▸ hpublished) (hid ▸ (hrun.waiting hstill).1)
    · rw [← hid]
      exact hend.ended (Bool.eq_false_iff.mpr hstill)

namespace SubscriptionSample

/-- A socket for the order `ab`, opened after something else was sent. -/
def socket : Subscription := ⟨"ab", .subscribe ["cd"], true, []⟩

theorem socket_opens : wsHandler "ab" ["cd"] = .ok socket := if_neg (by decide +kernel)

def events : List SocketEvent := [.receive true, .publish "ef", .publish "ab", .receive true, .receive true]

theorem events_kept : Subscription.Kept socket events := by
  have hall : ∀ l ∈ events.inits, ¬ (socket.run l).rx.Overrun paymentChannelCapacity := by decide +kernel
  exact fun l hl _ => hall l ((List.mem_inits l events).mpr hl)

end SubscriptionSample

open SubscriptionSample in
/-- The second message is the one, and is passed on. -/
theorem subscriber_told_iff_sample : (socket.run events).frames = [fundedPayload "ab"] :=
  ((subscriber_told_iff socket_opens events).2 (by decide) events_kept fun _ => by decide +kernel).mpr
    (by decide)

/-! ## The channel of the API process -/

/-- What the call sends on the channel of the API process. -/
def apiSends (ev : Effect) : Option String :=
  match ev.job, ev.reply.1 with
  | .request _, .notifyPayment id => some id
  | _, _ => none

/-- All that was sent on it. -/
def apiSent (history : List Effect) : List String := history.filterMap apiSends

def sends : Call → Bool
  | .notifyPayment _ => true
  | _ => false

section Programs

variable {st : AppState} {past : Past}

/-- A program that sends nothing. -/
abbrev PublishesNothing {α : Type} (past : Past) (x : Program α) : Prop :=
  Spec server.May (fun _ c => sends c = false) (OnOk fun _ _ => True) past x

theorem getChat_publishes_nothing (orderId : String) : PublishesNothing past (getChat orderId) := by
  simp only [getChat, spec_orFail_bind, spec_call_bind, onOk_error, implies_true, true_and, sends]
  intro idBytes _ current _ row _
  cases row with
  | none => simp
  | some row => simp

theorem handle_publishes_nothing (auth : Option Authed) (target : Route) (body : Body) :
    PublishesNothing past (handle st auth target body) := by
  unfold handle
  split
  case h_8 =>
    rw [PublishesNothing, spec_orFail_bind]
    exact ⟨fun _ => trivial, fun _ _ => spec_seq_onOk (getChat_publishes_nothing _) fun _ _ _ _ => trivial⟩
  all_goals
    simp [createOrder, getOrder, updateOrder, openDispute, getDispute, updateDispute, resolveDispute,
      updateChat, blindSign, getAdminPubkey, rotateKek, challenge, verify, decodeToken, checkToken,
      cleanupChallenges, sends]

theorem handleRequest_publishes_nothing (r : Request) : PublishesNothing [] (handleRequest st r) :=
  handleRequest_of_handle st r
    (fun _ c hc => by cases c <;> first | rfl | exact absurd hc (by simp [Call.ofLayers]))
    fun _ _ _ _ _ => handle_publishes_nothing _ _ _

end Programs

/-- **No request sends anything.** -/
theorem Deployment.Reaches.apiSent_nil {D : Deployment} {allow : System → Job → Prop} {orders : OrdersTable}
    {g : System} (h : D.Reaches allow orders g) : apiSent g.history = [] := by
  refine List.filterMap_eq_nil_iff.mpr fun ev hev => ?_
  unfold apiSends
  split
  · rename_i r id hjob hcall
    have hsilent := h.event_request (P := fun _ c => sends c = false)
      (fun r => (handleRequest_publishes_nothing r : PublishesNothing [] (handleRequest D.api r))) hev hjob
    rw [hcall] at hsilent
    exact absurd hsilent (by simp [sends])
  · rfl

/-! ## The sockets of the API process -/

/-- A run of the system with the sockets that are open in the API process: what a request sends is put on
their channel, a socket hears what was sent since it was opened, and its client may send something at any
time. -/
inductive Listening (D : Deployment) (orders : OrdersTable) : System → List Subscription → Prop
  | init : Listening D orders ⟨Shared.initial orders, [], []⟩ []
  | serve {g g' : System} {sockets : List Subscription} (label : Label Job Choice)
      (h : Listening D orders g sockets) (hstep : g.step server D.program label = some g') :
      Listening D orders g' (sockets.map fun s =>
        s.run ((apiSent (g'.history.drop g.history.length)).map .publish))
  | connect {g : System} {sockets : List Subscription} {orderId : String} {s : Subscription}
      (h : Listening D orders g sockets) (hopen : wsHandler orderId (apiSent g.history) = .ok s) :
      Listening D orders g (sockets ++ [s])
  | receive {g : System} {sockets sockets' : List Subscription} {s : Subscription} (delivered : Bool)
      (h : Listening D orders g (sockets ++ s :: sockets')) :
      Listening D orders g (sockets ++ s.step (.receive delivered) :: sockets')
  | clientFrame {g : System} {sockets sockets' : List Subscription} {s : Subscription}
      (h : Listening D orders g (sockets ++ s :: sockets')) :
      Listening D orders g (sockets ++ s.step .clientFrame :: sockets')

theorem Listening.reaches {D : Deployment} {orders : OrdersTable} {g : System}
    {sockets : List Subscription} (h : Listening D orders g sockets) : D.Reaches anyJob orders g := by
  induction h with
  | init => exact .init
  | serve label _ hstep ih =>
    cases label with
    | spawn j => exact Option.some.inj hstep ▸ .spawn j ih trivial
    | act pid e => exact .act pid e ih hstep
  | connect _ _ ih => exact ih
  | receive _ _ ih => exact ih
  | clientFrame _ ih => exact ih

/-- What was sent since any event is nothing. -/
theorem Deployment.Reaches.apiSent_drop {D : Deployment} {allow : System → Job → Prop}
    {orders : OrdersTable} {g : System} (h : D.Reaches allow orders g) (n : Nat) :
    apiSent (g.history.drop n) = [] :=
  List.filterMap_eq_nil_iff.mpr fun ev hev =>
    List.filterMap_eq_nil_iff.mp h.apiSent_nil ev (List.mem_of_mem_drop hev)

/-- Nothing is on the channel of a socket. -/
theorem Listening.unheard {D : Deployment} {orders : OrdersTable} {g : System}
    {sockets : List Subscription} (h : Listening D orders g sockets) :
    ∀ s ∈ sockets, s.Sound 0 ∧ s.rx.log = [] := by
  have hkeeps {s : Subscription} (hs : s.Sound 0 ∧ s.rx.log = []) {ev : SocketEvent}
      (hev : published [ev] = []) : (s.step ev).Sound 0 ∧ (s.step ev).rx.log = [] :=
    ⟨(hs.1.step ev).1, by rw [Subscription.step_log, hs.2, hev]; rfl⟩
  induction h with
  | init => exact fun _ hs => absurd hs List.not_mem_nil
  | serve label hg hstep ih =>
    have hsent := (Listening.serve label hg hstep).reaches.apiSent_drop
    intro s' hs'
    obtain ⟨s, hs, rfl⟩ := List.mem_map.mp hs'
    rw [hsent]
    exact ih s hs
  | connect hg hopen ih =>
    intro s hs
    rcases List.mem_append.mp hs with hs | hs
    · exact ih s hs
    · obtain rfl := List.mem_singleton.mp hs
      rw [hg.reaches.apiSent_nil] at hopen
      obtain ⟨hsound, _, hrx, _⟩ := Subscription.sound_open hopen
      exact ⟨hsound, by rw [hrx]; rfl⟩
  | receive delivered _ ih =>
    simp only [List.forall_mem_append, List.forall_mem_cons] at ih ⊢
    exact ⟨ih.1, hkeeps ih.2.1 rfl, ih.2.2⟩
  | clientFrame _ ih =>
    simp only [List.forall_mem_append, List.forall_mem_cons] at ih ⊢
    exact ⟨ih.1, hkeeps ih.2.1 rfl, ih.2.2⟩

/-- **No subscriber is ever told of a payment**: whatever requests and worker passes run, whatever orders
are funded, no socket of the API process sends a frame. -/
theorem api_subscribers_hear_nothing {D : Deployment} {orders : OrdersTable} {g : System}
    {sockets : List Subscription} (h : Listening D orders g sockets) : ∀ s ∈ sockets, s.frames = [] := by
  intro s hs
  obtain ⟨hsound, hlog⟩ := h.unheard s hs
  refine hsound.told.resolve_right fun ⟨_, hheard⟩ => ?_
  have hin := hsound.since.heard_sublist.subset hheard
  rw [hlog, List.drop_nil] at hin
  exact absurd hin List.not_mem_nil

/-- The sockets stay open over any steps of the server. -/
theorem Listening.run {D : Deployment} {orders : OrdersTable} {g g' : System}
    {sockets : List Subscription} {labels : List (Label Job Choice)} (h : Listening D orders g sockets)
    (hrun : g.run server D.program labels = some g') :
    ∃ sockets', Listening D orders g' sockets' ∧
      sockets'.map Subscription.orderId = sockets.map Subscription.orderId := by
  induction labels generalizing g sockets with
  | nil => exact ⟨sockets, Option.some.inj hrun ▸ h, rfl⟩
  | cons label labels ih =>
    unfold Config.run at hrun
    split at hrun
    · rename_i g₁ hstep
      obtain ⟨sockets', hsockets', hids⟩ := ih (h.serve label hstep) hrun
      refine ⟨sockets', hsockets', hids.trans ?_⟩
      rw [List.map_map]
      exact List.map_congr_left fun s hs => ((h.unheard s hs).1.run _).2
    · exact absurd hrun (by simp)

open Sample in
/-- The worker funds an order, and says so on its own channel. -/
theorem api_subscribers_hear_nothing_funded :
    ∃ g s, Listening (deployment twinTables none) (orders (sealed 4 expiredBtcCiphertext)) g [s] ∧
      s.orderId = orderId ∧ (g.history.any fun ev => notifies (hex orderId) ev.reply) = true ∧
      s.frames = [] := by
  have hrun : (Config.run server (deployment twinTables none).program (creditPass 9)
      ⟨Shared.initial (orders (sealed 4 expiredBtcCiphertext)), [], []⟩).any
        (fun g => g.history.any fun ev => notifies (hex orderId) ev.reply) = true := by decide +kernel
  obtain ⟨g, hg, hnotified⟩ := (Option.any_eq_true _ _).mp hrun
  have hopen : wsHandler orderId [] = .ok ⟨orderId, .subscribe [], true, []⟩ :=
    if_neg (by decide +kernel)
  obtain ⟨sockets, hsockets, hids⟩ := (Listening.init.connect hopen).run hg
  obtain ⟨s, rfl, hid⟩ := List.map_eq_singleton_iff.mp hids
  exact ⟨g, s, hsockets, hid, hnotified, api_subscribers_hear_nothing hsockets s List.mem_cons_self⟩

end TorMarketplace
