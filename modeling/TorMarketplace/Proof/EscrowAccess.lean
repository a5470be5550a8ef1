import TorMarketplace.Proof.EscrowSafety

/-!
# Who gets an escrow's money, and when

A settlement pays out exactly if its own `require`s hold: the balance, which `transfer` looks at too,
always suffices (`settlement_step`). An order that neither party settles is not touched by anything
that others do, so that the buyer can release it at any time and has it back from its refund time on
(`untouched_order_pays`). The buyer is never the contract itself, which no transfer reaches; the seller
may be.
-/

namespace TorMarketplace.EscrowLock

open Rollback

variable {self : Address} {s s' : State}

/-! ## One settlement -/

/-- The party that may settle so. -/
def Settlement.party : Settlement → Order → Address
  | .release, o => o.buyer
  | .refund, o => o.buyer
  | .claimUnclaimed, o => o.seller

/-- The party that is paid. -/
def Settlement.payee : Settlement → Order → Address
  | .release, o => o.seller
  | .refund, o => o.buyer
  | .claimUnclaimed, o => o.seller

/-- The window of a settlement. -/
def Settlement.Window : Settlement → Order → Uint256 → Prop
  | .release, _, _ => True
  | .refund, o, time => o.refundTime ≤ time
  | .claimUnclaimed, o, time => o.releaseTime ≤ time ∧ time < o.refundTime

instance (k : Settlement) (o : Order) (time : Uint256) : Decidable (k.Window o time) := by
  unfold Settlement.Window
  cases k <;> infer_instance

/-- The order is open to a settlement by `sender` at a time. -/
structure Settlement.OpenTo (k : Settlement) (sender : Address) (time : Uint256) (o : Order) : Prop where
  initialized : o.initialized = true
  unsettled : o.settled = false
  party : sender = k.party o
  window : k.Window o time

/-- What `k` pays for an order. -/
def Settlement.payout (k : Settlement) (orderId : Bytes32) (w : World) : Payout :=
  ⟨k, orderId, k.payee (w.orders orderId), (w.orders orderId).amount, w.timestamp⟩

/-- The world while the payee has control. -/
def Settlement.paid (k : Settlement) (orderId : Bytes32) (w : World) : World :=
  (w.store orderId (k.mark (w.orders orderId))).pay (k.payout orderId w)

theorem settle_eq {checks : Order → Except Revert Unit} {mark : Order → Order}
    {payee : Order → Address} {orderId : Bytes32} {w : World}
    (hinit : (w.orders orderId).initialized = true) (hopen : (w.orders orderId).settled = false)
    (hchecks : checks (w.orders orderId) = .ok ()) :
    settle checks mark payee orderId w = .ok (w.store orderId (mark (w.orders orderId)),
      payee (mark (w.orders orderId)), (mark (w.orders orderId)).amount) := by
  obtain ⟨hreleased, hrefunded⟩ := Bool.or_eq_false_iff.mp hopen
  simp [settle, require, hinit, hreleased, hrefunded, hchecks, World.store, bind, Except.bind, pure,
    Except.pure]

/-- **A settlement comes to its transfer exactly if the order is open to it.** -/
theorem Settlement.start_iff {k : Settlement} {msg : Msg} {orderId : Bytes32} {w w' : World}
    {payee : Address} {amount : Uint256} : k.start msg orderId w = .ok (w', payee, amount) ↔
      k.OpenTo msg.sender w.timestamp (w.orders orderId) ∧
        w' = w.store orderId (k.mark (w.orders orderId)) ∧ payee = k.payee (w.orders orderId) ∧
        amount = (w.orders orderId).amount := by
  constructor
  · intro h
    cases k with
    | release =>
      rw [start, EscrowLock.release] at h
      obtain ⟨hinit, hopen, hchecks, hw, hpayee, hamount⟩ := settle_ok h
      exact ⟨⟨hinit, hopen, of_decide_eq_true (require_ok.mp hchecks), trivial⟩, hw, hpayee, hamount⟩
    | refund =>
      rw [start, EscrowLock.refund] at h
      obtain ⟨hinit, hopen, hchecks, hw, hpayee, hamount⟩ := settle_ok h
      simp only [require_bind_ok, require_ok, decide_eq_true_eq] at hchecks
      exact ⟨⟨hinit, hopen, hchecks.1, hchecks.2⟩, hw, hpayee, hamount⟩
    | claimUnclaimed =>
      rw [start, EscrowLock.claimUnclaimed] at h
      obtain ⟨hinit, hopen, hchecks, hw, hpayee, hamount⟩ := settle_ok h
      simp only [require_bind_ok, require_ok, decide_eq_true_eq] at hchecks
      exact ⟨⟨hinit, hopen, hchecks.1, hchecks.2⟩, hw, hpayee, hamount⟩
  · rintro ⟨⟨hinit, hopen, hparty, hwindow⟩, rfl, rfl, rfl⟩
    cases k with
    | release =>
      rw [start, EscrowLock.release, settle_eq hinit hopen]
      · rfl
      · exact require_ok.mpr (decide_eq_true hparty)
    | refund =>
      rw [start, EscrowLock.refund, settle_eq hinit hopen]
      · rfl
      · refine require_bind_ok.mpr ⟨decide_eq_true hparty, ?_⟩
        exact require_ok.mpr (decide_eq_true hwindow)
    | claimUnclaimed =>
      rw [start, EscrowLock.claimUnclaimed, settle_eq hinit hopen]
      · rfl
      · refine require_bind_ok.mpr ⟨decide_eq_true hparty, ?_⟩
        refine require_bind_ok.mpr ⟨decide_eq_true hwindow.1, ?_⟩
        exact require_ok.mpr (decide_eq_true hwindow.2)

/-- What is owed for one open order is there. -/
theorem Safe.covers {w : World} (hw : Safe w) {orderId : Bytes32}
    (hinit : (w.orders orderId).initialized = true) (hopen : (w.orders orderId).settled = false) :
    (w.orders orderId).amount.toNat ≤ w.balance := by
  have hsum := hw.solvent {orderId}
  simpa [World.owed, Order.owed, hinit, hopen] using hsum

open Classical in
theorem exec_settle (hsafe : Safe s.world) (msg : Msg) (k : Settlement) (orderId : Bytes32) :
    exec msg (.settle k orderId) s =
      if msg.value = 0 ∧ k.OpenTo msg.sender s.world.timestamp (s.world.orders orderId) then
        ⟨k.paid orderId s.world, (.payment (k.payout orderId s.world), s.world) :: s.frames⟩
      else s := by
  unfold exec
  dsimp only
  by_cases hvalue : msg.value = 0
  · rw [if_neg (not_not_intro hvalue)]
    split
    case h_1 e hstart =>
      rw [if_neg]
      rintro ⟨_, hopen⟩
      have hok := Settlement.start_iff.mpr ⟨hopen, rfl, rfl, rfl⟩
      exact absurd (hstart.symm.trans hok) (by simp)
    case h_2 w' payee amount hstart =>
      obtain ⟨hopen, rfl, rfl, rfl⟩ := Settlement.start_iff.mp hstart
      have hfunds : (s.world.orders orderId).amount.toNat ≤
          (s.world.store orderId (k.mark (s.world.orders orderId))).balance :=
        hsafe.covers hopen.initialized hopen.unsettled
      rw [if_pos hfunds, if_pos ⟨hvalue, hopen⟩]
      rfl
  · rw [if_pos hvalue, if_neg fun h => hvalue h.1]

/-! ## What the others do -/

/-- What calls of a kind do to the orders. -/
def callChanges (allowed : Msg → Call → Prop) : Changes World Frame where
  act w w' := w'.orders = w.orders ∨ ∃ msg orderId seller lockDuration,
    allowed msg (.create orderId seller lockDuration) ∧
      create msg orderId seller lockDuration (w.credit msg.value.toNat) = .ok w'
  enter w _ w' := w'.orders = w.orders ∨ ∃ msg k orderId, allowed msg (.settle k orderId) ∧
    k.OpenTo msg.sender w.timestamp (w.orders orderId) ∧
      w'.orders = Function.update w.orders orderId (k.mark (w.orders orderId))
  leave _ w w' := w'.orders = w.orders

theorem exec_callMove {allowed : Msg → Call → Prop} {msg : Msg} {c : Call} (hallowed : allowed msg c)
    (s : State) : Move (callChanges allowed) s (exec msg c s) := by
  obtain ⟨w, fs⟩ := s
  have hrefused : Move (callChanges allowed) ⟨w, fs⟩ ⟨w, fs⟩ := .act (.inl rfl)
  cases c with
  | create orderId seller lockDuration =>
    unfold exec
    dsimp only
    split
    case h_1 w' hcreate => exact .act (.inr ⟨msg, orderId, seller, lockDuration, hallowed, hcreate⟩)
    case h_2 => exact hrefused
  | settle k orderId =>
    unfold exec
    dsimp only
    split
    case isTrue => exact hrefused
    case isFalse =>
      split
      case h_1 => exact hrefused
      case h_2 w' payee amount hstart =>
        obtain ⟨hopen, rfl, rfl, rfl⟩ := Settlement.start_iff.mp hstart
        split
        case isTrue => exact .enter (.inr ⟨msg, k, orderId, hallowed, hopen, rfl⟩)
        case isFalse => exact hrefused

theorem step_callMove {allowed : Msg → Call → Prop} {l : Label}
    (hallowed : ∀ msg c, l = .call msg c → msg.sender ≠ self → allowed msg c)
    (h : step self l s = some s') : Move (callChanges allowed) s s' := by
  obtain ⟨w, fs⟩ := s
  cases l with
  | block timestamp =>
    unfold step at h
    dsimp only at h
    split at h
    case isTrue =>
      obtain rfl := Option.some.inj h
      exact .act (.inl rfl)
    case isFalse => exact absurd h (by simp)
  | enter =>
    obtain rfl := Option.some.inj h
    exact .enter (.inl rfl)
  | call msg c =>
    unfold step at h
    dsimp only at h
    split at h
    case isTrue => exact absurd h (by simp)
    case isFalse hsender =>
      obtain rfl := Option.some.inj h
      exact exec_callMove (hallowed msg c rfl hsender) _
  | finish =>
    cases fs with
    | nil => exact absurd h (by simp [step])
    | cons f fs =>
      obtain ⟨f, w₀⟩ := f
      cases f with
      | account =>
        obtain rfl := Option.some.inj h
        exact .leave rfl
      | payment p =>
        unfold step at h
        dsimp only at h
        split at h
        case isTrue => exact absurd h (by simp)
        case isFalse =>
          obtain rfl := Option.some.inj h
          exact .leave (p.settlement.finish_orders p.orderId w)
  | revert =>
    cases fs with
    | nil => exact absurd h (by simp [step])
    | cons f fs =>
      obtain rfl := Option.some.inj h
      exact .rollback
  | force value =>
    obtain rfl := Option.some.inj h
    exact .act (.inl rfl)

theorem inside_of_calls {allowed : Msg → Call → Prop} {n : Nat} {ls : List Label}
    (hallowed : ∀ msg c, .call msg c ∈ ls → msg.sender ≠ self → allowed msg c)
    (h : runInside self n ls s = some s') : Inside (callChanges allowed) n s s' := by
  suffices hgen : ∀ s₀, Inside (callChanges allowed) n s₀ s → Inside (callChanges allowed) n s₀ s' from
    hgen s .refl
  intro s₀ hs₀
  induction ls generalizing s with
  | nil =>
    obtain rfl := Option.some.inj h
    exact hs₀
  | cons l ls ih =>
    obtain ⟨s₁, hstep, h⟩ := Option.bind_eq_some_iff.mp h
    split at h
    case isTrue hn =>
      have hmove : Move (callChanges allowed) s s₁ :=
        step_callMove (fun msg c hl => hallowed msg c (hl ▸ List.mem_cons_self)) hstep
      exact ih (fun msg c hc => hallowed msg c (List.mem_cons_of_mem _ hc)) h (.tail hs₀ hmove hn)
    case isFalse => exact absurd h (by simp)

@[simp] theorem Settlement.mark_buyer (k : Settlement) (o : Order) : (k.mark o).buyer = o.buyer := by
  cases k <;> rfl

/-- No order has the contract as its buyer. -/
def BuyersCall (self : Address) (w : World) : Prop :=
  ∀ id, (w.orders id).initialized = true → (w.orders id).buyer ≠ self

theorem BuyersCall.preserved : (callChanges fun msg _ => msg.sender ≠ self).Preserves (BuyersCall self) where
  act h hw := by
    rcases h with horders | ⟨msg, orderId, seller, lockDuration, hsender, h⟩
    · intro id
      rw [horders]
      exact hw id
    · obtain ⟨_, rfl⟩ := create_ok h
      intro id hinit
      simp only [World.emit, World.store] at hinit ⊢
      by_cases hid : id = orderId
      · subst hid
        rw [Function.update_self]
        exact hsender
      · rw [Function.update_of_ne hid] at hinit ⊢
        exact hw id hinit
  enter h hw := by
    rcases h with horders | ⟨msg, k, orderId, _, _, horders⟩
    · intro id
      rw [horders]
      exact hw id
    · intro id hinit
      rw [horders] at hinit ⊢
      by_cases hid : id = orderId
      · subst hid
        rw [Function.update_self] at hinit ⊢
        rw [k.mark_buyer]
        exact hw id (by simpa using hinit)
      · rw [Function.update_of_ne hid] at hinit ⊢
        exact hw id hinit
  leave h hw := by
    intro id
    rw [show _ = _ from h]
    exact hw id

/-- The calls that do not settle an order in the name of a party to it. -/
def Besides (orderId : Bytes32) (o : Order) (msg : Msg) (c : Call) : Prop :=
  ∀ k, c = .settle k orderId → msg.sender ≠ o.buyer ∧ msg.sender ≠ o.seller

theorem Settlement.party_or (k : Settlement) (o : Order) : k.party o = o.buyer ∨ k.party o = o.seller := by
  cases k with
  | release => exact .inl rfl
  | refund => exact .inl rfl
  | claimUnclaimed => exact .inr rfl

/-- **Others leave an order alone.** -/
theorem besides_respect {orderId : Bytes32} {o : Order} (hinit : o.initialized = true) :
    (callChanges (Besides orderId o)).Respects
      fun w w' => w.orders orderId = o → w'.orders orderId = o where
  refl _ h := h
  trans h h' hw := h' (h hw)
  act h hw := by
    rcases h with horders | ⟨msg, orderId', seller, lockDuration, _, h⟩
    · rw [horders]
      exact hw
    · obtain ⟨hnew, rfl⟩ := create_ok h
      have hne : orderId ≠ orderId' := by
        rintro rfl
        change (_ : World).orders orderId = _ at hw
        exact absurd (hnew.symm.trans ((congrArg Order.initialized hw).trans hinit)) (by simp)
      exact (Function.update_of_ne hne _ _).trans hw
  enter h hw := by
    rcases h with horders | ⟨msg, k, orderId', hbesides, hopen, horders⟩
    · rw [horders]
      exact hw
    · have hne : orderId ≠ orderId' := by
        rintro rfl
        obtain ⟨hbuyer, hseller⟩ := hbesides k rfl
        have hparty := hopen.party
        rw [hw] at hparty
        rcases k.party_or o with h | h
        · exact hbuyer (hparty.trans h)
        · exact hseller (hparty.trans h)
      rw [horders]
      exact (Function.update_of_ne hne _ _).trans hw
  leave h hw := by
    rw [show _ = _ from h]
    exact hw

/-! ## Runs -/

theorem safe_of_run {balance : Nat} {timestamp : Uint256} {ls : List Label}
    (h : run self ls (initial balance timestamp) = some s) : Safe s.world :=
  (holds_of_moves Safe.preserved (inside_of_run h)
    ⟨safe_initial balance timestamp, fun _ hf => absurd hf List.not_mem_nil⟩).1

theorem buyersCall_of_run {balance : Nat} {timestamp : Uint256} {ls : List Label}
    (h : run self ls (initial balance timestamp) = some s) : BuyersCall self s.world := by
  have hinside := inside_of_calls (fun _ _ _ hsender => hsender) h
  refine (holds_of_moves BuyersCall.preserved hinside ⟨fun id hinit => ?_, fun _ hf => ?_⟩).1
  · exact absurd hinit (by simp [initial])
  · exact absurd hf List.not_mem_nil

theorem run_append {n : Nat} {ls ls' : List Label} {s'' : State} (h : runInside self n ls s = some s')
    (h' : runInside self n ls' s' = some s'') : runInside self n (ls ++ ls') s = some s'' := by
  induction ls generalizing s with
  | nil =>
    obtain rfl := Option.some.inj h
    exact h'
  | cons l ls ih =>
    obtain ⟨s₁, hstep, h⟩ := Option.bind_eq_some_iff.mp h
    rw [List.cons_append, runInside, hstep, Option.bind_eq_bind, Option.bind_some]
    split at h
    case isTrue hn =>
      rw [if_pos hn]
      exact ih h
    case isFalse => exact absurd h (by simp)

/-- A run inside of frames is a run. -/
theorem run_of_inside {n m : Nat} {ls : List Label} (hnm : n ≤ m) (h : runInside self m ls s = some s') :
    runInside self n ls s = some s' := by
  induction ls generalizing s with
  | nil => exact h
  | cons l ls ih =>
    obtain ⟨s₁, hstep, h⟩ := Option.bind_eq_some_iff.mp h
    rw [runInside, hstep, Option.bind_eq_bind, Option.bind_some]
    split at h
    case isTrue hm =>
      rw [if_pos (hnm.trans hm)]
      exact ih h
    case isFalse => exact absurd h (by simp)

open Classical in
/-- **A settlement pays exactly if the order is open to it**, in every state that calls lead to,
whatever frames are open: the call is without value, and by the party of the settlement, within its
window, of an order that is not settled. Then it pays that party's counterpart the order's amount, out
of a balance that covers it; otherwise it changes nothing. The payee's good end is the call's, unless
the payee is the contract itself. -/
theorem settlement_step (self : Address) (balance : Nat) (timestamp : Uint256) {ls : List Label}
    {s : State} (h : run self ls (initial balance timestamp) = some s) {msg : Msg}
    (hsender : msg.sender ≠ self) (k : Settlement) (orderId : Bytes32) :
    ∃ s', step self (.call msg (.settle k orderId)) s = some s' ∧
      if msg.value = 0 ∧ k.OpenTo msg.sender s.world.timestamp (s.world.orders orderId) then
        s' = ⟨k.paid orderId s.world, (.payment (k.payout orderId s.world), s.world) :: s.frames⟩ ∧
          s'.world.balance + (s.world.orders orderId).amount.toNat = s.world.balance ∧
          (step self .finish s' = none ↔ k.payee (s.world.orders orderId) = self)
      else s' = s := by
  have hsafe := safe_of_run h
  refine ⟨_, if_neg hsender, ?_⟩
  rw [exec_settle hsafe]
  split
  case isTrue hopen =>
    refine ⟨rfl, ?_, ?_⟩
    · exact Nat.sub_add_cancel (hsafe.covers hopen.2.initialized hopen.2.unsettled)
    · by_cases hself : k.payee (s.world.orders orderId) = self
      · simp [step, Settlement.payout, hself]
      · simp [step, Settlement.payout, hself]
  case isFalse => rfl

namespace EscrowSample

/-- The buyer creates an order, due at 110 and back from 120 on. -/
def created : List Label := [.block 100, .call ⟨buyer, 5⟩ (.create 7 seller 10)]

/-- The order, and the time. -/
def afterCreation : Option (Order × Uint256 × Nat) :=
  (run contract created (initial 0 0)).map fun s => (s.world.orders 7, s.world.timestamp, s.frames.length)

theorem afterCreation_eq : afterCreation = some (⟨seller, buyer, 110, 120, 5, true, false, false⟩, 100, 0) := by
  decide +kernel

end EscrowSample

open EscrowSample in
/-- The buyer may release at once. -/
theorem settlement_step_release : ∃ s s', run contract created (initial 0 0) = some s ∧
    step contract (.call ⟨buyer, 0⟩ (.settle .release 7)) s = some s' ∧
    s'.world.balance + 5 = s.world.balance := by
  obtain ⟨s, hs, hafter⟩ := Option.map_eq_some_iff.mp afterCreation_eq
  obtain ⟨horder, _⟩ := Prod.mk.inj hafter
  have hbuyer : (⟨buyer, 0⟩ : Msg).sender ≠ contract := by decide
  obtain ⟨s', hs', hpaid⟩ := settlement_step contract 0 0 hs hbuyer .release 7
  rw [horder, if_pos ⟨rfl, rfl, rfl, rfl, trivial⟩] at hpaid
  exact ⟨s, s', hs, hs', hpaid.2.1⟩

/-- **An order waits for its parties.** While neither party settles it, nothing that anybody does
changes an open order: its buyer can release it to the seller at any time, unless the seller is the
contract itself, and from the refund time on the buyer has the money back. -/
theorem untouched_order_pays (self : Address) (balance : Nat) (timestamp : Uint256) {ls ls' : List Label}
    {s s' : State} (h : run self ls (initial balance timestamp) = some s)
    (h' : runInside self s.frames.length ls' s = some s') {orderId : Bytes32}
    (hinit : (s.world.orders orderId).initialized = true)
    (hopen : (s.world.orders orderId).settled = false)
    (hbesides : ∀ msg c, .call msg c ∈ ls' → Besides orderId (s.world.orders orderId) msg c) :
    s'.world.orders orderId = s.world.orders orderId ∧
      ∀ k : Settlement, k.Window (s.world.orders orderId) s'.world.timestamp →
        (k = .refund ∨ (s.world.orders orderId).seller ≠ self) →
        ∃ s'', run self [.call ⟨k.party (s.world.orders orderId), 0⟩ (.settle k orderId), .finish] s' =
            some s'' ∧ s''.frames = s'.frames ∧
          s''.world.payouts = s'.world.payouts ++
            [⟨k, orderId, k.payee (s.world.orders orderId), (s.world.orders orderId).amount,
              s'.world.timestamp⟩] := by
  have hsame : s'.world.orders orderId = s.world.orders orderId :=
    rel_of_inside (besides_respect hinit) (inside_of_calls (fun msg c hc _ => hbesides msg c hc) h') rfl
  have hrun : run self (ls ++ ls') (initial balance timestamp) = some s' :=
    run_append h (run_of_inside (Nat.zero_le _) h')
  refine ⟨hsame, fun k hwindow hseller => ?_⟩
  have hbuyer := buyersCall_of_run h orderId hinit
  have hparty : k.party (s.world.orders orderId) ≠ self := by
    cases k with
    | release => exact hbuyer
    | refund => exact hbuyer
    | claimUnclaimed => exact hseller.resolve_left (by simp)
  have hpayee : k.payee (s.world.orders orderId) ≠ self := by
    cases k with
    | release => exact hseller.resolve_left (by simp)
    | refund => exact hbuyer
    | claimUnclaimed => exact hseller.resolve_left (by simp)
  have hopenTo : k.OpenTo (k.party (s.world.orders orderId)) s'.world.timestamp
      (s'.world.orders orderId) := by
    rw [hsame]
    exact ⟨hinit, hopen, rfl, hwindow⟩
  have hcall := exec_settle (safe_of_run hrun) ⟨k.party (s.world.orders orderId), 0⟩ k orderId
  rw [if_pos ⟨rfl, hopenTo⟩] at hcall
  rw [← hsame] at hpayee
  refine ⟨⟨k.finish orderId (k.paid orderId s'.world), s'.frames⟩, ?_, rfl, ?_⟩
  · simp only [run, runInside, step, if_neg hparty, hcall, Settlement.payout, if_neg hpayee,
      Option.bind_eq_bind, Option.bind_some, Nat.zero_le, if_true]
  · rw [k.finish_payouts, Settlement.paid, World.pay, Settlement.payout, hsame]
    rfl

namespace EscrowSample

/-- A stranger asks for the money, and the seller for another order's; then the refund time comes. -/
def besides : List Label :=
  [.enter, .call ⟨0x77, 0⟩ (.settle .refund 7), .call ⟨seller, 0⟩ (.settle .claimUnclaimed 8), .finish,
    .block 120]

def afterBesides : Option Uint256 :=
  (run contract created (initial 0 0)).bind fun s =>
    (runInside contract s.frames.length besides s).map fun s' => s'.world.timestamp

theorem afterBesides_eq : afterBesides = some 120 := by decide +kernel

theorem besides_others : ∀ msg c, .call msg c ∈ besides →
    Besides 7 ⟨seller, buyer, 110, 120, 5, true, false, false⟩ msg c := by
  intro msg c hc k hk
  simp only [besides, List.mem_cons, List.not_mem_nil, Label.call.injEq, reduceCtorEq, false_or,
    or_false] at hc
  rcases hc with ⟨rfl, _⟩ | ⟨_, rfl⟩
  · decide
  · exact absurd (Call.settle.inj hk).2 (by decide)

end EscrowSample

open EscrowSample in
/-- The buyer has the money back. -/
theorem untouched_order_pays_refund : ∃ s s' s'', run contract created (initial 0 0) = some s ∧
    runInside contract s.frames.length besides s = some s' ∧
    run contract [.call ⟨buyer, 0⟩ (.settle .refund 7), .finish] s' = some s'' ∧
    s''.world.payouts = s'.world.payouts ++ [⟨.refund, 7, buyer, 5, s'.world.timestamp⟩] := by
  obtain ⟨s, hs, hafter⟩ := Option.map_eq_some_iff.mp afterCreation_eq
  obtain ⟨horder, _⟩ := Prod.mk.inj hafter
  obtain ⟨s₀, hs₀, hbesides⟩ := Option.bind_eq_some_iff.mp afterBesides_eq
  obtain rfl := Option.some.inj (hs.symm.trans hs₀)
  obtain ⟨s', hs', htime⟩ := Option.map_eq_some_iff.mp hbesides
  obtain ⟨_, hpays⟩ := untouched_order_pays contract 0 0 hs hs'
    (by rw [horder] : (s.world.orders 7).initialized = true) (by rw [horder]; rfl)
    (by rw [horder]; exact besides_others)
  obtain ⟨s'', hrun, _, hpaid⟩ := hpays .refund (by rw [horder, htime]; decide) (.inl rfl)
  rw [horder] at hrun hpaid
  exact ⟨s, s', s'', hs, hs', hrun, hpaid⟩

end TorMarketplace.EscrowLock
