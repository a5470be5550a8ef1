import Mathlib.Algebra.BigOperators.Group.Finset.Basic
import Mathlib.Algebra.Order.BigOperators.Group.Finset
import Mathlib.Data.Finset.Basic
import TorMarketplace.Contracts.EscrowLock

/-!
# The escrow contract keeps what it owes

The balance covers every set of orders that are not settled, an order is paid once and as it was
agreed, and its terms stay. All three are about the contract's own changes of the world
(`Safe.preserved`, `Extends.respected`); that payees call the contract again, and that frames roll
back, is left to `Lib/Rollback`. What reentrancy could break is the order of a settlement's steps: the
mark stands before the transfer, so that the payee finds the order settled.
-/

namespace TorMarketplace.EscrowLock

open Rollback

/-! ## What the functions do -/

@[simp] theorem require_bind_ok {α : Type} {b : Bool} {m : String} {f : Unit → Except Revert α}
    {x : α} : (require b m >>= f) = .ok x ↔ b = true ∧ f () = .ok x := by
  cases b with
  | false => exact ⟨fun h => (by cases h), fun h => absurd h.1 (by simp)⟩
  | true => exact ⟨fun h => ⟨rfl, h⟩, fun h => h.2⟩

@[simp] theorem require_ok {b : Bool} {m : String} : require b m = .ok () ↔ b = true := by
  cases b <;> simp [require]

@[simp] theorem checkedAdd_bind_ok {α : Type} {a b : Uint256} {f : Uint256 → Except Revert α} {x : α} :
    (checkedAdd a b >>= f) = .ok x ↔ a.toNat + b.toNat < 2 ^ 256 ∧ f (a + b) = .ok x := by
  unfold checkedAdd
  split
  · exact ⟨fun h => ⟨by assumption, h⟩, fun h => h.2⟩
  · exact ⟨fun h => (by cases h), fun h => absurd h.1 (by assumption)⟩

def Order.settled (o : Order) : Bool := o.released || o.refunded

/-- What is agreed at an order's creation. -/
def Order.terms (o : Order) : Address × Address × Uint256 × Uint256 × Uint256 :=
  (o.seller, o.buyer, o.releaseTime, o.refundTime, o.amount)

/-- What the contract still owes for an order. -/
def Order.owed (o : Order) : Nat := if o.initialized && !o.settled then o.amount.toNat else 0

/-- The order that `create` makes at a time. -/
def newOrder (msg : Msg) (seller : Address) (lockDuration timestamp : Uint256) : Order where
  seller
  buyer := msg.sender
  releaseTime := timestamp + lockDuration
  refundTime := timestamp + lockDuration + lockDuration
  amount := msg.value
  initialized := true

theorem create_ok {msg : Msg} {orderId : Bytes32} {seller : Address} {lockDuration : Uint256}
    {w w' : World} (h : create msg orderId seller lockDuration w = .ok w') :
    (w.orders orderId).initialized = false ∧
      w' = (w.store orderId (newOrder msg seller lockDuration w.timestamp)).emit
        (.orderCreated orderId seller msg.sender msg.value (w.timestamp + lockDuration)) := by
  simp only [create, require_bind_ok, checkedAdd_bind_ok, Bool.not_eq_true'] at h
  obtain ⟨hnew, _, _, _, _, h⟩ := h
  exact ⟨hnew, (Except.ok.inj h).symm⟩

theorem settle_ok {checks : Order → Except Revert Unit} {mark : Order → Order}
    {payee : Order → Address} {orderId : Bytes32} {w w' : World} {to' : Address} {amount : Uint256}
    (h : settle checks mark payee orderId w = .ok (w', to', amount)) :
    (w.orders orderId).initialized = true ∧ (w.orders orderId).settled = false ∧
      checks (w.orders orderId) = .ok () ∧ w' = w.store orderId (mark (w.orders orderId)) ∧
      to' = payee (mark (w.orders orderId)) ∧ amount = (mark (w.orders orderId)).amount := by
  simp only [settle, require_bind_ok] at h
  obtain ⟨hinit, hopen, h⟩ := h
  cases hchecks : checks (w.orders orderId) with
  | error e =>
    rw [hchecks] at h
    cases h
  | ok _ =>
    rw [hchecks] at h
    obtain ⟨rfl, rfl, rfl⟩ := (by simpa using Except.ok.inj h :
      w.store orderId (mark (w.orders orderId)) = w' ∧ _ = to' ∧ _ = amount)
    refine ⟨hinit, ?_, rfl, rfl, ?_, ?_⟩
    · simpa [Order.settled] using hopen
    · simp [World.store]
    · simp [World.store]

/-- The mark of a settlement. -/
def Settlement.mark : Settlement → Order → Order
  | .release, o => { o with released := true }
  | .refund, o => { o with refunded := true }
  | .claimUnclaimed, o => { o with released := true }

@[simp] theorem Settlement.mark_terms (k : Settlement) (o : Order) : (k.mark o).terms = o.terms := by
  cases k <;> rfl

@[simp] theorem Settlement.mark_initialized (k : Settlement) (o : Order) :
    (k.mark o).initialized = o.initialized := by
  cases k <;> rfl

@[simp] theorem Settlement.mark_settled (k : Settlement) (o : Order) :
    (k.mark o).settled = true := by
  cases k <;> simp [mark, Order.settled]

/-- A payout is one that is due for the order: settled, for its amount, to the party and in the window
of the settlement. -/
structure Payout.Due (p : Payout) (o : Order) : Prop where
  initialized : o.initialized = true
  settled : o.settled = true
  amount : p.amount = o.amount
  window : match p.settlement with
    | .release => p.payee = o.seller
    | .refund => p.payee = o.buyer ∧ o.refundTime ≤ p.time
    | .claimUnclaimed => p.payee = o.seller ∧ o.releaseTime ≤ p.time ∧ p.time < o.refundTime

/-- What a settlement has done when it comes to its transfer. -/
structure Settles (k : Settlement) (orderId : Bytes32) (w w' : World) (payee : Address)
    (amount : Uint256) : Prop where
  initialized : (w.orders orderId).initialized = true
  unsettled : (w.orders orderId).settled = false
  world : w' = w.store orderId (k.mark (w.orders orderId))
  paid : amount = (w.orders orderId).amount
  due : (⟨k, orderId, payee, amount, w.timestamp⟩ : Payout).Due (k.mark (w.orders orderId))

theorem Settlement.start_ok {k : Settlement} {msg : Msg} {orderId : Bytes32} {w w' : World}
    {payee : Address} {amount : Uint256} (h : k.start msg orderId w = .ok (w', payee, amount)) :
    Settles k orderId w w' payee amount := by
  cases k with
  | release =>
    rw [start, EscrowLock.release] at h
    obtain ⟨hinit, hopen, _, hw, hpayee, hamount⟩ := settle_ok h
    exact ⟨hinit, hopen, hw, hamount, hinit, mark_settled .release _, hamount, hpayee⟩
  | refund =>
    rw [start, EscrowLock.refund] at h
    obtain ⟨hinit, hopen, hchecks, hw, hpayee, hamount⟩ := settle_ok h
    simp only [require_bind_ok, require_ok, decide_eq_true_eq] at hchecks
    exact ⟨hinit, hopen, hw, hamount, hinit, mark_settled .refund _, hamount, hpayee, hchecks.2⟩
  | claimUnclaimed =>
    rw [start, EscrowLock.claimUnclaimed] at h
    obtain ⟨hinit, hopen, hchecks, hw, hpayee, hamount⟩ := settle_ok h
    simp only [require_bind_ok, require_ok, decide_eq_true_eq] at hchecks
    exact ⟨hinit, hopen, hw, hamount, hinit, mark_settled .claimUnclaimed _, hamount, hpayee,
      hchecks.2.1, hchecks.2.2⟩

@[simp] theorem Settlement.finish_orders (k : Settlement) (orderId : Bytes32) (w : World) :
    (k.finish orderId w).orders = w.orders := by
  cases k <;> rfl

@[simp] theorem Settlement.finish_balance (k : Settlement) (orderId : Bytes32) (w : World) :
    (k.finish orderId w).balance = w.balance := by
  cases k <;> rfl

@[simp] theorem Settlement.finish_payouts (k : Settlement) (orderId : Bytes32) (w : World) :
    (k.finish orderId w).payouts = w.payouts := by
  cases k <;> rfl

/-! ## The changes of the world -/

/-- What changes the world in place. -/
inductive Acts : World → World → Prop
  /-- A call that reverts at once. -/
  | refused (w : World) : Acts w w
  | block (w : World) (timestamp : Uint256) : Acts w { w with timestamp }
  | create {msg : Msg} {orderId : Bytes32} {seller : Address} {lockDuration : Uint256} {w w' : World}
      (h : create msg orderId seller lockDuration (w.credit msg.value.toNat) = .ok w') : Acts w w'
  | force (w : World) (value : Nat) : Acts w (w.credit value)

/-- What opens a frame. -/
inductive Enters : World → Frame → World → Prop
  | account (w : World) : Enters w .account w
  | payment {k : Settlement} {msg : Msg} {orderId : Bytes32} {w w' : World} {payee : Address}
      {amount : Uint256} (h : k.start msg orderId w = .ok (w', payee, amount))
      (hfunds : amount.toNat ≤ w'.balance) :
      Enters w (.payment ⟨k, orderId, payee, amount, w'.timestamp⟩)
        (w'.pay ⟨k, orderId, payee, amount, w'.timestamp⟩)

/-- How a frame ends well. -/
inductive Leaves : Frame → World → World → Prop
  | account (w : World) : Leaves .account w w
  | payment (p : Payout) (w : World) :
      Leaves (.payment p) w (p.settlement.finish p.orderId w)

def changes : Changes World Frame := ⟨Acts, Enters, Leaves⟩

variable {self : Address} {s s' : State}

theorem exec_move (msg : Msg) (c : Call) (s : State) : Move changes s (exec msg c s) := by
  obtain ⟨w, fs⟩ := s
  have hrefused : Move changes ⟨w, fs⟩ ⟨w, fs⟩ := .act (.refused w)
  cases c with
  | create orderId seller lockDuration =>
    unfold exec
    dsimp only
    split
    case h_1 w' hcreate => exact .act (.create hcreate)
    case h_2 => exact hrefused
  | settle k orderId =>
    unfold exec
    dsimp only
    split
    case isTrue => exact hrefused
    case isFalse =>
      split
      case h_1 => exact hrefused
      case h_2 w' payee amount hstart =>
        split
        case isTrue hfunds => exact .enter (.payment hstart hfunds)
        case isFalse => exact hrefused

theorem step_move {l : Label} (h : step self l s = some s') : Move changes s s' := by
  obtain ⟨w, fs⟩ := s
  cases l with
  | block timestamp =>
    unfold step at h
    dsimp only at h
    split at h
    case isTrue =>
      obtain rfl := Option.some.inj h
      exact .act (.block w timestamp)
    case isFalse => exact absurd h (by simp)
  | enter =>
    obtain rfl := Option.some.inj h
    exact .enter (.account w)
  | call msg c =>
    unfold step at h
    dsimp only at h
    split at h
    case isTrue => exact absurd h (by simp)
    case isFalse =>
      obtain rfl := Option.some.inj h
      exact exec_move msg c _
  | finish =>
    cases fs with
    | nil => exact absurd h (by simp [step])
    | cons f fs =>
      obtain ⟨f, w₀⟩ := f
      cases f with
      | account =>
        obtain rfl := Option.some.inj h
        exact .leave (.account w)
      | payment p =>
        unfold step at h
        dsimp only at h
        split at h
        case isTrue => exact absurd h (by simp)
        case isFalse =>
          obtain rfl := Option.some.inj h
          exact .leave (.payment p w)
  | revert =>
    cases fs with
    | nil => exact absurd h (by simp [step])
    | cons f fs =>
      obtain rfl := Option.some.inj h
      exact .rollback
  | force value =>
    obtain rfl := Option.some.inj h
    exact .act (.force w value)

/-- A run of the machine is one of its moves. -/
theorem inside_of_run {n : Nat} {ls : List Label} (h : runInside self n ls s = some s') :
    Inside changes n s s' := by
  suffices hgen : ∀ s₀, Inside changes n s₀ s → Inside changes n s₀ s' from hgen s .refl
  intro s₀ hs₀
  induction ls generalizing s with
  | nil =>
    obtain rfl := Option.some.inj h
    exact hs₀
  | cons l ls ih =>
    obtain ⟨s₁, hstep, h⟩ := Option.bind_eq_some_iff.mp h
    split at h
    case isTrue hn => exact ih h (.tail hs₀ (step_move hstep) hn)
    case isFalse => exact absurd h (by simp)

/-! ## Solvency and single settlement -/

/-- The sum of what is owed for some of the orders. -/
def World.owed (w : World) (ids : Finset Bytes32) : Nat := ∑ id ∈ ids, (w.orders id).owed

/-- The contract can pay, and has paid once and as it was agreed. -/
structure Safe (w : World) : Prop where
  solvent : ∀ ids, w.owed ids ≤ w.balance
  once : (w.payouts.map Payout.orderId).Nodup
  due : ∀ p ∈ w.payouts, p.Due (w.orders p.orderId)

/-- An order that is stored anew changes what is owed by the difference. -/
theorem owed_store (w : World) (orderId : Bytes32) (o : Order) (ids : Finset Bytes32) :
    (w.store orderId o).owed ids =
      w.owed (ids.erase orderId) + if orderId ∈ ids then o.owed else 0 := by
  have herase : ∀ w' : World, (∀ id, id ≠ orderId → w'.orders id = w.orders id) →
      w'.owed (ids.erase orderId) = w.owed (ids.erase orderId) := by
    intro w' hw'
    refine Finset.sum_congr rfl fun id hid => ?_
    rw [hw' id (Finset.ne_of_mem_erase hid)]
  have hstore := herase (w.store orderId o) fun id hid => Function.update_of_ne hid _ _
  by_cases hmem : orderId ∈ ids
  · rw [if_pos hmem, ← hstore, World.owed, ← Finset.sum_erase_add _ _ hmem]
    simp [World.owed, World.store]
  · rw [if_neg hmem, Nat.add_zero, ← hstore, Finset.erase_eq_of_notMem hmem]

/-- Less is owed for fewer orders. -/
theorem owed_erase_add_le (w : World) (orderId : Bytes32) (ids : Finset Bytes32) :
    w.owed (ids.erase orderId) + (w.orders orderId).owed = w.owed (insert orderId ids) := by
  have hinsert : insert orderId ids = insert orderId (ids.erase orderId) := by
    ext id
    by_cases hid : id = orderId
    · simp [hid]
    · simp [hid]
  rw [hinsert, World.owed, World.owed, Finset.sum_insert (Finset.notMem_erase orderId ids),
    Nat.add_comm]

theorem safe_of_create {msg : Msg} {orderId : Bytes32} {seller : Address} {lockDuration : Uint256}
    {w w' : World} (h : create msg orderId seller lockDuration (w.credit msg.value.toNat) = .ok w')
    (hw : Safe w) : Safe w' := by
  obtain ⟨hnew, rfl⟩ := create_ok h
  refine ⟨fun ids => ?_, hw.once, fun p hp => ?_⟩
  · have hsum := owed_store w orderId (newOrder msg seller lockDuration w.timestamp) ids
    have hold := hw.solvent (ids.erase orderId)
    have hnewOwed : (newOrder msg seller lockDuration w.timestamp).owed = msg.value.toNat := rfl
    change (w.store orderId (newOrder msg seller lockDuration w.timestamp)).owed ids ≤
      w.balance + msg.value.toNat
    rw [hsum, hnewOwed]
    split <;> omega
  · have hdue := hw.due p hp
    have hne : p.orderId ≠ orderId := by
      rintro rfl
      rw [World.credit] at hnew
      exact absurd (hdue.initialized.symm.trans hnew) (by simp)
    change p.Due (Function.update w.orders orderId _ p.orderId)
    rw [Function.update_of_ne hne]
    exact hdue

theorem safe_of_settles {k : Settlement} {orderId : Bytes32} {w w' : World} {payee : Address}
    {amount : Uint256} (h : Settles k orderId w w' payee amount) (hfunds : amount.toNat ≤ w'.balance)
    (hw : Safe w) : Safe (w'.pay ⟨k, orderId, payee, amount, w'.timestamp⟩) := by
  obtain ⟨hinit, hopen, rfl, hpaid, hdue⟩ := h
  -- no payout is for an order that is not settled
  have hfirst : ∀ p ∈ w.payouts, p.orderId ≠ orderId := by
    rintro p hp rfl
    exact absurd ((hw.due p hp).settled.symm.trans hopen) (by simp)
  refine ⟨fun ids => ?_, ?_, fun p hp => ?_⟩
  · have hsum := owed_store w orderId (k.mark (w.orders orderId)) ids
    have hmarked : (k.mark (w.orders orderId)).owed = 0 := by simp [Order.owed]
    have howed : (w.orders orderId).owed = amount.toNat := by simp [Order.owed, hinit, hopen, hpaid]
    have hold := hw.solvent (insert orderId ids)
    rw [← owed_erase_add_le, howed] at hold
    rw [hmarked, ite_self, Nat.add_zero] at hsum
    change World.owed (World.store _ _ _) ids ≤ w.balance - amount.toNat
    omega
  · rw [World.pay, List.map_append, List.nodup_append]
    refine ⟨hw.once, List.nodup_singleton _, fun id hid id' hid' => ?_⟩
    obtain ⟨p, hp, rfl⟩ := List.mem_map.mp hid
    obtain rfl := List.mem_singleton.mp hid'
    exact hfirst p hp
  · rcases List.mem_append.mp hp with hp | hp
    · change p.Due (Function.update w.orders orderId _ p.orderId)
      rw [Function.update_of_ne (hfirst p hp)]
      exact hw.due p hp
    · obtain rfl := List.mem_singleton.mp hp
      change Payout.Due _ (Function.update w.orders orderId _ orderId)
      rw [Function.update_self]
      exact hdue

/-- What is safe stays so with more money, at another time. -/
theorem Safe.of_more {w w' : World} (hw : Safe w) (horders : w'.orders = w.orders)
    (hpayouts : w'.payouts = w.payouts) (hbalance : w.balance ≤ w'.balance) : Safe w' where
  solvent ids := by
    rw [World.owed, horders]
    exact (hw.solvent ids).trans hbalance
  once := hpayouts ▸ hw.once
  due p hp := by
    rw [horders]
    exact hw.due p (hpayouts ▸ hp)

/-- **Every change keeps the contract safe.** -/
theorem Safe.preserved : changes.Preserves Safe where
  act h hw := by
    cases h with
    | refused => exact hw
    | block w timestamp => exact hw.of_more rfl rfl le_rfl
    | create h => exact safe_of_create h hw
    | force w value => exact hw.of_more rfl rfl (Nat.le_add_right _ _)
  enter h hw := by
    cases h with
    | account => exact hw
    | payment h hfunds => exact safe_of_settles (Settlement.start_ok h) hfunds hw
  leave h hw := by
    cases h with
    | account => exact hw
    | payment p w => exact hw.of_more (by simp) (by simp) (by simp)

theorem safe_initial (balance : Nat) (timestamp : Uint256) : Safe (initial balance timestamp).world where
  solvent ids := by
    have hzero : (initial balance timestamp).world.owed ids = 0 :=
      Finset.sum_eq_zero fun id _ => rfl
    omega
  once := List.nodup_nil
  due p hp := absurd hp List.not_mem_nil

/-! ## What stays -/

/-- A later world: an order that was created is there with its terms, and settled if it was, and what
was paid is still paid. -/
structure Extends (w w' : World) : Prop where
  created : ∀ id, (w.orders id).initialized = true → (w'.orders id).initialized = true
  terms : ∀ id, (w.orders id).initialized = true → (w'.orders id).terms = (w.orders id).terms
  settled : ∀ id, (w.orders id).initialized = true → (w.orders id).settled = true →
    (w'.orders id).settled = true
  payouts : w.payouts <+: w'.payouts

theorem Extends.of_orders {w w' : World} (horders : w'.orders = w.orders)
    (hpayouts : w'.payouts = w.payouts) : Extends w w' where
  created id h := horders ▸ h
  terms id _ := by rw [horders]
  settled id _ h := horders ▸ h
  payouts := hpayouts ▸ List.prefix_refl _

theorem Extends.trans {w w' w'' : World} (h : Extends w w') (h' : Extends w' w'') : Extends w w'' where
  created id hinit := h'.created id (h.created id hinit)
  terms id hinit := (h'.terms id (h.created id hinit)).trans (h.terms id hinit)
  settled id hinit hs := h'.settled id (h.created id hinit) (h.settled id hinit hs)
  payouts := h.payouts.trans h'.payouts

theorem extends_of_create {msg : Msg} {orderId : Bytes32} {seller : Address} {lockDuration : Uint256}
    {w w' : World} (h : create msg orderId seller lockDuration (w.credit msg.value.toNat) = .ok w') :
    Extends w w' := by
  obtain ⟨hnew, rfl⟩ := create_ok h
  change (w.orders orderId).initialized = false at hnew
  have hother : ∀ id, (w.orders id).initialized = true →
      Function.update w.orders orderId (newOrder msg seller lockDuration w.timestamp) id =
        w.orders id := by
    intro id hinit
    refine Function.update_of_ne ?_ _ _
    rintro rfl
    exact absurd (hinit.symm.trans hnew) (by simp)
  refine ⟨fun id hinit => ?_, fun id hinit => ?_, fun id hinit hs => ?_, List.prefix_refl _⟩
  · exact (congrArg Order.initialized (hother id hinit)).trans hinit
  · exact congrArg Order.terms (hother id hinit)
  · exact (congrArg Order.settled (hother id hinit)).trans hs

theorem extends_of_settles {k : Settlement} {orderId : Bytes32} {w w' : World} {payee : Address}
    {amount : Uint256} (h : Settles k orderId w w' payee amount) (p : Payout) :
    Extends w (w'.pay p) := by
  obtain ⟨_, _, rfl, _, _⟩ := h
  have hmarked : ∀ id, Function.update w.orders orderId (k.mark (w.orders orderId)) id = w.orders id ∨
      Function.update w.orders orderId (k.mark (w.orders orderId)) id = k.mark (w.orders id) := by
    intro id
    by_cases hid : id = orderId
    · subst hid
      exact .inr (Function.update_self ..)
    · exact .inl (Function.update_of_ne hid _ _)
  refine ⟨fun id hinit => ?_, fun id _ => ?_, fun id _ hs => ?_, List.prefix_append _ _⟩
  · rcases hmarked id with hid | hid
    · exact (congrArg Order.initialized hid).trans hinit
    · exact (congrArg Order.initialized hid).trans ((k.mark_initialized _).trans hinit)
  · rcases hmarked id with hid | hid
    · exact congrArg Order.terms hid
    · exact (congrArg Order.terms hid).trans (k.mark_terms _)
  · rcases hmarked id with hid | hid
    · exact (congrArg Order.settled hid).trans hs
    · exact (congrArg Order.settled hid).trans (k.mark_settled _)

/-- **Every change extends the world.** -/
theorem Extends.respected : changes.Respects Extends where
  refl _ := .of_orders rfl rfl
  trans := Extends.trans
  act h := by
    cases h with
    | refused => exact .of_orders rfl rfl
    | block => exact .of_orders rfl rfl
    | create h => exact extends_of_create h
    | force => exact .of_orders rfl rfl
  enter h := by
    cases h with
    | account => exact .of_orders rfl rfl
    | payment h _ => exact extends_of_settles (Settlement.start_ok h) _
  leave h := by
    cases h with
    | account => exact .of_orders rfl rfl
    | payment => exact .of_orders (by simp) (by simp)

/-! ## Runs -/

/-- **The contract is solvent and settles once**, whoever calls it and however often payees call it
again: the balance covers what is owed for any set of orders; no order is paid twice; each payout is
due; and while the frames that are open go on, orders keep their terms and payouts stay. -/
theorem solvent_and_settled_once (self : Address) (balance : Nat) (timestamp : Uint256)
    {ls : List Label} {s : State} (h : run self ls (initial balance timestamp) = some s) :
    (∀ ids : Finset Bytes32, ∑ id ∈ ids, (s.world.orders id).owed ≤ s.world.balance) ∧
      (s.world.payouts.map Payout.orderId).Nodup ∧
      (∀ p ∈ s.world.payouts, p.Due (s.world.orders p.orderId)) ∧
      ∀ ls' s', runInside self s.frames.length ls' s = some s' → Extends s.world s'.world := by
  have hsafe := (holds_of_moves Safe.preserved (inside_of_run h)
    ⟨safe_initial balance timestamp, fun _ hf => absurd hf List.not_mem_nil⟩).1
  exact ⟨hsafe.solvent, hsafe.once, hsafe.due, fun ls' s' h' =>
    rel_of_inside Extends.respected (inside_of_run h')⟩

namespace EscrowSample

def contract : Address := 0xc0

def buyer : Address := 0xb0

def seller : Address := 0x5e

/-- The buyer creates an order and releases it; the seller, being paid, creates an order of its own in
a frame that reverts, has the buyer try to release once more, and accepts. -/
def labels : List Label :=
  [.block 100, .call ⟨buyer, 5⟩ (.create 7 seller 10), .call ⟨buyer, 0⟩ (.settle .release 7), .enter,
    .call ⟨seller, 3⟩ (.create 8 buyer 10), .revert, .call ⟨buyer, 0⟩ (.settle .release 7), .finish]

/-- What the contract has paid, and what is left. -/
def outcome : Option (List Payout × Nat) :=
  (run contract labels (initial 0 0)).map fun s => (s.world.payouts, s.world.balance)

theorem outcome_eq : outcome = some ([⟨.release, 7, seller, 5, 100⟩], 0) := by decide +kernel

end EscrowSample

open EscrowSample in
/-- A settlement with a payee that calls again. -/
theorem solvent_and_settled_once_sample : ∃ s, run contract labels (initial 0 0) = some s ∧
    s.world.payouts = [⟨.release, 7, seller, 5, 100⟩] ∧
    (∀ ids : Finset Bytes32, ∑ id ∈ ids, (s.world.orders id).owed ≤ s.world.balance) ∧
    ∀ p ∈ s.world.payouts, p.Due (s.world.orders p.orderId) := by
  obtain ⟨s, hs, houtcome⟩ := Option.map_eq_some_iff.mp outcome_eq
  obtain ⟨hsolvent, _, hdue, _⟩ := solvent_and_settled_once contract 0 0 hs
  exact ⟨s, hs, (Prod.mk.inj houtcome).1, hsolvent, hdue⟩

end TorMarketplace.EscrowLock
