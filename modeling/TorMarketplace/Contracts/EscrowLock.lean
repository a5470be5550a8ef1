import Mathlib.Algebra.Group.Nat.Defs
import Mathlib.Logic.Function.Basic
import TorMarketplace.Lib.Rollback

/-!
# The escrow contract

`contracts/EscrowLock.sol`, and the machine that runs it. A `transfer` hands control to the payee, who
may call the contract again and at last accepts the money or reverts; so each of the three functions
that pay is split at its transfer. Every call that fails leaves the world as it was, and so does every
frame of somebody else's code that reverts. The machine bounds neither gas nor the depth of calls.
-/

namespace TorMarketplace.EscrowLock

abbrev Address := BitVec 160

abbrev Bytes32 := BitVec 256

abbrev Uint256 := BitVec 256

/-- Why a call reverts. -/
inductive Revert where
  | require (message : String)
  /-- `Panic(0x11)`. -/
  | overflow
  deriving DecidableEq

def require (condition : Bool) (message : String) : Except Revert Unit :=
  if condition then .ok () else .error (.require message)

/-- `a + b`. -/
def checkedAdd (a b : Uint256) : Except Revert Uint256 :=
  if a.toNat + b.toNat < 2 ^ 256 then .ok (a + b) else .error .overflow

/-! ## The contract's state -/

/-- `Order`; what a mapping has never been given is zero. -/
structure Order where
  seller : Address := 0
  buyer : Address := 0
  releaseTime : Uint256 := 0
  refundTime : Uint256 := 0
  amount : Uint256 := 0
  initialized : Bool := false
  released : Bool := false
  refunded : Bool := false
  deriving DecidableEq

inductive Event where
  | orderCreated (orderId : Bytes32) (seller buyer : Address) (amount releaseTime : Uint256)
  | orderReleased (orderId : Bytes32) (seller : Address) (amount : Uint256)
  | orderRefunded (orderId : Bytes32) (buyer : Address) (amount : Uint256)
  deriving DecidableEq

/-- The functions that pay. -/
inductive Settlement where
  | release
  | refund
  | claimUnclaimed
  deriving DecidableEq

/-- A transfer of the contract's. -/
structure Payout where
  settlement : Settlement
  orderId : Bytes32
  payee : Address
  amount : Uint256
  time : Uint256
  deriving DecidableEq

structure World where
  orders : Bytes32 → Order
  /-- The contract's balance, in wei. -/
  balance : Nat
  /-- `block.timestamp`. -/
  timestamp : Uint256
  events : List Event
  /-- What the contract has paid: a record of the machine's, which no code reads. -/
  payouts : List Payout

/-- The caller and the value of a call. -/
structure Msg where
  sender : Address
  value : Uint256
  deriving DecidableEq

def World.emit (w : World) (e : Event) : World := { w with events := w.events ++ [e] }

def World.store (w : World) (orderId : Bytes32) (o : Order) : World :=
  { w with orders := Function.update w.orders orderId o }

/-! ## The functions -/

def create (msg : Msg) (orderId : Bytes32) (seller : Address) (lockDuration : Uint256) (w : World) :
    Except Revert World := do
  require (!(w.orders orderId).initialized) "Order already exists"
  require (0 < msg.value) "Must send funds"
  require (0 < lockDuration) "Lock duration must be positive"
  let releaseTime ← checkedAdd w.timestamp lockDuration
  let refundTime ← checkedAdd releaseTime lockDuration
  let w := w.store orderId
    { seller, buyer := msg.sender, releaseTime, refundTime, amount := msg.value, initialized := true,
      released := false, refunded := false }
  pure (w.emit (.orderCreated orderId seller msg.sender msg.value releaseTime))

/-- A settlement up to its transfer: the checks that are its own, the mark that it sets, and whom it
pays. -/
def settle (checks : Order → Except Revert Unit) (mark : Order → Order) (payee : Order → Address)
    (orderId : Bytes32) (w : World) : Except Revert (World × Address × Uint256) := do
  let o := w.orders orderId
  require o.initialized "Order does not exist"
  require (!o.released && !o.refunded) "Already settled"
  checks o
  let w := w.store orderId (mark o)
  let o := w.orders orderId
  pure (w, payee o, o.amount)

def release (msg : Msg) (orderId : Bytes32) (w : World) : Except Revert (World × Address × Uint256) :=
  settle (fun o => require (msg.sender = o.buyer) "Only buyer can release")
    (fun o => { o with released := true }) Order.seller orderId w

def refund (msg : Msg) (orderId : Bytes32) (w : World) : Except Revert (World × Address × Uint256) :=
  settle
    (fun o => do
      require (msg.sender = o.buyer) "Only buyer can refund"
      require (w.timestamp ≥ o.refundTime) "Refund window not yet open")
    (fun o => { o with refunded := true }) Order.buyer orderId w

def claimUnclaimed (msg : Msg) (orderId : Bytes32) (w : World) :
    Except Revert (World × Address × Uint256) :=
  settle
    (fun o => do
      require (msg.sender = o.seller) "Only seller can claim"
      require (w.timestamp ≥ o.releaseTime) "Release window not yet open"
      require (w.timestamp < o.refundTime) "Refund window already open, buyer may refund")
    (fun o => { o with released := true }) Order.seller orderId w

namespace Settlement

/-- The function, up to its transfer. -/
def start : Settlement → Msg → Bytes32 → World → Except Revert (World × Address × Uint256)
  | .release => EscrowLock.release
  | .refund => EscrowLock.refund
  | .claimUnclaimed => EscrowLock.claimUnclaimed

/-- The function after its transfer: the event of the order as it is then. -/
def finish (k : Settlement) (orderId : Bytes32) (w : World) : World :=
  let o := w.orders orderId
  match k with
  | .release => w.emit (.orderReleased orderId o.seller o.amount)
  | .refund => w.emit (.orderRefunded orderId o.buyer o.amount)
  | .claimUnclaimed => w.emit (.orderReleased orderId o.seller o.amount)

end Settlement

/-- `getOrder`. -/
def getOrder (orderId : Bytes32) (w : World) :
    Address × Address × Uint256 × Uint256 × Uint256 × Bool :=
  let o := w.orders orderId
  (o.seller, o.buyer, o.releaseTime, o.refundTime, o.amount, o.released || o.refunded)

/-! ## The machine -/

inductive Call where
  | create (orderId : Bytes32) (seller : Address) (lockDuration : Uint256)
  | settle (k : Settlement) (orderId : Bytes32)
  deriving DecidableEq

inductive Frame where
  /-- Code of another account. -/
  | account
  /-- A transfer of the contract's, and the payee's code. -/
  | payment (p : Payout)
  deriving DecidableEq

abbrev State := Rollback.State World Frame

/-- The value that comes with a call. -/
def World.credit (w : World) (value : Nat) : World := { w with balance := w.balance + value }

/-- The value that a transfer takes along. -/
def World.pay (w : World) (p : Payout) : World :=
  { w with balance := w.balance - p.amount.toNat, payouts := w.payouts ++ [p] }

inductive Label where
  /-- The next block, between transactions. -/
  | block (timestamp : Uint256)
  /-- A transaction or a call begins that runs another account's code. -/
  | enter
  | call (msg : Msg) (c : Call)
  /-- The innermost frame ends well. -/
  | finish
  /-- The innermost frame reverts. -/
  | revert
  /-- Ether that comes without a call, from a block's reward or a destroyed contract. -/
  | force (value : Nat)
  deriving DecidableEq

/-- A call of the contract, by anybody but itself. -/
def exec (msg : Msg) (c : Call) (s : State) : State :=
  match c with
  | .create orderId seller lockDuration =>
    match create msg orderId seller lockDuration (s.world.credit msg.value.toNat) with
    | .ok w => { s with world := w }
    | .error _ => s
  | .settle k orderId =>
    -- the functions that pay are not payable
    if msg.value ≠ 0 then s
    else match k.start msg orderId s.world with
      | .error _ => s
      | .ok (w, payee, amount) =>
        let p : Payout := ⟨k, orderId, payee, amount, w.timestamp⟩
        -- a transfer of more than the balance fails, and the call with it
        if amount.toNat ≤ w.balance then ⟨w.pay p, (.payment p, s.world) :: s.frames⟩ else s

/-- One step of the machine, for the contract at the address `self`. The contract calls nobody but its
payees, without data, so that it is never the sender; having no `receive`, it is no payee either. -/
def step (self : Address) (l : Label) (s : State) : Option State :=
  match l with
  | .block timestamp =>
    if s.frames.isEmpty && s.world.timestamp ≤ timestamp then
      some { s with world := { s.world with timestamp } }
    else none
  | .enter => some ⟨s.world, (.account, s.world) :: s.frames⟩
  | .call msg c => if msg.sender = self then none else some (exec msg c s)
  | .finish =>
    match s.frames with
    | [] => none
    | (.account, _) :: fs => some ⟨s.world, fs⟩
    | (.payment p, _) :: fs =>
      if p.payee = self then none else some ⟨p.settlement.finish p.orderId s.world, fs⟩
  | .revert =>
    match s.frames with
    | [] => none
    | (_, w) :: fs => some ⟨w, fs⟩
  | .force value => some { s with world := s.world.credit value }

/-- A run in whose states at least `depth` frames are open. -/
def runInside (self : Address) (depth : Nat) : List Label → State → Option State
  | [], s => some s
  | l :: ls, s => do
    let s ← step self l s
    if depth ≤ s.frames.length then runInside self depth ls s else none

/-- A run. -/
def run (self : Address) (ls : List Label) (s : State) : Option State := runInside self 0 ls s

/-- The contract as it is deployed, with what its address has been sent before. -/
def initial (balance : Nat) (timestamp : Uint256) : State where
  world :=
    { orders := fun _ => {}
      balance
      timestamp
      events := []
      payouts := [] }
  frames := []

end TorMarketplace.EscrowLock
