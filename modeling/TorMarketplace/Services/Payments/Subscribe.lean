import TorMarketplace.Lib.Broadcast
import TorMarketplace.Lib.Serde

/-!
# Payment notifications

`services/payments/subscribe.rs`: a WebSocket waits for the id of its order on the broadcast channel of
the process, and is closed after it, or at the first frame of the client.
-/

namespace TorMarketplace

open Broadcast Encoding Json Serde

/-- The capacity of `payment_tx`. -/
def paymentChannelCapacity : Nat := 256

/-- The text of a notification. -/
def fundedPayload (orderId : String) : Bytes :=
  print (object [("order_id", ofString orderId), ("type", ofString "funded")])

structure Subscription where
  orderId : String
  rx : Receiver String
  /-- The loop of `handle_socket` has not ended. -/
  live : Bool
  /-- The frames that were sent. -/
  frames : List Bytes

/-- `ws_handler`, at a time when `log` was sent. -/
def wsHandler (orderId : String) (log : List String) : Except String Subscription :=
  if (hexDecode orderId).isNone then .error "invalid order_id"
  else .ok ⟨orderId, .subscribe log, true, []⟩

/-- What can happen around a socket. -/
inductive SocketEvent where
  /-- `payment_tx.send`, in some task of the process. -/
  | publish (id : String)
  /-- The last sender is dropped. -/
  | shutdown
  /-- `select!` takes `rx.recv()`; a frame that is sent then is delivered, or the send fails. -/
  | receive (delivered : Bool)
  /-- `select!` takes `socket.recv()`. -/
  | clientFrame
  deriving DecidableEq

/-- One turn of `handle_socket`, and what happens beside it. -/
def Subscription.step (s : Subscription) : SocketEvent → Subscription
  | .publish id => { s with rx := s.rx.send id }
  | .shutdown => { s with rx := s.rx.close }
  | .receive delivered =>
    if s.live then
      match s.rx.recv paymentChannelCapacity with
      | (.message id, rx) =>
        if id = s.orderId then
          { s with
            rx := rx
            live := false
            frames := if delivered then s.frames ++ [fundedPayload s.orderId] else s.frames }
        else { s with rx := rx }
      | (.lagged _, rx) => { s with rx := rx }
      | (.empty, _) => s
      | (.closed, _) => { s with live := false }
    else s
  | .clientFrame => { s with live := false }

def Subscription.run (s : Subscription) (events : List SocketEvent) : Subscription :=
  events.foldl Subscription.step s

end TorMarketplace
