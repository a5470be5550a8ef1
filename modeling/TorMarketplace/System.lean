import TorMarketplace.Background.DummyWorker
import TorMarketplace.Background.NotificationScanner
import TorMarketplace.Background.TimeLock
import TorMarketplace.Services.Admin
import TorMarketplace.Services.Auth
import TorMarketplace.Services.Chat

/-!
# The whole system

The router (`gateway/mod.rs` and the `routes()` of the services), the jobs of the two processes
(`main.rs`, `bin/worker.rs`, `worker/mod.rs`), and the runs of a deployment: any number of requests
and worker passes, in any interleaving of their calls, from any orders table.
-/

namespace TorMarketplace

open Encoding Interleave Prog

/-! ## Requests -/

inductive Method where
  | get
  | post
  deriving DecidableEq

/-- A handler with the parameters its path gives it. -/
inductive Route where
  | createOrder
  | getOrder (id : String)
  | updateOrder (id : String)
  | openDispute
  | getDispute (id : String)
  | updateDispute (id : String)
  | resolveDispute (id : String)
  | getChat (orderId : String)
  | updateChat (orderId : String)
  | blindSign
  | adminPubkey
  | rotateKek
  | challenge
  | verify
  deriving DecidableEq

/-- `percent_decode`: a `%` that is not followed by two digits stands for itself. -/
def percentDecode : Bytes → Bytes
  | 37 :: a :: b :: l =>
    match hexDigit a, hexDigit b with
    | some hi, some lo => (hi * 16 + lo) :: percentDecode l
    | _, _ => 37 :: percentDecode (a :: b :: l)
  | b :: l => b :: percentDecode l
  | [] => []

/-- The value of a `:id` segment: not empty, and UTF-8 once decoded. -/
def pathParam (segment : String) : Option String :=
  if segment = "" then none else ofUtf8 (percentDecode (utf8 segment))

def pathSegments (path : String) : List String :=
  (splitOn (· = '/') path.toList).map String.ofList

/-- The router. -/
def route (method : Method) (path : String) : Option Route :=
  match method, pathSegments path with
  | .post, ["", "orders"] => some .createOrder
  | .get, ["", "orders", id] => (pathParam id).map .getOrder
  | .post, ["", "orders", id, "update"] => (pathParam id).map .updateOrder
  | .post, ["", "disputes"] => some .openDispute
  | .get, ["", "disputes", id] => (pathParam id).map .getDispute
  | .post, ["", "disputes", id, "update"] => (pathParam id).map .updateDispute
  | .post, ["", "disputes", id, "resolve"] => (pathParam id).map .resolveDispute
  | .get, ["", "chat", id] => (pathParam id).map .getChat
  | .post, ["", "chat", id] => (pathParam id).map .updateChat
  | .post, ["", "admin", "blind-sign"] => some .blindSign
  | .get, ["", "admin", "pubkey"] => some .adminPubkey
  | .post, ["", "admin", "rotate-kek"] => some .rotateKek
  | .post, ["", "auth", "challenge"] => some .challenge
  | .post, ["", "auth", "verify"] => some .verify
  | _, _ => none

/-- What the `Json` extractor makes of a request's body. -/
inductive Body where
  | empty
  | createOrder (req : CreateOrderRequest)
  | updateOrder (req : UpdateOrderRequest)
  | openDispute (req : OpenDisputeRequest)
  | updateDispute (req : UpdateDisputeRequest)
  | resolveDispute (req : ResolveDisputeRequest)
  | sendMessage (req : SendMessageRequest)
  | blindSign (req : BlindSignRequest)
  | rotateKek (req : RotateKekRequest)
  | challenge (req : ChallengeRequest)
  | verify (req : VerifyRequest)
  deriving DecidableEq

structure Request where
  method : Method
  path : String
  headers : AuthHeaders
  body : Body
  deriving DecidableEq

inductive Response where
  | order (resp : OrderResponse)
  | dispute (resp : DisputeResponse)
  | chat (resp : ChatResponse)
  | blindSign (resp : BlindSignResponse)
  | adminPubkey (resp : AdminPubkeyResponse)
  | rotateKek (resp : RotateKekResponse)
  | challenge (resp : ChallengeResponse)
  | verify (resp : VerifyResponse)
  /-- A pass of the worker has ended. -/
  | done
  deriving DecidableEq

/-- The handler of a route. Those of orders, disputes and chat need the extensions that the auth
middleware inserts; a body that is not the handler's is rejected. -/
def handle (st : AppState) (auth : Option Authed) : Route → Body → Program Response
  | .createOrder, .createOrder req => do
    let _ ← orFail auth .rejected
    let resp ← createOrder st req
    pure (.order resp)
  | .getOrder id, _ => do
    let _ ← orFail auth .rejected
    let resp ← getOrder id
    pure (.order resp)
  | .updateOrder id, .updateOrder req => do
    let auth ← orFail auth .rejected
    let resp ← updateOrder st auth id req
    pure (.order resp)
  | .openDispute, .openDispute req => do
    let _ ← orFail auth .rejected
    let resp ← openDispute req
    pure (.dispute resp)
  | .getDispute id, _ => do
    let _ ← orFail auth .rejected
    let resp ← getDispute id
    pure (.dispute resp)
  | .updateDispute id, .updateDispute req => do
    let _ ← orFail auth .rejected
    let resp ← updateDispute id req
    pure (.dispute resp)
  | .resolveDispute id, .resolveDispute req => do
    let resp ← resolveDispute st id req
    pure (.dispute resp)
  | .getChat orderId, _ => do
    let _ ← orFail auth .rejected
    let resp ← getChat orderId
    pure (.chat resp)
  | .updateChat orderId, .sendMessage req => do
    let _ ← orFail auth .rejected
    let resp ← updateChat orderId req
    pure (.chat resp)
  | .blindSign, .blindSign req => do
    let resp ← blindSign st req
    pure (.blindSign resp)
  | .adminPubkey, _ => do
    let resp ← getAdminPubkey st
    pure (.adminPubkey resp)
  | .rotateKek, .rotateKek req => do
    let resp ← rotateKek st req
    pure (.rotateKek resp)
  | .challenge, .challenge req => do
    let resp ← challenge req
    pure (.challenge resp)
  | .verify, .verify req => do
    let resp ← verify st req
    pure (.verify resp)
  | _, _ => fail .rejected

/-- A request through the layers: authentication, the layers that are not modelled, the router. -/
def handleRequest (st : AppState) (r : Request) : Program Response := do
  let auth ← statelessAuthMiddleware st r.path r.headers
  let admitted ← ask .layersAdmit
  ensure admitted .rejected
  let target ← orFail (route r.method r.path) .rejected
  handle st auth target r.body

/-! ## Jobs -/

inductive Job where
  | request (r : Request)
  | checkPendingPayments
  | checkTimeLocks
  | scanNotifications
  | runDummyWorker
  | restartApi
  | restartWorker
  deriving DecidableEq

/-- The passes of the worker process. -/
def Job.isWorker : Job → Bool
  | .checkPendingPayments => true
  | .checkTimeLocks => true
  | .scanNotifications => true
  | .runDummyWorker => true
  | _ => false

/-- What is fixed when the two processes are deployed. -/
structure Deployment where
  prim : Primitives
  serverSecret : String
  defaultLockDays : UInt64
  network : String
  feeAddressBtc : Option String
  adminKeypair : Option AdminKeypair
  workerKey : Bytes

namespace Deployment

/-- The `AppState` of the API process, which has no worker key. -/
def api (D : Deployment) : AppState where
  prim := D.prim
  serverSecret := D.serverSecret
  defaultLockDays := D.defaultLockDays
  network := D.network
  feeAddressBtc := D.feeAddressBtc
  adminKeypair := D.adminKeypair
  workerKey := none

/-- The `AppState` of the worker process, which has no admin key. -/
def worker (D : Deployment) : AppState where
  prim := D.prim
  serverSecret := D.serverSecret
  defaultLockDays := D.defaultLockDays
  network := D.network
  feeAddressBtc := D.feeAddressBtc
  adminKeypair := none
  workerKey := some D.workerKey

/-- A pass of the worker: its result is not looked at. -/
def pass (x : Program Unit) : Program Response := do
  x
  pure .done

/-- The program of a job. -/
def program (D : Deployment) : Job → Program Response
  | .request r => handleRequest D.api r
  | .checkPendingPayments => pass (checkPendingPayments D.worker)
  | .checkTimeLocks => pass (checkTimeLocks D.worker)
  | .scanNotifications => pass (scanNotifications D.worker)
  | .runDummyWorker => pass (runDummyWorker D.worker)
  | .restartApi => pass (exec .restartApi)
  | .restartWorker => pass (exec .restartWorker)

end Deployment

abbrev System := Config Server Shared Job Failure Response

/-- A process of the system. -/
abbrev Process := Proc Server Job Failure Response

/-- A call that took effect. -/
abbrev Effect := Event Server Shared Job

/-- The configurations of the runs of `D` from the tables `orders`, in which every job is one that
`allow` admits when it starts. -/
def Deployment.Reaches (D : Deployment) (allow : System → Job → Prop) (orders : OrdersTable)
    (g : System) : Prop :=
  Reachable server D.program allow (Shared.initial orders) g

/-- Any job may start at any time. -/
def anyJob : System → Job → Prop := fun _ _ => True

end TorMarketplace
