import TorMarketplace.Frontend.Client
import TorMarketplace.Lib.Session
import TorMarketplace.System

/-!
# The browser client and the versions of its orders

`createOrder`, `getOrder`, `updateOrder` and `sendMessage` of `frontend/api.js`, with the IndexedDB
store of `frontend/crypto.js` in which the client keeps, for each of its orders, the data and the
version that it signs next. Each of them is a program whose calls are the reads and writes of the
store, the requests and their answers; the server is the whole system, in which any other process
runs between two calls.
-/

namespace TorMarketplace.Api

open Encoding Interleave Js Prog

/-- `saveOrderState`'s record. -/
structure OrderState where
  data : JsObject
  version : Int

/-- The calls of the client. What is encrypted, signed or drawn at random has the result that the
environment gives; `none` is an exception. -/
inductive BrowserCall where
  /-- `Date.now()`, in milliseconds. -/
  | dateNow
  /-- `crypto.getRandomValues`. -/
  | randomBytes (n : Nat)
  /-- `getWorkerPubkey`, from its cache or from the server. -/
  | workerPubkey
  /-- `encryptWorkerOrder`, in base64. -/
  | encryptWorkerOrder (orderData : JsObject) (workerPubkeyHex : String)
  | signTransition (orderIdHex : String) (prevVersion : Int) (blobBytes nonceBytes : Bytes)
      (hourBucket : UInt64)
  /-- `makeAuthHeaders`, or none before the login. -/
  | authHeaders (path : String)
  /-- `fetch`: the request is sent. The answer is the number of the process that it starts. -/
  | send (r : Request)
  /-- `fetch`: the response comes, or an exception. -/
  | receive (ticket : Nat)
  | getOrderState (orderId : String)
  | saveOrderState (orderId : String) (state : OrderState)
  | getChatKey (orderId : String)
  | saveChatKey (orderId keyHex : String)
  /-- The messages so far and the new one, encrypted under the key or under a new one: the blob in
  base64 and the key. -/
  | encryptChat (chatEncryptedBlob keyHex : Option String) (text : String)

abbrev BrowserCall.Ans : BrowserCall → Type
  | .dateNow => Nat
  | .randomBytes _ => Bytes
  | .workerPubkey => Option String
  | .encryptWorkerOrder .. => Option String
  | .signTransition .. => Option String
  | .authHeaders _ => AuthHeaders
  | .send _ => Nat
  | .receive _ => Option Response
  | .getOrderState _ => Option OrderState
  | .saveOrderState .. => Unit
  | .getChatKey _ => Option String
  | .saveChatKey .. => Unit
  | .encryptChat .. => Option (String × String)

abbrev Browser : Interface := ⟨BrowserCall, BrowserCall.Ans⟩

/-- A program of the client; an exception is its text. -/
abbrev Script (α : Type) := Prog Browser String α

abbrev invoke (c : BrowserCall) : Script c.Ans := Prog.call (I := Browser) c

/-! ## Requests -/

/-- `request`. -/
def request (method : Method) (path : String) (body : Body) : Script Response := do
  let headers ← invoke (.authHeaders path)
  let ticket ← invoke (.send ⟨method, path, headers, body⟩)
  let res ← invoke (.receive ticket)
  orFail res "Request failed"

/-- The response of a path that the handlers of orders answer. -/
def orderResponse : Response → Option OrderResponse
  | .order res => some res
  | _ => none

/-- The response of a path that the handlers of chat answer. -/
def chatResponse : Response → Option ChatResponse
  | .chat res => some res
  | _ => none

def requestOrder (method : Method) (path : String) (body : Body) : Script OrderResponse := do
  let res ← request method path body
  orFail (orderResponse res) "Request failed"

def requestChat (method : Method) (path : String) (body : Body) : Script ChatResponse := do
  let res ← request method path body
  orFail (chatResponse res) "Request failed"

def getWorkerPubkey : Script String := do
  let key ← invoke .workerPubkey
  orFail key "Worker payment pubkey not configured on server"

def encryptWorkerOrder (orderData : JsObject) (workerPubkeyHex : String) : Script String := do
  let blobB64 ← invoke (.encryptWorkerOrder orderData workerPubkeyHex)
  orFail blobB64 "encrypt_order"

def base64ToU8 (s : String) : Bytes := (base64Decode s).getD []

/-! ## The functions of the module -/

def createOrder (c : Client) (listingId : JsString) (currency sellerPubkeyHex : Option JsString) :
    Script (OrderResponse × JsObject) := do
  let workerPk ← getWorkerPubkey
  let now ← invoke .dateNow
  let orderData := c.buildInitialOrderData listingId currency sellerPubkeyHex (now / 1000 : Nat)
  let blobB64 ← encryptWorkerOrder orderData workerPk
  let nonceBytes ← invoke (.randomBytes 16)
  let res ← requestOrder .post "/orders" (.createOrder ⟨blobB64, some 7, hexEncode nonceBytes⟩)
  invoke (.saveOrderState res.id ⟨orderData, res.version⟩)
  pure (res, orderData)

/-- `local.data.state === 'pending'`. -/
def isPending (data : JsObject) : Bool :=
  (data.get (ascii "state")).any fun v => match v.val with
    | .str s => s = ascii "pending"
    | _ => false

def getOrder (id : String) : Script (OrderResponse × Option JsObject) := do
  let res ← requestOrder .get ("/orders/" ++ id) .empty
  let saved ← invoke (.getOrderState id)
  match saved with
  | none => pure (res, none)
  | some saved =>
    if res.version > saved.version && isPending saved.data then do
      let now ← invoke .dateNow
      let data := (saved.data.assign (ascii "state") (str (ascii "funded"))).assign
        (ascii "funded_at") (num (now / 1000 : Nat))
      invoke (.saveOrderState id ⟨data, res.version⟩)
      pure (res, some data)
    -- `local.version = res.version`: the object that was read, not the store
    else pure (res, some saved.data)

def updateOrder (orderId : String) (newState : JsString) (extra : JsObject) :
    Script (OrderResponse × JsObject) := do
  let saved ← invoke (.getOrderState orderId)
  let saved ← orFail saved "No local order state — cannot update"
  let now ← invoke .dateNow
  let orderData := LocalStep.apply saved.data (.updateOrder newState extra (now / 1000 : Nat))
  let workerPk ← getWorkerPubkey
  let blobB64 ← encryptWorkerOrder orderData workerPk
  let millis ← invoke .dateNow
  let hour := UInt64.ofNat (millis / 3600000)
  let nonceBytes ← invoke (.randomBytes 16)
  let sig ← invoke (.signTransition orderId saved.version (base64ToU8 blobB64) nonceBytes hour)
  let sig ← orFail sig "sign_transition"
  let res ← requestOrder .post ("/orders/" ++ orderId ++ "/update")
    (.updateOrder ⟨blobB64, sig, hexEncode nonceBytes, hour⟩)
  invoke (.saveOrderState orderId ⟨orderData, res.version⟩)
  pure (res, orderData)

/-- `sendMessage`, with `getMessages`. -/
def sendMessage (orderId text : String) : Script ChatResponse := do
  let res ← requestChat .get ("/chat/" ++ orderId) .empty
  let key ← invoke (.getChatKey orderId)
  let enc ← invoke (.encryptChat res.chatEncryptedBlob key text)
  let (blobB64, keyHex) ← orFail enc "encrypt_listing"
  if key = none then invoke (.saveChatKey orderId keyHex)
  let nonceBytes ← invoke (.randomBytes 16)
  requestChat .post ("/chat/" ++ orderId)
    (.sendMessage ⟨blobB64, String.ofList (List.replicate 128 '0'), hexEncode nonceBytes⟩)

/-- A call of the module. -/
inductive ApiCall where
  | createOrder (c : Client) (listingId : JsString) (currency sellerPubkeyHex : Option JsString)
  | getOrder (id : String)
  | updateOrder (orderId : String) (newState : JsString) (extra : JsObject)
  | sendMessage (orderId text : String)

/-- Its program, without the result. -/
def ApiCall.script : ApiCall → Script Unit
  | .createOrder c listingId currency sellerPubkeyHex => do
    let _ ← Api.createOrder c listingId currency sellerPubkeyHex
    pure ()
  | .getOrder id => do
    let _ ← Api.getOrder id
    pure ()
  | .updateOrder orderId newState extra => do
    let _ ← Api.updateOrder orderId newState extra
    pure ()
  | .sendMessage orderId text => do
    let _ ← Api.sendMessage orderId text
    pure ()

/-! ## The client and the server -/

structure World where
  server : System
  orderStates : String → Option OrderState
  chatKeys : String → Option String

/-- The server on the tables `orders`, and a client that has no orders. -/
def World.initial (orders : OrdersTable) : World where
  server := ⟨Shared.initial orders, [], []⟩
  orderStates := fun _ => none
  chatKeys := fun _ => none

/-- The environment's part in one call. -/
structure Outcome where
  time : Nat := 0
  bytes : Bytes := []
  text : Option String := none
  headers : AuthHeaders := {}
  /-- The response does not arrive. -/
  lost : Bool := false
  chat : Option (String × String) := none

/-- The atomic meaning of the client's calls, beside the server of `D`. -/
def browser (D : Deployment) : Machine Browser World Outcome where
  answer := fun
    | .dateNow, e, w => some (e.time, w)
    | .randomBytes n, e, w => if e.bytes.length = n then some (e.bytes, w) else none
    | .workerPubkey, e, w => some (e.text, w)
    | .encryptWorkerOrder .., e, w => some (e.text, w)
    | .signTransition .., e, w => some (e.text, w)
    | .authHeaders _, e, w => some (e.headers, w)
    | .send r, _, w =>
      some (w.server.procs.length, { w with
        server := { w.server with
          procs := w.server.procs ++ [⟨.request r, [], D.program (.request r)⟩] } })
    | .receive ticket, e, w =>
      if e.lost then some (none, w)
      else match (w.server.procs[ticket]?).bind fun p => p.prog.result with
        | some (.ok res) => some (some res, w)
        | some (.error _) => some (none, w)
        | none => none
    | .getOrderState orderId, _, w => some (w.orderStates orderId, w)
    | .saveOrderState orderId state, _, w =>
      some ((), { w with orderStates := Function.update w.orderStates orderId (some state) })
    | .getChatKey orderId, _, w => some (w.chatKeys orderId, w)
    | .saveChatKey orderId keyHex, _, w =>
      some ((), { w with chatKeys := Function.update w.chatKeys orderId (some keyHex) })
    | .encryptChat .., e, w => some (e.chat, w)

/-- One step of the server, in any of its processes or with a new one. -/
inductive ServerStep (D : Deployment) : System → System → Prop
  | spawn (g : System) (j : Job) :
      ServerStep D g { g with procs := g.procs ++ [⟨j, [], D.program j⟩] }
  | act {g g' : System} (pid : Nat) (e : Choice) (h : g.act server pid e = some g') :
      ServerStep D g g'

/-- What happens beside the client. -/
def Beside (D : Deployment) (w w' : World) : Prop :=
  ∃ g, ServerStep D w.server g ∧ w' = { w with server := g }

/-- A step of the server beside the client, as a function. -/
def serverMove (D : Deployment) (label : Label Job Choice) (w : World) : Option World :=
  (w.server.step server D.program label).map fun g => { w with server := g }

theorem beside_of_serverMove (D : Deployment) (label : Label Job Choice) (w w' : World)
    (h : serverMove D label w = some w') : Beside D w w' := by
  obtain ⟨g, hg, rfl⟩ := Option.map_eq_some_iff.mp h
  refine ⟨g, ?_, rfl⟩
  cases label with
  | spawn j => exact Option.some.inj hg ▸ .spawn w.server j
  | act pid e => exact .act pid e hg

end TorMarketplace.Api
