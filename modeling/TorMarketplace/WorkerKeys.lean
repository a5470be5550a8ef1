import TorMarketplace.Crypto.WorkerPubkey
import TorMarketplace.Frontend.Client
import TorMarketplace.Frontend.Wasm
import TorMarketplace.Lib.Run

/-!
# The payment key, from the start of a worker to the orders

A worker takes its key from the configuration, where it is sealed under the KEK, or draws one when it is told to
(`load_kek`, `init_worker_key` and `main` of `bin/worker.rs`); then it also leaves the payment key in a file. The
API hands that key out (`worker_pubkey` of `services/public.rs`), and a page of the client keeps it until the
logout (`getWorkerPubkey` of `frontend/api.js`) and encrypts the orders to it that it posts.

`machine` has the file and the caches of the pages. A write to the file may stop anywhere, and so may a process.
-/

namespace TorMarketplace.WorkerKeys

open Encoding Interleave Js Prog

/-- The configuration, and the environment of the API. -/
structure KeyConfig where
  prim : Primitives
  /-- `security.worker_key_hex`. -/
  workerKeyHex : Option String
  /-- `security.worker_payment_pubkey_hex`. -/
  workerPaymentPubkeyHex : Option String
  /-- `WORKER_PAYMENT_PUBKEY_HEX`. -/
  envPubkeyHex : Option String

/-- The environment of a worker. -/
structure WorkerEnv where
  /-- `KEK_HEX`. -/
  kekHex : Option String
  /-- `EPHEMERAL_WORKER_KEY` is 1. -/
  ephemeralWorkerKey : Bool
  deriving DecidableEq

/-- `load_kek`. -/
def loadKek (kekHex : Option String) : Except String KeyEncryptionKey :=
  match kekHex with
  | some kekHex =>
    match hexDecode kekHex with
    | some keyBytes =>
      if h : keyBytes.length = 32 then .ok ⟨⟨keyBytes, h⟩⟩
      else .error "KEK_HEX must be exactly 32 bytes (64 hex chars)"
    | none => .error "Invalid KEK_HEX env"
  | none => .error "No KEK configured. Set KEK_HEX env var to decrypt worker_key_hex from config."

/-- `init_worker_key`, with the seed it may draw as an argument. -/
def initWorkerKey (C : KeyConfig) (kek : KeyEncryptionKey) (ephemeral : Bool) (draw : ByteArr 32) :
    Except String (ByteArr 32) :=
  match C.workerKeyHex with
  | some hexStr =>
    match decryptMasterSeed C.prim hexStr kek with
    | .ok key => .ok key
    | .error e => .error ("Failed to decrypt worker_key_hex: " ++ e.text)
  | none =>
    if ephemeral then .ok draw
    else .error ("worker_key_hex not set in config. Either set it (recommended) or run with " ++
      "EPHEMERAL_WORKER_KEY=1 for development.")

/-- The key that a worker has after its start. -/
def KeyConfig.workerKey (C : KeyConfig) (env : WorkerEnv) (draw : ByteArr 32) : Except String (ByteArr 32) := do
  let kek ← loadKek env.kekHex
  initWorkerKey C kek env.ephemeralWorkerKey draw

/-- The key that the operator has given to the API. -/
def KeyConfig.given (C : KeyConfig) : Option String :=
  (nonBlank C.envPubkeyHex).or (nonBlank C.workerPaymentPubkeyHex)

/-- `worker_pubkey`, for these contents of the file. -/
def KeyConfig.workerPubkey (C : KeyConfig) (contents : Option String) : Option String :=
  resolveWorkerPaymentPubkey C.envPubkeyHex C.workerPaymentPubkeyHex contents

/-! ## The calls -/

inductive KeyCall where
  /-- `fs::write` opens the file, which empties it. Is it open? -/
  | createFile
  | writeFile (contents : String)
  /-- `read_to_string`. -/
  | readFile
  /-- `workerPubkeyCache` of a page. -/
  | cacheGet (page : Nat)
  | cacheSet (page : Nat) (pubkeyHex : Option String)
  /-- Does the response arrive? -/
  | receive
  | randomBytes (n : Nat)
  /-- The request with this blob, which encrypts the plaintext. -/
  | post (page : Nat) (plaintext blob : Bytes)
  deriving DecidableEq

abbrev KeyCall.Ans : KeyCall → Type
  | .createFile => Bool
  | .writeFile _ => Bool
  | .readFile => Option String
  | .cacheGet _ => Option String
  | .cacheSet .. => Unit
  | .receive => Bool
  | .randomBytes _ => Bytes
  | .post .. => Unit

abbrev Keys : Interface := ⟨KeyCall, KeyCall.Ans⟩

abbrev KeyProgram (α : Type) := Prog Keys String α

abbrev invoke (c : KeyCall) : KeyProgram c.Ans := Prog.call (I := Keys) c

/-- The file, and what the pages keep. -/
structure World where
  file : Option String
  caches : Nat → Option String

/-- The environment's part in one call. -/
structure Outcome where
  fault : Bool := false
  /-- How much of a failing write is in the file. -/
  written : Nat := 0
  bytes : Bytes := []

def machine : Machine Keys World Outcome where
  answer := fun
    | .createFile, e, w => if e.fault then some (false, w) else some (true, { w with file := some "" })
    | .writeFile contents, e, w =>
      if e.fault then some (false, { w with file := some (String.ofList (contents.toList.take e.written)) })
      else some (true, { w with file := some contents })
    | .readFile, e, w => some (if e.fault then none else w.file, w)
    | .cacheGet page, _, w => some (w.caches page, w)
    | .cacheSet page pubkeyHex, _, w =>
      some ((), { w with caches := Function.update w.caches page pubkeyHex })
    | .receive, e, w => some (!e.fault, w)
    | .randomBytes n, e, w => if e.bytes.length = n then some (e.bytes, w) else none
    | .post .., _, w => some ((), w)

/-! ## The programs -/

section

variable (C : KeyConfig)

/-- The start of a worker, as far as its keys go: the file is only written when a key may be drawn, and what
becomes of the write is logged. -/
def startWorker (env : WorkerEnv) (draw : ByteArr 32) : KeyProgram Unit := do
  let workerKey ← ofExcept (C.workerKey env draw)
  let pubkeyHex := paymentPubkeyHexFromWorkerKey C.prim workerKey
  if env.ephemeralWorkerKey then
    let created ← invoke .createFile
    if created then
      let _ ← invoke (.writeFile pubkeyHex)
      pure ()
    else pure ()
  else pure ()

def getWorkerPubkey (page : Nat) : KeyProgram String := do
  let workerPubkeyCache ← invoke (.cacheGet page)
  match workerPubkeyCache.filter (· ≠ "") with
  | some pubkeyHex => pure pubkeyHex
  | none =>
    let contents ← invoke .readFile
    let arrived ← invoke .receive
    ensure arrived "Request failed"
    invoke (.cacheSet page (C.workerPubkey contents))
    orFail ((C.workerPubkey contents).filter (· ≠ "")) "Worker payment pubkey not configured on server"

/-- A text of Rust as JavaScript has it, in UTF-16. -/
def utf16 (s : String) : JsString :=
  s.toList.flatMap fun c =>
    if c.toNat < 0x10000 then [c.toNat.toUInt16]
    else [(0xD800 + (c.toNat - 0x10000) / 0x400).toUInt16, (0xDC00 + (c.toNat - 0x10000) % 0x400).toUInt16]

/-- What `createOrder` and `updateOrder` do with the order data: `encryptWorkerOrder`, and the request. -/
def postOrder (page : Nat) (plaintext : Bytes) : KeyProgram Unit := do
  let workerPk ← getWorkerPubkey C page
  let ephemeralSk ← invoke (.randomBytes 32)
  let nonceBytes ← invoke (.randomBytes 12)
  let blob ← ofExcept (Wasm.encryptOrder C.prim ephemeralSk nonceBytes plaintext (hexToU8 (utf16 workerPk)))
  invoke (.post page plaintext blob)

/-- What is started: a worker, whose seed is the environment's, or a call of a page. -/
inductive KeyJob where
  | startWorker (env : WorkerEnv) (draw : ByteArr 32)
  | postOrder (page : Nat) (plaintext : Bytes)
  | logout (page : Nat)
  deriving DecidableEq

def program : KeyJob → KeyProgram Unit
  | .startWorker env draw => startWorker C env draw
  | .postOrder page plaintext => postOrder C page plaintext
  | .logout page => invoke (.cacheSet page none)

/-- The configurations of the runs from these contents of the file. -/
def KeyConfig.Reaches (allow : KeyJob → Prop) (file : Option String)
    (g : Config Keys World KeyJob String Unit) : Prop :=
  Reachable machine (program C) (fun _ j => allow j) ⟨file, fun _ => none⟩ g

end

end TorMarketplace.WorkerKeys
