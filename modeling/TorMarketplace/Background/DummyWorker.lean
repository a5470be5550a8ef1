import TorMarketplace.Background.PaymentPoller

/-!
# The dummy worker

`background/dummy_worker.rs`: now and then the worker inserts an order of random content, encrypted
like any other. The content is the environment's; what is modelled is the write.
-/

namespace TorMarketplace

open Encoding Interleave Prog

def runDummyWorker (st : AppState) : Program Unit := do
  let run ← ask .dummyRoll
  if ¬ run then pure ()
  else do
    let time ← exec .now
    let now := floorTimestamp6h time
    let (orderId, data) ← ask (.dummyOrder now)
    match st.workerKey with
    | none => pure ()
    | some workerKey => do
      let nonce ← ask (.randomBytes 12)
      match encryptOrderBlob st.prim nonce data.toVec workerKey orderId with
      | none => pure ()
      | some encrypted => do
        let done ← exec (.insertOrder ⟨orderId, encrypted, now, data.expiresAt⟩)
        orFail done workerDbError

end TorMarketplace
