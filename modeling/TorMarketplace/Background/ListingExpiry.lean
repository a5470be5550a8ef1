import TorMarketplace.Background.PaymentPoller
import TorMarketplace.Services.Listings

/-!
# The listing-expiry worker, and the system of the listings

`background/listing_expiry.rs`: one pass over a snapshot of the active listings. A row whose blob the
worker cannot open or parse is left alone, a write that comes too late is skipped, and an error of the
database ends the pass.
-/

namespace TorMarketplace.Listings

open Encoding Interleave Prog

/-- What a row's blob holds, if the worker can open it. -/
def decodeListing (P : Primitives) (workerKey : Bytes) (l : Listing) : Option ListingData :=
  (decryptListingBlob P l.encryptedListingBlob workerKey l.id).bind ListingData.fromSlice

/-- `data.expires_at.is_some_and(|exp| now >= exp)`. -/
def ListingData.expired (data : ListingData) (now : Int64) : Bool := data.expiresAt.any (now ≥ ·)

/-- The worker's `UPDATE`. -/
def expiryUpdate (l : Listing) (blob : Bytes) : UpdateListings :=
  { encryptedListingBlob := blob, status := "expired", whereId := l.id, whereVersion := l.version }

/-- The write of an expired listing, with the nonce drawn for its blob. -/
def writeExpired (P : Primitives) (workerKey : Bytes) (l : Listing) (data : ListingData)
    (nonce : Bytes) : Program Unit :=
  match encryptListingBlob P nonce data.toVec workerKey l.id with
  | none => pure ()
  | some blob => do
    let affected ← exec (.updateListings (expiryUpdate l blob))
    let _ ← orFail affected workerDbError
    pure ()

/-- One row of the snapshot. -/
def expireListing (P : Primitives) (workerKey : Bytes) (now : Int64) (l : Listing) : Program Unit :=
  match decodeListing P workerKey l with
  | none => pure ()
  | some data =>
    if ListingData.expired data now then do
      let data := { data with status := "expired", updatedAt := now }
      let nonce ← exec (.randomBytes 12)
      writeExpired P workerKey l data nonce
    else pure ()

def checkListingExpiry (st : AppState) : Program Unit :=
  match st.workerKey with
  | none => pure ()
  | some workerKey => do
    let time ← exec .now
    let now := floorTimestamp6h time
    let listings ← exec .selectActive
    let listings ← orFail listings workerDbError
    forEach (expireListing st.prim workerKey now) listings

/-! ## Jobs -/

/-- A request that the layers have let through, with the key it was authenticated as, or a job of the
processes. -/
inductive Job where
  | createListing (pubkeyHash : Bytes) (req : CreateListingRequest)
  | listListings (query : SearchQuery)
  | getListing (pubkeyHash : Bytes) (id : String)
  | updateListing (pubkeyHash : Bytes) (id : String) (req : UpdateListingRequest)
  | checkListingExpiry
  | restartApi
  deriving DecidableEq

inductive Response where
  | listing (resp : ListingResponse)
  | listings (resp : ListingsResponse)
  /-- A pass of the worker has ended, or a restart. -/
  | done
  deriving DecidableEq

/-- The program of a job, with the state of the worker process. -/
def program (worker : AppState) : Job → Program Response
  | .createListing key req => do
    let resp ← createListing key req
    pure (.listing resp)
  | .listListings query => do
    let resp ← listListings query
    pure (.listings resp)
  | .getListing key id => do
    let resp ← getListing key id
    pure (.listing resp)
  | .updateListing key id req => do
    let resp ← updateListing key id req
    pure (.listing resp)
  | .checkListingExpiry => do
    checkListingExpiry worker
    pure .done
  | .restartApi => do
    exec .restartApi
    pure .done

abbrev System := Config Server Shared Job Failure Response

abbrev Process := Proc Server Job Failure Response

abbrev Effect := Event Server Shared Job

/-- The configurations of the runs from the table `listings`: any requests, passes and restarts, in
any interleaving of their calls. -/
def Reaches (worker : AppState) (listings : ListingsTable) (g : System) : Prop :=
  Reachable server (program worker) (fun _ _ => True) (Shared.initial listings) g

end TorMarketplace.Listings
