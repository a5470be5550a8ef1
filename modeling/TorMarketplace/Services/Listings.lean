import TorMarketplace.Db.Listings
import TorMarketplace.Services.Orders

/-!
# Listings

`services/listings.rs`: opaque blobs and search tokens. Every handler but `list_listings` is given the
key that the auth middleware has authenticated, and none looks at it.

The listings share nothing with the orders but the clock: a table of their own, and two nonce sets.
So they are a system of their own here, with an interface and a machine like those of `Effects.lean`.
-/

namespace TorMarketplace.Listings

open Encoding Interleave Prog

/-! ## Calls -/

inductive Call where
  | now
  /-- `OsRng`, `Uuid::new_v4`. -/
  | randomBytes (n : Nat)
  /-- `check_create_nonce_replay`. -/
  | insertCreateNonce (nonce : String)
  /-- `set.insert(key)` of `check_update_nonce_replay`. -/
  | insertUpdateNonce (key : String)
  | insertListing (i : InsertListing)
  | selectListings (f : ListingFilter) (limit offset : Int64)
  /-- `SELECT … FROM listings WHERE id = ?`. -/
  | selectListing (id : Bytes)
  /-- `SELECT * FROM listings WHERE status = 'active'`. -/
  | selectActive
  | updateListings (u : UpdateListings)
  | restartApi
  deriving DecidableEq

/-- The type of a reply. `Option`: the database may report an error. -/
abbrev Call.Ans : Call → Type
  | .now => Int64
  | .randomBytes _ => Bytes
  | .insertCreateNonce _ => Bool
  | .insertUpdateNonce _ => Bool
  | .insertListing _ => Option Unit
  | .selectListings .. => Option (List Listing)
  | .selectListing _ => Option (Option Listing)
  | .selectActive => Option (List Listing)
  | .updateListings _ => Option Nat
  | .restartApi => Unit

abbrev Server : Interface := ⟨Call, Call.Ans⟩

abbrev Program (α : Type) := Prog Server Failure α

/-- Make one call. -/
abbrev exec (c : Call) : Program c.Ans := Prog.call (I := Server) c

abbrev Past := List (Reply Server)

structure Shared where
  listings : ListingsTable
  createNonces : List String
  updateNonces : List String
  /-- The last reading of the clock. -/
  clock : Int64

/-- Both processes freshly started on the table `listings`. -/
def Shared.initial (listings : ListingsTable) : Shared where
  listings := listings
  createNonces := []
  updateNonces := []
  clock := 0

/-- The environment's part in one call. -/
structure Choice where
  /-- The statement fails. -/
  fault : Bool := false
  /-- The reading of the clock. -/
  time : Int64 := 0
  /-- The bytes drawn. -/
  bytes : Bytes := []

/-- The atomic meaning of the calls. -/
def server : Machine Server Shared Choice where
  answer := fun
    | .now, e, s => if s.clock ≤ e.time then some (e.time, { s with clock := e.time }) else none
    | .randomBytes n, e, s => if e.bytes.length = n then some (e.bytes, s) else none
    | .insertCreateNonce nonce, _, s =>
      if nonce ∈ s.createNonces then some (false, s)
      else some (true, { s with createNonces := nonce :: s.createNonces })
    | .insertUpdateNonce key, _, s =>
      if key ∈ s.updateNonces then some (false, s)
      else some (true, { s with updateNonces := key :: s.updateNonces })
    | .insertListing i, e, s =>
      if e.fault then some (none, s)
      else match s.listings.insert i.row with
        | some t => some (some (), { s with listings := t })
        | none => some (none, s)
    | .selectListings f limit offset, e, s =>
      if e.fault then some (none, s)
      else some ((s.listings.select f limit offset).mapM readListing, s)
    | .selectListing id, e, s =>
      if e.fault then some (none, s)
      else match s.listings.find id with
        | some l => some ((readListing l).map some, s)
        | none => some (some none, s)
    | .selectActive, e, s =>
      if e.fault then some (none, s)
      else some ((s.listings.rows.filter fun l => l.status = "active").mapM readListing, s)
    | .updateListings u, e, s =>
      if e.fault then some (none, s)
      else some (some (s.listings.affected u.toUpdate),
        { s with listings := s.listings.update u.toUpdate })
    | .restartApi, _, s => some ((), { s with createNonces := [], updateNonces := [] })

/-! ## Requests -/

structure CreateListingRequest where
  /-- Hex. -/
  clientEncryptedBlob : String
  /-- Hex. -/
  searchToken : Option String
  status : Option String
  currency : Option String
  nonce : String
  deriving DecidableEq

structure UpdateListingRequest where
  /-- Hex. -/
  clientEncryptedBlob : String
  /-- Hex. -/
  searchToken : Option String
  status : Option String
  currency : Option String
  nonce : String
  deriving DecidableEq

structure SearchQuery where
  /-- Hex. -/
  q : Option String
  currency : Option String
  status : Option String
  limit : Option Int64
  offset : Option Int64
  deriving DecidableEq

structure ListingResponse where
  id : String
  clientEncryptedBlob : String
  searchToken : Option String
  status : String
  currency : String
  dayBucket : Int64
  version : Int
  deriving DecidableEq

structure ListingsResponse where
  listings : List ListingResponse
  total : Nat
  deriving DecidableEq

/-! ## Handlers -/

/-- `MAX_LISTING_BLOB_BYTES`. -/
def maxListingBlobBytes : Nat := 64 * 1024

/-- `MAX_SEARCH_TOKEN_BYTES`. -/
def maxSearchTokenBytes : Nat := 256

/-- `MAX_LABEL_BYTES`. -/
def maxLabelBytes : Nat := 32

def validateLabel (label field : String) : Program String := do
  ensure (label ≠ "") (badRequest (field ++ " is empty"))
  ensure ((utf8 label).length ≤ maxLabelBytes) (badRequest (field ++ " too long"))
  ensure ((utf8 label).all (· < 128)) (badRequest (field ++ " must be ASCII"))
  pure label

/-- A label that may be left out. -/
def validateOptLabel (label : Option String) (field : String) : Program (Option String) :=
  match label with
  | some label => do
    let label ← validateLabel label field
    pure (some label)
  | none => pure none

/-- The blob of a request, decoded and checked. -/
def decodeBlob (clientEncryptedBlob : String) : Program Bytes := do
  let blob ← orFail (hexDecode clientEncryptedBlob) (badRequest "Invalid client_encrypted_blob hex")
  ensure (blob ≠ []) (badRequest "client_encrypted_blob is empty")
  ensure (blob.length ≤ maxListingBlobBytes) (badRequest "client_encrypted_blob too large")
  pure blob

/-- The search token of a request, decoded and checked. -/
def decodeSearchToken (searchToken : Option String) : Program (Option Bytes) :=
  match searchToken with
  | some hex => do
    let bytes ← orFail (hexDecode hex) (badRequest "Invalid search_token hex")
    ensure (bytes.length ≤ maxSearchTokenBytes) (badRequest "search_token too large")
    pure (some bytes)
  | none => pure none

def createListing (_pubkeyHash : Bytes) (req : CreateListingRequest) : Program ListingResponse := do
  let blob ← decodeBlob req.clientEncryptedBlob
  let searchToken ← decodeSearchToken req.searchToken
  let status ← validateLabel (req.status.getD "active") "status"
  let currency ← validateLabel (req.currency.getD "XMR") "currency"
  let fresh ← exec (.insertCreateNonce req.nonce)
  ensure fresh (conflict "Create-listing nonce already used")
  let time ← exec .now
  let now := floorTimestamp6h time
  let listingId ← exec (.randomBytes 16)
  let done ← exec (.insertListing ⟨listingId, blob, now, searchToken, status, currency⟩)
  orFail done dbError
  pure
    { id := hexEncode listingId
      clientEncryptedBlob := req.clientEncryptedBlob
      searchToken := req.searchToken
      status
      currency
      dayBucket := now
      version := 1 }

/-- `limit.clamp(1, 100)`. -/
def clampLimit (limit : Int64) : Int64 := if limit < 1 then 1 else if 100 < limit then 100 else limit

/-- The response to a row that was read. -/
def Listing.toResponse (l : Listing) (id : String) : ListingResponse where
  id := id
  clientEncryptedBlob := hexEncode l.encryptedListingBlob
  searchToken := l.searchToken.map hexEncode
  status := l.status
  currency := l.currency
  dayBucket := l.dayBucket
  version := l.version

/-- The search token of a query, where the empty one is none. -/
def decodeQuery (q : Option String) : Program (Option Bytes) :=
  match q.filter (· ≠ "") with
  | some hex => do
    let bytes ← orFail (hexDecode hex) (badRequest "Invalid q hex")
    pure (some bytes)
  | none => pure none

def listListings (query : SearchQuery) : Program ListingsResponse := do
  let limit := clampLimit (query.limit.getD 50)
  let offset := max (query.offset.getD 0) 0
  let filterStatus := query.status.filter (· ≠ "")
  let filterCurrency := query.currency.filter (· ≠ "")
  let searchTokenBytes ← decodeQuery query.q
  let rows ← exec (.selectListings ⟨filterStatus, filterCurrency, searchTokenBytes⟩ limit offset)
  let rows ← orFail rows dbError
  pure ⟨rows.map fun l => Listing.toResponse l (hexEncode l.id), rows.length⟩

def getListing (_pubkeyHash : Bytes) (id : String) : Program ListingResponse := do
  let idBytes ← orFail (hexDecode id) (badRequest "Invalid id")
  let row ← exec (.selectListing idBytes)
  let row ← orFail row dbError
  let row ← orFail row (notFound "Listing not found")
  pure (Listing.toResponse row id)

def updateListing (_pubkeyHash : Bytes) (id : String) (req : UpdateListingRequest) :
    Program ListingResponse := do
  let idBytes ← orFail (hexDecode id) (badRequest "Invalid id")
  let blob ← decodeBlob req.clientEncryptedBlob
  let searchToken ← decodeSearchToken req.searchToken
  let status ← validateOptLabel req.status "status"
  let currency ← validateOptLabel req.currency "currency"
  let fresh ← exec (.insertUpdateNonce (nonceKey id req.nonce))
  ensure fresh (conflict "Update-listing nonce already used")
  let current ← exec (.selectListing idBytes)
  let current ← orFail current dbError
  let row ← orFail current (notFound "Listing not found")
  let finalStatus := status.getD row.status
  let finalCurrency := currency.getD row.currency
  let affected ← exec (.updateListings
    { encryptedListingBlob := blob, searchToken := some searchToken, status := finalStatus,
      currency := some finalCurrency, whereId := idBytes, whereVersion := row.version })
  let affected ← orFail affected dbError
  ensure (affected ≠ 0) (conflict "Listing was modified by another request")
  let time ← exec .now
  pure
    { id
      clientEncryptedBlob := req.clientEncryptedBlob
      searchToken := req.searchToken
      status := finalStatus
      currency := finalCurrency
      dayBucket := floorTimestamp6h time
      version := row.version + 1 }

end TorMarketplace.Listings
