import TorMarketplace.Crypto.TransitionSig
import TorMarketplace.Lib.Serde
import TorMarketplace.Lib.Table

/-!
# The listings table

Rows as `models::Listing` reads them, the two kinds of statement that write to the table, the query of
`list_listings`, and the plaintext that the expiry worker looks for in a row's blob. No column says
whose listing a row is: the rebuild of the table in version 11 of the schema dropped the one that did.
-/

namespace TorMarketplace

open Encoding Json Serde

structure Listing where
  id : Bytes
  encryptedListingBlob : Bytes
  dayBucket : Int64
  searchToken : Option Bytes
  status : String
  currency : String
  version : Int
  deriving DecidableEq

abbrev ListingsTable := Table Listing.id

/-- `INSERT INTO listings (id, encrypted_listing_blob, day_bucket, search_token, status, currency)`. -/
structure InsertListing where
  id : Bytes
  encryptedListingBlob : Bytes
  dayBucket : Int64
  searchToken : Option Bytes
  status : String
  currency : String
  deriving DecidableEq

def InsertListing.row (i : InsertListing) : Listing where
  id := i.id
  encryptedListingBlob := i.encryptedListingBlob
  dayBucket := i.dayBucket
  searchToken := i.searchToken
  status := i.status
  currency := i.currency
  version := 1

/-- `UPDATE listings SET …, version = version + 1 WHERE id = ? AND version = ?`: a column that is not
set is `none`. -/
structure UpdateListings where
  encryptedListingBlob : Bytes
  searchToken : Option (Option Bytes) := none
  status : String
  currency : Option String := none
  whereId : Bytes
  whereVersion : Int
  deriving DecidableEq

namespace UpdateListings

def set (u : UpdateListings) (l : Listing) : Listing :=
  { l with
    encryptedListingBlob := u.encryptedListingBlob
    searchToken := u.searchToken.getD l.searchToken
    status := u.status
    currency := u.currency.getD l.currency
    version := l.version + 1 }

/-- The statement as an update of the table. -/
def toUpdate (u : UpdateListings) : Table.Update Listing.id where
  matchesRow := fun l => l.id = u.whereId ∧ l.version = u.whereVersion
  set := u.set
  key_set _ := rfl

theorem id_of_matches {u : UpdateListings} {l : Listing} (h : u.toUpdate.matchesRow l = true) :
    l.id = u.whereId :=
  (of_decide_eq_true h).1

end UpdateListings

/-! ## Queries -/

/-- The filters of `list_listings`. -/
structure ListingFilter where
  status : Option String
  currency : Option String
  searchToken : Option Bytes
  deriving DecidableEq

/-- `WHERE 1=1 [AND status = ?] [AND currency = ?] [AND search_token = ?]`. -/
def ListingFilter.admits (f : ListingFilter) (l : Listing) : Bool :=
  f.status.all (l.status = ·) && f.currency.all (l.currency = ·) &&
    f.searchToken.all (l.searchToken = some ·)

/-- Blobs in the order of `memcmp`. -/
def blobLe : Bytes → Bytes → Bool
  | [], _ => true
  | _ :: _, [] => false
  | a :: as, b :: bs => a < b || (a = b && blobLe as bs)

/-- `ORDER BY day_bucket DESC, id DESC`: `l` comes no later than `l'`. -/
def Listing.comesFirst (l l' : Listing) : Bool :=
  l'.dayBucket < l.dayBucket || (l.dayBucket = l'.dayBucket && blobLe l'.id l.id)

/-- `SELECT … FROM listings WHERE … ORDER BY … LIMIT ? OFFSET ?`. -/
def ListingsTable.select (t : ListingsTable) (f : ListingFilter) (limit offset : Int64) : List Listing :=
  (((t.rows.filter f.admits).mergeSort Listing.comesFirst).drop offset.toInt.toNat).take
    limit.toInt.toNat

/-- A row as its reader gets it: an error if the version does not fit an `i64`. -/
def readListing (l : Listing) : Option Listing := if IsI64 l.version then some l else none

/-! ## The plaintext of a listing -/

structure ListingData where
  sellerPubkeyHash : Bytes
  sellerPubkey : Option String
  encryptedData : Bytes
  encryptedSearch : Option Bytes
  currency : String
  priceAmount : String
  status : String
  createdAt : Int64
  expiresAt : Option Int64
  updatedAt : Int64
  deriving DecidableEq

namespace ListingData

def fields (d : ListingData) : List (String × Value) :=
  [ ("seller_pubkey_hash", ofVec ofU8 d.sellerPubkeyHash),
    ("seller_pubkey", ofOption ofString d.sellerPubkey),
    ("encrypted_data", ofVec ofU8 d.encryptedData),
    ("encrypted_search", ofOption (ofVec ofU8) d.encryptedSearch),
    ("currency", ofString d.currency),
    ("price_amount", ofString d.priceAmount),
    ("status", ofString d.status),
    ("created_at", ofI64 d.createdAt),
    ("expires_at", ofOption ofI64 d.expiresAt),
    ("updated_at", ofI64 d.updatedAt)]

def toJson (d : ListingData) : Value := object d.fields

def ofJson (v : Value) : Option ListingData := do
  let s ← source 10 v
  return {
    sellerPubkeyHash := ← s.field 0 "seller_pubkey_hash" (readVec readU8)
    sellerPubkey := ← s.optField 1 "seller_pubkey" readString
    encryptedData := ← s.field 2 "encrypted_data" (readVec readU8)
    encryptedSearch := ← s.optField 3 "encrypted_search" (readVec readU8)
    currency := ← s.field 4 "currency" readString
    priceAmount := ← s.field 5 "price_amount" readString
    status := ← s.field 6 "status" readString
    createdAt := ← s.field 7 "created_at" readI64
    expiresAt := ← s.optField 8 "expires_at" readI64
    updatedAt := ← s.field 9 "updated_at" readI64 }

/-- `serde_json::to_vec`. -/
def toVec (d : ListingData) : Bytes := print d.toJson

/-- `serde_json::from_slice::<ListingData>(..).ok()`. -/
def fromSlice (raw : Bytes) : Option ListingData := (parse raw).bind ofJson

theorem nodup_fields (d : ListingData) : (d.fields.map Prod.fst).Nodup := by
  simp [fields]

end ListingData

theorem roundTrip_listingData : RoundTrip ListingData.toJson ListingData.ofJson where
  plain d := by
    refine plain_object ?_
    simp only [ListingData.fields, List.forall_mem_cons, roundTrip_u8.vec.plain,
      roundTrip_string.plain, roundTrip_i64.plain, plain_ofOption roundTrip_string.plain,
      plain_ofOption roundTrip_i64.plain, plain_ofOption roundTrip_u8.vec.plain, List.not_mem_nil,
      false_implies, implies_true, and_self]
  read d := by
    have hnd := nodup_object d.nodup_fields
    rw [ListingData.toJson, ListingData.ofJson, source_object]
    refine some_bind rfl ?_
    refine some_bind (Source.field_map roundTrip_u8.vec hnd 0 "seller_pubkey_hash" rfl) ?_
    refine some_bind (Source.optField_map roundTrip_string hnd 1 "seller_pubkey" rfl) ?_
    refine some_bind (Source.field_map roundTrip_u8.vec hnd 2 "encrypted_data" rfl) ?_
    refine some_bind (Source.optField_map roundTrip_u8.vec hnd 3 "encrypted_search" rfl) ?_
    refine some_bind (Source.field_map roundTrip_string hnd 4 "currency" rfl) ?_
    refine some_bind (Source.field_map roundTrip_string hnd 5 "price_amount" rfl) ?_
    refine some_bind (Source.field_map roundTrip_string hnd 6 "status" rfl) ?_
    refine some_bind (Source.field_map roundTrip_i64 hnd 7 "created_at" rfl) ?_
    refine some_bind (Source.optField_map roundTrip_i64 hnd 8 "expires_at" rfl) ?_
    refine some_bind (Source.field_map roundTrip_i64 hnd 9 "updated_at" rfl) ?_
    rfl
  notNull d := by simp [ListingData.toJson, object]

/-- What the expiry worker writes, it reads back. -/
theorem ListingData.fromSlice_toVec (d : ListingData) : fromSlice d.toVec = some d := by
  rw [fromSlice, toVec, parse_print (roundTrip_listingData.plain d), Option.bind_some,
    roundTrip_listingData.read]

end TorMarketplace
