import TorMarketplace.Lib.Serde

/-!
# The plaintext of an order

`OrderData` and the records inside it (`db/models.rs`), the transitions of its state, and its JSON
form as serde derives it: `parse_toJson` says that the worker reads back what it wrote.
-/

namespace TorMarketplace

open Encoding Json Serde

structure DisputeEvidenceEntry where
  id : String
  submittedBy : String
  encryptedContent : Bytes
  contentType : String
  createdAt : Int64
  deriving DecidableEq

structure DisputeData where
  id : String
  openedBy : String
  reason : String
  resolution : Option String
  resolvedBy : Option String
  resolvedAt : Option Int64
  createdAt : Int64
  evidence : List DisputeEvidenceEntry
  deriving DecidableEq

structure ChatMessageData where
  id : Bytes
  senderPubkeyHash : Bytes
  encryptedBody : Bytes
  createdAt : Int64
  expiresAt : Int64
  deriving DecidableEq

structure OrderData where
  listingId : Bytes
  buyerPubkeyHash : Bytes
  sellerPubkeyHash : Bytes
  buyerPubkey : Option String
  sellerPubkey : Option String
  state : String
  currency : String
  escrowAddress : Option String
  escrowAmount : Option String
  timeLockSeconds : Int64
  createdAt : Int64
  fundedAt : Option Int64
  shippedAt : Option Int64
  confirmedAt : Option Int64
  releasedAt : Option Int64
  refundedAt : Option Int64
  expiresAt : Option Int64
  disputedAt : Option Int64
  disputeId : Option String
  ownerPubkey : Option String
  feePercent : Option Int64
  feeAddress : Option String
  dispute : Option DisputeData
  chatMessages : List ChatMessageData
  /-- Set after the release PSBT is broadcast. -/
  settlementTxid : Option String
  deriving DecidableEq, Inhabited

/-! ## Transitions -/

/-- The edges out of a state, by its name. -/
def stateTransitions : String → List String
  | "pending" => ["cancelled", "funded"]
  | "funded" => ["shipped", "disputed"]
  | "shipped" => ["confirmed", "disputed"]
  | "confirmed" => ["released"]
  | "disputed" => ["released", "refunded"]
  | _ => []

/-- `OrderData::state_transitions`. -/
def OrderData.stateTransitions (d : OrderData) : List String :=
  TorMarketplace.stateTransitions d.state

/-- `OrderData::can_transition_to`. -/
def OrderData.canTransitionTo (d : OrderData) (newState : String) : Bool :=
  d.stateTransitions.contains newState

/-! ## JSON -/

namespace DisputeEvidenceEntry

def fields (e : DisputeEvidenceEntry) : List (String × Value) :=
  [("id", ofString e.id), ("submitted_by", ofString e.submittedBy),
    ("encrypted_content", ofVec ofU8 e.encryptedContent), ("content_type", ofString e.contentType),
    ("created_at", ofI64 e.createdAt)]

def toJson (e : DisputeEvidenceEntry) : Value := object e.fields

def ofJson (v : Value) : Option DisputeEvidenceEntry := do
  let s ← source 5 v
  return {
    id := ← s.field 0 "id" readString
    submittedBy := ← s.field 1 "submitted_by" readString
    encryptedContent := ← s.field 2 "encrypted_content" (readVec readU8)
    contentType := ← s.field 3 "content_type" readString
    createdAt := ← s.field 4 "created_at" readI64 }

end DisputeEvidenceEntry

namespace DisputeData

def fields (d : DisputeData) : List (String × Value) :=
  [("id", ofString d.id), ("opened_by", ofString d.openedBy), ("reason", ofString d.reason),
    ("resolution", ofOption ofString d.resolution), ("resolved_by", ofOption ofString d.resolvedBy),
    ("resolved_at", ofOption ofI64 d.resolvedAt), ("created_at", ofI64 d.createdAt),
    ("evidence", ofVec DisputeEvidenceEntry.toJson d.evidence)]

def toJson (d : DisputeData) : Value := object d.fields

def ofJson (v : Value) : Option DisputeData := do
  let s ← source 8 v
  return {
    id := ← s.field 0 "id" readString
    openedBy := ← s.field 1 "opened_by" readString
    reason := ← s.field 2 "reason" readString
    resolution := ← s.optField 3 "resolution" readString
    resolvedBy := ← s.optField 4 "resolved_by" readString
    resolvedAt := ← s.optField 5 "resolved_at" readI64
    createdAt := ← s.field 6 "created_at" readI64
    evidence := ← s.field 7 "evidence" (readVec DisputeEvidenceEntry.ofJson) }

end DisputeData

namespace ChatMessageData

def fields (m : ChatMessageData) : List (String × Value) :=
  [("id", ofVec ofU8 m.id), ("sender_pubkey_hash", ofVec ofU8 m.senderPubkeyHash),
    ("encrypted_body", ofVec ofU8 m.encryptedBody), ("created_at", ofI64 m.createdAt),
    ("expires_at", ofI64 m.expiresAt)]

def toJson (m : ChatMessageData) : Value := object m.fields

def ofJson (v : Value) : Option ChatMessageData := do
  let s ← source 5 v
  return {
    id := ← s.field 0 "id" (readVec readU8)
    senderPubkeyHash := ← s.field 1 "sender_pubkey_hash" (readVec readU8)
    encryptedBody := ← s.field 2 "encrypted_body" (readVec readU8)
    createdAt := ← s.field 3 "created_at" readI64
    expiresAt := ← s.field 4 "expires_at" readI64 }

end ChatMessageData

namespace OrderData

def fields (d : OrderData) : List (String × Value) :=
  [ ("listing_id", ofVec ofU8 d.listingId),
    ("buyer_pubkey_hash", ofVec ofU8 d.buyerPubkeyHash),
    ("seller_pubkey_hash", ofVec ofU8 d.sellerPubkeyHash),
    ("buyer_pubkey", ofOption ofString d.buyerPubkey),
    ("seller_pubkey", ofOption ofString d.sellerPubkey),
    ("state", ofString d.state),
    ("currency", ofString d.currency),
    ("escrow_address", ofOption ofString d.escrowAddress),
    ("escrow_amount", ofOption ofString d.escrowAmount),
    ("time_lock_seconds", ofI64 d.timeLockSeconds),
    ("created_at", ofI64 d.createdAt),
    ("funded_at", ofOption ofI64 d.fundedAt),
    ("shipped_at", ofOption ofI64 d.shippedAt),
    ("confirmed_at", ofOption ofI64 d.confirmedAt),
    ("released_at", ofOption ofI64 d.releasedAt),
    ("refunded_at", ofOption ofI64 d.refundedAt),
    ("expires_at", ofOption ofI64 d.expiresAt),
    ("disputed_at", ofOption ofI64 d.disputedAt),
    ("dispute_id", ofOption ofString d.disputeId),
    ("owner_pubkey", ofOption ofString d.ownerPubkey),
    ("fee_percent", ofOption ofI64 d.feePercent),
    ("fee_address", ofOption ofString d.feeAddress),
    ("dispute", ofOption DisputeData.toJson d.dispute),
    ("chat_messages", ofVec ChatMessageData.toJson d.chatMessages),
    ("settlement_txid", ofOption ofString d.settlementTxid)]

def toJson (d : OrderData) : Value := object d.fields

def ofJson (v : Value) : Option OrderData := do
  let s ← source 25 v
  return {
    listingId := ← s.field 0 "listing_id" (readVec readU8)
    buyerPubkeyHash := ← s.field 1 "buyer_pubkey_hash" (readVec readU8)
    sellerPubkeyHash := ← s.field 2 "seller_pubkey_hash" (readVec readU8)
    buyerPubkey := ← s.optField 3 "buyer_pubkey" readString
    sellerPubkey := ← s.optField 4 "seller_pubkey" readString
    state := ← s.field 5 "state" readString
    currency := ← s.field 6 "currency" readString
    escrowAddress := ← s.optField 7 "escrow_address" readString
    escrowAmount := ← s.optField 8 "escrow_amount" readString
    timeLockSeconds := ← s.field 9 "time_lock_seconds" readI64
    createdAt := ← s.field 10 "created_at" readI64
    fundedAt := ← s.optField 11 "funded_at" readI64
    shippedAt := ← s.optField 12 "shipped_at" readI64
    confirmedAt := ← s.optField 13 "confirmed_at" readI64
    releasedAt := ← s.optField 14 "released_at" readI64
    refundedAt := ← s.optField 15 "refunded_at" readI64
    expiresAt := ← s.optField 16 "expires_at" readI64
    disputedAt := ← s.optField 17 "disputed_at" readI64
    disputeId := ← s.optField 18 "dispute_id" readString
    ownerPubkey := ← s.optField 19 "owner_pubkey" readString
    feePercent := ← s.optField 20 "fee_percent" readI64
    feeAddress := ← s.optField 21 "fee_address" readString
    dispute := ← s.optField 22 "dispute" DisputeData.ofJson
    chatMessages := ← s.field 23 "chat_messages" (readVec ChatMessageData.ofJson)
    settlementTxid := ← s.optField 24 "settlement_txid" readString }

/-- `serde_json::to_vec`. -/
def toVec (d : OrderData) : Bytes := print d.toJson

/-- `serde_json::from_slice::<OrderData>(..).ok()`. -/
def fromSlice (raw : Bytes) : Option OrderData := (parse raw).bind ofJson

end OrderData

/-! ## Round trips -/

theorem DisputeEvidenceEntry.nodup_fields (e : DisputeEvidenceEntry) :
    (e.fields.map Prod.fst).Nodup := by
  simp [fields]

theorem roundTrip_evidence :
    RoundTrip DisputeEvidenceEntry.toJson DisputeEvidenceEntry.ofJson where
  plain e := by
    simp [DisputeEvidenceEntry.toJson, DisputeEvidenceEntry.fields, object, plain, plainMembers,
      roundTrip_string.plain, roundTrip_u8.vec.plain, roundTrip_i64.plain]
  read e := by
    have hnd := nodup_object e.nodup_fields
    rw [DisputeEvidenceEntry.toJson, DisputeEvidenceEntry.ofJson, source_object]
    simp only [Option.bind_eq_bind, Option.bind_some,
      Source.field_map roundTrip_string hnd 0 "id" rfl,
      Source.field_map roundTrip_string hnd 1 "submitted_by" rfl,
      Source.field_map roundTrip_u8.vec hnd 2 "encrypted_content" rfl,
      Source.field_map roundTrip_string hnd 3 "content_type" rfl,
      Source.field_map roundTrip_i64 hnd 4 "created_at" rfl]
    rfl
  notNull e := by simp [DisputeEvidenceEntry.toJson, object]

theorem DisputeData.nodup_fields (d : DisputeData) : (d.fields.map Prod.fst).Nodup := by
  simp [fields]

theorem roundTrip_dispute : RoundTrip DisputeData.toJson DisputeData.ofJson where
  plain d := by
    simp [DisputeData.toJson, DisputeData.fields, object, plain, plainMembers,
      roundTrip_string.plain, plain_ofOption, roundTrip_i64.plain, roundTrip_evidence.vec.plain]
  read d := by
    have hnd := nodup_object d.nodup_fields
    rw [DisputeData.toJson, DisputeData.ofJson, source_object]
    simp only [Option.bind_eq_bind, Option.bind_some,
      Source.field_map roundTrip_string hnd 0 "id" rfl,
      Source.field_map roundTrip_string hnd 1 "opened_by" rfl,
      Source.field_map roundTrip_string hnd 2 "reason" rfl,
      Source.optField_map roundTrip_string hnd 3 "resolution" rfl,
      Source.optField_map roundTrip_string hnd 4 "resolved_by" rfl,
      Source.optField_map roundTrip_i64 hnd 5 "resolved_at" rfl,
      Source.field_map roundTrip_i64 hnd 6 "created_at" rfl,
      Source.field_map roundTrip_evidence.vec hnd 7 "evidence" rfl]
    rfl
  notNull d := by simp [DisputeData.toJson, object]

theorem ChatMessageData.nodup_fields (m : ChatMessageData) : (m.fields.map Prod.fst).Nodup := by
  simp [fields]

theorem roundTrip_chat : RoundTrip ChatMessageData.toJson ChatMessageData.ofJson where
  plain m := by
    simp [ChatMessageData.toJson, ChatMessageData.fields, object, plain, plainMembers,
      roundTrip_u8.vec.plain, roundTrip_i64.plain]
  read m := by
    have hnd := nodup_object m.nodup_fields
    rw [ChatMessageData.toJson, ChatMessageData.ofJson, source_object]
    simp only [Option.bind_eq_bind, Option.bind_some,
      Source.field_map roundTrip_u8.vec hnd 0 "id" rfl,
      Source.field_map roundTrip_u8.vec hnd 1 "sender_pubkey_hash" rfl,
      Source.field_map roundTrip_u8.vec hnd 2 "encrypted_body" rfl,
      Source.field_map roundTrip_i64 hnd 3 "created_at" rfl,
      Source.field_map roundTrip_i64 hnd 4 "expires_at" rfl]
    rfl
  notNull m := by simp [ChatMessageData.toJson, object]

theorem OrderData.nodup_fields (d : OrderData) : (d.fields.map Prod.fst).Nodup := by
  simp [fields]

theorem roundTrip_orderData : RoundTrip OrderData.toJson OrderData.ofJson where
  plain d := by
    refine plain_object ?_
    simp only [OrderData.fields, List.forall_mem_cons, roundTrip_u8.vec.plain,
      roundTrip_string.plain, roundTrip_i64.plain, plain_ofOption roundTrip_string.plain,
      plain_ofOption roundTrip_i64.plain, plain_ofOption roundTrip_dispute.plain,
      roundTrip_chat.vec.plain, List.not_mem_nil, false_implies, implies_true, and_self]
  read d := by
    have hnd := nodup_object d.nodup_fields
    rw [OrderData.toJson, OrderData.ofJson, source_object]
    refine some_bind rfl ?_
    refine some_bind (Source.field_map roundTrip_u8.vec hnd 0 "listing_id" rfl) ?_
    refine some_bind (Source.field_map roundTrip_u8.vec hnd 1 "buyer_pubkey_hash" rfl) ?_
    refine some_bind (Source.field_map roundTrip_u8.vec hnd 2 "seller_pubkey_hash" rfl) ?_
    refine some_bind (Source.optField_map roundTrip_string hnd 3 "buyer_pubkey" rfl) ?_
    refine some_bind (Source.optField_map roundTrip_string hnd 4 "seller_pubkey" rfl) ?_
    refine some_bind (Source.field_map roundTrip_string hnd 5 "state" rfl) ?_
    refine some_bind (Source.field_map roundTrip_string hnd 6 "currency" rfl) ?_
    refine some_bind (Source.optField_map roundTrip_string hnd 7 "escrow_address" rfl) ?_
    refine some_bind (Source.optField_map roundTrip_string hnd 8 "escrow_amount" rfl) ?_
    refine some_bind (Source.field_map roundTrip_i64 hnd 9 "time_lock_seconds" rfl) ?_
    refine some_bind (Source.field_map roundTrip_i64 hnd 10 "created_at" rfl) ?_
    refine some_bind (Source.optField_map roundTrip_i64 hnd 11 "funded_at" rfl) ?_
    refine some_bind (Source.optField_map roundTrip_i64 hnd 12 "shipped_at" rfl) ?_
    refine some_bind (Source.optField_map roundTrip_i64 hnd 13 "confirmed_at" rfl) ?_
    refine some_bind (Source.optField_map roundTrip_i64 hnd 14 "released_at" rfl) ?_
    refine some_bind (Source.optField_map roundTrip_i64 hnd 15 "refunded_at" rfl) ?_
    refine some_bind (Source.optField_map roundTrip_i64 hnd 16 "expires_at" rfl) ?_
    refine some_bind (Source.optField_map roundTrip_i64 hnd 17 "disputed_at" rfl) ?_
    refine some_bind (Source.optField_map roundTrip_string hnd 18 "dispute_id" rfl) ?_
    refine some_bind (Source.optField_map roundTrip_string hnd 19 "owner_pubkey" rfl) ?_
    refine some_bind (Source.optField_map roundTrip_i64 hnd 20 "fee_percent" rfl) ?_
    refine some_bind (Source.optField_map roundTrip_string hnd 21 "fee_address" rfl) ?_
    refine some_bind (Source.optField_map roundTrip_dispute hnd 22 "dispute" rfl) ?_
    refine some_bind (Source.field_map roundTrip_chat.vec hnd 23 "chat_messages" rfl) ?_
    refine some_bind (Source.optField_map roundTrip_string hnd 24 "settlement_txid" rfl) ?_
    rfl
  notNull d := by simp [OrderData.toJson, object]

/-- **What the worker writes, it reads back.** -/
theorem OrderData.fromSlice_toVec (d : OrderData) : fromSlice d.toVec = some d := by
  rw [fromSlice, toVec, parse_print (roundTrip_orderData.plain d), Option.bind_some,
    roundTrip_orderData.read]

end TorMarketplace
