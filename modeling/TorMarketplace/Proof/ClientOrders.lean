import TorMarketplace.Frontend.Client
import TorMarketplace.Proof.Decoders

/-!
# What the worker reads of a client's order

Three fields of `OrderData` are bytes, and the browser client writes text there. The worker's reader
takes bytes from an array only, so it reads no order that the client makes
(`client_order_not_read_back`), and the poller goes past it (`client_order_skipped`).
-/

namespace TorMarketplace

open Encoding Json Js Serde

/-- The fields of `OrderData` that are bytes. -/
def byteFields : List String := ["listing_id", "buyer_pubkey_hash", "seller_pubkey_hash"]

/-- The property `name` of the client's object is a text. -/
def HasText (data : JsObject) (name : String) : Prop := ∃ s, (ascii name, str s) ∈ data

/-- The step gives the field no new value: an `updateOrder` whose `extra` does not have it. -/
def LocalStep.Leaves (name : String) : LocalStep → Prop
  | .getOrder .. => True
  | .updateOrder _ extra _ => ∀ p ∈ extra, p.1 ≠ ascii name

/-- The worker reads the client's object, and every field of what it reads is the client's. -/
def ReadBack (data : JsObject) : Prop :=
  ∃ d, OrderData.fromSlice (workerPlaintext data) = some d ∧
    ∀ f ∈ d.fields, ∃ v, data.get (ascii f.1) = some v ∧ valueOf v = f.2

theorem valueMembers_map (o : JsObject) :
    valueMembers bytesOf (o.map fun p => (p.1, p.2.val)) = o.map fun p => (bytesOf p.1, valueOf p.2) := by
  induction o with
  | nil => rfl
  | cons p o ih => rw [List.map_cons, valueMembers, ih]; rfl

/-! ## The fields stay texts -/

theorem hasText_initial {c : Client} {listingId : JsString} {currency seller : Option JsString}
    {now : Int} {name : String} (hname : name ∈ byteFields) :
    HasText (c.buildInitialOrderData listingId currency seller now) name := by
  simp only [byteFields, List.mem_cons, List.not_mem_nil, or_false] at hname
  rcases hname with rfl | rfl | rfl
  · exact ⟨_, List.mem_cons_self⟩
  · exact ⟨_, List.mem_cons_of_mem _ List.mem_cons_self⟩
  · exact ⟨_, List.mem_cons_of_mem _ (List.mem_cons_of_mem _ List.mem_cons_self)⟩

/-- The fields that the client assigns later. -/
def assignedFields : List String :=
  ["state", "funded_at", "shipped_at", "confirmed_at", "disputed_at"]

theorem ascii_ne : ∀ name ∈ byteFields, ∀ name' ∈ assignedFields, ascii name' ≠ ascii name := by
  decide

theorem HasText.assign {data : JsObject} {name name' : String} {v : JsValue} (h : HasText data name)
    (hname : name ∈ byteFields) (hname' : name' ∈ assignedFields) :
    HasText (data.assign (ascii name') v) name := by
  obtain ⟨s, hs⟩ := h
  exact ⟨s, JsObject.mem_assign hs (ascii_ne name hname name' hname')⟩

theorem HasText.apply {data : JsObject} {name : String} (hname : name ∈ byteFields)
    (h : HasText data name) {step : LocalStep} (hstep : step.Leaves name) :
    HasText (step.apply data) name := by
  have hassign : ∀ {data} name' v, name' ∈ assignedFields → HasText data name →
      HasText (data.assign (ascii name') v) name := fun _ _ hmem hdata => hdata.assign hname hmem
  cases step with
  | getOrder newer now =>
    simp only [LocalStep.apply]
    split
    · exact hassign "funded_at" _ (by decide) (hassign "state" _ (by decide) h)
    · exact h
  | updateOrder newState extra now =>
    have hspread : HasText ((data.assign (ascii "state") (str newState)).spread extra) name := by
      obtain ⟨s, hs⟩ := hassign "state" (str newState) (by decide) h
      exact ⟨s, JsObject.mem_spread hs hstep⟩
    have hif : ∀ (p : Prop) [Decidable p] {data data' : JsObject}, HasText data name →
        HasText data' name → HasText (if p then data else data') name := fun _ _ _ _ hd hd' => by
      split
      · exact hd
      · exact hd'
    simp only [LocalStep.apply]
    have hshipped := hif (newState = ascii "shipped")
      (hassign "shipped_at" (num now) (by decide) hspread) hspread
    have hconfirmed := hif (newState = ascii "confirmed")
      (hassign "confirmed_at" (num now) (by decide) hshipped) hshipped
    have hcancelled := hif (newState = ascii "cancelled")
      (hassign "state" (str (ascii "cancelled")) (by decide) hconfirmed) hconfirmed
    exact hif _ (hassign "disputed_at" _ (by decide) (hassign "state" _ (by decide) hcancelled))
      hcancelled

/-! ## A text where bytes are wanted -/

theorem field_text {ms : List (Bytes × Value)} {name : String} {s : Bytes} {i : Nat}
    (h : (utf8 name, .str s) ∈ ms) :
    (Source.map ms).field i name (readVec readU8) = none := by
  have hmem : (utf8 name, Tree.str s) ∈ ms.filter fun kv => kv.1 = utf8 name := by simp [h]
  cases hms : ms.filter fun kv => kv.1 = utf8 name with
  | nil => exact absurd (hms ▸ hmem) List.not_mem_nil
  | cons kv l =>
    cases l with
    | nil =>
      obtain rfl := List.mem_singleton.mp (hms ▸ hmem)
      simp [Source.field, Source.given, hms, readVec]
    | cons kv' l => simp [Source.field, Source.given, hms]

theorem ofJson_byteFields {v : Value} {d : OrderData} (h : OrderData.ofJson v = some d) :
    ∃ s, source 25 v = some s ∧
      ∀ name ∈ byteFields, ∃ i, (s.field i name (readVec readU8)).isSome = true := by
  obtain ⟨s, hs, h⟩ := Option.bind_eq_some_iff.mp h
  obtain ⟨listingId, h₀, h⟩ := Option.bind_eq_some_iff.mp h
  obtain ⟨buyerPubkeyHash, h₁, h⟩ := Option.bind_eq_some_iff.mp h
  obtain ⟨sellerPubkeyHash, h₂, _⟩ := Option.bind_eq_some_iff.mp h
  refine ⟨s, hs, fun name hname => ?_⟩
  simp only [byteFields, List.mem_cons, List.not_mem_nil, or_false] at hname
  rcases hname with rfl | rfl | rfl
  · exact ⟨0, by rw [h₀]; rfl⟩
  · exact ⟨1, by rw [h₁]; rfl⟩
  · exact ⟨2, by rw [h₂]; rfl⟩

theorem bytesOf_ascii : ∀ name ∈ byteFields, bytesOf (ascii name) = utf8 name := by decide

/-- **An object with a text for bytes is no `OrderData`.** -/
theorem fromSlice_text {data : JsObject} {name : String} (hname : name ∈ byteFields)
    (h : HasText data name) : OrderData.fromSlice (workerPlaintext data) = none := by
  obtain ⟨s, hs⟩ := h
  have hmem : (utf8 name, Tree.str (bytesOf s)) ∈ data.map fun p => (bytesOf p.1, valueOf p.2) :=
    List.mem_map.mpr ⟨_, hs, by rw [bytesOf_ascii name hname]; rfl⟩
  rw [OrderData.fromSlice, workerPlaintext, parse_stringify, Option.bind_some, valueOf,
    JsObject.toValue, value, valueMembers_map]
  by_contra hsome
  obtain ⟨d, hd⟩ := Option.ne_none_iff_exists'.mp hsome
  obtain ⟨src, hsrc, hall⟩ := ofJson_byteFields hd
  obtain ⟨i, hi⟩ := hall name hname
  simp only [source] at hsrc
  split at hsrc
  · obtain rfl := Option.some.inj hsrc
    rw [field_text hmem] at hi
    exact absurd hi (by decide)
  · exact absurd hsrc (by simp)

/-- **The worker reads no order of the client.** Whatever listing, currency and keys it is for, and
whatever the client has done with it since: as long as one of the byte fields is left as it was made,
its text is not read at all, and so not as what the client put in. -/
theorem client_order_not_read_back (c : Client) (listingId : JsString)
    (currency seller : Option JsString) (now : Int) (steps : List LocalStep) {name : String}
    (hname : name ∈ byteFields) (hsteps : ∀ step ∈ steps, step.Leaves name) :
    ¬ ReadBack (steps.foldl LocalStep.apply
      (c.buildInitialOrderData listingId currency seller now)) := by
  have htext : ∀ {data}, HasText data name → HasText (steps.foldl LocalStep.apply data) name := by
    induction steps with
    | nil => exact fun h => h
    | cons step steps ih =>
      exact fun h => ih (fun s hs => hsteps s (List.mem_cons_of_mem step hs))
        (h.apply hname (hsteps step List.mem_cons_self))
  rintro ⟨d, hd, _⟩
  rw [fromSlice_text hname (htext (hasText_initial hname))] at hd
  exact absurd hd (by simp)

/-- The poller goes past a row whose blob opens to such a text. -/
theorem client_order_skipped {D : Deployment} {o : Order} {data : JsObject} {name : String}
    (hname : name ∈ byteFields) (h : HasText data name)
    (hopen : decryptEcdhBlob D.prim o.encryptedOrderBlob
      (deriveDomainKey D.prim D.workerKey "payment-decrypt") = some (workerPlaintext data)) :
    decodePending D.prim D.workerKey o = none := by
  simp [decodePending, hopen, fromSlice_text hname h]

namespace Sample

/-- The client of `pubkey`. -/
def client : Client where
  naclHash := fun m =>
    if m = pubkey then
      hex "e3490f57fdd073648192013034dc5e52881e176b463a4a0d7117469112233873" ++
        hex "aff96ce9ee992ae3e9b78107f904d24e4a0f4edea92bdf9f225e985c810951b3"
    else []
  pubkey := pubkey

/-- A purchase for bitcoins from a listing, as the page makes it. -/
def purchase : JsObject :=
  client.buildInitialOrderData (ascii orderId) (some (ascii "BTC")) none 1700000000

end Sample

open Sample in
/-- A confirmed purchase is not read back. -/
theorem client_order_not_read_back_confirmed :
    ¬ ReadBack (LocalStep.apply purchase (.updateOrder (ascii "confirmed") [] 1700003600)) :=
  client_order_not_read_back client (ascii orderId) (some (ascii "BTC")) none 1700000000
    [.updateOrder (ascii "confirmed") [] 1700003600] (by decide : "listing_id" ∈ byteFields)
    (by simp [LocalStep.Leaves])

open Sample in
/-- A purchase is not read at all. -/
theorem client_purchase_unread :
    OrderData.fromSlice (workerPlaintext purchase) = none ∧ ¬ ReadBack purchase := by
  have hnone : OrderData.fromSlice (workerPlaintext purchase) = none := by decide +kernel
  refine ⟨hnone, ?_⟩
  rintro ⟨d, hd, _⟩
  exact absurd (hnone.symm.trans hd) (by simp)

end TorMarketplace
