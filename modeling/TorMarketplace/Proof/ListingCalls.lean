import TorMarketplace.Background.ListingExpiry

/-!
# The calls of the listings system

What `update_listing` and a pass of the expiry worker may call, for every answer they get. A pass writes
a row of its snapshot once at most, and only what it has made of the row's own content.
-/

namespace TorMarketplace.Listings

open Encoding Interleave Prog

/-! ## What the handlers do -/

/-- Whatever a handler's checks come to, they make no call. -/
theorem spec_still {α β : Type} {P : Past → Call → Prop} {x : Program α} {f : α → Program β}
    {past : Past} (hx : x.result.isSome) (hf : ∀ a, Spec server.May P (fun _ _ => True) past (f a)) :
    Spec server.May P (fun _ _ => True) past (x >>= f) := by
  cases x with
  | ret a => exact hf a
  | fail e => trivial
  | step c k => exact absurd hx (by simp [result])

/-- What is thrown away of a program's result adds no call. -/
theorem spec_map {α : Type} {P : Past → Call → Prop} {x : Program α} {f : α → Response}
    (h : Spec server.May P (fun _ _ => True) [] x) :
    Spec server.May P (fun _ _ => True) [] (x >>= fun a => pure (f a)) :=
  spec_seq h (fun _ _ _ => trivial) fun _ _ _ => trivial

theorem decodeBlob_result (blob : String) : (decodeBlob blob).result.isSome :=
  result_bind (result_orFail _ _) fun _ => result_bind (result_ensure _ _) fun _ =>
    result_bind (result_ensure _ _) fun _ => rfl

theorem decodeSearchToken_result (searchToken : Option String) :
    (decodeSearchToken searchToken).result.isSome := by
  cases searchToken with
  | none => rfl
  | some hex =>
    exact result_bind (result_orFail _ _) fun _ => result_bind (result_ensure _ _) fun _ => rfl

theorem decodeQuery_result (q : Option String) : (decodeQuery q).result.isSome := by
  unfold decodeQuery
  split
  · exact result_bind (result_orFail _ _) fun _ => rfl
  · rfl

theorem validateLabel_result (label field : String) : (validateLabel label field).result.isSome :=
  result_bind (result_ensure _ _) fun _ => result_bind (result_ensure _ _) fun _ =>
    result_bind (result_ensure _ _) fun _ => rfl

theorem validateOptLabel_result (label : Option String) (field : String) :
    (validateOptLabel label field).result.isSome := by
  cases label with
  | none => rfl
  | some label => exact result_bind (validateLabel_result label field) fun _ => rfl

/-- A version that was read is an `i64`. -/
theorem isI64_of_may {id : Bytes} {l : Listing} (h : server.May (.selectListing id) (some (some l))) :
    IsI64 l.version := by
  obtain ⟨e, s, s', ha⟩ := h
  simp only [server] at ha
  split at ha
  · exact absurd ha (by simp)
  · split at ha
    · rename_i l₀ _
      obtain ⟨hread, -⟩ := Prod.mk.inj (Option.some.inj ha)
      unfold readListing at hread
      split at hread
      · rename_i hi64
        cases hread
        exact hi64
      · exact absurd hread (by simp)
    · exact absurd ha (by simp)

/-- The calls of an update, whatever it names. -/
theorem updateListing_calls (key : Bytes) (id : String) (req : UpdateListingRequest) {P : Call → Prop}
    (hP : ∀ b, hexDecode id = some b → P .now ∧ P (.insertUpdateNonce (nonceKey id req.nonce)) ∧
      P (.selectListing b) ∧ ∀ u : UpdateListings, u.whereId = b → IsI64 u.whereVersion →
        P (.updateListings u)) :
    Spec server.May (fun _ c => P c) (fun _ _ => True) [] (updateListing key id req) := by
  unfold updateListing
  rw [spec_orFail_bind]
  refine ⟨fun _ => trivial, fun b hb => ?_⟩
  obtain ⟨hnow, hnonce, hselect, hupdate⟩ := hP b hb
  refine spec_still (decodeBlob_result _) fun blob => ?_
  refine spec_still (decodeSearchToken_result _) fun token => ?_
  refine spec_still (validateOptLabel_result _ _) fun status => ?_
  refine spec_still (validateOptLabel_result _ _) fun currency => ?_
  refine spec_call_bind.mpr ⟨hnonce, fun fresh _ => ?_⟩
  refine spec_still (result_ensure _ _) fun _ => ?_
  refine spec_call_bind.mpr ⟨hselect, fun current hcurrent => ?_⟩
  rw [spec_orFail_bind]
  refine ⟨fun _ => trivial, fun row hrow => ?_⟩
  rw [spec_orFail_bind]
  refine ⟨fun _ => trivial, fun l hl => ?_⟩
  subst hrow hl
  refine spec_call_bind.mpr ⟨hupdate _ rfl (isI64_of_may hcurrent), fun affected _ => ?_⟩
  refine spec_still (result_orFail _ _) fun _ => ?_
  refine spec_still (result_ensure _ _) fun _ => ?_
  exact spec_call_bind.mpr ⟨hnow, fun _ _ => trivial⟩

/-! ## What a pass of the worker does -/

theorem mapM_readListing {l l' : List Listing} :
    l.mapM readListing = some l' ↔ l' = l ∧ ∀ x ∈ l, IsI64 x.version := by
  induction l generalizing l' with
  | nil => simp [eq_comm]
  | cons x l ih =>
    rw [List.mapM_cons]
    by_cases hx : IsI64 x.version
    · have hread : readListing x = some x := if_pos hx
      cases hl : l.mapM readListing with
      | none =>
        have hno : ¬ ∀ y ∈ l, IsI64 y.version := fun hall => by
          rw [ih.mpr ⟨rfl, hall⟩] at hl
          exact absurd hl (by simp)
        simp [hread, hx, hno]
      | some l₁ =>
        obtain ⟨rfl, hall⟩ := ih.mp hl
        have hcons : ∀ y ∈ x :: l₁, IsI64 y.version := List.forall_mem_cons.mpr ⟨hx, hall⟩
        rw [hread]
        exact ⟨fun h => ⟨(Option.some.inj h).symm, hcons⟩, fun h => congrArg some h.1.symm⟩
    · have hread : readListing x = none := if_neg hx
      simp [hread, hx]

/-- The snapshot of the worker. -/
theorem answer_selectActive {e : Choice} {s s₁ : Shared} {rows : List Listing}
    (ha : server.answer .selectActive e s = some (some rows, s₁)) :
    s₁ = s ∧ e.fault = false ∧ rows = s.listings.rows.filter (fun l => l.status = "active") ∧
      ∀ l ∈ rows, IsI64 l.version := by
  simp only [server] at ha
  split at ha
  · exact absurd ha (by simp)
  · rename_i hfault
    obtain ⟨hrows, rfl⟩ := Prod.mk.inj (Option.some.inj ha)
    obtain ⟨rfl, hall⟩ := mapM_readListing.mp hrows
    exact ⟨rfl, Bool.eq_false_iff.mpr hfault, rfl, hall⟩

theorem nodup_active (t : ListingsTable) (p : Listing → Bool) :
    ((t.rows.filter p).map Listing.id).Nodup :=
  List.Nodup.sublist (List.filter_sublist.map _) t.nodup

/-- What the worker makes of a row that it finds expired, with the nonce it has drawn. -/
structure Expires (worker : AppState) (time : Int64) (l : Listing) (nonce blob workerKey : Bytes) :
    Prop where
  key : worker.workerKey = some workerKey
  length : nonce.length = 12
  data : ∃ data, decodeListing worker.prim workerKey l = some data ∧
    ListingData.expired data (floorTimestamp6h time) = true ∧
    encryptListingBlob worker.prim nonce
      { data with status := "expired", updatedAt := floorTimestamp6h time }.toVec workerKey l.id =
        some blob

/-- The past of a pass that has its snapshot. -/
def snapshot (time : Int64) (rows : List Listing) : Past := [⟨.now, time⟩, ⟨.selectActive, some rows⟩]

/-- The calls of a pass: a row of the snapshot is written once at most. -/
def PassCall (worker : AppState) (past : Past) : Call → Prop
  | .now => past = []
  | .selectActive => ∃ time, past = [⟨.now, time⟩]
  | .randomBytes n => n = 12 ∧ 2 ≤ past.length
  | .updateListings u => ∃ time rows rest l nonce blob workerKey,
      past = snapshot time rows ++ rest ∧ l ∈ rows ∧ IsI64 l.version ∧
      Expires worker time l nonce blob workerKey ∧ u = expiryUpdate l blob ∧
      ∀ u' a, (⟨.updateListings u', a⟩ : Reply Server) ∈ rest → u'.whereId ≠ u.whereId
  | _ => False

theorem may_randomBytes {n : Nat} {b : Bytes} (h : server.May (.randomBytes n) b) : b.length = n := by
  obtain ⟨e, s, s', ha⟩ := h
  simp only [server] at ha
  split at ha
  · rename_i hlen
    cases ha
    exact hlen
  · exact absurd ha (by simp)

/-- The writes of the past are of rows that the loop has done. -/
def WroteIn (done : List Listing) (rest : Past) : Prop :=
  ∀ u a, (⟨.updateListings u, a⟩ : Reply Server) ∈ rest → u.whereId ∈ done.map Listing.id

theorem expireListing_calls {worker : AppState} {workerKey : Bytes} {time : Int64}
    {rows done : List Listing} {l : Listing} {rest : Past} (hkey : worker.workerKey = some workerKey)
    (hl : l ∈ rows) (hi64 : IsI64 l.version) (hnew : l.id ∉ done.map Listing.id)
    (hrest : WroteIn done rest) :
    Spec server.May (PassCall worker)
      (fun past r => match r with
        | .ok _ => ∃ rest', past = snapshot time rows ++ rest' ∧ WroteIn (done ++ [l]) rest'
        | .error _ => True)
      (snapshot time rows ++ rest)
      (expireListing worker.prim workerKey (floorTimestamp6h time) l) := by
  have hgrow {rest : Past} (h : WroteIn done rest) : WroteIn (done ++ [l]) rest := fun u a hu => by
    rw [List.map_append]
    exact List.mem_append_left _ (h u a hu)
  unfold expireListing
  split
  · exact ⟨rest, rfl, hgrow hrest⟩
  rename_i data hdata
  split
  case isFalse => exact ⟨rest, rfl, hgrow hrest⟩
  case isTrue hexpired =>
    refine spec_call_bind.mpr ⟨⟨rfl, by simp [snapshot]⟩, fun nonce hnonce => ?_⟩
    have hrest' : WroteIn done (rest ++ [⟨.randomBytes 12, nonce⟩]) := fun u a hu => by
      rcases List.mem_append.mp hu with hu | hu
      · exact hrest u a hu
      · cases List.mem_singleton.mp hu
    rw [List.append_assoc]
    unfold writeExpired
    split
    · exact ⟨_, rfl, hgrow hrest'⟩
    rename_i blob hblob
    refine spec_call_bind.mpr ⟨⟨time, rows, _, l, nonce, blob, workerKey, rfl, hl, hi64,
      ⟨hkey, may_randomBytes hnonce, data, hdata, hexpired, hblob⟩, rfl, fun u a hu heq => ?_⟩,
      fun affected _ => ?_⟩
    · have hdone := hrest' u a hu
      rw [heq] at hdone
      exact hnew hdone
    · rw [spec_orFail_bind]
      refine ⟨fun _ => trivial, fun _ _ => ⟨_, List.append_assoc _ _ _, fun u a hu => ?_⟩⟩
      rcases List.mem_append.mp hu with hu | hu
      · exact hgrow hrest' u a hu
      · cases List.mem_singleton.mp hu
        simp [expiryUpdate]

theorem checkListingExpiry_calls (worker : AppState) :
    Spec server.May (PassCall worker) (fun _ _ => True) [] (checkListingExpiry worker) := by
  unfold checkListingExpiry
  split
  · trivial
  rename_i workerKey hkey
  refine spec_call_bind.mpr ⟨rfl, fun time _ => spec_call_bind.mpr ⟨⟨time, rfl⟩, fun rows hrows => ?_⟩⟩
  rw [spec_orFail_bind]
  refine ⟨fun _ => trivial, fun l hl => ?_⟩
  subst hl
  obtain ⟨e, s, s', ha⟩ := hrows
  obtain ⟨-, -, hactive, hi64⟩ := answer_selectActive ha
  have hnodup : (l.map Listing.id).Nodup := hactive ▸ nodup_active _ _
  refine spec_forEach_done
    (fun done past => ∃ rest, past = snapshot time l ++ rest ∧ WroteIn done rest)
    (fun done x rest past hsplit hinv => ?_) (fun _ _ => trivial)
    ⟨[], rfl, fun u a hu => absurd hu List.not_mem_nil⟩
  obtain ⟨calls, rfl, hwrote⟩ := hinv
  have hx : x ∈ l := by rw [hsplit]; simp
  have hnew : x.id ∉ done.map Listing.id := by
    rw [hsplit, List.map_append, List.map_cons] at hnodup
    intro hmem
    exact (List.nodup_append.mp hnodup).2.2 _ hmem _ List.mem_cons_self rfl
  refine spec_mono (fun _ _ h => h) (fun past r h => ?_)
    (expireListing_calls hkey hx (hi64 x hx) hnew hwrote)
  cases r with
  | ok _ => exact h
  | error _ => trivial

end TorMarketplace.Listings
