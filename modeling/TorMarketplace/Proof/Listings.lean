import TorMarketplace.Lib.Simulation
import TorMarketplace.Proof.ListingCalls

/-!
# Whose writes a listing sees

A run of the listings system, and the same run without the `update_listing` requests that do not name a
listing: the listing's row goes through the same values. `Agree` relates the states of the two runs,
`Foreign` are the calls of what is left out, and `Visible` those that both runs make.
-/

namespace TorMarketplace.Listings

open Encoding Interleave Prog

/-! ## Calls that do not concern a listing, and calls that do -/

/-- The calls of a request that names other listings. -/
def Call.Foreign (target : Bytes) : Call → Prop
  | .now => True
  | .randomBytes _ => True
  | .selectListing _ => True
  | .insertUpdateNonce key =>
    ∃ id nonce, (hexDecode id).isSome ∧ hexDecode id ≠ some target ∧ key = nonceKey id nonce
  | .updateListings u => u.whereId ≠ target ∧ IsI64 u.whereVersion
  | _ => False

/-- The calls that make and change the listing, and those that say nothing of any other. -/
def Call.Visible (target : Bytes) : Call → Prop
  | .now => True
  | .randomBytes _ => True
  | .insertCreateNonce _ => True
  | .insertListing _ => True
  | .insertUpdateNonce key => ∃ id nonce, hexDecode id = some target ∧ key = nonceKey id nonce
  | .selectListing id => id = target
  | .updateListings u => u.whereId = target
  | .restartApi => True
  | _ => False

/-- The row of the listing after a step that changed it. -/
def rowChange (target : Bytes) (s s' : Shared) : Option Listing :=
  if s'.listings.find target = s.listings.find target then none else s'.listings.find target

/-- The shared states of a run and of the run without the requests that do not name the listing. -/
structure Agree (target : Bytes) (s s' : Shared) : Prop where
  row : s'.listings.find target = s.listings.find target
  ids : ∀ id, (s'.listings.find id).isSome = (s.listings.find id).isSome
  createNonces : s'.createNonces = s.createNonces
  updateNonces : ∀ id nonce, hexDecode id = some target →
    (nonceKey id nonce ∈ s'.updateNonces ↔ nonceKey id nonce ∈ s.updateNonces)
  clock : s'.clock ≤ s.clock
  /-- A row that spoils the worker's query is one that no request has touched. -/
  unreadable : ∀ id l, s'.listings.find id = some l → l.status = "active" → ¬ IsI64 l.version →
    s.listings.find id = some l

theorem Agree.refl (target : Bytes) (s : Shared) : Agree target s s where
  row := rfl
  ids _ := rfl
  createNonces := rfl
  updateNonces _ _ _ := Iff.rfl
  clock := Int64.le_refl _
  unreadable _ _ h _ _ := h

theorem rowChange_of_eq {target : Bytes} {s s' : Shared}
    (h : s'.listings.find target = s.listings.find target) : rowChange target s s' = none :=
  if_pos h

theorem rowChange_congr {target : Bytes} {s s' s₁ s₁' : Shared}
    (h : s'.listings.find target = s.listings.find target)
    (h₁ : s₁'.listings.find target = s₁.listings.find target) :
    rowChange target s' s₁' = rowChange target s s₁ := by
  rw [rowChange, rowChange, h, h₁]

section Rows

variable {t : ListingsTable} {u : UpdateListings} {id : Bytes}

theorem find_toUpdate_of_ne (h : u.whereId ≠ id) : (t.update u.toUpdate).find id = t.find id := by
  rw [Table.find_update]
  cases hfind : t.find id with
  | none => rfl
  | some l =>
    have hno : u.toUpdate.matchesRow l = false := Bool.eq_false_iff.mpr fun hm =>
      h ((UpdateListings.id_of_matches hm).symm.trans (Table.mem_of_find hfind).2)
    simp [Table.Update.apply, hno]

theorem isSome_find_toUpdate : ((t.update u.toUpdate).find id).isSome = (t.find id).isSome := by
  rw [Table.find_update, Option.isSome_map]

end Rows

section Agree

variable {target : Bytes} {s s' s₁ : Shared} {c : Call} {e : Choice} {a : c.Ans}

/-- **What does not concern the listing may be left out.** -/
theorem Agree.foreign (h : Agree target s s') (hc : c.Foreign target)
    (ha : server.answer c e s = some (a, s₁)) : Agree target s₁ s' ∧ rowChange target s s₁ = none := by
  have hsame : s₁ = s → Agree target s₁ s' ∧ rowChange target s s₁ = none := by
    rintro rfl
    exact ⟨h, rowChange_of_eq rfl⟩
  cases c with
  | now =>
    simp only [server] at ha
    split at ha
    · rename_i hle
      cases ha
      exact ⟨{ h with clock := Int64.le_trans h.clock hle }, rowChange_of_eq rfl⟩
    · exact absurd ha (by simp)
  | randomBytes n =>
    simp only [server] at ha
    split at ha
    · cases ha
      exact hsame rfl
    · exact absurd ha (by simp)
  | selectListing id =>
    simp only [server] at ha
    split at ha
    · cases ha
      exact hsame rfl
    · split at ha <;> cases ha <;> exact hsame rfl
  | insertUpdateNonce key =>
    obtain ⟨id, nonce, hid, hne, rfl⟩ := hc
    simp only [server] at ha
    split at ha
    · cases ha
      exact hsame rfl
    · cases ha
      refine ⟨{ h with updateNonces := fun id' nonce' hid' => ?_ }, rowChange_of_eq rfl⟩
      rw [h.updateNonces id' nonce' hid', List.mem_cons]
      refine ⟨.inr, fun hmem => hmem.resolve_left fun heq => hne ?_⟩
      obtain ⟨rfl, -⟩ := nonceKey_inj (by rw [hid']; rfl) hid heq
      exact hid'
  | updateListings u =>
    simp only [server] at ha
    split at ha
    · cases ha
      exact hsame rfl
    · cases ha
      have hrow : (s.listings.update u.toUpdate).find target = s.listings.find target :=
        find_toUpdate_of_ne hc.1
      refine ⟨{ h with
        row := h.row.trans hrow.symm
        ids := fun id => (h.ids id).trans isSome_find_toUpdate.symm
        unreadable := fun id l hl hactive hno => ?_ }, rowChange_of_eq hrow⟩
      rw [Table.find_update, h.unreadable id l hl hactive hno]
      -- the statement's version is an `i64`, the row's is not
      have hmatch : u.toUpdate.matchesRow l = false := Bool.eq_false_iff.mpr fun hm =>
        hno ((of_decide_eq_true hm).2 ▸ hc.2)
      simp [Table.Update.apply, hmatch]
  | _ => exact hc.elim

/-- What the worker does to other listings may be added. -/
theorem Agree.expired (h : Agree target s s') {l : Listing} {blob : Bytes} (hl : l.id ≠ target) :
    Agree target s { s' with listings := s'.listings.update (expiryUpdate l blob).toUpdate } := by
  refine { h with
    row := (find_toUpdate_of_ne hl).trans h.row
    ids := fun id => isSome_find_toUpdate.trans (h.ids id)
    unreadable := fun id l' hl' hactive hno => ?_ }
  rw [Table.find_update] at hl'
  obtain ⟨l₀, hl₀, rfl⟩ := Option.map_eq_some_iff.mp hl'
  unfold Table.Update.apply at hactive hno ⊢
  split
  · rename_i hm
    rw [if_pos hm] at hactive
    exact absurd (show "expired" = "active" from hactive) (by decide)
  · rename_i hm
    rw [if_neg hm] at hactive hno
    exact h.unreadable id l₀ hl₀ hactive hno

/-- **What concerns the listing is answered in both runs alike.** -/
theorem Agree.visible (h : Agree target s s') (hc : c.Visible target)
    (ha : server.answer c e s = some (a, s₁)) :
    ∃ s₁', server.answer c e s' = some (a, s₁') ∧ Agree target s₁ s₁' ∧
      rowChange target s' s₁' = rowChange target s s₁ := by
  cases c with
  | now =>
    simp only [server] at ha ⊢
    split at ha
    · rename_i hle
      cases ha
      rw [if_pos (Int64.le_trans h.clock hle)]
      exact ⟨_, rfl, { h with clock := Int64.le_refl _ }, rowChange_congr h.row h.row⟩
    · exact absurd ha (by simp)
  | randomBytes n =>
    simp only [server] at ha ⊢
    split at ha
    · rename_i hlen
      cases ha
      rw [if_pos hlen]
      exact ⟨s', rfl, h, rowChange_congr h.row h.row⟩
    · exact absurd ha (by simp)
  | insertCreateNonce nonce =>
    simp only [server] at ha ⊢
    rw [h.createNonces]
    split at ha
    · rename_i hmem
      cases ha
      rw [if_pos hmem]
      exact ⟨s', rfl, h, rowChange_congr h.row h.row⟩
    · rename_i hmem
      cases ha
      rw [if_neg hmem]
      exact ⟨_, rfl, { h with createNonces := rfl }, rowChange_congr h.row h.row⟩
  | insertUpdateNonce key =>
    obtain ⟨id, nonce, hid, rfl⟩ := hc
    have hiff := h.updateNonces id nonce hid
    simp only [server] at ha ⊢
    split at ha
    · rename_i hmem
      cases ha
      rw [if_pos (hiff.mpr hmem)]
      exact ⟨s', rfl, h, rowChange_congr h.row h.row⟩
    · rename_i hmem
      cases ha
      rw [if_neg fun hmem' => hmem (hiff.mp hmem')]
      refine ⟨_, rfl, { h with updateNonces := fun id' nonce' hid' => ?_ },
        rowChange_congr h.row h.row⟩
      rw [List.mem_cons, List.mem_cons, h.updateNonces id' nonce' hid']
  | insertListing i =>
    simp only [server] at ha ⊢
    split at ha
    · rename_i hfault
      cases ha
      rw [if_pos hfault]
      exact ⟨s', rfl, h, rowChange_congr h.row h.row⟩
    · rename_i hfault
      rw [if_neg hfault]
      have hfree : s'.listings.insert i.row = none ↔ s.listings.insert i.row = none := by
        rw [Table.insert_eq_none, Table.insert_eq_none, h.ids]
      split at ha
      · rename_i t ht
        cases ha
        cases ht' : s'.listings.insert i.row with
        | none => exact absurd (hfree.mp ht') (by simp [ht])
        | some t' =>
          have hfind := fun id => (Table.find_insert ht id).2
          have hfind' := fun id => (Table.find_insert ht' id).2
          have hrow : t'.find target = t.find target := by rw [hfind, hfind', h.row]
          refine ⟨_, rfl, { h with row := hrow, ids := fun id => ?_, unreadable := ?_ },
            rowChange_congr h.row hrow⟩
          · change (t'.find id).isSome = (t.find id).isSome
            rw [hfind, hfind']
            split
            · rfl
            · exact h.ids id
          · intro id l hl hactive hno
            change t.find id = some l
            change t'.find id = some l at hl
            rw [hfind'] at hl
            rw [hfind]
            split at hl
            · cases hl
              exact absurd (by decide : IsI64 1) hno
            · rename_i hne
              rw [if_neg hne]
              exact h.unreadable id l hl hactive hno
      · rename_i hnone
        cases ha
        rw [hfree.mpr hnone]
        exact ⟨s', rfl, h, rowChange_congr h.row h.row⟩
  | selectListing id =>
    obtain rfl : id = target := hc
    simp only [server] at ha ⊢
    rw [h.row]
    split at ha
    · rename_i hfault
      cases ha
      rw [if_pos hfault]
      exact ⟨s', rfl, h, rowChange_congr h.row h.row⟩
    · rename_i hfault
      rw [if_neg hfault]
      split at ha <;> cases ha <;> exact ⟨s', rfl, h, rowChange_congr h.row h.row⟩
  | updateListings u =>
    have hid : u.whereId = target := hc
    have haffected : s'.listings.affected u.toUpdate = s.listings.affected u.toUpdate := by
      have hkey : ∀ l, u.toUpdate.matchesRow l = true → l.id = target := fun l hm =>
        (UpdateListings.id_of_matches hm).trans hid
      rw [Table.affected_of_key hkey, Table.affected_of_key hkey, h.row]
    simp only [server] at ha ⊢
    split at ha
    · rename_i hfault
      cases ha
      rw [if_pos hfault]
      exact ⟨s', rfl, h, rowChange_congr h.row h.row⟩
    · rename_i hfault
      cases ha
      rw [if_neg hfault, haffected]
      have hrow : (s'.listings.update u.toUpdate).find target =
          (s.listings.update u.toUpdate).find target := by
        rw [Table.find_update, Table.find_update, h.row]
      refine ⟨_, rfl, { h with
        row := hrow
        ids := fun id => isSome_find_toUpdate.trans ((h.ids id).trans isSome_find_toUpdate.symm)
        unreadable := fun id l hl hactive hno => ?_ }, rowChange_congr h.row hrow⟩
      by_cases heq : id = target
      · subst heq
        exact hrow ▸ hl
      · have hne : u.whereId ≠ id := fun h' => heq (h'.symm.trans hid)
        change (s.listings.update u.toUpdate).find id = some l
        change (s'.listings.update u.toUpdate).find id = some l at hl
        rw [find_toUpdate_of_ne hne] at hl ⊢
        exact h.unreadable id l hl hactive hno
  | restartApi =>
    cases ha
    exact ⟨_, rfl, { h with createNonces := rfl, updateNonces := fun _ _ _ => Iff.rfl },
      rowChange_congr h.row h.row⟩
  | _ => exact hc.elim

end Agree

/-! ## A pass in the other run -/

/-- What is left of a pass once its query is answered. -/
def passFrom (worker : AppState) (workerKey : Bytes) (time : Int64) :
    Option (List Listing) → Program Response
  | none => .fail workerDbError
  | some rows => do
    forEach (expireListing worker.prim workerKey (floorTimestamp6h time)) rows
    pure .done

theorem program_pass {worker : AppState} {workerKey : Bytes}
    (hkey : worker.workerKey = some workerKey) :
    program worker .checkListingExpiry =
      .step .now fun time => .step .selectActive (passFrom worker workerKey time) := by
  simp only [program, checkListingExpiry, hkey]
  refine congrArg (Prog.step _) (funext fun time => congrArg (Prog.step _) (funext fun rows => ?_))
  cases rows <;> rfl

theorem passFrom_cons (worker : AppState) (workerKey : Bytes) (time : Int64) (l : Listing)
    (rows : List Listing) :
    passFrom worker workerKey time (some (l :: rows)) =
      expireListing worker.prim workerKey (floorTimestamp6h time) l >>= fun _ =>
        passFrom worker workerKey time (some rows) :=
  bind_bind _

theorem expireListing_bind {P : Primitives} {workerKey : Bytes} {now : Int64} {l : Listing}
    {data : ListingData} (hdata : decodeListing P workerKey l = some data)
    (hexpired : ListingData.expired data now = true) (f : Unit → Program Response) :
    expireListing P workerKey now l >>= f = .step (.randomBytes 12) fun nonce =>
      writeExpired P workerKey l { data with status := "expired", updatedAt := now } nonce >>= f := by
  unfold expireListing
  rw [hdata]
  simp only [hexpired, if_true]
  rfl

theorem writeExpired_none {P : Primitives} {workerKey : Bytes} {l : Listing} {data : ListingData}
    {nonce : Bytes} (hblob : encryptListingBlob P nonce data.toVec workerKey l.id = none)
    (f : Unit → Program Response) : writeExpired P workerKey l data nonce >>= f = f () := by
  unfold writeExpired
  rw [hblob]
  rfl

theorem writeExpired_bind {P : Primitives} {workerKey : Bytes} {l : Listing} {data : ListingData}
    {nonce blob : Bytes} (hblob : encryptListingBlob P nonce data.toVec workerKey l.id = some blob)
    (f : Unit → Program Response) :
    writeExpired P workerKey l data nonce >>= f =
      .step (.updateListings (expiryUpdate l blob)) fun affected =>
        orFail affected workerDbError >>= fun _ => f () := by
  unfold writeExpired
  rw [hblob]
  refine congrArg (Prog.step _) (funext fun affected => ?_)
  cases affected <;> rfl

section Bursts

variable {target : Bytes} {s s' s₁ : Shared}

/-- A call that concerns the listing, made in the other run. -/
theorem burst_visible (past : Past) {c : Call} {k : c.Ans → Program Response} {e : Choice} {a : c.Ans}
    (h : Agree target s s') (hc : c.Visible target) (ha : server.answer c e s = some (a, s₁)) :
    ∃ s'', Burst server (rowChange target) past (.step c k) s' (rowChange target s s₁).toList
      (past ++ [⟨c, a⟩]) (k a) s'' ∧ Agree target s₁ s'' := by
  obtain ⟨s'', ha', hagree, hchange⟩ := h.visible hc ha
  exact ⟨s'', hchange ▸ Burst.single ha', hagree⟩

/-- The worker goes past another listing. -/
theorem burst_skip (past : Past) (worker : AppState) (workerKey : Bytes) (time : Int64) {l : Listing} {f : Unit → Program Response} (h : Agree target s s')
    (hl : l.id ≠ target) :
    ∃ past' s'', Burst server (rowChange target) past
      (expireListing worker.prim workerKey (floorTimestamp6h time) l >>= f) s' [] past' (f ()) s'' ∧
        Agree target s s'' := by
  cases hdata : decodeListing worker.prim workerKey l with
  | none =>
    unfold expireListing
    rw [hdata]
    exact ⟨past, s', Burst.refl, h⟩
  | some data =>
    by_cases hexpired : ListingData.expired data (floorTimestamp6h time) = true
    · rw [expireListing_bind hdata hexpired]
      have hbytes : server.answer (.randomBytes 12) { bytes := List.replicate 12 0 } s' =
          some (List.replicate 12 0, s') := rfl
      cases hblob : encryptListingBlob worker.prim (List.replicate 12 0)
          { data with status := "expired", updatedAt := floorTimestamp6h time }.toVec workerKey l.id with
      | none =>
        exact ⟨_, s', Burst.call hbytes (rowChange_of_eq rfl)
          (by rw [writeExpired_none hblob]; exact Burst.refl), h⟩
      | some blob =>
        have hanswer : server.answer (.updateListings (expiryUpdate l blob)) {} s' =
            some (some (s'.listings.affected (expiryUpdate l blob).toUpdate),
              { s' with listings := s'.listings.update (expiryUpdate l blob).toUpdate }) := rfl
        have hrow : rowChange target s' { s' with
            listings := s'.listings.update (expiryUpdate l blob).toUpdate } = none :=
          rowChange_of_eq (find_toUpdate_of_ne hl)
        exact ⟨_, _, Burst.call hbytes (rowChange_of_eq rfl)
          (by rw [writeExpired_bind hblob]; exact Burst.call hanswer hrow Burst.refl), h.expired hl⟩
    · unfold expireListing
      rw [hdata]
      simp only [hexpired]
      exact ⟨past, s', Burst.refl, h⟩

/-- The worker gets to the listing in the other run as well. -/
theorem burst_reach (past : Past) (worker : AppState) (workerKey : Bytes) (time : Int64)
    (rows : List Listing) {before : List Listing} (h : Agree target s s') (hbefore : ∀ x ∈ before, x.id ≠ target) :
    ∃ past' s'', Burst server (rowChange target) past
      (passFrom worker workerKey time (some (before ++ rows))) s' [] past'
      (passFrom worker workerKey time (some rows)) s'' ∧ Agree target s s'' := by
  induction before generalizing past s' with
  | nil => exact ⟨past, s', Burst.refl, h⟩
  | cons x before ih =>
    rw [List.cons_append, passFrom_cons]
    obtain ⟨past₁, s₁, hskip, hagree⟩ := burst_skip past worker workerKey time
      (f := fun _ => passFrom worker workerKey time (some (before ++ rows))) h
      (hbefore x List.mem_cons_self)
    obtain ⟨past₂, s₂, hreach, hagree'⟩ := ih past₁ hagree
      fun y hy => hbefore y (List.mem_cons_of_mem x hy)
    exact ⟨past₂, s₂, hskip.trans hreach, hagree'⟩

/-- **The worker writes the listing in the other run as well**, with what it writes in this one. -/
theorem burst_write (past : Past) {worker : AppState} {workerKey : Bytes} {time : Int64} {l : Listing}
    {before after : List Listing} {nonce blob : Bytes} {e : Choice} {a : Option Nat}
    (h : Agree target s s') (hbefore : ∀ x ∈ before, x.id ≠ target) (hl : l.id = target)
    (hexp : Expires worker time l nonce blob workerKey)
    (ha : server.answer (.updateListings (expiryUpdate l blob)) e s = some (a, s₁)) :
    ∃ past' x' s'', Burst server (rowChange target) past
      (passFrom worker workerKey time (some (before ++ l :: after))) s' (rowChange target s s₁).toList
      past' x' s'' ∧ Agree target s₁ s'' := by
  obtain ⟨past₁, s₂, hreach, hagree⟩ := burst_reach past worker workerKey time (l :: after) h
    hbefore
  obtain ⟨data, hdata, hexpired, hblob⟩ := hexp.data
  have hbytes : server.answer (.randomBytes 12) { bytes := nonce } s₂ = some (nonce, s₂) :=
    if_pos hexp.length
  have hvisible : (Call.updateListings (expiryUpdate l blob)).Visible target := hl
  obtain ⟨s₃, hburst, hagree'⟩ := burst_visible (past₁ ++ [⟨.randomBytes 12, nonce⟩])
    (k := fun a => orFail a workerDbError >>= fun _ => passFrom worker workerKey time (some after))
    hagree hvisible ha
  rw [passFrom_cons, expireListing_bind hdata hexpired] at hreach
  exact ⟨_, _, s₃, hreach.trans (Burst.call hbytes (rowChange_of_eq rfl)
    (by rw [writeExpired_bind hblob]; exact hburst)), hagree'⟩

end Bursts

/-! ## The simulation -/

/-- The jobs of the run without the requests that do not name the listing. -/
def Job.kept (target : Bytes) : Job → Bool
  | .updateListing _ id _ => hexDecode id = some target
  | _ => true

/-- The calls of a job. -/
def JobCall (worker : AppState) (target : Bytes) : Job → Past → Call → Prop
  | .createListing .., _, c => c.Visible target
  | .listListings _, past, c => past = [] ∧ ∃ f limit offset, c = .selectListings f limit offset
  | .getListing .., past, c => past = [] ∧ ∃ id, c = .selectListing id
  | .updateListing _ id _, _, c =>
    (hexDecode id = some target → c.Visible target) ∧ (hexDecode id ≠ some target → c.Foreign target)
  | .checkListingExpiry, past, c => PassCall worker past c
  | .restartApi, _, c => c = .restartApi

theorem createListing_visible (target key : Bytes) (req : CreateListingRequest) :
    Spec server.May (fun _ c => c.Visible target) (fun _ _ => True) [] (createListing key req) := by
  unfold createListing
  refine spec_still (decodeBlob_result _) fun blob => ?_
  refine spec_still (decodeSearchToken_result _) fun token => ?_
  refine spec_still (validateLabel_result _ _) fun status => ?_
  refine spec_still (validateLabel_result _ _) fun currency => ?_
  simp [Call.Visible]

theorem program_calls (worker : AppState) (target : Bytes) (j : Job) :
    Spec server.May (JobCall worker target j) (fun _ _ => True) [] (program worker j) := by
  cases j with
  | createListing key req => exact spec_map (createListing_visible target key req)
  | listListings query =>
    refine spec_map ?_
    unfold listListings
    refine spec_still (decodeQuery_result _) fun token => ?_
    refine spec_call_bind.mpr ⟨⟨rfl, _, _, _, rfl⟩, fun rows _ => ?_⟩
    exact spec_still (result_orFail _ _) fun _ => trivial
  | getListing key id =>
    refine spec_map ?_
    unfold getListing
    refine spec_still (result_orFail _ _) fun b => ?_
    refine spec_call_bind.mpr ⟨⟨rfl, b, rfl⟩, fun row _ => ?_⟩
    refine spec_still (result_orFail _ _) fun _ => ?_
    exact spec_still (result_orFail _ _) fun _ => trivial
  | updateListing key id req =>
    refine spec_map (updateListing_calls key id req fun b hb => ?_)
    have hne (h : hexDecode id ≠ some target) : b ≠ target := fun heq => h (heq ▸ hb)
    refine ⟨⟨fun _ => trivial, fun _ => trivial⟩, ⟨fun hid => ⟨id, req.nonce, hid, rfl⟩, fun hid => ?_⟩,
      ⟨fun hid => ?_, fun _ => trivial⟩, fun u hu hi64 => ⟨fun hid => ?_, fun hid => ⟨?_, hi64⟩⟩⟩
    · exact ⟨id, req.nonce, by rw [hb]; rfl, hid, rfl⟩
    · exact Option.some.inj (hb.symm.trans hid)
    · exact hu.trans (Option.some.inj (hb.symm.trans hid))
    · exact hu ▸ hne hid
  | checkListingExpiry => exact spec_map (checkListingExpiry_calls worker)
  | restartApi => exact ⟨rfl, fun _ _ => trivial⟩

/-- A pass of the worker and the pass that simulates it: they take their snapshots together, and the
other waits until this one writes the listing. -/
inductive PassSim (worker : AppState) (target : Bytes) : Process → Process → Prop where
  | start {p : Process} (hp : p = ⟨.checkListingExpiry, [], program worker .checkListingExpiry⟩) :
    PassSim worker target p p
  | clock {workerKey : Bytes} {time : Int64} {p : Process} (hkey : worker.workerKey = some workerKey)
      (hp : p = ⟨.checkListingExpiry, [⟨.now, time⟩],
        .step .selectActive (passFrom worker workerKey time)⟩) : PassSim worker target p p
  | loop {workerKey : Bytes} {time : Int64} {rows rows' : List Listing} {calls : Past} {p p' : Process}
      (hkey : worker.workerKey = some workerKey) (hp : p.past = snapshot time rows ++ calls)
      (hp' : p' = ⟨.checkListingExpiry, snapshot time rows', passFrom worker workerKey time (some rows')⟩)
      (hnodup : (rows'.map Listing.id).Nodup) (hrows : ∀ l ∈ rows, l.id = target → l ∈ rows') :
      PassSim worker target p p'
  | wrote {u : UpdateListings} {a : Option Nat} {p p' : Process} (hid : u.whereId = target)
      (hu : (⟨.updateListings u, a⟩ : Reply Server) ∈ p.past) : PassSim worker target p p'
  | ended {p p' : Process} (hp : p.prog.result.isSome) : PassSim worker target p p'

/-- A process and the one that simulates it. -/
def Sim (worker : AppState) (target : Bytes) (p p' : Process) : Prop :=
  p'.job = p.job ∧ match p.job with
    | .listListings _ => p' = p ∧ p.past = [] ∨ p.past.length = 1 ∧ p'.past.length = 1
    | .getListing .. => p' = p ∧ p.past = [] ∨ p.past.length = 1 ∧ p'.past.length = 1
    | .checkListingExpiry => PassSim worker target p p'
    | _ => p' = p

section Act

variable {worker : AppState} {target : Bytes} {s s' s₁ : Shared} {past past' : Past} {c : Call}
variable {k : c.Ans → Program Response} {x' : Program Response} {e : Choice} {a : c.Ans}

/-- A call that both processes make. -/
theorem act_visible (h : Agree target s s') (hc : c.Visible target)
    (ha : server.answer c e s = some (a, s₁)) :
    ∃ past'' x'' s'', Burst server (rowChange target) past (.step c k) s' (rowChange target s s₁).toList
      past'' x'' s'' ∧ Agree target s₁ s'' ∧ past'' = past ++ [⟨c, a⟩] ∧ x'' = k a := by
  obtain ⟨s'', hburst, hagree⟩ := burst_visible past h hc ha
  exact ⟨_, _, s'', hburst, hagree, rfl, rfl⟩

/-- A call that says nothing of the listing and that the other process leaves out. -/
theorem act_stutter (h : Agree target s s') (hc : c.Foreign target)
    (ha : server.answer c e s = some (a, s₁)) :
    Burst server (rowChange target) past' x' s' (rowChange target s s₁).toList past' x' s' ∧
      Agree target s₁ s' := by
  obtain ⟨hagree, hnone⟩ := h.foreign hc ha
  rw [hnone]
  exact ⟨Burst.refl, hagree⟩

/-- A query reads the state, whatever it is. -/
theorem answer_select (hc : (∃ f limit offset, c = .selectListings f limit offset) ∨
    (∃ id, c = .selectListing id) ∨ c = .selectActive) (e : Choice) (s : Shared) :
    ∃ a, server.answer c e s = some (a, s) := by
  rcases hc with ⟨f, limit, offset, rfl⟩ | ⟨id, rfl⟩ | rfl
  · simp only [server]
    split
    · exact ⟨none, rfl⟩
    · exact ⟨_, rfl⟩
  · simp only [server]
    split
    · exact ⟨none, rfl⟩
    · split
      · exact ⟨_, rfl⟩
      · exact ⟨_, rfl⟩
  · simp only [server]
    split
    · exact ⟨none, rfl⟩
    · exact ⟨_, rfl⟩

/-- A query in both runs, whose answers may differ. -/
theorem act_select (past : Past) (k : c.Ans → Program Response) {a' : c.Ans} (hc : (∃ f limit offset, c = .selectListings f limit offset) ∨
    (∃ id, c = .selectListing id) ∨ c = .selectActive) (h : Agree target s s')
    (ha : server.answer c e s = some (a, s₁)) (ha' : server.answer c e s' = some (a', s')) :
    Burst server (rowChange target) past (.step c k) s' (rowChange target s s₁).toList
      (past ++ [⟨c, a'⟩]) (k a') s' ∧ Agree target s₁ s' := by
  obtain ⟨a₀, ha₀⟩ := answer_select hc e s
  obtain ⟨-, rfl⟩ := Prod.mk.inj (Option.some.inj (ha.symm.trans ha₀))
  refine ⟨?_, h⟩
  rw [← rowChange_congr h.row h.row]
  exact Burst.single ha'

/-- **The snapshot in the other run**: it can be taken, and it has the listing if this one has. -/
theorem snapshot_agree {rows : List Listing} (h : Agree target s s')
    (ha : server.answer .selectActive e s = some (some rows, s₁)) :
    ∃ rows', server.answer .selectActive e s' = some (some rows', s') ∧
      (rows'.map Listing.id).Nodup ∧ ∀ l ∈ rows, l.id = target → l ∈ rows' := by
  obtain ⟨rfl, hfault, rfl, hi64⟩ := answer_selectActive ha
  have hread : ∀ l ∈ s'.listings.rows.filter (fun l => l.status = "active"), IsI64 l.version := by
    intro l hl
    obtain ⟨hmem, hactive⟩ := List.mem_filter.mp hl
    by_contra hno
    have hfind := h.unreadable l.id l (Table.find_of_mem hmem) (of_decide_eq_true hactive) hno
    exact hno (hi64 l (List.mem_filter.mpr ⟨(Table.mem_of_find hfind).1, hactive⟩))
  refine ⟨s'.listings.rows.filter fun l => l.status = "active", ?_, nodup_active _ _, ?_⟩
  · simp only [server, hfault]
    rw [mapM_readListing.mpr ⟨rfl, hread⟩]
    rfl
  · intro l hl hid
    obtain ⟨hmem, hactive⟩ := List.mem_filter.mp hl
    refine List.mem_filter.mpr ⟨?_, hactive⟩
    have hfind : s'.listings.find target = some l := by
      rw [h.row, ← hid]
      exact Table.find_of_mem hmem
    exact (Table.mem_of_find hfind).1

/-- **A call of a pass, and what the pass that simulates it does.** -/
theorem PassSim.act (hsim : PassSim worker target ⟨.checkListingExpiry, past, .step c k⟩
      ⟨.checkListingExpiry, past', x'⟩)
    (hcall : PassCall worker past c) (ha : server.answer c e s = some (a, s₁))
    (h : Agree target s s') :
    ∃ past'' x'' s'', Burst server (rowChange target) past' x' s' (rowChange target s s₁).toList
        past'' x'' s'' ∧ Agree target s₁ s'' ∧
      PassSim worker target ⟨.checkListingExpiry, past ++ [⟨c, a⟩], k a⟩
        ⟨.checkListingExpiry, past'', x''⟩ := by
  cases hsim with
  | start hp =>
    cases hkey : worker.workerKey with
    | none =>
      have hprog : program worker .checkListingExpiry = .ret .done := by
        simp only [program, checkListingExpiry, hkey]
        rfl
      rw [hprog] at hp
      cases hp
    | some workerKey =>
      rw [program_pass hkey] at hp
      cases hp
      obtain ⟨s'', hburst, hagree⟩ := burst_visible [] h (c := .now) trivial ha
      exact ⟨_, _, s'', hburst, hagree, .clock hkey rfl⟩
  | @clock workerKey time _ hkey hp =>
    cases hp
    have hselect := fun a' (ha' : server.answer .selectActive e s' = some (a', s')) =>
      act_select [⟨.now, time⟩] (passFrom worker workerKey time) (.inr (.inr rfl)) h ha ha'
    cases a with
    | none =>
      obtain ⟨a', ha'⟩ := answer_select (.inr (.inr rfl)) e s'
      obtain ⟨hburst, hagree⟩ := hselect a' ha'
      exact ⟨_, _, s', hburst, hagree, .ended rfl⟩
    | some rows =>
      obtain ⟨rows', ha', hnodup, hrows⟩ := snapshot_agree h ha
      obtain ⟨hburst, hagree⟩ := hselect _ ha'
      exact ⟨_, _, s', hburst, hagree, .loop hkey (List.append_nil _).symm rfl hnodup hrows⟩
  | @loop workerKey time rows rows' calls _ _ hkey hp hp' hnodup hrows =>
    cases hp'
    have hpast : past = snapshot time rows ++ calls := hp
    have hgrow : past ++ [⟨c, a⟩] = snapshot time rows ++ (calls ++ [⟨c, a⟩]) := by
      rw [hpast, List.append_assoc]
    cases c with
    | now => exact absurd (hcall.symm.trans hpast) (by simp [snapshot])
    | selectActive =>
      obtain ⟨time', htime⟩ := hcall
      exact absurd (htime.symm.trans hpast) (by simp [snapshot])
    | randomBytes n =>
      obtain ⟨hburst, hagree⟩ := act_stutter h (c := .randomBytes n) trivial ha
      exact ⟨_, _, s', hburst, hagree, .loop hkey hgrow rfl hnodup hrows⟩
    | updateListings u =>
      obtain ⟨time', rows₁, rest, l, nonce, blob, workerKey', hpast', hl, hi64, hexp, rfl, -⟩ := hcall
      obtain ⟨rfl, rfl⟩ : time' = time ∧ rows₁ = rows := by
        have heq := hpast'.symm.trans hpast
        simp only [snapshot, List.cons_append, List.nil_append] at heq
        obtain ⟨hnow, hselect⟩ := List.cons.inj heq
        cases hnow
        cases (List.cons.inj hselect).1
        exact ⟨rfl, rfl⟩
      obtain rfl := Option.some.inj (hexp.key.symm.trans hkey)
      by_cases hid : l.id = target
      · obtain ⟨before, after, rfl⟩ := List.append_of_mem (hrows l hl hid)
        have hbefore : ∀ x ∈ before, x.id ≠ target := by
          intro x hx heq
          rw [List.map_append, List.map_cons] at hnodup
          exact (List.nodup_append.mp hnodup).2.2 _ (List.mem_map_of_mem hx) _ List.mem_cons_self
            (heq.trans hid.symm)
        obtain ⟨past'', x'', s'', hburst, hagree⟩ :=
          burst_write (snapshot time' (before ++ l :: after)) h hbefore hid hexp ha
        exact ⟨past'', x'', s'', hburst, hagree,
          .wrote (u := expiryUpdate l blob) (a := a) hid (by simp)⟩
      · obtain ⟨hburst, hagree⟩ := act_stutter h (c := .updateListings (expiryUpdate l blob))
          ⟨hid, hi64⟩ ha
        exact ⟨_, _, s', hburst, hagree, .loop hkey hgrow rfl hnodup hrows⟩
    | _ => exact hcall.elim
  | @wrote u b _ _ hid hu =>
    have hgrow : (⟨.updateListings u, b⟩ : Reply Server) ∈ past ++ [⟨c, a⟩] :=
      List.mem_append_left _ hu
    have hforeign : c.Foreign target := by
      cases c with
      | now => exact trivial
      | randomBytes n => exact trivial
      | selectActive =>
        obtain ⟨time, rfl⟩ := hcall
        cases List.mem_singleton.mp hu
      | updateListings u' =>
        obtain ⟨time, rows, rest, l, nonce, blob, workerKey, rfl, hl, hi64, hexp, rfl, hfresh⟩ := hcall
        refine ⟨fun heq => ?_, hi64⟩
        have hrest : (⟨.updateListings u, b⟩ : Reply Server) ∈ rest := by
          simpa [snapshot] using hu
        exact hfresh u b hrest (hid.trans heq.symm)
      | _ => exact hcall.elim
    obtain ⟨hburst, hagree⟩ := act_stutter h hforeign ha
    exact ⟨_, _, s', hburst, hagree, .wrote hid hgrow⟩
  | ended hp => exact absurd hp (by simp [result])

end Act

/-- **The system without the requests that do not name the listing.** -/
theorem simulation (worker : AppState) (target : Bytes) :
    Simulation server (program worker) (Job.kept target)
      (fun _ p => Spec server.May (JobCall worker target p.job) (fun _ _ => True) p.past p.prog)
      (rowChange target) (Agree target) (Sim worker target) where
  spawn j _ := by
    refine ⟨rfl, ?_⟩
    cases j with
    | listListings query => exact .inl ⟨rfl, rfl⟩
    | getListing key id => exact .inl ⟨rfl, rfl⟩
    | checkListingExpiry => exact .start rfl
    | _ => rfl
  job h := h.1
  gone := by
    intro j past c k e a s s₁ s' hj hgood ha hagree
    cases j with
    | updateListing key id req =>
      exact hagree.foreign (hgood.1.2 fun hid => by simp [Job.kept, hid] at hj) ha
    | _ => exact absurd hj (by simp [Job.kept])
  act := by
    intro j past c k e a s s₁ s' past' x' hj hgood ha hagree hsim
    have hcall := hgood.1
    -- requests that both runs serve call by call
    have hsame (hc : c.Visible target) (hp : (⟨j, past', x'⟩ : Process) = ⟨j, past, .step c k⟩)
        (hnext : ∀ p : Process, p.job = j → Sim worker target p p) :
        ∃ past'' x'' s'', Burst server (rowChange target) past' x' s' (rowChange target s s₁).toList
          past'' x'' s'' ∧ Agree target s₁ s'' ∧
          Sim worker target ⟨j, past ++ [⟨c, a⟩], k a⟩ ⟨j, past'', x''⟩ := by
      cases hp
      obtain ⟨s'', hburst, hagree'⟩ := burst_visible past hagree hc ha
      exact ⟨_, _, s'', hburst, hagree', hnext _ rfl⟩
    -- requests that read
    have hread (hc : (∃ f limit offset, c = .selectListings f limit offset) ∨
          (∃ id, c = .selectListing id) ∨ c = .selectActive) (hpast : past = [])
        (hp : (⟨j, past', x'⟩ : Process) = ⟨j, past, .step c k⟩ ∧ past = [] ∨
          past.length = 1 ∧ past'.length = 1) :
        ∃ past'' x'', Burst server (rowChange target) past' x' s' (rowChange target s s₁).toList
          past'' x'' s' ∧ Agree target s₁ s' ∧ (past ++ [⟨c, a⟩] : Past).length = 1 ∧ past''.length = 1 := by
      subst hpast
      obtain ⟨hp, -⟩ | ⟨hp, -⟩ := hp
      · cases hp
        obtain ⟨a', ha'⟩ := answer_select hc e s'
        obtain ⟨hburst, hagree'⟩ := act_select [] k hc hagree ha ha'
        exact ⟨_, _, hburst, hagree', rfl, rfl⟩
      · exact absurd hp (by simp)
    cases j with
    | createListing key req => exact hsame hcall hsim.2 fun p hp => ⟨rfl, by rw [hp]⟩
    | updateListing key id req =>
      have hid : hexDecode id = some target := of_decide_eq_true hj
      exact hsame (hcall.1 hid) hsim.2 fun p hp => ⟨rfl, by rw [hp]⟩
    | restartApi =>
      obtain rfl : c = .restartApi := hcall
      exact hsame trivial hsim.2 fun p hp => ⟨rfl, by rw [hp]⟩
    | listListings query =>
      obtain ⟨past'', x'', hburst, hagree', hlen⟩ := hread (.inl hcall.2) hcall.1 hsim.2
      exact ⟨past'', x'', s', hburst, hagree', rfl, .inr hlen⟩
    | getListing key id =>
      obtain ⟨past'', x'', hburst, hagree', hlen⟩ := hread (.inr (.inl hcall.2)) hcall.1 hsim.2
      exact ⟨past'', x'', s', hburst, hagree', rfl, .inr hlen⟩
    | checkListingExpiry =>
      obtain ⟨past'', x'', s'', hburst, hagree', hnext⟩ := PassSim.act hsim.2 hcall ha hagree
      exact ⟨past'', x'', s'', hburst, hagree', rfl, hnext⟩

/-! ## The rows that a run stores -/

/-- The rows of a listing, in the order in which a run has stored them. -/
def stored (target : Bytes) (g : System) : List Listing := log (rowChange target) g.history

/-- A process and its counterpart in another run: a request that writes is served alike. -/
def SameCalls (p p' : Process) : Prop :=
  p'.job = p.job ∧ match p.job with
    | .createListing .. => p'.past = p.past
    | .updateListing .. => p'.past = p.past
    | _ => True

theorem Sim.sameCalls {worker : AppState} {target : Bytes} {p p' : Process}
    (h : Sim worker target p p') : SameCalls p p' := by
  obtain ⟨hjob, hsim⟩ := h
  refine ⟨hjob, ?_⟩
  cases hp : p.job with
  | createListing key req =>
    rw [hp] at hsim
    exact congrArg Proc.past hsim
  | updateListing key id req =>
    rw [hp] at hsim
    exact congrArg Proc.past hsim
  | _ => trivial

/-- The job under another key. -/
def Job.withKey (f : Job → Bytes) : Job → Job
  | .createListing key req => .createListing (f (.createListing key req)) req
  | .getListing key id => .getListing (f (.getListing key id)) id
  | .updateListing key id req => .updateListing (f (.updateListing key id req)) id req
  | j => j

theorem program_withKey (worker : AppState) (f : Job → Bytes) (j : Job) :
    program worker (j.withKey f) = program worker j := by
  cases j <;> rfl

theorem stored_mapJob (target : Bytes) (g : System) (f : Job → Job) :
    stored target (g.mapJob f) = stored target g :=
  List.filterMap_map

/-- **A listing belongs to no key.** The rows that a run stores of it are those of the run without the
requests that do not name it, and of the run with other keys in the place of those that the requests
were authenticated as. -/
theorem listings_belong_to_no_key {worker : AppState} {listings : ListingsTable} {g : System}
    (h : Reaches worker listings g) (target : Bytes) :
    (∃ g', Reachable server (program worker) (fun _ j => j.kept target = true)
        (Shared.initial listings) g' ∧
      List.Forall₂ SameCalls (g.procs.filter fun p => p.job.kept target) g'.procs ∧
      stored target g' = stored target g) ∧
    ∀ f : Job → Bytes, Reaches worker listings (g.mapJob (Job.withKey f)) ∧
      stored target (g.mapJob (Job.withKey f)) = stored target g := by
  constructor
  · obtain ⟨g', hg', -, hsim, hlog⟩ := (simulation worker target).run
      (fun hg => hg.spec fun _ j _ => program_calls worker target j) (Agree.refl target _) h
    exact ⟨g', hg', hsim.imp fun _ _ => Sim.sameCalls, hlog⟩
  · intro f
    exact ⟨Reachable.mapJob (program_withKey worker f) (fun _ _ h => h) h, stored_mapJob target g _⟩

/-! ## A listing that another key changes -/

namespace ListingSample

def worker : AppState := ⟨Primitives.ofTables {}, "", 7, "mainnet", none, none, none⟩

def seller : Bytes := [1]

def create : CreateListingRequest := ⟨"aa", none, none, none, "n"⟩

def target : Bytes := List.replicate 16 7

def update : UpdateListingRequest := ⟨"bb", none, none, none, "n"⟩

/-- The seller creates a listing, and someone else updates it. -/
def labels : List (Label Job Choice) :=
  [.spawn (.createListing seller create), .act 0 {}, .act 0 {}, .act 0 { bytes := target }, .act 0 {},
    .spawn (.updateListing [2] (hexEncode target) update), .act 1 {}, .act 1 {}, .act 1 {}, .act 1 {}]

def row : Listing := ⟨target, [0xaa], 0, none, "active", "XMR", 1⟩

theorem run_passes : (Config.run server (program worker) labels
    ⟨Shared.initial (Table.empty Listing.id), [], []⟩).any (fun g =>
      stored target g = [row, { row with encryptedListingBlob := [0xbb], version := 2 }] ∧
      g.procs.map Proc.job = [.createListing seller create,
        .updateListing [2] (hexEncode target) update]) = true := by
  decide +kernel

/-- Where the run leads. -/
theorem run_stores : ∃ g, Reaches worker (Table.empty Listing.id) g ∧
    stored target g = [row, { row with encryptedListingBlob := [0xbb], version := 2 }] ∧
    g.procs.map Proc.job =
      [.createListing seller create, .updateListing [2] (hexEncode target) update] := by
  obtain ⟨g, hrun, htest⟩ := (Option.any_eq_true _ _).mp run_passes
  exact ⟨g, Reachable.of_run (fun _ _ _ => trivial) Reachable.init hrun, of_decide_eq_true htest⟩

/-- The rule in this run, where no request names another listing. -/
theorem listings_belong_to_no_key_sample :
    ∃ g, Reaches worker (Table.empty Listing.id) g ∧ (stored target g).length = 2 ∧
      ∃ g', Reachable server (program worker) (fun _ j => j.kept target = true)
        (Shared.initial (Table.empty Listing.id)) g' ∧ stored target g' = stored target g := by
  obtain ⟨g, hg, hstored, -⟩ := run_stores
  obtain ⟨⟨g', hg', -, hsame⟩, -⟩ := listings_belong_to_no_key hg target
  exact ⟨g, hg, by rw [hstored]; rfl, g', hg', hsame⟩

/-! The run without the other's request stores the row once. -/

/-- An update by another key than the seller's. -/
def byOther (seller : Bytes) : Job → Bool
  | .updateListing key _ _ => key ≠ seller
  | _ => false

theorem createListing_updates (key : Bytes) (req : CreateListingRequest) :
    Spec server.May (fun _ c => ∀ u, c ≠ .updateListings u) (fun _ _ => True) []
      (program worker (.createListing key req)) := by
  refine spec_map ?_
  unfold createListing
  refine spec_still (decodeBlob_result _) fun blob => ?_
  refine spec_still (decodeSearchToken_result _) fun token => ?_
  refine spec_still (validateLabel_result _ _) fun status => ?_
  refine spec_still (validateLabel_result _ _) fun currency => ?_
  simp

/-- Whatever is stored without an update is stored in its first version. -/
theorem version_of_change {target : Bytes} {c : Call} {e : Choice} {a : c.Ans} {s s₁ : Shared}
    {l : Listing} (hc : ∀ u, c ≠ .updateListings u) (ha : server.answer c e s = some (a, s₁))
    (hl : rowChange target s s₁ = some l) : l.version = 1 := by
  have hsame : s₁.listings = s.listings → l.version = 1 := fun h => by
    rw [rowChange_of_eq (by rw [h])] at hl
    exact absurd hl (by simp)
  cases c with
  | insertListing i =>
    simp only [server] at ha
    split at ha
    · cases ha
      exact hsame rfl
    · split at ha
      · rename_i t ht
        cases ha
        have hfind : t.find target = if target = i.row.id then some i.row else s.listings.find target :=
          (Table.find_insert ht target).2
        unfold rowChange at hl
        split at hl
        · exact absurd hl (by simp)
        · rename_i hne
          change t.find target = some l at hl
          rw [hfind] at hl
          split at hl
          · cases hl
            rfl
          · rename_i hid
            exact absurd (hfind.trans (if_neg hid)) hne
      · cases ha
        exact hsame rfl
  | updateListings u => exact absurd rfl (hc u)
  | _ =>
    refine hsame ?_
    simp only [server] at ha
    repeat' split at ha
    all_goals first
      | cases ha; rfl
      | exact absurd ha (by simp)

/-- **Another key changes the listing that the seller has created**, and in no run that differs only by
the absence of its request does the listing go through the same rows. -/
theorem other_key_changes : ∃ g, Reaches worker (Table.empty Listing.id) g ∧
    (∃ p ∈ g.procs, p.job = .createListing seller create) ∧
    ∀ g', Reachable server (program worker) (fun _ j => byOther seller j = false)
        (Shared.initial (Table.empty Listing.id)) g' →
      List.Forall₂ SameCalls (g.procs.filter fun p => !byOther seller p.job) g'.procs →
      stored target g' ≠ stored target g := by
  obtain ⟨g, hg, hstored, hjobs⟩ := run_stores
  refine ⟨g, hg, ?_, fun g' hg' hsame heq => ?_⟩
  · have hmem : Job.createListing seller create ∈ g.procs.map Proc.job := by simp [hjobs]
    obtain ⟨p, hp, hjob⟩ := List.mem_map.mp hmem
    exact ⟨p, hp, hjob⟩
  · -- only the seller's request is left
    have hcreate : ∀ p ∈ g'.procs, p.job = .createListing seller create := by
      intro p hp
      obtain ⟨i, hi⟩ := List.mem_iff_getElem?.mp hp
      obtain ⟨p₀, hp₀, hjob, -⟩ := forall₂_getElem? hsame.flip hi
      obtain ⟨hmem, hown⟩ := List.mem_filter.mp (List.mem_of_getElem? hp₀)
      have hjob₀ := List.mem_map_of_mem (f := Proc.job) hmem
      rw [hjobs, List.mem_pair] at hjob₀
      rcases hjob₀ with hjob₀ | hjob₀
      · exact hjob.trans hjob₀
      · rw [hjob₀] at hown
        exact absurd hown (by decide)
    have hone : ∀ l ∈ stored target g', l.version = 1 := by
      intro l hl
      obtain ⟨ev, hev, hchange⟩ := List.mem_filterMap.mp hl
      obtain ⟨p, hp, hjob⟩ := hg'.event_job ev hev
      have hspec (j : Job) : Spec server.May
          (fun _ (c : Call) => j = .createListing seller create → ∀ u, c ≠ .updateListings u)
          (fun _ _ => True) [] (program worker j) := by
        by_cases hj : j = .createListing seller create
        · rw [hj]
          exact spec_mono (fun _ _ hc _ => hc) (fun _ _ h => h) (createListing_updates seller create)
        · exact spec_of_forall (fun _ _ h => absurd h hj) fun _ _ => trivial
      obtain ⟨hcall, e, ha⟩ := Reachable.event (fun _ j _ => hspec j) hg' ev hev
      exact version_of_change (hcall (hjob.symm.trans (hcreate p (List.mem_of_getElem? hp)))) ha hchange
    have htwo := hone { row with encryptedListingBlob := [0xbb], version := 2 } (by rw [heq, hstored]; simp)
    exact absurd htwo (by decide)

end ListingSample

end TorMarketplace.Listings
