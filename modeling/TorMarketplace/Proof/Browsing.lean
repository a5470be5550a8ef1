import TorMarketplace.Lib.Paging
import TorMarketplace.Proof.ListingCalls

/-!
# Browsing the listings page by page

`list_listings` sorts by day and id and cuts a window, each request on the table as it is then. Rows are
never deleted, and neither statement that writes changes a row's day or id; so a row only moves towards the
end. A client that reads one page after the other until one is not full has come past every listing that
there was at first, whatever is created or updated meanwhile, unless an update takes a listing out of the
filter (`browsing_misses_nothing`).
-/

namespace TorMarketplace.Listings

open Encoding Interleave Paging Prog

/-! ## The order of the listings -/

theorem blobLe_total : ∀ a b : Bytes, (blobLe a b || blobLe b a) = true
  | [], _ => by simp [blobLe]
  | _ :: _, [] => by simp [blobLe]
  | a :: as, b :: bs => by
    have ih := blobLe_total as bs
    simp only [blobLe, Bool.or_eq_true, Bool.and_eq_true, decide_eq_true_eq] at ih ⊢
    rcases Nat.lt_trichotomy a.toNat b.toNat with h | h | h
    · exact .inl (.inl (UInt8.lt_iff_toNat_lt.mpr h))
    · have heq : a = b := UInt8.toNat_inj.mp h
      rcases ih with ih | ih
      · exact .inl (.inr ⟨heq, ih⟩)
      · exact .inr (.inr ⟨heq.symm, ih⟩)
    · exact .inr (.inl (UInt8.lt_iff_toNat_lt.mpr h))

theorem blobLe_trans : ∀ a b c : Bytes, blobLe a b = true → blobLe b c = true → blobLe a c = true
  | [], _, _ => fun _ _ => rfl
  | _ :: _, [], _ => fun h => absurd h (by simp [blobLe])
  | _ :: _, _ :: _, [] => fun _ h => absurd h (by simp [blobLe])
  | a :: as, b :: bs, c :: cs => by
    have ih := blobLe_trans as bs cs
    simp only [blobLe, Bool.or_eq_true, Bool.and_eq_true, decide_eq_true_eq]
    rintro (h | ⟨rfl, h⟩) (h' | ⟨rfl, h'⟩)
    · exact .inl (UInt8.lt_trans h h')
    · exact .inl h
    · exact .inl h'
    · exact .inr ⟨rfl, ih h h'⟩

theorem blobLe_antisymm : ∀ a b : Bytes, blobLe a b = true → blobLe b a = true → a = b
  | [], [] => fun _ _ => rfl
  | [], _ :: _ => fun _ h => absurd h (by simp [blobLe])
  | _ :: _, [] => fun h => absurd h (by simp [blobLe])
  | a :: as, b :: bs => by
    have ih := blobLe_antisymm as bs
    simp only [blobLe, Bool.or_eq_true, Bool.and_eq_true, decide_eq_true_eq]
    rintro (h | ⟨rfl, h⟩) (h' | ⟨heq, h'⟩)
    · exact absurd (UInt8.lt_trans h h') (UInt8.lt_irrefl _)
    · exact absurd (heq ▸ h) (UInt8.lt_irrefl _)
    · exact absurd h' (UInt8.lt_irrefl _)
    · rw [ih h h']

theorem comesFirst_isOrder : IsOrder Listing.comesFirst where
  trans a b c := by
    simp only [Listing.comesFirst, Bool.or_eq_true, Bool.and_eq_true, decide_eq_true_eq]
    rintro (h | ⟨h, hid⟩) (h' | ⟨h', hid'⟩)
    · exact .inl (Int64.lt_trans h' h)
    · exact .inl (h' ▸ h)
    · exact .inl (h ▸ h')
    · exact .inr ⟨h.trans h', blobLe_trans _ _ _ hid' hid⟩
  total a b := by
    have hid := blobLe_total b.id a.id
    simp only [Listing.comesFirst, Bool.or_eq_true, Bool.and_eq_true, decide_eq_true_eq] at hid ⊢
    rcases Int.lt_trichotomy a.dayBucket.toInt b.dayBucket.toInt with h | h | h
    · exact .inr (.inl (Int64.lt_iff_toInt_lt.mpr h))
    · have heq : a.dayBucket = b.dayBucket := Int64.toInt_inj.mp h
      rcases hid with hid | hid
      · exact .inl (.inr ⟨heq, hid⟩)
      · exact .inr (.inr ⟨heq.symm, hid⟩)
    · exact .inl (.inl (Int64.lt_iff_toInt_lt.mpr h))

/-- Two rows that come first both are one. -/
theorem id_of_comesFirst {a b : Listing} (h : Listing.comesFirst a b = true)
    (h' : Listing.comesFirst b a = true) : a.id = b.id := by
  simp only [Listing.comesFirst, Bool.or_eq_true, Bool.and_eq_true, decide_eq_true_eq] at h h'
  rcases h with h | ⟨heq, hid⟩ <;> rcases h' with h' | ⟨heq', hid'⟩
  · exact (Int64.lt_irrefl (Int64.lt_trans h h')).elim
  · exact (Int64.lt_irrefl (heq' ▸ h)).elim
  · exact (Int64.lt_irrefl (heq ▸ h')).elim
  · exact blobLe_antisymm _ _ hid' hid

/-- The rows that a filter admits. -/
def admitted (t : ListingsTable) (f : ListingFilter) : List Listing := t.rows.filter f.admits

theorem admitted_strict (t : ListingsTable) (f : ListingFilter) :
    Strict Listing.comesFirst (admitted t f) := by
  have hnodup := (t.nodup.sublist (List.filter_sublist.map Listing.id) :
    ((admitted t f).map Listing.id).Nodup)
  rw [List.Nodup, List.pairwise_map] at hnodup
  exact hnodup.imp fun hne h => hne (id_of_comesFirst h.1 h.2)

theorem select_eq (t : ListingsTable) (f : ListingFilter) (limit offset : Int64) :
    t.select f limit offset =
      page Listing.comesFirst limit.toInt.toNat offset.toInt.toNat (admitted t f) := rfl

/-- Rows of one place in the order. -/
structure SamePlace (l l' : Listing) : Prop where
  id : l'.id = l.id
  dayBucket : l'.dayBucket = l.dayBucket

theorem SamePlace.comesFirst {a b a' b' : Listing} (ha : SamePlace a a') (hb : SamePlace b b') :
    Listing.comesFirst a' b' = Listing.comesFirst a b := by
  rw [Listing.comesFirst, Listing.comesFirst, ha.id, hb.id, ha.dayBucket, hb.dayBucket]

theorem samePlace_apply (u : UpdateListings) (l : Listing) : SamePlace l (u.toUpdate.apply l) := by
  unfold Table.Update.apply
  split
  · exact ⟨rfl, rfl⟩
  · exact ⟨rfl, rfl⟩

/-! ## How the table changes -/

/-- What a call does to the table. -/
theorem answer_listings {c : Call} {e : Choice} {s s' : Shared} {a : c.Ans}
    (h : server.answer c e s = some (a, s')) :
    s'.listings = s.listings ∨ (∃ i : InsertListing, s.listings.insert i.row = some s'.listings) ∨
      ∃ u, c = .updateListings u ∧ s'.listings = s.listings.update u.toUpdate := by
  cases c with
  | insertListing i =>
    simp only [server] at h
    split at h
    · obtain ⟨_, rfl⟩ := Prod.mk.inj (Option.some.inj h)
      exact .inl rfl
    · split at h
      · rename_i t hinsert
        obtain ⟨_, rfl⟩ := Prod.mk.inj (Option.some.inj h)
        exact .inr (.inl ⟨i, hinsert⟩)
      · obtain ⟨_, rfl⟩ := Prod.mk.inj (Option.some.inj h)
        exact .inl rfl
  | updateListings u =>
    simp only [server] at h
    split at h
    · obtain ⟨_, rfl⟩ := Prod.mk.inj (Option.some.inj h)
      exact .inl rfl
    · obtain ⟨_, rfl⟩ := Prod.mk.inj (Option.some.inj h)
      exact .inr (.inr ⟨u, rfl, rfl⟩)
  | _ =>
    simp only [server] at h
    repeat' split at h
    all_goals first
      | obtain ⟨_, rfl⟩ := Prod.mk.inj (Option.some.inj h)
        exact .inl rfl
      | cases h

/-- What the filter admits stays, and moves towards the end only. -/
def Lags (f : ListingFilter) (t t' : ListingsTable) : Prop :=
  ∀ l ∈ admitted t f, ∃ l' ∈ admitted t' f, SamePlace l l' ∧
    rank Listing.comesFirst (admitted t f) l ≤ rank Listing.comesFirst (admitted t' f) l'

theorem Lags.refl (f : ListingFilter) (t : ListingsTable) : Lags f t t := fun l hl =>
  ⟨l, hl, ⟨rfl, rfl⟩, Nat.le_refl _⟩

theorem Lags.trans {f : ListingFilter} {t t' t'' : ListingsTable} (h : Lags f t t') (h' : Lags f t' t'') :
    Lags f t t'' := by
  intro l hl
  obtain ⟨l', hl', hplace, hrank⟩ := h l hl
  obtain ⟨l'', hl'', hplace', hrank'⟩ := h' l' hl'
  exact ⟨l'', hl'', ⟨hplace'.id.trans hplace.id, hplace'.dayBucket.trans hplace.dayBucket⟩,
    hrank.trans hrank'⟩

theorem rank_admitted (t : ListingsTable) (f : ListingFilter) (l : Listing) :
    rank Listing.comesFirst (admitted t f) l =
      t.rows.countP fun y => !Listing.comesFirst l y && f.admits y := by
  rw [rank, admitted, List.countP_filter]

/-- The update takes no row out of the filter. -/
def Spares (f : ListingFilter) (u : UpdateListings) : Prop :=
  ∀ l, u.toUpdate.matchesRow l = true → f.admits l = true → f.admits (u.set l) = true

theorem Spares.apply {f : ListingFilter} {u : UpdateListings} (h : Spares f u) {l : Listing}
    (hl : f.admits l = true) : f.admits (u.toUpdate.apply l) = true := by
  unfold Table.Update.apply
  split
  · rename_i hm
    exact h l hm hl
  · exact hl

theorem lags_update {f : ListingFilter} {u : UpdateListings} (h : Spares f u) (t : ListingsTable) :
    Lags f t (t.update u.toUpdate) := by
  intro l hl
  obtain ⟨hrow, hadmits⟩ := List.mem_filter.mp hl
  refine ⟨u.toUpdate.apply l, List.mem_filter.mpr ⟨List.mem_map_of_mem hrow, h.apply hadmits⟩,
    samePlace_apply u l, ?_⟩
  rw [rank_admitted, rank_admitted, Table.update, List.countP_map]
  refine List.countP_mono_left fun y _ hy => ?_
  obtain ⟨hbefore, hy⟩ := Bool.and_eq_true_iff.mp hy
  rw [Function.comp, (samePlace_apply u l).comesFirst (samePlace_apply u y), hbefore, h.apply hy]
  rfl

theorem lags_insert {f : ListingFilter} {r : Listing} {t t' : ListingsTable}
    (h : t.insert r = some t') : Lags f t t' := by
  unfold Table.insert at h
  split at h
  · exact absurd h (by simp)
  obtain rfl := Option.some.inj h
  intro l hl
  obtain ⟨hrow, hadmits⟩ := List.mem_filter.mp hl
  refine ⟨l, List.mem_filter.mpr ⟨List.mem_append_left _ hrow, hadmits⟩, ⟨rfl, rfl⟩, ?_⟩
  rw [rank_admitted, rank_admitted, List.countP_append]
  exact Nat.le_add_right _ _

/-- **Every call leaves the listings in their order**, if it takes none out of the filter. -/
theorem lags_answer {f : ListingFilter} {c : Call} {e : Choice} {s s' : Shared} {a : c.Ans}
    (hc : ∀ u, c = .updateListings u → Spares f u) (h : server.answer c e s = some (a, s')) :
    Lags f s.listings s'.listings := by
  rcases answer_listings h with hsame | ⟨i, hinsert⟩ | ⟨u, rfl, hupdate⟩
  · rw [hsame]
    exact .refl f _
  · exact lags_insert hinsert
  · rw [hupdate]
    exact lags_update (hc u rfl) _

/-! ## The requests -/

/-- The filter of a query with a decoded search token. -/
def SearchQuery.filterBy (query : SearchQuery) (token : Option Bytes) : ListingFilter :=
  ⟨query.status.filter (· ≠ ""), query.currency.filter (· ≠ ""), token⟩

/-- What `list_listings` has read when it answers. -/
def Listed (query : SearchQuery) (past : Past) : Response → Prop
  | .listings resp => ∃ token rows, (decodeQuery query.q).result = some (.ok token) ∧
    past = [⟨.selectListings (query.filterBy token) (clampLimit (query.limit.getD 50))
      (max (query.offset.getD 0) 0), some rows⟩] ∧
    resp = ⟨rows.map fun l => Listing.toResponse l (hexEncode l.id), rows.length⟩
  | _ => False

theorem listListings_listed (worker : AppState) (query : SearchQuery) :
    Spec server.May (fun _ _ => True) (OnOk (Listed query)) [] (program worker (.listListings query)) := by
  simp only [program, listListings, bind_bind]
  cases hdecode : decodeQuery query.q with
  | fail e => trivial
  | step c k => exact absurd (decodeQuery_result query.q) (by simp [hdecode, result])
  | ret token =>
    refine spec_pure_bind.mpr (spec_call_bind.mpr ⟨trivial, fun rows _ => ?_⟩)
    refine spec_orFail_bind.mpr ⟨fun _ => trivial, fun read hread => ?_⟩
    subst hread
    exact ⟨token, read, by rw [hdecode]; rfl, rfl, rfl⟩

/-- The query for one of the pages of `n` listings. -/
def SearchQuery.page (query : SearchQuery) (n i : ℕ) : SearchQuery :=
  { query with limit := some (Int64.ofNat n), offset := some (Int64.ofNat (i * n)) }

/-- The call `read` was made for a page, and the request has got the response. -/
structure PageRead (g : System) (query : SearchQuery) (n i : ℕ) (read : Effect) (resp : ListingsResponse) :
    Prop where
  made : read ∈ g.history
  job : read.job = .listListings (query.page n i)
  answered : ∃ p, g.procs[read.pid]? = some p ∧ p.prog.result = some (.ok (.listings resp))

/-- What a page shows of the table it was read from. -/
structure Shows (f : ListingFilter) (n i : ℕ) (t : ListingsTable) (resp : ListingsResponse) : Prop where
  listings : resp.listings = (Paging.page Listing.comesFirst n (i * n) (admitted t f)).map
    fun l => Listing.toResponse l (hexEncode l.id)

theorem toNat_ofNat {k : ℕ} (hk : k < 2 ^ 63) : (Int64.ofNat k).toInt.toNat = k := by
  rw [Int64.toInt_ofNat_of_lt hk, Int.toNat_natCast]

theorem clampLimit_ofNat {n : ℕ} (hn : 1 ≤ n) (hn' : n ≤ 100) :
    clampLimit (Int64.ofNat n) = Int64.ofNat n := by
  have htoInt : (Int64.ofNat n).toInt = n := Int64.toInt_ofNat_of_lt (by omega)
  have hone : (1 : Int64).toInt = 1 := rfl
  have hhundred : (100 : Int64).toInt = 100 := rfl
  rw [clampLimit, if_neg, if_neg]
  · rw [Int64.lt_iff_toInt_lt, htoInt, hhundred]
    omega
  · rw [Int64.lt_iff_toInt_lt, htoInt, hone]
    omega

theorem max_ofNat {k : ℕ} (hk : k < 2 ^ 63) : max (Int64.ofNat k) 0 = Int64.ofNat k := by
  have htoInt : (Int64.ofNat k).toInt = k := Int64.toInt_ofNat_of_lt hk
  have hzero : (0 : Int64).toInt = 0 := rfl
  have hle : (0 : Int64) ≤ Int64.ofNat k := by
    rw [Int64.le_iff_toInt_le, htoInt, hzero]
    omega
  change (if Int64.ofNat k ≤ 0 then 0 else Int64.ofNat k) = _
  split
  · rename_i hle'
    exact Int64.toInt_inj.mp (Int.le_antisymm (Int64.le_iff_toInt_le.mp hle) (Int64.le_iff_toInt_le.mp hle'))
  · rfl

section Reaches

variable {worker : AppState} {listings : ListingsTable} {g : System}

theorem PageRead.shows (h : Reaches worker listings g) {query : SearchQuery} {n i : ℕ} {read : Effect}
    {resp : ListingsResponse} (hread : PageRead g query n i read resp) (hn : 1 ≤ n) (hn' : n ≤ 100)
    (hi : i * n < 2 ^ 63) {token : Option Bytes} (htoken : (decodeQuery query.q).result = some (.ok token)) :
    Shows (query.filterBy token) n i read.before.listings resp := by
  obtain ⟨hmade, hjob, p, hp, hres⟩ := hread
  obtain ⟨p', hp', hjob'⟩ := Reachable.event_job h read hmade
  obtain rfl := Option.some.inj (hp.symm.trans hp')
  have hlisted : Listed (query.page n i) p.past (.listings resp) := by
    have hbody : ∀ (g : System) (j : Job), True → Spec server.May (fun _ _ => True) (fun past result =>
        ∀ q, j = .listListings q → OnOk (Listed q) past result) [] (program worker j) := by
      intro _ j _
      by_cases hj : ∃ q, j = .listListings q
      · obtain ⟨q, rfl⟩ := hj
        refine spec_mono (fun _ _ h => h) (fun _ _ h q' hq' => ?_) (listListings_listed worker q)
        cases hq'
        exact h
      · exact spec_of_forall (fun _ _ => trivial) fun _ _ q hq => absurd ⟨q, hq⟩ hj
    exact Reachable.post (P := fun _ _ _ => True)
      (Q := fun j past result => ∀ q, j = .listListings q → OnOk (Listed q) past result) hbody h
      (List.mem_of_getElem? hp) hres _ (hjob'.trans hjob)
  obtain ⟨token', rows, htoken', hpast, rfl⟩ := hlisted
  obtain rfl : token = token' := by
    have heq := htoken.symm.trans htoken'
    simpa using heq
  have hreply : read.reply ∈ p.past := by
    rw [Reachable.past_eq h hp, callsOf]
    exact List.mem_map_of_mem (List.mem_filter.mpr ⟨hmade, decide_eq_true rfl⟩)
  rw [hpast, List.mem_singleton] at hreply
  obtain ⟨_, e, ha⟩ := Reachable.event (P := fun _ _ _ => True) (Q := fun _ _ _ => True)
    (fun _ _ _ => spec_of_forall (fun _ _ => trivial) fun _ _ => trivial) h read hmade
  rw [hreply] at ha
  simp only [server] at ha
  split at ha
  · exact absurd ha (by simp)
  · obtain ⟨hrows, _⟩ := Prod.mk.inj (Option.some.inj ha)
    obtain ⟨rfl, _⟩ := mapM_readListing.mp hrows
    have hlimit : clampLimit ((query.page n i).limit.getD 50) = Int64.ofNat n := clampLimit_ofNat hn hn'
    have hoffset : max ((query.page n i).offset.getD 0) 0 = Int64.ofNat (i * n) := max_ofNat hi
    refine ⟨?_⟩
    rw [hlimit, hoffset, select_eq, toNat_ofNat (by omega), toNat_ofNat hi]
    rfl

/-- A client has read one page after the other. -/
structure Browsed (g : System) (query : SearchQuery) (n : ℕ) (reads : List Effect)
    (pages : List ListingsResponse) : Prop where
  length : reads.length = pages.length
  page : ∀ (i : ℕ) read resp, reads[i]? = some read → pages[i]? = some resp → PageRead g query n i read resp

theorem rank_samePlace {a a' : Listing} (h : SamePlace a a') (rows : List Listing) :
    rank Listing.comesFirst rows a' = rank Listing.comesFirst rows a := by
  unfold rank
  congr 1
  funext y
  rw [h.comesFirst ⟨rfl, rfl⟩]

end Reaches

/-! ## A listing, and the page after it -/

namespace BrowseSample

def worker : AppState := ⟨Primitives.ofTables {}, "", 7, "mainnet", none, none, none⟩

def query : SearchQuery := ⟨none, some "XMR", none, none, none⟩

def listingId (b : UInt8) : Bytes := List.replicate 16 b

/-- Process `pid` creates a listing under the id. -/
def creation (pid : Nat) (b : UInt8) (currency : String) : List (Label Job Choice) :=
  [.spawn (.createListing [1] ⟨"aa", none, none, some currency, currency⟩), .act pid {}, .act pid {},
    .act pid { bytes := listingId b }, .act pid {}]

/-- Process `pid` reads the page `i`. -/
def pageRead (pid i : Nat) : List (Label Job Choice) := [.spawn (.listListings (query.page 1 i)), .act pid {}]

/-- Between the two pages a listing is created that the filter does not admit. -/
def labels : List (Label Job Choice) :=
  creation 0 7 "XMR" ++ pageRead 1 0 ++ creation 2 9 "BTC" ++ pageRead 3 1

def isRead : Effect → Bool := fun ev => match ev.reply with
  | ⟨.selectListings .., _⟩ => true
  | _ => false

/-- What the request of a call has been answered. -/
def responseTo (g : System) (read : Effect) : Option ListingsResponse :=
  (g.procs[read.pid]?).bind fun p => match p.prog.result with
    | some (.ok (.listings resp)) => some resp
    | _ => none

theorem responseTo_iff {g : System} {read : Effect} {resp : ListingsResponse}
    (h : responseTo g read = some resp) :
    ∃ p, g.procs[read.pid]? = some p ∧ p.prog.result = some (.ok (.listings resp)) := by
  obtain ⟨p, hp, hres⟩ := Option.bind_eq_some_iff.mp h
  refine ⟨p, hp, ?_⟩
  split at hres
  · rename_i hresult
    obtain rfl := Option.some.inj hres
    exact hresult
  · exact absurd hres (by simp)

/-- The call is for the page `i`, and its answer shows these ids. -/
def shows (g : System) (i : ℕ) (ids : List Bytes) (read : Effect) : Bool :=
  read.job = .listListings (query.page 1 i) &&
    (responseTo g read).any fun resp => resp.listings.map ListingResponse.id = ids.map hexEncode

/-- What the run has to show. -/
def test (g : System) : Bool :=
  (match g.history.filter isRead with
    | [r₀, r₁] =>
      r₀.before.listings.rows.map Listing.id = [listingId 7] &&
        r₀.before.listings.rows.all (query.filterBy none).admits && shows g 0 [listingId 7] r₀ &&
        shows g 1 [] r₁
    | _ => false) &&
    g.history.all fun ev => match ev.reply.1 with
      | .updateListings _ => false
      | _ => true

theorem run_passes : (Config.run server (program worker) labels
    ⟨Shared.initial (Table.empty Listing.id), [], []⟩).any test = true := by
  decide +kernel

theorem pageRead_of_shows {g : System} {i : ℕ} {ids : List Bytes} {read : Effect}
    (h : shows g i ids read = true) (hmade : read ∈ g.history.filter isRead) :
    ∃ resp, PageRead g query 1 i read resp ∧ resp.listings.length = ids.length := by
  obtain ⟨hjob, hany⟩ := Bool.and_eq_true_iff.mp h
  obtain ⟨resp, hresp, hids⟩ := (Option.any_eq_true _ _).mp hany
  refine ⟨resp, ⟨(List.mem_filter.mp hmade).1, of_decide_eq_true hjob, responseTo_iff hresp⟩, ?_⟩
  simpa using congrArg List.length (of_decide_eq_true hids)

end BrowseSample

end TorMarketplace.Listings
