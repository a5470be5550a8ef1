import TorMarketplace.Proof.TimeLocks

/-!
# The expiry of a new order

`create_order` stores the bucket of its clock and, so many days later, the bucket of the expiry. The
days are any `u64` that the request names: they are read as an `i64`, multiplied and added with
saturation, and rounded to a bucket. `orderExpiry_toInt` says what comes out of it over the integers.
-/

namespace TorMarketplace

open Encoding Interleave Prog

/-- The expiry bucket of an order made at `time`, to be locked for so many days. -/
def orderExpiry (time : Int64) (days : UInt64) : Int64 :=
  floorTimestamp6h (saturatingAdd (floorTimestamp6h time) (saturatingMul days.toInt64 86400))

/-- A run of `create_order` whose request asks for `days` and whose clock shows `time` inserts `row`. -/
def StoresOrder (st : AppState) (time : Int64) (days : UInt64) (row : InsertOrders) : Prop :=
  ∃ (req : CreateOrderRequest) (past : Past) (resp : OrderResponse),
    req.timeLockDays = some days ∧
      Yields (fun _ _ => True) [] (createOrder st req) past (.ok resp) ∧
      ⟨.now, time⟩ ∈ past ∧ ⟨.insertOrder row, some ()⟩ ∈ past

/-! ## What is stored -/

section Stored

variable {st : AppState} {time : Int64} {days : UInt64} {row : InsertOrders}

/-- Whatever `create_order` is answered, the buckets it stores are those of its one clock reading. -/
theorem createOrder_buckets (st : AppState) (req : CreateOrderRequest) :
    Spec (fun _ _ => True) (fun _ _ => True)
      (OnOk fun past _ => ∀ time row, ⟨.now, time⟩ ∈ past → ⟨.insertOrder row, some ()⟩ ∈ past →
        row.dayBucket = floorTimestamp6h time ∧
          row.expiryBucket = some (orderExpiry time (req.timeLockDays.getD st.defaultLockDays)))
      [] (createOrder st req) := by
  simp only [createOrder, spec_orFail_bind, spec_ensure_bind, spec_call_bind, spec_pure, onOk_error,
    onOk_ok, implies_true, true_and, List.nil_append, List.cons_append]
  intro blob _ _ _ fresh _ _ time _ orderId _ done _ _ _ time' row htime hrow
  obtain rfl : time' = time := by simpa using htime
  simp only [List.mem_cons, List.not_mem_nil, Sigma.mk.injEq, Call.insertOrder.injEq, reduceCtorEq,
    false_and, false_or, or_false] at hrow
  obtain ⟨rfl, -⟩ := hrow
  exact ⟨rfl, rfl⟩

theorem StoresOrder.buckets (h : StoresOrder st time days row) :
    row.dayBucket = floorTimestamp6h time ∧ row.expiryBucket = some (orderExpiry time days) := by
  obtain ⟨req, past, resp, hdays, hrun, htime, hrow⟩ := h
  have hbuckets := (createOrder_buckets st req).yields hrun time row htime hrow
  rwa [hdays, Option.getD_some] at hbuckets

/-- Any number of days is accepted, at any time. -/
theorem storesOrder (st : AppState) (time : Int64) (days : UInt64) :
    StoresOrder st time days ⟨[], [0], floorTimestamp6h time, some (orderExpiry time days)⟩ := by
  let row : InsertOrders := ⟨[], [0], floorTimestamp6h time, some (orderExpiry time days)⟩
  have hblob : base64Decode "AA==" = some [0] := by decide +kernel
  have hrun : createOrder st ⟨"AA==", some days, ""⟩ =
      exec (.insertNonce .createOrder "") >>= fun fresh =>
      ensure fresh (conflict "Create-order nonce already used") >>= fun _ =>
      exec .now >>= fun t => ask (.randomBytes 16) >>= fun orderId =>
      exec (.insertOrder ⟨orderId, [0], floorTimestamp6h t, some (orderExpiry t days)⟩) >>= fun done =>
      orFail done dbError >>= fun _ => pure
        ⟨hexEncode orderId, some "AA==", floorTimestamp6h t, some (orderExpiry t days), 1, false⟩ := by
    rw [createOrder, hblob]
    rfl
  refine ⟨⟨"AA==", some days, ""⟩, [⟨.insertNonce .createOrder "", true⟩, ⟨.now, time⟩,
    ⟨.ask (.randomBytes 16), []⟩, ⟨.insertOrder row, some ()⟩],
    ⟨hexEncode [], some "AA==", row.dayBucket, row.expiryBucket, 1, false⟩, rfl, ?_, by simp, by simp [row]⟩
  rw [hrun]
  refine .step (a := true) trivial (.step (a := time) trivial (.step (a := []) trivial ?_))
  change Yields _ _ (.step (I := Server) (.insertOrder row) _) _ _
  exact .step (a := some ()) trivial .ret

end Stored

/-! ## Over the integers -/

variable {time : Int64} {days : UInt64}

/-- A bucket is a multiple of six hours. -/
theorem floorTimestamp6h_dvd (time : Int64) : (21600 : Int) ∣ (floorTimestamp6h time).toInt := by
  rw [floorTimestamp6h_toInt]
  exact Int.dvd_mul_left _ _

/-- Rounding toward zero, by the sign. -/
theorem tdiv_bucket (n : Int) :
    n.tdiv 21600 * 21600 = if 0 ≤ n then n / 21600 * 21600 else -(-n / 21600 * 21600) := by
  split
  case isTrue h => rw [Int.tdiv_eq_ediv_of_nonneg h]
  case isFalse h =>
    have hneg : (-n).tdiv 21600 = -n / 21600 := Int.tdiv_eq_ediv_of_nonneg (by omega)
    rw [← hneg, Int.neg_tdiv]
    omega

/-- The days as an `i64`: from 2^63 on they are negative. -/
theorem lockDays_toInt (days : UInt64) :
    days.toInt64.toInt = if days.toNat < 2 ^ 63 then (days.toNat : Int) else days.toNat - 2 ^ 64 := by
  change days.toBitVec.toInt = _
  rw [BitVec.toInt_eq_toNat_cond, UInt64.toNat_toBitVec]
  split <;> split <;> omega

theorem orderExpiry_toInt (time : Int64) (days : UInt64) :
    (orderExpiry time days).toInt =
      (clampI64 ((floorTimestamp6h time).toInt + clampI64 (days.toInt64.toInt * 86400))).tdiv 21600 *
        21600 := by
  rw [orderExpiry, floorTimestamp6h_toInt, saturatingAdd_toInt, saturatingMul_toInt]
  rfl

/-- **More days, a later expiry**, as long as the days are no negative `i64`. -/
theorem orderExpiry_mono {fewer : UInt64} (h : days.toNat < 2 ^ 63) (hle : fewer ≤ days) :
    orderExpiry time fewer ≤ orderExpiry time days := by
  have hle : fewer.toNat ≤ days.toNat := UInt64.le_iff_toNat_le.mp hle
  rw [Int64.le_iff_toInt_le, orderExpiry_toInt, orderExpiry_toInt, lockDays_toInt, lockDays_toInt,
    if_pos h, if_pos (by omega), tdiv_bucket, tdiv_bucket]
  simp only [clampI64]
  omega

/-- An order never expires before it is made, as long as the days are no negative `i64`. -/
theorem le_orderExpiry (h : days.toNat < 2 ^ 63) : floorTimestamp6h time ≤ orderExpiry time days := by
  have hdvd := floorTimestamp6h_dvd time
  have hlt := Int64.toInt_lt (floorTimestamp6h time)
  rw [Int64.le_iff_toInt_le, orderExpiry_toInt, lockDays_toInt, if_pos h, tdiv_bucket]
  simp only [clampI64]
  omega

/-- **Days from 2^63 on**: the lock runs backwards, so that one day would be later. -/
theorem orderExpiry_lt_one (h : 2 ^ 63 ≤ days.toNat) : orderExpiry time days < orderExpiry time 1 := by
  have hdvd := floorTimestamp6h_dvd time
  have hlt := Int64.toInt_lt (floorTimestamp6h time)
  have hle := Int64.le_toInt (floorTimestamp6h time)
  have hdays := days.toNat_lt
  rw [Int64.lt_iff_toInt_lt, orderExpiry_toInt, orderExpiry_toInt, lockDays_toInt, lockDays_toInt,
    if_neg (by omega), if_pos (by decide), tdiv_bucket, tdiv_bucket,
    show ((1 : UInt64).toNat : Int) = 1 from rfl]
  simp only [clampI64]
  omega

/-- **The exact expiry**, unless the days as seconds leave the `i64` before a negative bucket is added
to them. -/
theorem orderExpiry_exact_iff (h : days.toNat < 2 ^ 63)
    (hfits : (floorTimestamp6h time).toInt + 86400 * days.toNat < 2 ^ 63) :
    (orderExpiry time days).toInt =
        ((floorTimestamp6h time).toInt + 86400 * days.toNat) / 21600 * 21600 ↔
      86400 * days.toNat < 2 ^ 63 := by
  have hdvd := floorTimestamp6h_dvd time
  have hle := Int64.le_toInt (floorTimestamp6h time)
  rw [orderExpiry_toInt, lockDays_toInt, if_pos h, tdiv_bucket]
  simp only [clampI64]
  omega

/-! ## The law of the expiry -/

/-- What the expiry of an order made at `time` with a lock of so many days should be: not before the
order's own bucket, the later the more days, and exact where an `i64` holds it. -/
structure ExpiryLaw (st : AppState) (time : Int64) (days : UInt64) : Prop where
  after : ∀ row, StoresOrder st time days row →
    ∃ expiry, row.expiryBucket = some expiry ∧ row.dayBucket ≤ expiry
  mono : ∀ fewer row row' expiry expiry', fewer ≤ days → StoresOrder st time fewer row →
    StoresOrder st time days row' → row.expiryBucket = some expiry →
      row'.expiryBucket = some expiry' → expiry ≤ expiry'
  exact : ∀ row expiry, StoresOrder st time days row → row.expiryBucket = some expiry →
    IsI64 (row.dayBucket.toInt + 86400 * days.toNat) →
      expiry.toInt = (row.dayBucket.toInt + 86400 * days.toNat) / 21600 * 21600

variable {st : AppState}

/-- Where the days are a negative `i64`, one day is stored with the later expiry. -/
theorem ExpiryLaw.lt (h : ExpiryLaw st time days) : days.toNat < 2 ^ 63 := by
  by_contra hge
  have hge : 2 ^ 63 ≤ days.toNat := by omega
  have hone : (1 : UInt64) ≤ days := by
    rw [UInt64.le_iff_toNat_le, show (1 : UInt64).toNat = 1 from rfl]
    omega
  have hle := h.mono 1 _ _ _ _ hone (storesOrder st time 1) (storesOrder st time days) rfl rfl
  have hlt : orderExpiry time days < orderExpiry time 1 := orderExpiry_lt_one hge
  rw [Int64.lt_iff_toInt_lt] at hlt
  rw [Int64.le_iff_toInt_le] at hle
  omega

/-- **The law holds exactly for days that are no negative `i64`**, and whose seconds are only too many
for an `i64` if they still are after the bucket of a clock before 1970 is added. -/
theorem order_expiry_iff (st : AppState) (time : Int64) (days : UInt64) :
    ExpiryLaw st time days ↔ days.toNat < 2 ^ 63 ∧
      (2 ^ 63 ≤ 86400 * days.toNat →
        2 ^ 63 ≤ (floorTimestamp6h time).toInt + 86400 * days.toNat) := by
  constructor
  · intro h
    refine ⟨h.lt, fun hover => ?_⟩
    by_contra hfits
    have hle := Int64.le_toInt (floorTimestamp6h time)
    have hrange : IsI64 ((floorTimestamp6h time).toInt + 86400 * days.toNat) := ⟨by omega, by omega⟩
    have hexact := h.exact _ _ (storesOrder st time days) rfl hrange
    have := (orderExpiry_exact_iff h.lt hrange.2).mp hexact
    omega
  · rintro ⟨hdays, hover⟩
    constructor
    · intro row hrow
      obtain ⟨hday, hexpiry⟩ := hrow.buckets
      exact ⟨_, hexpiry, hday ▸ le_orderExpiry hdays⟩
    · intro fewer row row' expiry expiry' hle hrow hrow' hexpiry hexpiry'
      obtain rfl := Option.some.inj (hrow.buckets.2.symm.trans hexpiry)
      obtain rfl := Option.some.inj (hrow'.buckets.2.symm.trans hexpiry')
      exact orderExpiry_mono hdays hle
    · intro row expiry hrow hexpiry hfits
      obtain ⟨hday, hstored⟩ := hrow.buckets
      obtain rfl := Option.some.inj (hstored.symm.trans hexpiry)
      rw [hday] at hfits ⊢
      have := hfits.2
      exact (orderExpiry_exact_iff hdays this).mpr (by omega)

/-- An API without keys, which locks orders for a fortnight. -/
def fortnightApi : AppState := ⟨Primitives.ofTables {}, "", 14, "mainnet", none, none, none⟩

/-- **The largest number of days locks an order into the past**: its expiry is a day before its own
bucket. -/
theorem expired_when_created :
    ∃ row, StoresOrder fortnightApi 1700000000 18446744073709551615 row ∧ row.dayBucket = 1699984800 ∧
      row.expiryBucket = some 1699898400 := by
  refine ⟨_, storesOrder fortnightApi _ _, by decide, ?_⟩
  change some (orderExpiry _ _) = _
  decide

end TorMarketplace
