import TorMarketplace.Background.DummyOrders
import TorMarketplace.Lib.Run

/-!
# What the dummy worker draws

Every execution of `run_dummy_worker` over every stream of draws. `Runs` carries what is proved of a
part of it: whether it ends well is decided by the address indexes alone (`InTable`), and a result
satisfies `R`. From the whole follow when the worker panics (`dummy_worker_panics_iff`) and when the
order it inserts looks like one that came about (`dummy_order_reachable_iff`).
-/

namespace TorMarketplace

open Draws Encoding Interleave Prog

namespace DummyWorker

/-! ## Draws -/

/-- Every index of an address that was drawn is in the table. -/
def InTable (past : List (Reply Drawing)) : Prop :=
  ∀ n : Int, (⟨.range 0 32, n⟩ : Reply Drawing) ∈ past → n < 29

/-- The numbers of `gen::<f64>()`, in order. -/
def units (past : List (Reply Drawing)) : List Rat :=
  past.filterMap fun r =>
    match r with
    | ⟨.unit, x⟩ => some x
    | _ => none

section Runs

variable {α β : Type} {R : List (Reply Drawing) → α → Prop} {S : List (Reply Drawing) → β → Prop}
variable {past : List (Reply Drawing)}

/-- A result with the indexes in the table, or a panic without. -/
def Safe (R : List (Reply Drawing) → α → Prop) (past : List (Reply Drawing)) : Except Panic α → Prop
  | .ok a => InTable past ∧ R past a
  | .error _ => ¬ InTable past

/-- Whatever is drawn, `x` ends in such a way. -/
abbrev Runs (R : List (Reply Drawing) → α → Prop) (past : List (Reply Drawing)) (x : Gen α) : Prop :=
  Spec Drawn (fun _ _ => True) (Safe R) past x

theorem runs_pure {a : α} (h : InTable past) (ha : R past a) : Runs R past (pure a) := ⟨h, ha⟩

theorem runs_bind {x : Gen α} {f : α → Gen β} (hx : Runs R past x)
    (hf : ∀ past' a, past <+: past' → InTable past' → R past' a → Runs S past' (f a)) :
    Runs S past (x >>= f) := by
  have hbegins : Spec Drawn (fun _ _ => True) (fun p r => Safe R p r ∧ past <+: p) past x :=
    spec_mono (fun _ _ _ => trivial) (fun _ _ h => h) (spec_begins List.prefix_rfl hx)
  exact spec_seq hbegins (fun past' a h => hf past' a h.2 h.1.1 h.1.2) fun _ _ h => h.1

theorem runs_mono {R' : List (Reply Drawing) → α → Prop} {x : Gen α} (hx : Runs R past x)
    (h : ∀ past' a, R past' a → R' past' a) : Runs R' past x := by
  refine spec_mono (fun _ _ h => h) (fun past' r hr => ?_) hx
  cases r with
  | ok a => exact ⟨hr.1, h past' a hr.2⟩
  | error e => exact hr

theorem runs_begins {x : Gen α} (hx : Runs R past x) :
    Runs (fun past' a => past <+: past' ∧ R past' a) past x := by
  refine spec_mono (fun _ _ _ => trivial) (fun past' r hr => ?_) (spec_begins List.prefix_rfl hx)
  cases r with
  | ok a => exact ⟨hr.1.1, hr.2, hr.1.2⟩
  | error e => exact hr.1

/-- A draw of anything but an index. -/
theorem InTable.append {c : Draw} {a : c.Ans} (h : InTable past) (hc : c ≠ .range 0 32) :
    InTable (past ++ [⟨c, a⟩]) := by
  intro n hn
  rcases List.mem_append.mp hn with hn | hn
  · exact h n hn
  · obtain rfl := congrArg Sigma.fst (List.mem_singleton.mp hn)
    exact absurd rfl hc

theorem runs_call {c : Draw} (h : InTable past) (hc : c ≠ .range 0 32) :
    Runs (fun past' a => past' = past ++ [⟨c, a⟩] ∧ Drawn c a) past (call (I := Drawing) c) :=
  ⟨trivial, fun _ ha => ⟨h.append hc, rfl, ha⟩⟩

theorem units_append {c : Draw} {a : c.Ans} (hc : c ≠ .unit) : units (past ++ [⟨c, a⟩]) = units past := by
  rw [units, List.filterMap_append]
  cases c with
  | unit => exact absurd rfl hc
  | range => exact List.append_nil _
  | bool => exact List.append_nil _
  | bytes => exact List.append_nil _

theorem runs_genRange {lo hi : Int} (h : InTable past) (hlo : lo < hi)
    (hc : Draw.range lo hi ≠ .range 0 32) :
    Runs (fun past' n => (lo ≤ n ∧ n < hi) ∧ units past' = units past) past (genRange lo hi) := by
  unfold genRange
  rw [if_pos hlo]
  refine runs_mono (runs_call h hc) fun _ _ ha => ⟨ha.2, ?_⟩
  rw [ha.1, units_append (by simp)]

theorem runs_genBool {p : Rat} (h : InTable past) :
    Runs (fun past' _ => units past' = units past) past (genBool p) :=
  runs_mono (runs_call h (by simp)) fun _ _ ha => by rw [ha.1, units_append (by simp)]

theorem runs_genBytes {n : Nat} (h : InTable past) :
    Runs (fun past' _ => units past' = units past) past (genBytes n) :=
  runs_mono (runs_call h (by simp)) fun _ _ ha => by rw [ha.1, units_append (by simp)]

theorem runs_randomHex {n : Nat} (h : InTable past) : Runs (fun _ _ => True) past (randomHex n) :=
  runs_bind (runs_genBytes h) fun _ _ _ h _ => runs_pure h trivial

theorem runs_checked {n : Int} (h : InTable past) (hn : -2 ^ 63 ≤ n ∧ n < 2 ^ 63) :
    Runs (fun past' t => t.toInt = n ∧ units past' = units past) past (checked n) := by
  rw [checked_eq hn]
  exact runs_pure h ⟨toInt_ofInt hn, rfl⟩

theorem runs_divided {a b : Int64} (h : InTable past) (hb : b ≠ 0)
    (ha : -2 ^ 62 ≤ a.toInt ∧ a.toInt ≤ 2 ^ 62) :
    Runs (fun past' t => t.toInt = a.toInt.tdiv b.toInt ∧ units past' = units past) past
      (divided a b) := by
  unfold divided
  rw [if_neg hb]
  have habs := Int.natAbs_tdiv_le_natAbs a.toInt b.toInt
  exact runs_checked h (by omega)

/-- `floor_timestamp_6h` does not move a time away from the epoch. -/
theorem runs_floored {ts : Int64} (h : InTable past)
    (hts : -2 ^ 62 ≤ ts.toInt ∧ ts.toInt ≤ 2 ^ 62) :
    Runs (fun past' t => t.toInt.natAbs ≤ ts.toInt.natAbs ∧ units past' = units past) past
      (floored ts) := by
  unfold floored
  refine runs_bind (runs_divided h (by decide) hts) fun _ q _ h hq => ?_
  have habs : (q.toInt * 21600).natAbs ≤ ts.toInt.natAbs := by
    rw [Int.natAbs_mul, hq.1, Int.natAbs_tdiv]
    exact Nat.div_mul_le_self _ _
  refine runs_mono (runs_checked h (by omega)) fun _ t ht => ⟨?_, ht.2.trans hq.2⟩
  rw [ht.1]
  exact habs

theorem runs_mapEach {f : β → Gen α} {T : α → Prop} {l : List β} (h : InTable past)
    (hf : ∀ x ∈ l, ∀ past, InTable past → Runs (fun _ a => T a) past (f x)) :
    Runs (fun _ as => ∀ a ∈ as, T a) past (mapEach f l) := by
  refine spec_mapEach InTable T (fun _ _ h has => ⟨h, has⟩) (fun x hx past' h' => ?_) h
  refine spec_mono (fun _ _ h => h) (fun p r hr => ?_) (hf x hx past' h')
  cases r with
  | ok _ => exact hr
  | error _ => exact hr

theorem runs_genOption {b : Bool} {x : Gen α} (h : InTable past)
    (hx : Runs (fun _ _ => True) past x) : Runs (fun _ _ => True) past (genOption b x) := by
  unfold genOption
  split
  · exact runs_bind hx fun _ _ _ h _ => runs_pure h trivial
  · exact runs_pure h trivial

end Runs

/-! ## States and stamps -/

section Stamps

variable {past : List (Reply Drawing)}

/-- What a roll asks for, in the order in which it is done: funding, shipping, confirmation, dispute,
release, refund. -/
def wanted (roll : Rat) : List Bool :=
  [percent 15 ≤ roll, percent 35 ≤ roll, within 50 60 roll || percent 85 ≤ roll,
    within 60 70 roll || within 70 95 roll, within 70 85 roll, within 85 95 roll]

def Stamps.list (st : Stamps) : List (Option Int64) :=
  [st.funded, st.shipped, st.confirmed, st.disputed, st.released, st.refunded]

/-- The stamps of a roll: `times` are the values of `cur` after each step. -/
structure StampsOf (roll : Rat) (createdAt : Int64) (times : List Int64) (st : Stamps) : Prop where
  state : st.state = stateOf roll
  stamps : st.list = List.zipWith (fun (b : Bool) t => if b then some t else none) (wanted roll) times
  length : times.length = 6
  sorted : (createdAt :: times).Pairwise fun a b => a.toInt ≤ b.toInt
  bounded : ∀ t ∈ times, t.toInt ≤ createdAt.toInt + 1036800

theorem runs_step {t : Int64} (h : InTable past) (ht : -2 ^ 60 ≤ t.toInt ∧ t.toInt ≤ 2 ^ 60) :
    Runs (fun _ t' => t.toInt ≤ t'.toInt ∧ t'.toInt ≤ t.toInt + 172800) past (step t) := by
  refine runs_bind (runs_genRange h (by decide) (by decide)) fun _ n _ h hn => ?_
  refine runs_mono (runs_checked h (by omega)) fun _ t' ht' => ?_
  omega

/-- `cur` after a step, and the stamp of the step. -/
structure Stepped (b : Bool) (cur cur' : Int64) (stamp : Option Int64) : Prop where
  lower : cur.toInt ≤ cur'.toInt
  upper : cur'.toInt ≤ cur.toInt + 172800
  stamp : stamp = if b then some cur' else none

theorem runs_stepIf {b : Bool} {cur : Int64} (h : InTable past)
    (hcur : -2 ^ 60 ≤ cur.toInt ∧ cur.toInt ≤ 2 ^ 60) :
    Runs (fun _ r => Stepped b cur r.1 r.2) past (stepIf b cur) := by
  cases b with
  | false => exact runs_pure h ⟨Int.le_refl _, Int.le_add_of_nonneg_right (by decide), rfl⟩
  | true =>
    exact runs_bind (runs_step h hcur) fun _ t _ h ht => runs_pure h ⟨ht.1, ht.2, rfl⟩

theorem units_getElem? {past' : List (Reply Drawing)} {i : Nat} {x : Rat} (h : past <+: past')
    (hx : (units past)[i]? = some x) : (units past')[i]? = some x := by
  obtain ⟨rest, rfl⟩ := h
  rw [units, List.filterMap_append, List.getElem?_append_left]
  · exact hx
  · exact (List.getElem?_eq_some_iff.mp hx).1

/-- **The stamps are those of the second number drawn.** -/
theorem runs_generateState {prob : Rat} {createdAt : Int64} (h : InTable past)
    (hprob : units past = [prob])
    (hcreated : -2 ^ 59 ≤ createdAt.toInt ∧ createdAt.toInt ≤ 2 ^ 59) :
    Runs (fun past' st => ∃ roll times, (units past')[1]? = some roll ∧
      StampsOf roll createdAt times st) past (generateStateWithTimestamps createdAt) := by
  refine runs_bind (runs_call h (by simp)) fun past₁ roll _ h hroll => ?_
  have hunits : (units past₁)[1]? = some roll := by
    rw [hroll.1, units, List.filterMap_append]
    change (units past ++ [roll])[1]? = some roll
    rw [hprob]
    rfl
  refine runs_bind (runs_stepIf h (by omega)) fun _ ⟨c₁, funded⟩ p₁ h h₁ => ?_
  obtain ⟨l₁, u₁, s₁⟩ : Stepped _ _ c₁ funded := h₁
  refine runs_bind (runs_stepIf h (by omega)) fun _ ⟨c₂, shipped⟩ p₂ h h₂ => ?_
  obtain ⟨l₂, u₂, s₂⟩ : Stepped _ _ c₂ shipped := h₂
  refine runs_bind (runs_stepIf h (by omega)) fun _ ⟨c₃, confirmed⟩ p₃ h h₃ => ?_
  obtain ⟨l₃, u₃, s₃⟩ : Stepped _ _ c₃ confirmed := h₃
  refine runs_bind (runs_stepIf h (by omega)) fun _ ⟨c₄, disputed⟩ p₄ h h₄ => ?_
  obtain ⟨l₄, u₄, s₄⟩ : Stepped _ _ c₄ disputed := h₄
  refine runs_bind (runs_stepIf h (by omega)) fun _ ⟨c₅, released⟩ p₅ h h₅ => ?_
  obtain ⟨l₅, u₅, s₅⟩ : Stepped _ _ c₅ released := h₅
  refine runs_bind (runs_stepIf h (by omega)) fun _ ⟨c₆, refunded⟩ p₆ h h₆ => ?_
  obtain ⟨l₆, u₆, s₆⟩ : Stepped _ _ c₆ refunded := h₆
  have hbegins := ((((p₁.trans p₂).trans p₃).trans p₄).trans p₅).trans p₆
  refine runs_pure h ⟨roll, [c₁, c₂, c₃, c₄, c₅, c₆], units_getElem? hbegins hunits, ?_⟩
  refine ⟨rfl, ?_, rfl, ?_, ?_⟩
  · rw [Stamps.list, s₁, s₂, s₃, s₄, s₅, s₆]
    rfl
  · simp only [List.pairwise_cons, List.forall_mem_cons, List.not_mem_nil, false_implies, implies_true,
      List.Pairwise.nil, and_true]
    omega
  · simp only [List.forall_mem_cons, List.not_mem_nil, false_implies, implies_true, and_true]
    omega

theorem mem_of_mem_zipWith {t : Int64} : ∀ {bs : List Bool} {ts : List Int64},
    some t ∈ List.zipWith (fun (b : Bool) t => if b then some t else none) bs ts → t ∈ ts
  | [], _, h => absurd h (by simp)
  | _ :: _, [], h => absurd h (by simp)
  | b :: bs, t' :: ts, h => by
    rw [List.zipWith_cons_cons, List.mem_cons] at h
    rcases h with h | h
    · cases b with
      | false => exact absurd h (by simp)
      | true => exact List.mem_cons.mpr (.inl (Option.some.inj h))
    · exact List.mem_cons_of_mem _ (mem_of_mem_zipWith h)

/-- A stamp lies at most six steps after the creation. -/
theorem StampsOf.bounds {roll : Rat} {createdAt t : Int64} {times : List Int64} {st : Stamps}
    (h : StampsOf roll createdAt times st) (ht : some t ∈ st.list) :
    createdAt.toInt ≤ t.toInt ∧ t.toInt ≤ createdAt.toInt + 1036800 := by
  rw [h.stamps] at ht
  have hmem := mem_of_mem_zipWith ht
  exact ⟨(List.pairwise_cons.mp h.sorted).1 t hmem, h.bounded t hmem⟩

end Stamps

/-! ## Chat and disputes -/

section Parts

variable {past : List (Reply Drawing)}

theorem runs_messageOffset {span : Int64} {count : Int} {i : Nat} (h : InTable past)
    (hspan : 0 ≤ span.toInt ∧ span.toInt ≤ 1036800) (hcount : 1 ≤ count ∧ count < 9)
    (hi : (i : Int) < count) :
    Runs (fun _ t => t.toInt.natAbs ≤ 1036800 * 8) past (messageOffset span count i) := by
  have hscaled : 0 ≤ span.toInt * i ∧ span.toInt * i ≤ 1036800 * 8 :=
    ⟨Int.mul_nonneg hspan.1 (by omega), Int.mul_le_mul hspan.2 (by omega) (by omega) (by omega)⟩
  unfold messageOffset
  by_cases hone : count = 1
  · rw [if_pos hone]
    refine runs_mono (runs_divided h (by decide) (by omega)) fun _ t ht => ?_
    have hle := Int.natAbs_tdiv_le_natAbs span.toInt (2 : Int64).toInt
    omega
  · rw [if_neg hone]
    refine runs_bind (runs_checked h (by omega)) fun _ scaled _ h hs => ?_
    refine runs_bind (runs_checked h (by omega)) fun _ gaps _ h hg => ?_
    have hgaps : gaps ≠ 0 := by
      rintro rfl
      have hzero : (0 : Int) = count - 1 := hg.1
      omega
    refine runs_mono (runs_divided h hgaps (by omega)) fun _ t ht => ?_
    have hle := Int.natAbs_tdiv_le_natAbs scaled.toInt gaps.toInt
    omega

theorem runs_chatMessage {buyerHash sellerHash : Bytes} {createdAt span : Int64} {count : Int} {i : Nat}
    (h : InTable past) (hcreated : -2 ^ 59 ≤ createdAt.toInt ∧ createdAt.toInt ≤ 2 ^ 59)
    (hspan : 0 ≤ span.toInt ∧ span.toInt ≤ 1036800) (hcount : 1 ≤ count ∧ count < 9)
    (hi : (i : Int) < count) :
    Runs (fun _ _ => True) past (chatMessage buyerHash sellerHash createdAt span count i) := by
  refine runs_bind (runs_messageOffset h hspan hcount hi) fun _ offset _ h ho => ?_
  refine runs_bind (runs_checked h (by omega)) fun _ t _ h ht => ?_
  refine runs_bind (runs_genBytes h) fun _ _ _ h _ => ?_
  refine runs_bind (runs_genRange h (by decide) (by decide)) fun _ _ _ h _ => ?_
  refine runs_bind (runs_genBytes h) fun _ _ _ h _ => ?_
  exact runs_bind (runs_checked h (by omega)) fun _ _ _ h _ => runs_pure h trivial

theorem runs_generateChatMessages {buyerHash sellerHash : Bytes} {createdAt lastAt : Int64}
    (h : InTable past) (hcreated : -2 ^ 59 ≤ createdAt.toInt ∧ createdAt.toInt ≤ 2 ^ 59)
    (hlast : createdAt.toInt ≤ lastAt.toInt ∧ lastAt.toInt ≤ createdAt.toInt + 1036800) :
    Runs (fun _ _ => True) past (generateChatMessages buyerHash sellerHash createdAt lastAt) := by
  refine runs_bind (runs_genRange h (by decide) (by decide)) fun _ count _ h hcount => ?_
  refine runs_bind (runs_checked h (by omega)) fun _ span _ h hspan => ?_
  refine runs_mono (R := fun _ _ => ∀ a ∈ _, True) (runs_mapEach h fun i hi past' h => ?_)
    fun _ _ _ => trivial
  have hlt := List.mem_range.mp hi
  exact runs_chatMessage h hcreated (by omega) hcount.1 (by omega)

theorem runs_disputeEvidence {buyerHash : Bytes} {disputedAt : Option Int64} (h : InTable past)
    (hat : -2 ^ 60 ≤ (disputedAt.getD 0).toInt ∧ (disputedAt.getD 0).toInt ≤ 2 ^ 60) :
    Runs (fun _ _ => True) past (disputeEvidence buyerHash disputedAt) := by
  refine runs_bind (runs_genBytes h) fun _ _ _ h _ => ?_
  refine runs_bind (runs_genBool h) fun _ byBuyer _ h _ => ?_
  have hsubmitter {past} (h : InTable past) :
      Runs (fun _ _ => True) past (evidenceBy byBuyer buyerHash) := by
    cases byBuyer with
    | false => exact runs_mono (runs_genBytes h) fun _ _ _ => trivial
    | true => exact runs_pure h trivial
  refine runs_bind (hsubmitter h) fun _ _ _ h _ => ?_
  refine runs_bind (runs_genRange h (by decide) (by decide)) fun _ _ _ h _ => ?_
  refine runs_bind (runs_genBytes h) fun _ _ _ h _ => ?_
  refine runs_bind (runs_genBool h) fun _ _ _ h _ => ?_
  refine runs_bind (runs_genRange h (by decide) (by decide)) fun _ _ _ h _ => ?_
  exact runs_bind (runs_checked h (by omega)) fun _ _ _ h _ => runs_pure h trivial

theorem runs_generateDispute {buyerHash : Bytes} {disputedAt resolvedAt : Option Int64}
    {resolved : Bool} (h : InTable past)
    (hat : -2 ^ 60 ≤ (disputedAt.getD 0).toInt ∧ (disputedAt.getD 0).toInt ≤ 2 ^ 60) :
    Runs (fun _ d => d.isSome) past (generateDispute buyerHash disputedAt resolved resolvedAt) := by
  refine runs_bind (runs_genBytes h) fun _ _ _ h _ => ?_
  refine runs_bind (runs_genRange h (by decide) (by decide)) fun _ _ _ h _ => ?_
  refine runs_bind (runs_mapEach (T := fun _ => True) h fun _ _ _ h => runs_disputeEvidence h hat)
    fun _ _ _ h _ => ?_
  refine runs_bind (runs_genRange h (by decide) (by decide)) fun _ idx _ h hidx => ?_
  obtain ⟨reason, hreason⟩ : ∃ reason, disputeReasons[idx.toNat]? = some reason :=
    ⟨_, List.getElem?_eq_getElem (by change _ < 5; omega)⟩
  unfold indexed
  rw [if_pos hidx.1.1, hreason]
  exact runs_pure h rfl

/-- A dispute that was entered has its record. -/
theorem runs_dummyDispute {st : Stamps} {buyerHash : Bytes} {lastTs : Int64} (h : InTable past)
    (hat : ∀ t, t = lastTs ∨ st.disputed = some t → -2 ^ 60 ≤ t.toInt ∧ t.toInt ≤ 2 ^ 60) :
    Runs (fun _ d => st.disputed.isSome → d.isSome) past (dummyDispute st buyerHash lastTs) := by
  have hdisputed : -2 ^ 60 ≤ ((st.disputed.or (some lastTs)).getD 0).toInt ∧
      ((st.disputed.or (some lastTs)).getD 0).toInt ≤ 2 ^ 60 := by
    cases hd : st.disputed with
    | none => exact hat lastTs (.inl rfl)
    | some t => exact hat t (.inr hd)
  have hhas {resolved : Bool} : Runs (fun _ d => st.disputed.isSome → d = true) past
      (hasDispute st resolved) := by
    unfold hasDispute
    split
    · exact runs_pure h fun _ => rfl
    · rename_i hnone
      cases resolved with
      | true => exact runs_mono (runs_genBool h) fun _ _ _ hsome => absurd hsome hnone
      | false => exact runs_pure h fun hsome => absurd hsome hnone
  refine runs_bind hhas fun _ d _ h hd => ?_
  cases d with
  | true => exact runs_mono (runs_generateDispute h hdisputed) fun _ _ hsome _ => hsome
  | false => exact runs_pure h fun hsome => absurd (hd hsome) (by simp)

/-- **The one draw that can fail**: 32 indexes for 29 characters. -/
theorem runs_addressChar (h : InTable past) : Runs (fun _ _ => True) past addressChar := by
  refine ⟨trivial, fun n hn => ?_⟩
  obtain ⟨hlo, hhi⟩ : 0 ≤ n ∧ n < 32 := hn
  change Spec _ _ _ _ (orFail (if 0 ≤ n then addressChars[n.toNat]? else none) _)
  rw [if_pos hlo, spec_orFail]
  have hlength : addressChars.length = 29 := by decide
  refine ⟨fun hnone hin => ?_, fun c hc => ⟨fun n' hn' => ?_, trivial⟩⟩
  · have hlt := hin n (List.mem_append_right _ List.mem_cons_self)
    have hle := List.getElem?_eq_none_iff.mp hnone
    omega
  · have hlt := (List.getElem?_eq_some_iff.mp hc).1
    rcases List.mem_append.mp hn' with hn' | hn'
    · exact h n' hn'
    · obtain rfl := eq_of_heq (Sigma.mk.inj (List.mem_singleton.mp hn')).2
      omega

theorem runs_randomEscrowAddress {currency : String} (h : InTable past) :
    Runs (fun _ _ => True) past (randomEscrowAddress currency) := by
  unfold randomEscrowAddress
  split
  · exact runs_bind (runs_mapEach (T := fun _ => True) h fun _ _ _ h => runs_addressChar h)
      fun _ _ _ h _ => runs_pure h trivial
  · exact runs_bind (runs_randomHex h) fun _ _ _ h _ => runs_pure h trivial

theorem runs_randomAmount {currency : String} (h : InTable past) :
    Runs (fun _ _ => True) past (randomAmount currency) := by
  unfold randomAmount
  split
  · exact runs_bind (runs_genRange h (by decide) (by decide)) fun _ _ _ h _ =>
      runs_bind (runs_genRange h (by decide) (by decide)) fun _ _ _ h _ => runs_pure h trivial
  · exact runs_bind (runs_genRange h (by decide) (by decide)) fun _ _ _ h _ =>
      runs_bind (runs_genRange h (by decide) (by decide)) fun _ _ _ h _ => runs_pure h trivial

end Parts

/-! ## The order -/

/-- The order has the state and the stamps of `st`, and a dispute if it has a stamp of one. -/
structure OfStamps (st : Stamps) (data : OrderData) : Prop where
  state : data.state = st.state
  stamps : [data.fundedAt, data.shippedAt, data.confirmedAt, data.disputedAt, data.releasedAt,
    data.refundedAt] = st.list
  dispute : data.disputedAt.isSome → data.dispute.isSome

/-- What is proved of an order that was drawn. -/
def FromRoll (past : List (Reply Drawing)) (data : OrderData) : Prop :=
  ∃ roll times st, (units past)[1]? = some roll ∧ StampsOf roll data.createdAt times st ∧
    OfStamps st data

section Order

variable {past : List (Reply Drawing)}

/-- The last stamp, in the order in which `run_dummy_worker` looks for it. -/
theorem mem_of_or {st : Stamps} {t : Int64}
    (h : (((((st.released.or st.refunded).or st.disputed).or st.confirmed).or st.shipped).or
      st.funded) = some t) : some t ∈ st.list := by
  simp only [Option.or_eq_some_iff] at h
  simp only [Stamps.list, List.mem_cons, List.not_mem_nil, or_false]
  grind

theorem runs_dummyOrder {prob : Rat} {now : Int64} (h : InTable past) (hprob : units past = [prob])
    (hnow : -2 ^ 58 ≤ now.toInt ∧ now.toInt ≤ 2 ^ 58) :
    Runs (fun past' order => FromRoll past' order.2) past (dummyOrder now) := by
  refine runs_bind (runs_genBytes h) fun _ _ _ h q₁ => ?_
  refine runs_bind (runs_genBytes h) fun _ _ _ h q₂ => ?_
  refine runs_bind (runs_genBool h) fun _ monero _ h q₃ => ?_
  refine runs_bind (runs_genRange h (by decide) (by decide)) fun _ ageHours _ h q₄ => ?_
  refine runs_bind (runs_checked h (by omega)) fun _ age _ h q₅ => ?_
  refine runs_bind (runs_checked h (by omega)) fun _ created _ h q₆ => ?_
  refine runs_bind (runs_floored h (by omega)) fun past₁ createdAt _ h q₇ => ?_
  have hunits : units past₁ = [prob] := by
    rw [q₇.2, q₆.2, q₅.2, q₄.2, q₃, q₂, q₁, hprob]
  have hcreated : -2 ^ 59 ≤ createdAt.toInt ∧ createdAt.toInt ≤ 2 ^ 59 := by omega
  refine runs_bind (runs_generateState h hunits hcreated) fun past₂ st _ h hst => ?_
  obtain ⟨roll, times, hroll, hst⟩ := hst
  refine runs_mono (runs_begins (R := fun _ order => OfStamps st order.2 ∧
      order.2.createdAt = createdAt) ?_) fun past' order hp =>
    ⟨roll, times, st, units_getElem? hp.1 hroll, hp.2.2 ▸ hst, hp.2.1⟩
  have hlast {t : Int64} (ht : t = (((((st.released.or st.refunded).or st.disputed).or
      st.confirmed).or st.shipped).or st.funded).getD createdAt) :
      createdAt.toInt ≤ t.toInt ∧ t.toInt ≤ createdAt.toInt + 1036800 := by
    subst ht
    cases hor : ((((st.released.or st.refunded).or st.disputed).or st.confirmed).or st.shipped).or
        st.funded with
    | none => exact ⟨Int.le_refl _, Int.le_add_of_nonneg_right (by decide)⟩
    | some t => exact hst.bounds (mem_of_or hor)
  refine runs_bind (runs_genBytes h) fun _ buyerHash _ h _ => ?_
  refine runs_bind (runs_genBytes h) fun _ sellerHash _ h _ => ?_
  refine runs_bind (runs_generateChatMessages h hcreated (hlast rfl)) fun _ chat _ h _ => ?_
  refine runs_bind (runs_dummyDispute h fun t ht => ?_) fun _ dispute _ h hdispute => ?_
  · rcases ht with ht | ht
    · have hbounds := hlast ht
      omega
    · have hbounds := hst.bounds (show some t ∈ st.list by simp [Stamps.list, ht])
      omega
  have hfee {b : Bool} {past : List (Reply Drawing)} (h : InTable past) :
      Runs (fun _ _ => True) past (genOption b (genRange 1 6)) :=
    runs_genOption h (runs_mono (runs_genRange h (by decide) (by decide)) fun _ _ _ => trivial)
  refine runs_bind (hfee h) fun _ _ _ h _ => ?_
  refine runs_bind (runs_genOption h (runs_randomHex h)) fun _ _ _ h _ => ?_
  refine runs_bind (runs_genOption h (runs_randomEscrowAddress h)) fun _ _ _ h _ => ?_
  refine runs_bind (runs_randomEscrowAddress h) fun _ _ _ h _ => ?_
  refine runs_bind (runs_randomAmount h) fun _ _ _ h _ => ?_
  refine runs_bind (runs_randomHex h) fun _ _ _ h _ => ?_
  refine runs_bind (runs_randomHex h) fun _ _ _ h _ => ?_
  refine runs_bind (runs_genRange h (by decide) (by decide)) fun _ _ _ h _ => ?_
  refine runs_bind (runs_genRange h (by decide) (by decide)) fun _ lifetime _ h q₈ => ?_
  refine runs_bind (runs_checked h (by omega)) fun _ _ _ h _ => ?_
  refine runs_bind (runs_genOption h (runs_randomHex h)) fun _ _ _ h _ => ?_
  refine runs_pure h ⟨⟨rfl, rfl, fun hsome => ?_⟩, rfl⟩
  exact Option.isSome_map.trans (hdispute hsome)

/-- **All draws of the dummy worker.** -/
theorem runs_runDraws (time : UnixTime) :
    Runs (fun past' result => ∀ order, result = some order → FromRoll past' order.2) []
      (runDraws time) := by
  have hempty : InTable [] := fun n hn => absurd hn (by simp)
  have hlower := time.lower
  have hupper := time.upper
  refine runs_bind (runs_call hempty (by simp)) fun past₁ prob _ h hprob => ?_
  have hunits : units past₁ = [prob] := by rw [hprob.1]; rfl
  by_cases hp : prob > percent 30
  · rw [if_pos hp]
    refine runs_bind (runs_genRange h (by decide) (by decide)) fun _ _ _ h _ => ?_
    refine runs_pure h ?_
    rintro _ ⟨⟩
  · rw [if_neg hp]
    refine runs_bind (runs_floored h (by omega)) fun past₂ now _ h hnow => ?_
    refine runs_bind (runs_dummyOrder h (hnow.2.trans hunits) (by omega)) fun past₃ order p h ho => ?_
    refine runs_bind (runs_begins (runs_genRange h (by decide) (by decide))) fun past₄ _ _ h hr => ?_
    refine runs_pure h ?_
    rintro _ ⟨⟩
    obtain ⟨roll, times, st, hroll, hst, hdata⟩ := ho
    exact ⟨roll, times, st, units_getElem? hr.1 hroll, hst, hdata⟩

/-- **The dummy worker panics exactly where an address index falls outside the table**: no other draw,
division or sum of it fails, whatever is drawn and whatever the time is. -/
theorem dummy_worker_panics_iff (time : UnixTime) :
    Spec Drawn (fun _ _ => True) (fun past r => (∀ e, r ≠ .error e) ↔ InTable past) []
      (runDraws time) := by
  refine spec_mono (fun _ _ h => h) (fun past r hr => ?_) (runs_runDraws time)
  cases r with
  | ok result => exact ⟨fun _ => hr.1, by simp⟩
  | error e => exact ⟨fun hne => absurd rfl (hne e), fun hin => absurd hin hr⟩

end Order

/-! ## Orders that look reachable -/

/-- The time that the order has for entering a state. -/
def stamp (d : OrderData) : String → Option Int64
  | "funded" => d.fundedAt
  | "shipped" => d.shippedAt
  | "confirmed" => d.confirmedAt
  | "disputed" => d.disputedAt
  | "released" => d.releasedAt
  | "refunded" => d.refundedAt
  | _ => none

def stampedStates : List String :=
  ["funded", "shipped", "confirmed", "disputed", "released", "refunded"]

/-- `path`, from `pending` on, leads to the state of the order, and the stamps are those of `path`. -/
structure CameAlong (d : OrderData) (path : List String) : Prop where
  steps : List.IsChain (fun s t => t ∈ stateTransitions s) ("pending" :: path)
  last : path.getLast?.getD "pending" = d.state
  stamps : ∀ s ∈ stampedStates, (stamp d s).isSome ↔ s ∈ path
  sorted : (d.createdAt :: path.filterMap (stamp d)).Pairwise fun a b => a.toInt ≤ b.toInt

/-- The order looks like one that came about. -/
def LooksReachable (d : OrderData) : Prop :=
  (∃ path, CameAlong d path) ∧ (d.disputedAt.isSome → d.dispute.isSome)

/-- After a confirmation there is only the release. -/
theorem last_of_confirmed : ∀ {s : String} {path : List String},
    List.IsChain (fun s t => t ∈ stateTransitions s) (s :: path) → "confirmed" ∈ path →
      path.getLast? = some "confirmed" ∨ path.getLast? = some "released"
  | _, [], _, h => absurd h (by simp)
  | s, t :: rest, hchain, h => by
    obtain ⟨-, hrest⟩ := List.isChain_cons_cons.mp hchain
    by_cases hmem : "confirmed" ∈ rest
    · have hlast := last_of_confirmed hrest hmem
      rw [List.getLast?_cons_of_ne_nil (List.ne_nil_of_mem hmem)]
      exact hlast
    · obtain rfl := (List.mem_cons.mp h).resolve_right hmem
      match rest, hrest with
      | [], _ => exact .inl rfl
      | u :: rest, hrest =>
        obtain ⟨hu, hrest⟩ := List.isChain_cons_cons.mp hrest
        obtain rfl := List.mem_singleton.mp hu
        match rest, hrest with
        | [], _ => exact .inr rfl
        | v :: _, hrest => exact absurd (List.isChain_cons_cons.mp hrest).1 (by simp [stateTransitions])

/-- One element or none. -/
def keep {α : Type} (b : Bool) (a : α) : List α := if b then [a] else []

theorem mem_keep {α : Type} {b : Bool} {a x : α} : x ∈ keep b a ↔ b = true ∧ x = a := by
  cases b <;> simp [keep]

/-- The states that a roll asks to enter. -/
def pathOf (b₁ b₂ b₃ b₄ b₅ b₆ : Bool) : List String :=
  keep b₁ "funded" ++ (keep b₂ "shipped" ++ (keep b₃ "confirmed" ++ (keep b₄ "disputed" ++
    (keep b₅ "released" ++ keep b₆ "refunded"))))

/-- `stateOf`, in the thresholds that the roll reaches. -/
def stateFrom (b15 b35 b50 b60 b70 b85 b95 : Bool) : String :=
  if b15 = false then "pending"
  else if b35 = false then "funded"
  else if b50 = false then "shipped"
  else if b60 = false then "confirmed"
  else if b70 = false then "disputed"
  else if b85 = false then "released"
  else if b95 = false then "refunded"
  else "cancelled"

theorem stateOf_eq (roll : Rat) :
    stateOf roll = stateFrom (percent 15 ≤ roll) (percent 35 ≤ roll) (percent 50 ≤ roll)
      (percent 60 ≤ roll) (percent 70 ≤ roll) (percent 85 ≤ roll) (percent 95 ≤ roll) := by
  unfold stateFrom
  simp only [decide_eq_false_iff_not, not_le]
  rfl

theorem within_eq (lo hi : Nat) (roll : Rat) :
    within lo hi roll = (decide (percent lo ≤ roll) && !decide (percent hi ≤ roll)) := by
  rw [within, ← decide_not]
  simp only [not_le]

/-- The states of a roll that reaches these thresholds and no higher one. -/
theorem path_from : ∀ b15 b35 b50 b60 b70 : Bool,
    (b35 → b15) → (b50 → b35) → (b60 → b50) → (b70 → b60) →
    List.IsChain (fun s t => t ∈ stateTransitions s)
      ("pending" :: pathOf b15 b35 (b50 && !b60) (b60 && !b70 || b70) b70 false) ∧
    (pathOf b15 b35 (b50 && !b60) (b60 && !b70 || b70) b70 false).getLast?.getD "pending" =
      stateFrom b15 b35 b50 b60 b70 false false := by
  decide +kernel

/-- The thresholds grow. -/
theorem percents_lt : percent 15 < percent 35 ∧ percent 35 < percent 50 ∧ percent 50 < percent 60 ∧
    percent 60 < percent 70 ∧ percent 70 < percent 85 ∧ percent 85 < percent 95 := by
  decide +kernel

/-- **Below 0.85** a roll asks for the states of a path, and its state is the last of them. -/
theorem path_of_roll {roll : Rat} (h : roll < percent 85) :
    ∃ b₁ b₂ b₃ b₄ b₅ b₆ : Bool, wanted roll = [b₁, b₂, b₃, b₄, b₅, b₆] ∧
      List.IsChain (fun s t => t ∈ stateTransitions s) ("pending" :: pathOf b₁ b₂ b₃ b₄ b₅ b₆) ∧
      (pathOf b₁ b₂ b₃ b₄ b₅ b₆).getLast?.getD "pending" = stateOf roll := by
  obtain ⟨h₁, h₂, h₃, h₄, -, h₆⟩ := percents_lt
  have h85 : decide (percent 85 ≤ roll) = false := decide_eq_false (not_le.mpr h)
  have h95 : decide (percent 95 ≤ roll) = false := decide_eq_false (not_le.mpr (h.trans h₆))
  have hgrow {p q : Rat} (hpq : p < q) : decide (q ≤ roll) = true → decide (p ≤ roll) = true :=
    fun hq => decide_eq_true (hpq.le.trans (of_decide_eq_true hq))
  have hpath := path_from _ _ _ _ _ (hgrow h₁) (hgrow h₂) (hgrow h₃) (hgrow h₄)
  refine ⟨_, _, _, _, _, _, ?_, hpath.1, ?_⟩
  · simp only [wanted, within_eq, h85, h95, Bool.or_false, Bool.not_false, Bool.and_true]
  · rw [hpath.2, stateOf_eq, h85, h95]

/-- **From 0.85 on** a roll asks for a confirmation, and its state is none that comes after one. -/
theorem confirmed_of_roll {roll : Rat} (h : percent 85 ≤ roll) :
    (wanted roll)[2]? = some true ∧ (stateOf roll = "refunded" ∨ stateOf roll = "cancelled") := by
  obtain ⟨h₁, h₂, h₃, h₄, h₅, -⟩ := percents_lt
  have h70 := h₅.le.trans h
  have h60 := h₄.le.trans h70
  have h50 := h₃.le.trans h60
  have h35 := h₂.le.trans h50
  have h15 := h₁.le.trans h35
  refine ⟨?_, ?_⟩
  · simp only [wanted, h, decide_true, Bool.or_true, List.getElem?_cons_succ, List.getElem?_cons_zero]
  · rw [stateOf_eq]
    simp only [h15, h35, h50, h60, h70, h, decide_true]
    cases decide (percent 95 ≤ roll) with
    | true => exact .inr rfl
    | false => exact .inl rfl

theorem filterMap_keep {b : Bool} {n : String} {c : Int64} {g : String → Option Int64}
    (h : g n = if b then some c else none) : (keep b n).filterMap g = keep b c := by
  cases b with
  | false => rfl
  | true => exact List.filterMap_cons_some h

theorem keep_sublist (b : Bool) (c : Int64) : (keep b c).Sublist [c] := by
  cases b with
  | false => exact List.nil_sublist _
  | true => exact List.Sublist.refl _

theorem six_of_length {times : List Int64} (h : times.length = 6) :
    ∃ c₁ c₂ c₃ c₄ c₅ c₆, times = [c₁, c₂, c₃, c₄, c₅, c₆] := by
  match times, h with
  | [c₁, c₂, c₃, c₄, c₅, c₆], _ => exact ⟨c₁, c₂, c₃, c₄, c₅, c₆, rfl⟩

section Reachable

variable {roll : Rat} {data : OrderData} {times : List Int64} {st : Stamps}

theorem cameAlong_of_roll (hst : StampsOf roll data.createdAt times st) (hdata : OfStamps st data)
    (h : roll < percent 85) : ∃ path, CameAlong data path := by
  obtain ⟨b₁, b₂, b₃, b₄, b₅, b₆, hwanted, hsteps, hlast⟩ := path_of_roll h
  obtain ⟨c₁, c₂, c₃, c₄, c₅, c₆, rfl⟩ := six_of_length hst.length
  have hstamps := hdata.stamps.trans hst.stamps
  rw [hwanted] at hstamps
  simp only [List.zipWith_cons_cons, List.cons.injEq, List.zipWith_nil_left, and_true] at hstamps
  obtain ⟨e₁, e₂, e₃, e₄, e₅, e₆⟩ := hstamps
  refine ⟨pathOf b₁ b₂ b₃ b₄ b₅ b₆, hsteps, ?_, ?_, ?_⟩
  · rw [hlast, hdata.state, hst.state]
  · simp only [stampedStates, List.forall_mem_cons, stamp, e₁, e₂, e₃, e₄, e₅, e₆, pathOf,
      List.mem_append, mem_keep]
    simp
  · refine hst.sorted.sublist (List.Sublist.cons_cons _ ?_)
    simp only [pathOf, List.filterMap_append]
    rw [filterMap_keep (c := c₁) e₁, filterMap_keep (c := c₂) e₂, filterMap_keep (c := c₃) e₃,
      filterMap_keep (c := c₄) e₄, filterMap_keep (c := c₅) e₅, filterMap_keep (c := c₆) e₆]
    exact (keep_sublist b₁ c₁).append ((keep_sublist b₂ c₂).append ((keep_sublist b₃ c₃).append
      ((keep_sublist b₄ c₄).append ((keep_sublist b₅ c₅).append (keep_sublist b₆ c₆)))))

theorem not_cameAlong_of_roll (hst : StampsOf roll data.createdAt times st) (hdata : OfStamps st data)
    (h : percent 85 ≤ roll) : ¬ ∃ path, CameAlong data path := by
  rintro ⟨path, hpath⟩
  obtain ⟨hwanted, hstate⟩ := confirmed_of_roll h
  obtain ⟨c₁, c₂, c₃, c₄, c₅, c₆, rfl⟩ := six_of_length hst.length
  have hstamps := congrArg (fun l => l[2]?) (hdata.stamps.trans hst.stamps)
  simp only [List.getElem?_zipWith, hwanted] at hstamps
  have hconfirmed : data.confirmedAt = some c₃ := Option.some.inj hstamps
  have hmem : "confirmed" ∈ path :=
    (hpath.stamps "confirmed" (by simp [stampedStates])).mp (by simp [stamp, hconfirmed])
  have hlast := hpath.last
  rw [hdata.state, hst.state] at hlast
  rcases last_of_confirmed hpath.steps hmem with hend | hend
  · rw [hend, Option.getD_some] at hlast
    rcases hstate with hstate | hstate <;> rw [hstate] at hlast <;> exact absurd hlast (by simp)
  · rw [hend, Option.getD_some] at hlast
    rcases hstate with hstate | hstate <;> rw [hstate] at hlast <;> exact absurd hlast (by simp)

/-- **A dummy order looks reachable exactly where the second number drawn is below 0.85**: from there
on it has the stamp of a confirmation that its state cannot have come after. -/
theorem dummy_order_reachable_iff (time : UnixTime) :
    Spec Drawn (fun _ _ => True) (fun past r => ∀ order, r = .ok (some order) →
        ∃ roll, (units past)[1]? = some roll ∧ (LooksReachable order.2 ↔ roll < percent 85)) []
      (runDraws time) := by
  refine spec_mono (fun _ _ h => h) (fun past r hr => ?_) (runs_runDraws time)
  rintro order rfl
  obtain ⟨roll, times, st, hroll, hst, hdata⟩ := hr.2 order rfl
  refine ⟨roll, hroll, fun hlooks => ?_, fun hlt => ⟨cameAlong_of_roll hst hdata hlt, hdata.dispute⟩⟩
  by_contra hle
  exact not_cameAlong_of_roll hst hdata (not_lt.mp hle) hlooks.1

end Reachable

/-! ### Two streams -/

/-- A generator: its first number is 0 and then `second`, an index is `index`, of another range it
draws the least. -/
def generator (index : Int) (second : Rat) : Machine Drawing Nat Unit where
  answer
    | .unit, _, n => some (if n = 0 then 0 else second, n + 1)
    | .range lo hi, _, n =>
      if lo < hi then some (if lo = 0 ∧ hi = 32 then index else lo, n) else none
    | .bool _, _, n => some (false, n)
    | .bytes k, _, n => some (List.replicate k 0, n)

theorem drawn_of_generator {index : Int} {second : Rat} (hindex : 0 ≤ index ∧ index < 32)
    (hsecond : Drawn .unit second) (c : Drawing.Call) (a : Drawing.Ans c)
    (h : (generator index second).May c a) : Drawn c a := by
  obtain ⟨_, n, _, hanswer⟩ := h
  cases c with
  | unit =>
    obtain rfl := (Prod.mk.inj (Option.some.inj hanswer)).1
    split
    · exact ⟨0, by decide, by simp⟩
    · exact hsecond
  | range lo hi =>
    change (if lo < hi then some _ else none) = some _ at hanswer
    split at hanswer
    case isFalse => exact absurd hanswer (by simp)
    case isTrue hlt =>
      obtain rfl := (Prod.mk.inj (Option.some.inj hanswer)).1
      split
      case isTrue heq =>
        obtain ⟨rfl, rfl⟩ := heq
        exact hindex
      case isFalse => exact ⟨Int.le_refl lo, hlt⟩
  | bool => trivial
  | bytes k =>
    obtain rfl := (Prod.mk.inj (Option.some.inj hanswer)).1
    exact List.length_replicate

/-- An evening in November 2023. -/
def evening : UnixTime := ⟨1700000000, by decide, by decide⟩

/-- **The index 31**: the worker of a Bitcoin order panics. -/
theorem index_31_panics :
    ∃ past, Yields Drawn [] (runDraws evening) past (.error .indexOutOfBounds) := by
  have hrun : (generator 31 0).solo () (runDraws evening) 0 = some (.error .indexOutOfBounds, 2) := by
    decide +kernel
  obtain ⟨past, hyields⟩ := yields_of_solo [] hrun
  exact ⟨past, hyields.mono (drawn_of_generator (by decide) ⟨0, by decide, by simp⟩)⟩

/-- **A roll of 0.9**: the order is refunded after a confirmation, which no order is. -/
theorem refunded_after_confirmation :
    ∃ past order, Yields Drawn [] (runDraws evening) past (.ok (some order)) ∧
      order.2.state = "refunded" ∧ order.2.confirmedAt.isSome ∧ ¬ LooksReachable order.2 := by
  have hsolo : ((generator 0 (8106479329266893 / 2 ^ 53)).solo () (runDraws evening) 0).map
      (fun r => r.1.map fun o => o.map fun o => (o.2.state, o.2.confirmedAt.isSome)) =
        some (.ok (some ("refunded", true))) := by
    decide +kernel
  obtain ⟨⟨r, n⟩, hrun, hr⟩ := Option.map_eq_some_iff.mp hsolo
  obtain ⟨past, hyields⟩ := yields_of_solo [] hrun
  match r, hr with
  | .ok (some order), hr =>
    obtain ⟨hstate, hconfirmed⟩ := Prod.mk.inj (Option.some.inj (Except.ok.inj hr))
    refine ⟨past, order, hyields.mono (drawn_of_generator (by decide)
      ⟨8106479329266893, by decide, by simp⟩), hstate, hconfirmed, ?_⟩
    rintro ⟨⟨path, hpath⟩, -⟩
    have hmem := (hpath.stamps "confirmed" (by simp [stampedStates])).mp hconfirmed
    have hlast := hpath.last
    rw [hstate] at hlast
    rcases last_of_confirmed hpath.steps hmem with hend | hend <;> rw [hend] at hlast <;>
      exact absurd hlast (by simp)

end DummyWorker

end TorMarketplace
