import TorMarketplace.Lib.FixedWindow
import TorMarketplace.Proof.RateLimits

/-!
# How many requests pass

The limiter keeps for each key a counter of a fixed window (`log_select`). The edge of a window belongs to
it, so that in any closed interval of the length of a window no more than two of them meet
(`rate_limit_bound`), and the verdict of a call is the counter's on the calls with the same key.
-/

namespace TorMarketplace

/-- The window of an entry. -/
def RateEntry.window (entry : RateEntry) : FixedWindow.Window Instant where
  start := entry.windowStart
  count := entry.count.toNat

namespace RateLimiter

/-- The call inserts an entry or replaces the one that is there. -/
def opensWindow (limiter : RateLimiter) (buckets : RateBuckets) (key : String) (now : Instant) : Bool :=
  match buckets key with
  | some entry => now - entry.windowStart > limiter.windowDuration
  | none => true

/-- The calls of `check`, each with its key and the way it went. -/
def log (limiter : RateLimiter) :
    RateBuckets → List (String × Instant) → List (String × FixedWindow.Check Instant)
  | _, [] => []
  | buckets, (key, now) :: calls =>
    (key, ⟨now, limiter.opensWindow buckets key now, (limiter.check buckets key now).1⟩) ::
      log limiter (limiter.check buckets key now).2 calls

/-- The map that the calls leave. -/
def after (limiter : RateLimiter) : RateBuckets → List (String × Instant) → RateBuckets
  | buckets, [] => buckets
  | buckets, (key, now) :: calls => after limiter (limiter.check buckets key now).2 calls

/-! ## One counter for each key -/

/-- A call at one key. -/
def entryCheck (limiter : RateLimiter) (entry : Option RateEntry) (now : Instant) :
    FixedWindow.Check Instant × Option RateEntry :=
  (⟨now, entry.all fun entry => now - entry.windowStart > limiter.windowDuration,
    (limiter.entryStep entry now).1⟩, (limiter.entryStep entry now).2)

theorem log_eq (limiter : RateLimiter) (buckets : RateBuckets) (calls : List (String × Instant)) :
    limiter.log buckets calls = Keyed.outputsAt limiter.entryCheck buckets calls := by
  induction calls generalizing buckets with
  | nil => rfl
  | cons c calls ih =>
    obtain ⟨key, now⟩ := c
    have hopens : limiter.opensWindow buckets key now =
        (buckets key).all fun entry => now - entry.windowStart > limiter.windowDuration := by
      unfold opensWindow
      cases buckets key <;> rfl
    rw [log, Keyed.outputsAt, check_eq, ih, hopens]
    rfl

theorem after_eq (limiter : RateLimiter) (buckets : RateBuckets) (calls : List (String × Instant)) :
    limiter.after buckets calls = Keyed.runAt limiter.entryStep buckets calls := by
  induction calls generalizing buckets with
  | nil => rfl
  | cons c calls ih =>
    obtain ⟨key, now⟩ := c
    rw [after, check_eq, ih]
    rfl

/-- **An entry is a counter of a fixed window.** The count stays below the limit, and does not wrap. -/
theorem entryCheck_window (limiter : RateLimiter) (entry : Option RateEntry) (now : Instant) :
    FixedWindow.step limiter.windowDuration limiter.maxRequests.toNat (entry.map RateEntry.window) now =
      ((limiter.entryCheck entry now).1, (limiter.entryCheck entry now).2.map RateEntry.window) := by
  cases entry with
  | none => rfl
  | some entry =>
    have hlate : entry.windowStart + limiter.windowDuration < now ↔
        now - entry.windowStart > limiter.windowDuration := Nat.lt_sub_iff_add_lt'.symm
    have hfull : limiter.maxRequests.toNat ≤ entry.count.toNat ↔ entry.count ≥ limiter.maxRequests :=
      UInt32.le_iff_toNat_le.symm
    simp only [FixedWindow.step, entryCheck, entryStep, RateEntry.window, Option.map_some, Option.all_some,
      hlate, hfull]
    by_cases hopens : now - entry.windowStart > limiter.windowDuration
    · simp [hopens, RateEntry.window]
    · by_cases hcount : entry.count ≥ limiter.maxRequests
      · simp [hopens, hcount, RateEntry.window]
      · have hnext : (entry.count + 1).toNat = entry.count.toNat + 1 := by
          have hmax := limiter.maxRequests.toNat_lt
          rw [← hfull] at hcount
          rw [UInt32.toNat_add, show (1 : UInt32).toNat = 1 from rfl]
          omega
        simp [hopens, hcount, hnext, RateEntry.window]

/-- The checks of a key are those of a counter on the instants of the key's calls. -/
theorem log_select (limiter : RateLimiter) (calls : List (String × Instant)) (key : String) :
    Keyed.select key (limiter.log (fun _ => none) calls) =
      FixedWindow.checks limiter.windowDuration limiter.maxRequests.toNat none (Keyed.select key calls) := by
  rw [log_eq, Keyed.outputs_at]
  exact (Keyed.outputs_of_sim (Option.map RateEntry.window) limiter.entryCheck_window none _).symm

end RateLimiter

/-- The instants of a key's calls come in the order of the calls. -/
theorem select_sorted {calls : List (String × Instant)} (h : calls.Pairwise fun c c' => c.2 ≤ c'.2)
    (key : String) : (Keyed.select key calls).Pairwise (· ≤ ·) := by
  refine List.Pairwise.filterMap _ (fun c c' hle now hnow now' hnow' => ?_) h
  split at hnow
  · split at hnow'
    · obtain rfl := Option.some.inj hnow
      obtain rfl := Option.some.inj hnow'
      exact hle
    · exact absurd hnow' (by simp)
  · exact absurd hnow (by simp)

/-- **The bound of the limiter.** Of the calls with one key, at most twice `max_requests` return `true` in a
closed interval of the length of a window, and at most `max_requests` between two openings of a window; and
what a call returns depends on the calls before it with the same key only. -/
theorem rate_limit_bound (limiter : RateLimiter) (hmax : 1 ≤ limiter.maxRequests)
    {calls : List (String × Instant)} (hsorted : calls.Pairwise fun c c' => c.2 ≤ c'.2) (key : String) :
    (∀ t, (Keyed.select key (limiter.log (fun _ => none) calls)).countP (fun c =>
        c.passes && t ≤ c.time && c.time ≤ t + limiter.windowDuration) ≤
          2 * limiter.maxRequests.toNat) ∧
      (∀ l₁ l l₂, Keyed.select key (limiter.log (fun _ => none) calls) = l₁ ++ l ++ l₂ →
        (∀ c ∈ l.tail, c.opens = false) →
          l.countP FixedWindow.Check.passes ≤ limiter.maxRequests.toNat) ∧
      ∀ calls' now, Keyed.select key calls' = Keyed.select key calls →
        (limiter.check (limiter.after (fun _ => none) calls') key now).1 =
          (limiter.check (limiter.after (fun _ => none) calls) key now).1 := by
  have hlimit : 1 ≤ limiter.maxRequests.toNat := UInt32.le_iff_toNat_le.mp hmax
  rw [limiter.log_select]
  refine ⟨fun t => ?_, fun l₁ l l₂ hl hno => ?_, fun calls' now hsame => ?_⟩
  · exact FixedWindow.countP_within hlimit (fun _ h => absurd h (by simp)) (select_sorted hsorted key) t
  · exact FixedWindow.countP_between hlimit (fun _ h => absurd h (by simp)) hl hno
  · have hentry : limiter.after (fun _ => none) calls' key = limiter.after (fun _ => none) calls key := by
      rw [limiter.after_eq, limiter.after_eq, Keyed.run_at, Keyed.run_at, hsame]
    rw [limiter.check_eq, limiter.check_eq, Keyed.stepAt, Keyed.stepAt, hentry]

open LimitSample in
/-- A window that ends in the interval, and the next one, with a call for another key between them. -/
theorem rate_limit_bound_sample :
    (Keyed.select "a" (limiter.log (fun _ => none) [("a", 0), ("b", 3), ("a", 60000000001)])).countP (fun c =>
      c.passes && 5 ≤ c.time && c.time ≤ 5 + limiter.windowDuration) ≤ 2 * limiter.maxRequests.toNat :=
  (rate_limit_bound limiter (by decide) (by decide) "a").1 5

end TorMarketplace
