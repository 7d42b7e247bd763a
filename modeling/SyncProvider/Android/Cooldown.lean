import SyncProvider.Android.Dispatch
import SyncProvider.Android.Storage
import SyncProvider.Backoff

/-!
# Android: the cooldown arithmetic

`reschedule` and `holdForCredentialRenewal` add a delay to a clock reading in
64 bits. The delay is a product of doubles, rounded at every step and then
saturated, so it can be as large as `Long.MAX_VALUE`, and then the sum wraps
around to a negative instant.

Results:
1. `rawDelay_toNearest` : the delay follows the rounded curve, up to saturation.
2. `le_computeDelayMs_iff` : which policies reach a given delay.
3. `cooldown_holds_iff` : the row is cooled down exactly when the delay fits into
   what is left of the clock.
4. `infinite_cap_wraps` : an infinite `maxDelayMs` at a late attempt.
-/

namespace SyncProvider.Android

open Double (nearest toNearest)

/-! ## 1. The curve in doubles -/

namespace RetryPolicyEvaluator

/-- The Fibonacci numbers of a loop that rounds every sum, and that stops once
they are infinite. -/
def roundedFib : ℕ → ℚ
  | 0 => 0
  | 1 => 1
  | n + 2 =>
    if 2 ^ 1024 ≤ roundedFib (n + 1) then roundedFib (n + 1)
    else nearest (roundedFib n + roundedFib (n + 1))

theorem one_le_roundedFib (n : ℕ) : 0 ≤ roundedFib n ∧ 1 ≤ roundedFib (n + 1) := by
  induction n with
  | zero => exact ⟨le_rfl, le_rfl⟩
  | succ n ih =>
    refine ⟨by linarith, ?_⟩
    unfold roundedFib
    split
    · exact ih.2
    · have hsum : (2 : ℚ) ^ (0 : Int) ≤ roundedFib n + roundedFib (n + 1) := by
        rw [zpow_zero]
        linarith
      simpa using Double.zpow_le_nearest (by decide) hsum

theorem roundedFib_nonneg (n : ℕ) : 0 ≤ roundedFib n := (one_le_roundedFib n).1

/-- Beyond all doubles it stays what it is. -/
theorem roundedFib_add {m : ℕ} (h : 2 ^ 1024 ≤ roundedFib (m + 1)) (k : ℕ) :
    roundedFib (m + 1 + k) = roundedFib (m + 1) := by
  induction k with
  | zero => rfl
  | succ k ih =>
    have hindex : m + 1 + (k + 1) = m + k + 2 := by omega
    have hindex' : m + k + 1 = m + 1 + k := by omega
    rw [hindex, roundedFib, hindex', ih, if_pos h]

theorem fibonacciLoop_toNearest (k m : ℕ) :
    fibonacciLoop toNearest k (.ofRat (roundedFib m)) (.ofRat (roundedFib (m + 1))) =
      .ofRat (roundedFib (m + 1 + k)) := by
  induction k generalizing m with
  | zero => rfl
  | succ k ih =>
    unfold fibonacciLoop
    split
    · rename_i hinf
      rw [Double.isInfinite_ofRat (roundedFib_nonneg _)] at hinf
      rw [roundedFib_add hinf]
    · rename_i hfin
      rw [Double.isInfinite_ofRat (roundedFib_nonneg _)] at hfin
      have hnext : roundedFib (m + 2) = nearest (roundedFib m + roundedFib (m + 1)) := by
        rw [roundedFib, if_neg hfin]
      have hindex : m + 1 + (k + 1) = m + 1 + 1 + k := by omega
      rw [Double.add_ofRat (roundedFib_nonneg _) (roundedFib_nonneg _), Double.toNearest_ofRat
        (add_nonneg (roundedFib_nonneg _) (roundedFib_nonneg _)), ← hnext, ih (m + 1), hindex]

theorem fibonacci_toNearest {n : Int} (hn : 1 ≤ n) :
    fibonacci n toNearest = .ofRat (roundedFib n.toNat) := by
  unfold fibonacci
  split
  · obtain rfl : n = 1 := by omega
    rfl
  · have hone : Double.fin 1 = .ofRat (roundedFib 1) := by decide +kernel
    have htwo : Double.fin 1 = .ofRat (roundedFib (1 + 1)) := by decide +kernel
    have hloop := fibonacciLoop_toNearest (n - 2).toNat 1
    rw [← hone, ← htwo] at hloop
    have hindex : 1 + 1 + (n - 2).toNat = n.toNat := by omega
    rw [hloop, hindex]

/-- The curve at attempt `n`, as the device computes it. -/
def roundedCurve : BackoffStrategy → ℕ → ℚ
  | .linear, n => n
  | .exponential, n => 2 ^ (n - 1)
  | .fibonacci, n => roundedFib n

theorem one_le_roundedCurve (backoff : BackoffStrategy) {n : ℕ} (hn : 0 < n) :
    1 ≤ roundedCurve backoff n := by
  cases backoff with
  | linear => exact Nat.one_le_cast.mpr hn
  | exponential => exact one_le_pow₀ (by norm_num)
  | fibonacci =>
    obtain ⟨m, rfl⟩ := Nat.exists_eq_add_of_le' hn
    exact (one_le_roundedFib m).2

theorem rawDelay_toNearest {attempt : Int} (h : 1 ≤ attempt) (policy : RetryPolicy)
    (base : Double) :
    rawDelay attempt policy base toNearest =
      toNearest (base.mul (.ofRat (roundedCurve policy.backoff attempt.toNat))) := by
  unfold rawDelay
  cases policy.backoff with
  | linear =>
    show toNearest (base.mul (.ofInt attempt)) = _
    rw [Backoff.ofInt_eq_curve (by omega)]
    rfl
  | exponential =>
    show toNearest (base.mul (.pow2 (attempt - 1).toNat)) = _
    have hexp : (attempt - 1).toNat = attempt.toNat - 1 := by omega
    rw [Double.pow2_eq, hexp]
    rfl
  | fibonacci =>
    show toNearest (base.mul (fibonacci attempt toNearest)) = _
    rw [fibonacci_toNearest h]
    rfl

/-! ## 2. Which policies reach a delay -/

/-- A base delay times the curve, spread by the jitter, each product rounded. -/
def roundedDelay (policy : RetryPolicy) (attempt : ℕ) (sample base : ℚ) : ℚ :=
  if policy.jitter then
    nearest (nearest (base * roundedCurve policy.backoff attempt) *
      nearest (3 / 4 + sample * (1 / 2)))
  else nearest (base * roundedCurve policy.backoff attempt)

/-- The uncapped delay at this attempt is at least `room`, or infinite: with an
infinite base delay, or with a positive one and a curve beyond all doubles. -/
def CurveReaches (policy : RetryPolicy) (attempt : ℕ) (sample : ℚ) (room : Int) : Prop :=
  match policy.baseDelayMs with
  | .inf neg => neg = false
  | .fin b => 0 < b ∧ ((2 : ℚ) ^ 1024 ≤ roundedCurve policy.backoff attempt ∨
      (room : ℚ) ≤ roundedDelay policy attempt sample b)
  | .nan | .negZero => False

/-- The cap is at least `room`. -/
def CapReaches (policy : RetryPolicy) (room : Int) : Prop :=
  policy.maxDelayMs.ge room = true ∨
    policy.maxDelayMs.isNaN = false ∧ policy.baseDelayMs.ge room = true

/-- Neither the curve nor the cap keeps the delay below `room`. -/
def Overshoots (policy : RetryPolicy) (attempt : ℕ) (sample : ℚ) (room : Int) : Prop :=
  CurveReaches policy attempt sample room ∧ CapReaches policy room

/-- The jitter of `computeDelayMs`. -/
def spread (jitter : Bool) (sample : ℚ) (raw : Double) (rnd : Double → Double := id) : Double :=
  if jitter && (Double.fin 0).lt raw then rnd (raw.mul (rnd (.fin (3 / 4 + sample * (1 / 2)))))
  else raw

theorem computeDelayMs_eq {attempt : Int} (h : 1 ≤ attempt) (policy : RetryPolicy) (sample : ℚ)
    (rnd : Double → Double) :
    computeDelayMs attempt policy sample rnd =
      ((spread policy.jitter sample
          (rawDelay attempt policy (policy.baseDelayMs.coerceAtLeast (.fin 0)) rnd) rnd).min
        (policy.maxDelayMs.coerceAtLeast
          (policy.baseDelayMs.coerceAtLeast (.fin 0)))).toInt64 := by
  unfold computeDelayMs
  rw [if_neg (by omega)]
  rfl

variable {jitter : Bool} {sample : ℚ}

theorem spread_nan (rnd : Double → Double) : spread jitter sample .nan rnd = .nan := by
  simp [spread, Double.lt]

/-- Jitter leaves a zero alone. -/
theorem spread_zero (rnd : Double → Double) : spread jitter sample (.fin 0) rnd = .fin 0 := by
  simp [spread, Double.lt]

/-- A double above zero is spread. -/
theorem spread_ofRat {p : ℚ} (hp : 0 < p) (rnd : Double → Double) :
    spread jitter sample (.ofRat p) rnd =
      if jitter then rnd ((Double.ofRat p).mul (rnd (.fin (3 / 4 + sample * (1 / 2)))))
      else .ofRat p := by
  have hlt : (Double.fin 0).lt (.ofRat p) = true := by
    rcases lt_or_ge p (2 ^ 1024) with hfin | hinf
    · rw [Double.ofRat_of_lt hp.le hfin]
      simpa [Double.lt, Double.norm] using hp
    · rw [Double.ofRat_of_le hinf]
      rfl
  unfold spread
  rw [hlt, Bool.and_true]

/-- The rounded jitter factor is between a half and two. -/
theorem factor_bounds (h : 0 ≤ sample) (h1 : sample < 1) :
    1 / 2 ≤ nearest (3 / 4 + sample * (1 / 2)) ∧ nearest (3 / 4 + sample * (1 / 2)) ≤ 2 := by
  constructor
  · have hhalf : (2 : ℚ) ^ (-1 : Int) = 1 / 2 := by norm_num
    rw [← hhalf]
    exact Double.zpow_le_nearest (by decide) (by norm_num; linarith)
  · have htwo : (2 : ℚ) ^ (1 : Int) = 2 := by norm_num
    rw [← htwo]
    exact Double.nearest_le_zpow (by decide) (by linarith) (by norm_num; linarith)

theorem toNearest_factor (h : 0 ≤ sample) (h1 : sample < 1) :
    toNearest (.fin (3 / 4 + sample * (1 / 2))) = .fin (nearest (3 / 4 + sample * (1 / 2))) := by
  obtain ⟨hlow, hhigh⟩ := factor_bounds h h1
  have hlt : (2 : ℚ) < 2 ^ 1024 := lt_self_pow₀ (by norm_num) (by norm_num)
  exact Double.ofRat_of_lt (by linarith) (hhigh.trans_lt hlt)

theorem spread_inf (h : 0 ≤ sample) (h1 : sample < 1) :
    spread jitter sample (.inf false) toNearest = .inf false := by
  have hpos := (factor_bounds h h1).1
  unfold spread
  split
  · rw [toNearest_factor h h1, Double.inf_mul_fin (by linarith)]
    rfl
  · rfl

/-- A base delay of zero gives no delay, or NaN. -/
theorem ge_spread_zero {x : Double} {c q : ℚ} (hx : x.norm = .fin 0) (hc : 0 ≤ c) (hq : 0 < q) :
    (spread jitter sample (toNearest (x.mul (.ofRat c))) toNearest).ge q = false := by
  rw [Double.zero_mul_ofRat hx hc]
  split
  · have hzero : toNearest (.fin 0) = .fin 0 := by decide +kernel
    rw [hzero, spread_zero]
    simpa using hq
  · rw [Double.toNearest_nan, spread_nan]
    rfl

/-- A positive base delay follows the curve. -/
theorem ge_spread_pos {policy : RetryPolicy} {attempt : ℕ} {b q : ℚ} (h : 0 ≤ sample)
    (h1 : sample < 1) (hb : 0 < b) (hattempt : 0 < attempt) (hq : q ≤ 2 ^ 1022) :
    (spread policy.jitter sample (toNearest ((Double.fin b).mul
        (.ofRat (roundedCurve policy.backoff attempt)))) toNearest).ge q = true ↔
      (2 : ℚ) ^ 1024 ≤ roundedCurve policy.backoff attempt ∨
        q ≤ roundedDelay policy attempt sample b := by
  have hc := one_le_roundedCurve policy.backoff hattempt
  have hle : q ≤ 2 ^ 1024 := hq.trans (pow_le_pow_right₀ (by norm_num) (by norm_num))
  have hfactor := (factor_bounds h h1).1
  unfold roundedDelay
  generalize roundedCurve policy.backoff attempt = c at hc ⊢
  rw [Double.mul_ofRat hb (by linarith)]
  rcases lt_or_ge c (2 ^ 1024) with hlt | hge
  · have hbc : 0 ≤ b * c := mul_nonneg hb.le (by linarith)
    have hp := Double.nearest_nonneg hbc
    rw [if_pos hlt, Double.toNearest_ofRat hbc, or_iff_right (not_le.mpr hlt)]
    generalize nearest (b * c) = p at hp ⊢
    rcases hp.eq_or_lt with rfl | hpos
    · have hzero : Double.ofRat 0 = .fin 0 := Double.ofRat_of_lt le_rfl (by positivity)
      rw [hzero, spread_zero]
      simp
    rw [spread_ofRat hpos, toNearest_factor h h1]
    generalize nearest (3 / 4 + sample * (1 / 2)) = f at hfactor ⊢
    have hpf : 0 ≤ p * f := mul_nonneg hp (by linarith)
    cases policy.jitter with
    | false => simp [Double.ge_ofRat hp hle]
    | true =>
      simp only [if_true]
      rcases lt_or_ge p (2 ^ 1024) with hfin | hinf
      · have hmul : (Double.ofRat p).mul (.fin f) = .ofRat (p * f) := by
          rw [Double.ofRat_of_lt hp hfin]
          rfl
        rw [hmul, Double.toNearest_ofRat hpf, Double.ge_ofRat (Double.nearest_nonneg hpf) hle,
          decide_eq_true_eq]
      · -- the product is infinite, and even half of it is out of reach
        rw [Double.ofRat_of_le hinf, Double.inf_mul_fin (by linarith), Double.toNearest_inf,
          Double.ge_inf]
        have hbig : (2 : ℚ) ^ 1022 ≤ p * f := by
          calc (2 : ℚ) ^ 1022 ≤ 2 ^ 1022 * 2 ^ 2 * (1 / 2) := by
                rw [mul_assoc]
                exact le_mul_of_one_le_right (by positivity) (by norm_num)
            _ = 2 ^ 1024 * (1 / 2) := by rw [← pow_add]
            _ ≤ p * f := mul_le_mul hinf hfactor (by norm_num) hp
        have hround : (2 : ℚ) ^ 1022 ≤ nearest (p * f) := by
          exact_mod_cast Double.zpow_le_nearest (k := 1022) (by decide) (by exact_mod_cast hbig)
        simpa using hq.trans hround
  · rw [if_neg (not_lt.mpr hge), Double.toNearest_inf, spread_inf h h1]
    simp [hge]

theorem ge_spread_iff {policy : RetryPolicy} {attempt : ℕ} {room : Int} (h : 0 ≤ sample)
    (h1 : sample < 1) (hattempt : 0 < attempt) (h0 : 0 < room) (hroom : room < 2 ^ 63) :
    (spread policy.jitter sample (toNearest ((policy.baseDelayMs.coerceAtLeast (.fin 0)).mul
      (.ofRat (roundedCurve policy.backoff attempt)))) toNearest).ge room = true ↔
      CurveReaches policy attempt sample room := by
  have hpos : (0 : ℚ) < room := by exact_mod_cast h0
  have hroom' : (room : ℚ) ≤ 2 ^ 1022 := by
    have : (room : ℚ) < 2 ^ 63 := by exact_mod_cast hroom
    exact this.le.trans (pow_le_pow_right₀ (by norm_num) (by norm_num))
  have hcurve := one_le_roundedCurve policy.backoff hattempt
  have hcurve0 : 0 ≤ roundedCurve policy.backoff attempt := by linarith
  unfold CurveReaches
  rcases hbase : policy.baseDelayMs with _ | (_ | _) | _ | b
  · show (spread policy.jitter sample .nan toNearest).ge room = true ↔ False
    rw [spread_nan]
    simp
  · show (spread policy.jitter sample (toNearest ((Double.inf false).mul _)) toNearest).ge room =
      true ↔ _
    rw [Double.inf_mul_ofRat (by linarith), Double.toNearest_inf, spread_inf h h1]
    simp
  · rw [ge_spread_zero rfl hcurve0 hpos]
    simp
  · rw [ge_spread_zero rfl hcurve0 hpos]
    simp
  · rcases lt_or_ge 0 b with hb | hb
    · have hcoerce : (Double.fin b).coerceAtLeast (.fin 0) = .fin b := by
        simp [Double.coerceAtLeast, Double.lt, hb.le]
      rw [hcoerce, ge_spread_pos h h1 hb hattempt hroom']
      simp [hb]
    · have hcoerce : (Double.fin b).coerceAtLeast (.fin 0) = .fin 0 := by
        rcases hb.lt_or_eq with hb | rfl
        · simp [Double.coerceAtLeast, Double.lt, hb]
        · rfl
      rw [hcoerce, ge_spread_zero rfl hcurve0 hpos]
      simp [not_lt.mpr hb]

/-- The delay reaches `room` exactly when the curve and the cap do. -/
theorem le_computeDelayMs_iff {policy : RetryPolicy} {attempt room : Int} (h : 0 ≤ sample)
    (h1 : sample < 1) (hattempt : 1 ≤ attempt) (h0 : 0 < room) (hroom : room < 2 ^ 63) :
    room ≤ computeDelayMs attempt policy sample toNearest ↔
      Overshoots policy attempt.toNat sample room := by
  have hneg : ¬ (room : ℚ) ≤ 0 := not_le.mpr (by exact_mod_cast h0)
  rw [computeDelayMs_eq hattempt, rawDelay_toNearest hattempt, Double.le_toInt64_iff h0 hroom,
    Double.ge_min, Bool.and_eq_true, ge_spread_iff h h1 (by omega) h0 hroom]
  unfold Overshoots CapReaches
  simp [Double.ge_coerceAtLeast, hneg]

theorem nonNeg_spread {x : Double} (h : 0 ≤ sample) (h1 : sample < 1) (hx : x.NonNeg) :
    (spread jitter sample x toNearest).NonNeg := by
  have hfactor := (factor_bounds h h1).1
  unfold spread
  split
  · rw [toNearest_factor h h1]
    exact (hx.mul (.inr (by simp; linarith))).toNearest
  · exact hx

theorem computeDelayMs_nonneg {attempt : Int} (h : 0 ≤ sample) (h1 : sample < 1)
    (hattempt : 1 ≤ attempt) (policy : RetryPolicy) :
    0 ≤ computeDelayMs attempt policy sample toNearest := by
  have hcurve := one_le_roundedCurve policy.backoff (n := attempt.toNat) (by omega)
  rw [computeDelayMs_eq hattempt, rawDelay_toNearest hattempt]
  have hbase : (policy.baseDelayMs.coerceAtLeast (.fin 0)).NonNeg :=
    .coerceAtLeast (by simp) _
  have hraw := (hbase.mul (Double.nonNeg_ofRat (zero_le_one.trans hcurve))).toNearest
  refine Double.toInt64_nonneg (.min (nonNeg_spread h h1 hraw) ?_)
  intro hnum
  -- a delay that is a number comes from a base that is one
  rcases hbase with hnan | hge
  · cases hb : policy.baseDelayMs.coerceAtLeast (.fin 0) with
    | nan =>
      rw [hb] at hnum
      change (spread policy.jitter sample .nan toNearest).isNaN = false at hnum
      rw [spread_nan] at hnum
      cases hnum
    | _ =>
      rw [hb] at hnan
      cases hnan
  · exact .coerceAtLeast hge _

end RetryPolicyEvaluator

/-! ## 3. What a cooldown comes to -/

/-- The cooldown a write puts into its row. -/
def StoreWrite.nextRetryAt? : StoreWrite → Option Int
  | .markRetry _ _ _ _ nextRetryAt => some nextRetryAt
  | .markSucceeded _ | .markFailed _ _ _ _ => none

/-- The write puts its row to rest: until an instant that has not passed, and one
that `nextRetryDeadline` sees. -/
def StoreWrite.Cools (s : StoreWrite) (finishedAt : Int) : Prop :=
  ∃ k, s.nextRetryAt? = some k ∧ finishedAt ≤ k ∧ 0 < k

/-- The row the write is about cannot be claimed before that instant, and
`nextRetryDeadline` counts it in. -/
def StoreWrite.RestsUntil (s : StoreWrite) (instant : Int) : Prop :=
  ∀ t, ∀ r ∈ (s.run t).rows, r.id = s.id →
    (∀ now limit, r ∈ SyncItemDao.selectClaimable now limit (s.run t) → instant ≤ now) ∧
      ∃ m, SyncItemDao.nextRetryDeadline (s.run t) = some m ∧ m ≤ r.nextRetryAt

theorem restsUntil_markRetry {id : String} {attempts lastAttemptAt k : Int} {code : SyncErrorCode}
    (hk : 0 < k) : (StoreWrite.markRetry id attempts lastAttemptAt code k).RestsUntil k := by
  intro t r hr hid
  have hrow : r.status = .PENDING ∧ r.nextRetryAt = k := by
    obtain ⟨r₀, hr₀, rfl⟩ := SyncItemDao.mem_updateStatus.mp hr
    split
    · exact ⟨rfl, rfl⟩
    · rename_i hne
      rw [if_neg hne] at hid
      exact absurd (by simpa [StoreWrite.id] using hid) hne
  obtain ⟨hs, hn⟩ := hrow
  refine ⟨fun now limit hclaim => ?_, SyncItemDao.exists_nextRetryDeadline_le hr hs (hn ▸ hk)⟩
  rw [← hn]
  exact (SyncItemDao.selectClaimable_subset hclaim).2.2

/-- The clock and a delay add up exactly when the delay is within the room left. -/
theorem wrap64_add_iff {finishedAt delay : Int} (h0 : 0 < finishedAt) (h : finishedAt < 2 ^ 63)
    (hd0 : 0 ≤ delay) (hd : delay < 2 ^ 63) :
    finishedAt ≤ wrap64 (finishedAt + delay) ∧ 0 < wrap64 (finishedAt + delay) ↔
      ¬ 2 ^ 63 - finishedAt ≤ delay := by
  unfold wrap64
  rcases lt_or_ge (finishedAt + delay) (2 ^ 63) with hlt | hge
  · rw [Int.bmod_eq_of_le (by omega) (by omega)]
    omega
  · have hwrap : (finishedAt + delay).bmod (2 ^ 64) = finishedAt + delay - 2 ^ 64 := by
      rw [← Int.sub_bmod_right, Int.bmod_eq_of_le] <;> omega
    omega

/-- A write that adds a delay to the clock cools its row exactly when the delay
is within the room left, and then the row rests for the whole delay. -/
theorem cools_iff {id : String} {attempts lastAttemptAt finishedAt delay : Int}
    {code : SyncErrorCode} (h0 : 0 < finishedAt) (h : finishedAt < 2 ^ 63) (hd0 : 0 ≤ delay)
    (hd : delay < 2 ^ 63) :
    ((StoreWrite.markRetry id attempts lastAttemptAt code
        (wrap64 (finishedAt + delay))).Cools finishedAt ↔ ¬ 2 ^ 63 - finishedAt ≤ delay) ∧
      (¬ 2 ^ 63 - finishedAt ≤ delay → (StoreWrite.markRetry id attempts lastAttemptAt code
        (wrap64 (finishedAt + delay))).RestsUntil (finishedAt + delay)) := by
  constructor
  · rw [← wrap64_add_iff h0 h hd0 hd]
    constructor
    · rintro ⟨k, hk, hle, hpos⟩
      cases hk
      exact ⟨hle, hpos⟩
    · rintro ⟨hle, hpos⟩
      exact ⟨_, rfl, hle, hpos⟩
  · intro hfits
    have hsum : wrap64 (finishedAt + delay) = finishedAt + delay := by
      unfold wrap64
      rw [Int.bmod_eq_of_le] <;> omega
    rw [hsum]
    exact restsUntil_markRetry (by omega)

/-- For every policy, attempt, jitter sample and clock reading, in doubles as the
device computes with them: `reschedule` puts its row to rest exactly when the cap
or the curve keeps the delay below what is left of the 64-bit clock, and a
credential hold exactly when the minimum hold is below that as well. A row at
rest is out of claims for the whole delay and counts for the next wake. -/
theorem cooldown_holds_iff (entity : SyncItemEntity) {attempt startedAt finishedAt : Int}
    (f : AttemptFailure) (options : SyncOptions) {sample : ℚ} (hattempt : 1 ≤ attempt)
    (h0 : 0 < finishedAt) (h : finishedAt < 2 ^ 63) (hsample : 0 ≤ sample) (hsample1 : sample < 1) :
    (((reschedule entity attempt startedAt finishedAt f options sample toNearest).write.Cools
          finishedAt ↔
        ¬ RetryPolicyEvaluator.Overshoots options.retryPolicy attempt.toNat sample
          (2 ^ 63 - finishedAt)) ∧
      (¬ RetryPolicyEvaluator.Overshoots options.retryPolicy attempt.toNat sample
          (2 ^ 63 - finishedAt) →
        (reschedule entity attempt startedAt finishedAt f options sample
          toNearest).write.RestsUntil
          (finishedAt + RetryPolicyEvaluator.computeDelayMs attempt options.retryPolicy
            sample toNearest))) ∧
    (((holdForCredentialRenewal entity attempt startedAt finishedAt f options sample
          toNearest).write.Cools finishedAt ↔
        ¬ RetryPolicyEvaluator.Overshoots options.retryPolicy attempt.toNat sample
          (2 ^ 63 - finishedAt) ∧ MIN_CREDENTIAL_HOLD_MS < 2 ^ 63 - finishedAt) ∧
      (¬ RetryPolicyEvaluator.Overshoots options.retryPolicy attempt.toNat sample
          (2 ^ 63 - finishedAt) ∧ MIN_CREDENTIAL_HOLD_MS < 2 ^ 63 - finishedAt →
        (holdForCredentialRenewal entity attempt startedAt finishedAt f options sample
          toNearest).write.RestsUntil
          (finishedAt + max (RetryPolicyEvaluator.computeDelayMs attempt options.retryPolicy
            sample toNearest) MIN_CREDENTIAL_HOLD_MS))) := by
  have hd0 :=
    RetryPolicyEvaluator.computeDelayMs_nonneg hsample hsample1 hattempt options.retryPolicy
  have hd : RetryPolicyEvaluator.computeDelayMs attempt options.retryPolicy sample toNearest <
      2 ^ 63 := by
    rw [RetryPolicyEvaluator.computeDelayMs_eq hattempt]
    exact Int.lt_of_le_sub_one (Double.truncSat_le (by decide) (by decide) _)
  have hreach : 2 ^ 63 - finishedAt ≤
      RetryPolicyEvaluator.computeDelayMs attempt options.retryPolicy sample toNearest ↔
      RetryPolicyEvaluator.Overshoots options.retryPolicy attempt.toNat sample
        (2 ^ 63 - finishedAt) :=
    RetryPolicyEvaluator.le_computeDelayMs_iff hsample hsample1 hattempt (by omega) (by omega)
  have hhold : (2 ^ 63 - finishedAt ≤ max (RetryPolicyEvaluator.computeDelayMs attempt
      options.retryPolicy sample toNearest) MIN_CREDENTIAL_HOLD_MS) ↔
      ¬ (¬ RetryPolicyEvaluator.Overshoots options.retryPolicy attempt.toNat sample
        (2 ^ 63 - finishedAt) ∧ MIN_CREDENTIAL_HOLD_MS < 2 ^ 63 - finishedAt) := by
    rw [← hreach]
    omega
  have hmin : (0 : Int) ≤ MIN_CREDENTIAL_HOLD_MS ∧ MIN_CREDENTIAL_HOLD_MS < 2 ^ 63 := by decide
  constructor
  · rw [← hreach]
    exact cools_iff h0 h hd0 hd
  · have hcools := @cools_iff entity.id entity.attempts startedAt finishedAt
      (max (RetryPolicyEvaluator.computeDelayMs attempt options.retryPolicy sample toNearest)
        MIN_CREDENTIAL_HOLD_MS) f.code h0 h (by omega) (by omega)
    rw [hhold, not_not] at hcools
    exact hcools

/-- A rounded product can be out of reach where the exact one is not: a base delay
of this size, times three, at this clock reading. -/
example : ¬ ((2 : ℚ) ^ 63 - 1763500001280 ≤ 3074456757784924672 * 3) ∧
    (2 : ℚ) ^ 63 - 1763500001280 ≤ nearest (3074456757784924672 * 3) := by
  decide +kernel

section Sample

/-- An exponential policy of 100 attempts without a cap. -/
def uncappedOptions : SyncOptions where
  strategy := .automatic
  retryPolicy :=
    { maxAttempts := .fin 100
      backoff := .exponential
      baseDelayMs := .fin 1000
      maxDelayMs := .inf false
      jitter := false
      retryOnStatusCodes := [.fin 503] }
  batchSize := none
  requestTimeoutMs := none
  maxQueueSize := none
  persistQueue := none
  defaultHeaders := none

def unavailable : AttemptFailure := ⟨.SERVER_ERROR, "HTTP 503", some 503, true⟩

/-- At the third attempt the row rests for four seconds. -/
theorem cooldown_holds_at_third_attempt :
    (reschedule (SyncQueueStorage.sampleItem "A").entity 3 900 1000 unavailable uncappedOptions 0
      toNearest).write.RestsUntil 5000 := by
  have hfits : ¬ RetryPolicyEvaluator.Overshoots uncappedOptions.retryPolicy 3 0
      (2 ^ 63 - 1000) := by
    rintro ⟨⟨-, h | h⟩, -⟩
    · exact absurd h (by decide +kernel)
    · exact absurd h (by decide +kernel)
  have hdelay : RetryPolicyEvaluator.computeDelayMs 3 uncappedOptions.retryPolicy 0 toNearest =
      4000 := by
    decide +kernel
  have hrests := (@cooldown_holds_iff (SyncQueueStorage.sampleItem "A").entity 3 900 1000
    unavailable uncappedOptions 0 (by decide) (by decide) (by decide) le_rfl one_pos).1.2 hfits
  rw [hdelay] at hrests
  exact hrests

/-! ## 4. An infinite cap -/

/-- At the sixtieth attempt the delay saturates, and the row is due in the
distant past. -/
theorem infinite_cap_wraps :
    (reschedule (SyncQueueStorage.sampleItem "A").entity 60 900 1000 unavailable uncappedOptions 0
      toNearest).write.nextRetryAt? = some (-9223372036854774809) ∧
    ¬ (reschedule (SyncQueueStorage.sampleItem "A").entity 60 900 1000 unavailable uncappedOptions 0
      toNearest).write.Cools 1000 := by
  have hwrap : (reschedule (SyncQueueStorage.sampleItem "A").entity 60 900 1000 unavailable
      uncappedOptions 0 toNearest).write.nextRetryAt? = some (-9223372036854774809) := by
    decide +kernel
  refine ⟨hwrap, ?_⟩
  rintro ⟨k, hk, hle, -⟩
  rw [hwrap] at hk
  cases hk
  exact absurd hle (by decide)

end Sample

end SyncProvider.Android
