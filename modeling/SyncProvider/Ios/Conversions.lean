import SyncProvider.Agreement
import SyncProvider.Ios.ConfigStore

/-!
# iOS: numbers that become integers

The bridge, the engine and the dispatcher convert the numbers of the options with
`Int(_:)`, which traps outside the 64-bit range. `configure` saves the options before
it converts the last of them, so a number that traps there traps on every later
launch as well.

Results:
1. `nextDelayMs_converts` : the delay of a retry never traps.
2. `no_trap_iff` : which numbers a run without a trap passes.
3. `never_starts` : the record that traps on every launch.
-/

/-- A number has a 64-bit integer part. -/
def Double.FitsInt (x : Double) : Prop := ∃ q, x.norm = .fin q ∧ -2 ^ 63 - 1 < q ∧ q < 2 ^ 63

/-- `rounded()`, halves away from zero. -/
def Double.rounded : Double → Double
  | .fin q => .fin (Double.roundRat q)
  | x => x

namespace SyncProvider.Ios

/-! ## The model -/

/-- The retry policy as the bridge passes it. -/
structure RetryPolicy where
  maxAttempts : Double
  backoff : BackoffStrategy
  baseDelayMs : Double
  maxDelayMs : Double
  jitter : Bool
  retryOnStatusCodes : List Double
  deriving DecidableEq

/-- The options as the bridge passes them. -/
structure SyncOptions where
  strategy : String
  retryPolicy : RetryPolicy
  batchSize : Option Double
  requestTimeoutMs : Option Double
  maxQueueSize : Option Double
  persistQueue : Option Bool
  defaultHeaders : Option StringMap
  deriving DecidableEq

/-- `none` when a conversion traps. -/
def RetryPolicy.translate (retry : RetryPolicy) : Option RetryPolicyValue := do
  let maxAttempts ← int retry.maxAttempts
  let baseDelayMs ← int retry.baseDelayMs
  let maxDelayMs ← int retry.maxDelayMs
  let retryOnStatusCodes ← retry.retryOnStatusCodes.mapM int
  return {
    maxAttempts := maxAttempts
    backoff := retry.backoff
    baseDelayMs := baseDelayMs
    maxDelayMs := maxDelayMs
    jitter := retry.jitter
    retryOnStatusCodes := retryOnStatusCodes }

/-- `translate(options:)`, `none` when a conversion traps. -/
def SyncOptions.translate (options : SyncOptions) : Option SyncOptionsSnapshot :=
  options.retryPolicy.translate.map fun policy =>
    { strategy := options.strategy
      retryPolicy := policy
      batchSize := options.batchSize.getD (.fin 25)
      requestTimeoutMs := options.requestTimeoutMs.getD (.fin 30000)
      maxQueueSize := options.maxQueueSize.getD (.ofInt kDefaultQueueCapacity)
      persistQueue := options.persistQueue.getD true
      defaultHeaders := options.defaultHeaders.getD [] }

/-- The capacity of the queue and the configuration of the dispatcher, `none` when a
conversion traps. -/
def SyncOptionsSnapshot.apply (options : SyncOptionsSnapshot) (source : ConfigSource)
    (credentialsUnavailable : Bool) : Option (Int × DispatcherConfig) := do
  let capacity ← int options.maxQueueSize
  let config ← options.toDispatcherConfig source credentialsUnavailable
  return (max 1 capacity, config)

/-- `Int(max(0, limit))`. `max` of zero and NaN is zero. -/
def historyLimit (limit : Double) : Option Int := int (if limit.ge 0 then limit else .fin 0)

/-- What `nextDelayMs` converts. -/
def RetryPolicyEvaluator.clamped (attempt : Int) (policy : RetryPolicyValue) (sample : ℚ) :
    Double :=
  let curve := rawDelay (max 1 attempt) (max 0 policy.baseDelayMs) policy
  let finite := if curve.isNaN then .fin 0 else curve
  let raw := if policy.jitter then finite.mul (.fin (3 / 4 + sample * (1 / 2))) else finite
  let cap := if policy.maxDelayMs > 0 then .ofInt policy.maxDelayMs else raw
  ((raw.coerceAtLeast (.fin 0)).min cap).min maxRepresentableDelayMs

/-- The process of the app. -/
inductive ProcessState where
  | down
  | running (options : SyncOptionsSnapshot) (capacity : Int) (config : DispatcherConfig)
  /-- A conversion trapped. -/
  | crashed
  deriving DecidableEq

structure Install where
  disk : ConfigDisk
  process : ProcessState
  deriving DecidableEq

namespace Install

inductive Label where
  /-- The engine starts. -/
  | launch (unlocked : Bool) (faults : KeychainFaults)
  | configureSync (options : SyncOptions) (faults : KeychainFaults)
  /-- A flush computes the delay of a retry. -/
  | retry (attempt : Int) (sample : ℚ)
  | getSyncHistory (limit : Double)
  | kill
  deriving DecidableEq

def ProcessState.start (options : SyncOptionsSnapshot) : Option (Int × DispatcherConfig) →
    ProcessState
  | some (capacity, config) => .running options capacity config
  | none => .crashed

/-- `SyncEngine.init`. -/
def started (unlocked : Bool) (faults : KeychainFaults) (disk : ConfigDisk) : Install :=
  let (loaded, disk) := SyncConfigStore.load unlocked faults disk
  let applied := loaded.options.apply loaded.source loaded.credentialsUnavailable
  ⟨disk, ProcessState.start loaded.options applied⟩

def step (s : Install) : Label → Option Install
  | .launch unlocked faults =>
    match s.process with
    | .running _ _ _ => none
    | .down | .crashed => some (started unlocked faults s.disk)
  | .configureSync options faults =>
    match s.process with
    | .running _ _ _ =>
      match options.translate with
      | none => some { s with process := .crashed }
      | some snapshot =>
        -- the record is saved before the numbers it has are converted
        some ⟨SyncConfigStore.save faults s.disk snapshot,
          ProcessState.start snapshot (snapshot.apply .live false)⟩
    | _ => none
  | .retry attempt sample =>
    match s.process with
    | .running _ _ config =>
      if 0 ≤ sample ∧ sample < 1 then
        match int (RetryPolicyEvaluator.clamped attempt config.retryPolicy sample).rounded with
        | some _ => some s
        | none => some { s with process := .crashed }
      else none
    | _ => none
  | .getSyncHistory limit =>
    match s.process with
    | .running _ _ _ =>
      match historyLimit limit with
      | some _ => some s
      | none => some { s with process := .crashed }
    | _ => none
  | .kill => some { s with process := .down }

end Install

/-! ## 1. What converts -/

theorem int_isSome_iff (x : Double) : (int x).isSome = true ↔ x.FitsInt := by
  unfold int Double.FitsInt
  cases x.norm with
  | nan | inf neg | negZero => simp
  | fin q =>
    have hlow : -2 ^ 63 ≤ Double.truncRat q ↔ -2 ^ 63 - 1 < q := by
      have h := Double.lt_truncRat_iff (q := q) (n := -2 ^ 63 - 1) (by norm_num)
      rw [Int.sub_one_lt_iff] at h
      rw [h]
      norm_num
    have hhigh : Double.truncRat q < 2 ^ 63 ↔ q < 2 ^ 63 := by
      have h := Double.truncRat_lt_iff (q := q) (n := 2 ^ 63) (by norm_num)
      rw [h]
      norm_num
    simp only [hlow, hhigh]
    split
    · rename_i hfits
      exact iff_of_true rfl ⟨q, rfl, hfits⟩
    · rename_i hfits
      refine iff_of_false Bool.false_ne_true ?_
      rintro ⟨_, ⟨⟩, hlow, hhigh⟩
      exact hfits ⟨hlow, hhigh⟩

theorem mapM_isSome_iff {α β : Type} (f : α → Option β) (xs : List α) :
    (xs.mapM f).isSome = true ↔ ∀ x ∈ xs, (f x).isSome = true := by
  induction xs with
  | nil => simp
  | cons x xs ih =>
    rw [List.mapM_cons, List.forall_mem_cons, ← ih]
    cases f x with
    | none => simp
    | some y => cases List.mapM f xs <;> simp

def RetryPolicy.Fits (retry : RetryPolicy) : Prop :=
  retry.maxAttempts.FitsInt ∧ retry.baseDelayMs.FitsInt ∧ retry.maxDelayMs.FitsInt ∧
    ∀ code ∈ retry.retryOnStatusCodes, code.FitsInt

def SyncOptionsSnapshot.Fits (options : SyncOptionsSnapshot) : Prop :=
  options.maxQueueSize.FitsInt ∧ options.requestTimeoutMs.FitsInt ∧ options.batchSize.FitsInt

/-- Every number that is passed has a 64-bit integer part. -/
def SyncOptions.Fits (options : SyncOptions) : Prop :=
  options.retryPolicy.Fits ∧ (∀ x ∈ options.maxQueueSize, x.FitsInt) ∧
    (∀ x ∈ options.requestTimeoutMs, x.FitsInt) ∧ ∀ x ∈ options.batchSize, x.FitsInt

theorem RetryPolicy.translate_isSome_iff (retry : RetryPolicy) :
    retry.translate.isSome = true ↔ retry.Fits := by
  unfold RetryPolicy.translate RetryPolicy.Fits
  simp only [← int_isSome_iff, ← mapM_isSome_iff]
  cases int retry.maxAttempts <;> cases int retry.baseDelayMs <;> cases int retry.maxDelayMs <;>
    cases List.mapM int retry.retryOnStatusCodes <;> simp

theorem SyncOptionsSnapshot.apply_isSome_iff (options : SyncOptionsSnapshot)
    (source : ConfigSource) (unavailable : Bool) :
    (options.apply source unavailable).isSome = true ↔ options.Fits := by
  unfold SyncOptionsSnapshot.apply SyncOptionsSnapshot.toDispatcherConfig SyncOptionsSnapshot.Fits
  simp only [← int_isSome_iff]
  cases int options.maxQueueSize <;> cases int options.requestTimeoutMs <;>
    cases int options.batchSize <;> simp

theorem fits_getD {x : Option Double} {default : Double} (hdefault : default.FitsInt) :
    (x.getD default).FitsInt ↔ ∀ y ∈ x, y.FitsInt := by
  cases x with
  | none => simpa using hdefault
  | some y => simp

theorem SyncOptions.translate_fits_iff {options : SyncOptions} {snapshot : SyncOptionsSnapshot}
    (h : options.translate = some snapshot) : snapshot.Fits ↔ options.Fits := by
  have hpolicy : options.retryPolicy.Fits := by
    obtain ⟨policy, hpolicy, -⟩ := Option.map_eq_some_iff.mp h
    rw [← RetryPolicy.translate_isSome_iff, hpolicy]
    rfl
  obtain ⟨policy, -, rfl⟩ := Option.map_eq_some_iff.mp h
  have hfin {q : ℚ} (h0 : 0 ≤ q) (hq : q < 2 ^ 63) : (Double.fin q).FitsInt := by
    have hlow : (-2 ^ 63 - 1 : ℚ) < 0 := by norm_num
    exact ⟨q, rfl, hlow.trans_le h0, hq⟩
  have hcapacity : (Double.ofInt kDefaultQueueCapacity).FitsInt := by
    have hsmall : ((10000 : Int) : ℚ) < 2 ^ 14 := by norm_num
    have hlarge : (2 : ℚ) ^ 14 ≤ 2 ^ 1024 := pow_le_pow_right₀ (by norm_num) (by norm_num)
    have hpos : (0 : ℚ) ≤ ((10000 : Int) : ℚ) := by norm_num
    have hvalue := Double.ofRat_of_lt hpos (hsmall.trans_le hlarge)
    show (Double.ofRat ((10000 : Int) : ℚ)).FitsInt
    rw [hvalue]
    exact hfin hpos (by norm_num)
  have hsize := fits_getD (x := options.maxQueueSize) hcapacity
  have htimeout := fits_getD (x := options.requestTimeoutMs)
    (hfin (q := 30000) (by norm_num) (by norm_num))
  have hbatch := fits_getD (x := options.batchSize) (hfin (q := 25) (by norm_num) (by norm_num))
  exact (and_congr hsize (and_congr htimeout hbatch)).trans (and_iff_right hpolicy).symm

theorem historyLimit_isSome_iff (limit : Double) :
    (historyLimit limit).isSome = true ↔ limit.ge (2 ^ 63) = false := by
  have hzero : (int (.fin 0)).isSome = true := by decide +kernel
  unfold historyLimit
  cases limit with
  | nan => simpa using hzero
  | inf neg =>
    cases neg with
    | false => decide +kernel
    | true => simpa using hzero
  | negZero => decide +kernel
  | fin q =>
    rw [Double.ge_fin, Double.ge_fin, decide_eq_false_iff_not, not_le]
    split
    · rename_i hq
      rw [decide_eq_true_eq] at hq
      rw [int_isSome_iff]
      have hlow : (-2 ^ 63 - 1 : ℚ) < 0 := by norm_num
      refine ⟨fun ⟨a, ha, _, hhigh⟩ => ?_, fun hhigh => ⟨q, rfl, hlow.trans_le hq, hhigh⟩⟩
      cases ha
      exact hhigh
    · rename_i hq
      rw [decide_eq_true_eq, not_le] at hq
      have hlarge : (0 : ℚ) < 2 ^ 63 := by norm_num
      exact ⟨fun _ => hq.trans hlarge, fun _ => hzero⟩

/-! ## 2. The delay of a retry -/

namespace RetryPolicyEvaluator

theorem nextDelayMs_eq (attempt : Int) (policy : RetryPolicyValue) (sample : ℚ) :
    nextDelayMs attempt policy sample = (clamped attempt policy sample).round := rfl

/-- A product with a positive factor is a number. -/
theorem isNaN_mul_fin {x : Double} {q : ℚ} (hx : x.isNaN = false) (hq : 0 < q) :
    (x.mul (.fin q)).isNaN = false := by
  have hrat (a : ℚ) : (Double.ofRat a).isNaN = false := by
    unfold Double.ofRat
    split
    · rfl
    · split <;> rfl
  cases x with
  | nan => cases hx
  | inf neg =>
    rw [Double.inf_mul_fin hq]
    rfl
  | negZero | fin a => exact hrat _

/-- The smaller of a number that is not negative and a bound is not above the bound. -/
theorem min_fin_cases {x : Double} {m : ℚ} (hx : x.NonNeg) (hnan : x.isNaN = false) (hm : 0 ≤ m) :
    x.min (.fin m) = .negZero ∨ ∃ q, x.min (.fin m) = .fin q ∧ 0 ≤ q ∧ q ≤ m := by
  have hmin : x.min (.fin m) = if (Double.fin m).lt x then .fin m else x := by
    unfold Double.min
    rw [hnan]
    rfl
  rw [hmin]
  cases x with
  | nan => cases hnan
  | inf neg =>
    rcases hx with hx | hx
    · cases hx
    · cases neg with
      | true => cases hx
      | false => exact .inr ⟨m, rfl, hm, le_rfl⟩
  | negZero =>
    split
    · exact .inr ⟨m, rfl, hm, le_rfl⟩
    · exact .inl rfl
  | fin a =>
    have ha : 0 ≤ a := by simpa [Double.NonNeg, Double.isNaN] using hx
    split
    · exact .inr ⟨m, rfl, hm, le_rfl⟩
    · rename_i hlt
      have hle : a ≤ m := by simpa [Double.lt] using hlt
      exact .inr ⟨a, rfl, ha, hle⟩

theorem nonNeg_rawDelay {attempt base : Int} (hattempt : 1 ≤ attempt) (hbase : 0 ≤ base)
    (policy : RetryPolicyValue) : (rawDelay attempt base policy).NonNeg := by
  have hbase' : (Double.ofInt base).NonNeg := Double.nonNeg_ofRat (by exact_mod_cast hbase)
  unfold rawDelay
  cases policy.backoff with
  | linear =>
    have hpos : (0 : ℚ) ≤ attempt := by exact_mod_cast hattempt.trans' Int.one_nonneg
    exact hbase'.mul (Double.nonNeg_ofRat hpos)
  | exponential =>
    rw [Double.pow2_eq]
    exact hbase'.mul (Double.nonNeg_ofRat (by positivity))
  | fibonacci =>
    rw [fibonacci_eq hattempt]
    exact hbase'.mul (Double.nonNeg_ofRat (Nat.cast_nonneg _))

/-- A number that is neither negative nor NaN. -/
def Sound (x : Double) : Prop := x.NonNeg ∧ x.isNaN = false

theorem sound_ofInt {n : Int} (hn : 0 ≤ n) : Sound (.ofInt n) := by
  refine ⟨Double.nonNeg_ofRat (by exact_mod_cast hn), ?_⟩
  unfold Double.ofInt Double.ofRat
  split
  · rfl
  · split <;> rfl

theorem Sound.min {x y : Double} (hx : Sound x) (hy : Sound y) : Sound (x.min y) := by
  refine ⟨hx.1.min fun _ => hy.1, ?_⟩
  unfold Double.min
  rw [hx.2, hy.2]
  simp only [Bool.or_self, Bool.false_eq_true, if_false]
  split
  · exact hy.2
  · exact hx.2

theorem Sound.coerceAtLeast {x : Double} (hx : Sound x) : Sound (x.coerceAtLeast (.fin 0)) := by
  refine ⟨Double.NonNeg.coerceAtLeast (by simp) x, ?_⟩
  unfold Double.coerceAtLeast
  split
  · rfl
  · exact hx.2

/-- The clamped delay is a number between zero and `maxRepresentableDelayMs`. -/
theorem clamped_cases (attempt : Int) (policy : RetryPolicyValue) {sample : ℚ} (h0 : 0 ≤ sample) :
    clamped attempt policy sample = .negZero ∨
      ∃ q, clamped attempt policy sample = .fin q ∧ 0 ≤ q ∧ q ≤ 9007199254740991 := by
  unfold clamped
  dsimp only
  have hcurve := nonNeg_rawDelay (le_max_left 1 attempt) (le_max_left 0 policy.baseDelayMs) policy
  generalize rawDelay (max 1 attempt) (max 0 policy.baseDelayMs) policy = curve at hcurve
  generalize hfinite : (if curve.isNaN then Double.fin 0 else curve) = finite
  have hsound : Sound finite := by
    rw [← hfinite]
    split
    · exact ⟨.inr (by simp), rfl⟩
    · rename_i hnumber
      exact ⟨hcurve, by simpa using hnumber⟩
  generalize hraw : (if policy.jitter then finite.mul (.fin (3 / 4 + sample * (1 / 2)))
    else finite) = raw
  have hsound' : Sound raw := by
    have hfactor : (0 : ℚ) < 3 / 4 + sample * (1 / 2) := by linarith
    rw [← hraw]
    split
    · exact ⟨hsound.1.mul (.inr (by simpa using hfactor.le)), isNaN_mul_fin hsound.2 hfactor⟩
    · exact hsound
  have hcap : Sound (if policy.maxDelayMs > 0 then .ofInt policy.maxDelayMs else raw) := by
    split
    · rename_i hpos
      exact sound_ofInt (by omega)
    · exact hsound'
  have hdelay := hsound'.coerceAtLeast.min hcap
  exact min_fin_cases hdelay.1 hdelay.2 (by norm_num)

/-- For every policy and attempt number the delay converts. -/
theorem nextDelayMs_converts (attempt : Int) (policy : RetryPolicyValue) {sample : ℚ}
    (h0 : 0 ≤ sample) : int (clamped attempt policy sample).rounded =
      some (nextDelayMs attempt policy sample) := by
  rw [nextDelayMs_eq]
  rcases clamped_cases attempt policy h0 with hzero | ⟨q, hq, hlow, hhigh⟩
  · rw [hzero]
    rfl
  · rw [hq]
    have hround : 0 ≤ Double.roundRat q ∧ Double.roundRat q ≤ 9007199254740991 := by
      unfold Double.roundRat
      rw [if_neg (not_lt.mpr hlow)]
      constructor
      · exact Int.floor_nonneg.mpr (by linarith)
      · have hfloor : ⌊q + 1 / 2⌋ < 9007199254740992 := Int.floor_lt.mpr (by norm_num; linarith)
        omega
    show int (.fin (Double.roundRat q)) = some (Double.roundRat q)
    have htrunc : Double.truncRat (Double.roundRat q) = Double.roundRat q := by
      rw [Double.truncRat_of_nonneg (by exact_mod_cast hround.1), Int.floor_intCast]
    unfold int
    rw [Double.norm_fin]
    dsimp only
    rw [htrunc, if_pos (by omega)]

end RetryPolicyEvaluator

/-! ## 3. Runs without a trap -/

namespace Install

variable {s s' : Install} {l : Label}

/-- The stored record converts. -/
def RecordFits (disk : ConfigDisk) : Prop :=
  ∀ record, disk.record = some (.readable record) → record.options.Fits

def Label.Fits : Label → Prop
  | .configureSync options _ => options.Fits
  | .getSyncHistory limit => limit.ge (2 ^ 63) = false
  | .launch _ _ | .retry _ _ | .kill => True

/-- A cold start leaves the record and its numbers as they are. -/
theorem load_record (unlocked : Bool) (faults : KeychainFaults) (disk : ConfigDisk) :
    (SyncConfigStore.load unlocked faults disk).2.record = disk.record := by
  unfold SyncConfigStore.load SyncConfigStore.discardOrphanedSecret
  cases hrecord : disk.record with
  | none =>
    dsimp only
    split
    · rfl
    · exact hrecord
  | some record =>
    cases record with
    | unreadable => exact hrecord
    | readable record =>
      dsimp only
      split
      · split <;> exact hrecord
      · exact hrecord

theorem default_fits : SyncOptionsSnapshot.default.Fits := by
  have htranslate : SyncOptions.translate
      ⟨"AUTOMATIC", ⟨.fin 5, .exponential, .fin 1000, .fin 60000, true,
        [.fin 408, .fin 425, .fin 429, .fin 500, .fin 502, .fin 503, .fin 504]⟩,
        none, none, none, none, none⟩ = some .default := by
    decide +kernel
  rw [SyncOptions.translate_fits_iff htranslate]
  refine ⟨?_, by simp, by simp, by simp⟩
  rw [← RetryPolicy.translate_isSome_iff]
  decide +kernel

theorem load_fits_iff (unlocked : Bool) (faults : KeychainFaults) (disk : ConfigDisk) :
    (SyncConfigStore.load unlocked faults disk).1.options.Fits ↔ RecordFits disk := by
  unfold SyncConfigStore.load RecordFits
  cases hrecord : disk.record with
  | none =>
    refine iff_of_true default_fits fun record h => ?_
    cases h
  | some record =>
    cases record with
    | unreadable =>
      refine iff_of_true default_fits fun record h => ?_
      cases h
    | readable record =>
      have hsame : (∀ other, some (StoredRecord.readable record) = some (.readable other) →
          other.options.Fits) ↔ record.options.Fits :=
        ⟨fun h => h record rfl, fun h other heq => by cases heq; exact h⟩
      rw [hsame]
      dsimp only
      split
      · split <;> exact Iff.rfl
      · exact Iff.rfl

theorem start_eq_crashed_iff (options : SyncOptionsSnapshot) (source : ConfigSource)
    (unavailable : Bool) :
    ProcessState.start options (options.apply source unavailable) = .crashed ↔ ¬options.Fits := by
  rw [← SyncOptionsSnapshot.apply_isSome_iff options source unavailable]
  cases options.apply source unavailable with
  | none => simp [ProcessState.start]
  | some applied => simp [ProcessState.start]

theorem started_crashed_iff (unlocked : Bool) (faults : KeychainFaults) (disk : ConfigDisk) :
    (started unlocked faults disk).process = .crashed ↔ ¬RecordFits disk := by
  rw [← load_fits_iff unlocked faults]
  exact start_eq_crashed_iff _ _ _

theorem started_recordFits_iff (unlocked : Bool) (faults : KeychainFaults) (disk : ConfigDisk) :
    RecordFits (started unlocked faults disk).disk ↔ RecordFits disk := by
  unfold RecordFits
  rw [show (started unlocked faults disk).disk.record = disk.record from load_record ..]

/-- No conversion has trapped, and none will on the next launch. -/
structure Sound (s : Install) : Prop where
  process : s.process ≠ .crashed
  record : RecordFits s.disk

theorem recordFits_save {faults : KeychainFaults} {disk : ConfigDisk}
    {options : SyncOptionsSnapshot} (hdisk : RecordFits disk) (hfits : options.Fits) :
    RecordFits (SyncConfigStore.save faults disk options) := by
  intro record hrecord
  simp only [SyncConfigStore.save] at hrecord
  split at hrecord
  · cases hrecord
    exact hfits
  · exact hdisk record hrecord

theorem Sound.step (hS : Sound s) (hfits : l.Fits) (h : s.step l = some s') : Sound s' := by
  cases l with
  | launch unlocked faults =>
    have hstarted : Sound (started unlocked faults s.disk) := by
      refine ⟨fun hcrashed => ?_, (started_recordFits_iff ..).mpr hS.record⟩
      exact (started_crashed_iff ..).mp hcrashed hS.record
    simp only [Install.step] at h
    split at h
    · cases h
    · cases h
      exact hstarted
    · cases h
      exact hstarted
  | configureSync options faults =>
    simp only [Install.step] at h
    split at h
    · have htranslated := (RetryPolicy.translate_isSome_iff options.retryPolicy).mpr hfits.1
      split at h
      · rename_i hnone
        rw [SyncOptions.translate, Option.map_eq_none_iff] at hnone
        rw [hnone] at htranslated
        cases htranslated
      · rename_i snapshot hsnapshot
        cases h
        have hsnapshot' := (SyncOptions.translate_fits_iff hsnapshot).mpr hfits
        exact ⟨fun hcrashed => (start_eq_crashed_iff ..).mp hcrashed hsnapshot',
          recordFits_save hS.record hsnapshot'⟩
    · cases h
  | retry attempt sample =>
    simp only [Install.step] at h
    split at h
    · rename_i config hprocess
      simp only [Option.ite_none_right_eq_some] at h
      obtain ⟨⟨h0, -⟩, h⟩ := h
      rw [RetryPolicyEvaluator.nextDelayMs_converts attempt config.retryPolicy h0] at h
      cases h
      exact hS
    · cases h
  | getSyncHistory limit =>
    simp only [Install.step] at h
    split at h
    · have hlimit := (historyLimit_isSome_iff limit).mpr hfits
      split at h
      · cases h
        exact hS
      · rename_i hnone
        rw [hnone] at hlimit
        cases hlimit
    · cases h
  | kill =>
    cases h
    exact ⟨by simp, hS.record⟩

/-- A step that does not trap converts what it is passed. -/
theorem fits_of_step (h : s.step l = some s') (hprocess : s'.process ≠ .crashed) : l.Fits := by
  cases l with
  | launch unlocked faults => trivial
  | configureSync options faults =>
    simp only [Install.step] at h
    split at h
    · split at h
      · cases h
        exact absurd rfl hprocess
      · rename_i snapshot hsnapshot
        cases h
        refine (SyncOptions.translate_fits_iff hsnapshot).mp ?_
        by_contra hfits
        exact hprocess ((start_eq_crashed_iff ..).mpr hfits)
    · cases h
  | retry attempt sample => trivial
  | getSyncHistory limit =>
    refine (historyLimit_isSome_iff limit).mp ?_
    simp only [Install.step] at h
    split at h
    · split at h
      · rename_i hlimit
        rw [hlimit]
        rfl
      · cases h
        exact absurd rfl hprocess
    · cases h
  | kill => trivial

/-- From the first launch of an install, over any launches, calls and kills: no
conversion traps exactly when every number that is passed to `configureSync` has a
64-bit integer part, and no limit of the history is above that range. -/
theorem no_trap_iff {ls : List Label} {secret : Option StringMap}
    (hrun : StepSystem.exec step ⟨⟨none, secret⟩, .down⟩ ls = some s') :
    StepSystem.Always step (fun s => s.process ≠ .crashed) ⟨⟨none, secret⟩, .down⟩ ls ↔
      ∀ l ∈ ls, l.Fits := by
  have hsound : Sound ⟨⟨none, secret⟩, .down⟩ := by
    refine ⟨by simp, fun record hrecord => ?_⟩
    cases hrecord
  have hmeets : StepSystem.Meets step (fun _ _ => True) ⟨⟨none, secret⟩, .down⟩ ls :=
    StepSystem.meets_of_forall fun _ _ => trivial
  rw [StepSystem.always_iff_meets (I := Sound) (C := fun _ l => l.Fits)
    (fun hS _ hfits h => hS.step hfits h) (fun hS => hS.process)
    (fun _ _ h hprocess => fits_of_step h hprocess) hsound hmeets hrun]
  exact ⟨fun h => StepSystem.forall_of_meets h hrun, StepSystem.meets_of_forall⟩

/-! ## 4. The record that traps on every launch -/

/-- The process does not run, and none that is started from the disk does. -/
structure Dead (s : Install) : Prop where
  process : ∀ options capacity config, s.process ≠ .running options capacity config
  record : ¬RecordFits s.disk

theorem Dead.of_crashed (hprocess : s.process = .crashed) (hrecord : ¬RecordFits s.disk) :
    Dead s := by
  refine ⟨fun options capacity config hrunning => ?_, hrecord⟩
  cases hprocess.symm.trans hrunning

theorem Dead.step (hD : Dead s) (h : s.step l = some s') : Dead s' := by
  cases l with
  | launch unlocked faults =>
    have hstarted : Dead (started unlocked faults s.disk) :=
      .of_crashed ((started_crashed_iff ..).mpr hD.record)
        (mt (started_recordFits_iff ..).mp hD.record)
    simp only [Install.step] at h
    split at h
    · cases h
    · cases h
      exact hstarted
    · cases h
      exact hstarted
  | configureSync | retry | getSyncHistory =>
    simp only [Install.step] at h
    split at h
    · rename_i hrunning
      exact absurd hrunning (hD.process _ _ _)
    · cases h
  | kill =>
    cases h
    exact ⟨by simp, hD.record⟩

/-- When `configureSync` is passed numbers that the record keeps and that do not
convert, no later process of the install gets to run. -/
theorem never_starts {options : SyncOptions} {faults : KeychainFaults} {m : Install}
    {snapshot : SyncOptionsSnapshot} {ls : List Label}
    (htranslate : options.translate = some snapshot)
    (hencodes : (PersistedSyncRecord.ofOptions snapshot).encodes = true) (hfits : ¬options.Fits)
    (hconfigure : s.step (.configureSync options faults) = some m)
    (hrun : StepSystem.exec step m ls = some s') :
    ∀ options capacity config, s'.process ≠ .running options capacity config := by
  have hsnapshot := mt (SyncOptions.translate_fits_iff htranslate).mp hfits
  refine (StepSystem.exec_invariant Dead.step ?_ hrun).process
  simp only [Install.step] at hconfigure
  split at hconfigure
  · rw [htranslate] at hconfigure
    cases hconfigure
    refine .of_crashed ((start_eq_crashed_iff ..).mpr hsnapshot) fun hrecord => ?_
    exact hsnapshot (hrecord (.ofOptions snapshot) (if_pos hencodes))
  · cases hconfigure

section Sample

/-- What an app passes, with this size of the queue. -/
def sampleOptions (maxQueueSize : ℚ) : SyncOptions where
  strategy := "AUTOMATIC"
  retryPolicy := ⟨.fin 5, .exponential, .fin 1000, .fin 60000, true, [.fin 500]⟩
  batchSize := none
  requestTimeoutMs := some (.fin (-1 / 2))
  maxQueueSize := some (.fin maxQueueSize)
  persistQueue := none
  defaultHeaders := none

def faultless : KeychainFaults := ⟨false, false, false⟩

/-- Numbers that look odd, and convert. -/
def oddRun : List Label :=
  [.launch true faultless, .configureSync (sampleOptions (-5 / 2)) faultless,
    .retry 2000 (1 / 2), .getSyncHistory .nan, .getSyncHistory (.inf true), .kill,
    .launch true faultless]

/-- A size that is finite, and does not convert. -/
def hugeRun : List Label :=
  [.launch true faultless, .configureSync (sampleOptions (10 ^ 300)) faultless,
    .launch true faultless, .kill, .launch false faultless]

theorem no_trap_iff_oddRun :
    StepSystem.Always step (fun s => s.process ≠ .crashed) ⟨⟨none, none⟩, .down⟩ oddRun := by
  have hend : (StepSystem.exec step ⟨⟨none, none⟩, .down⟩ oddRun).isSome = true := by
    decide +kernel
  obtain ⟨s, hrun⟩ := Option.isSome_iff_exists.mp hend
  refine (no_trap_iff hrun).mpr fun l hl => ?_
  have hoptions : (sampleOptions (-5 / 2)).Fits := by
    have htranslate : (sampleOptions (-5 / 2)).translate.isSome = true := by decide +kernel
    obtain ⟨snapshot, hsnapshot⟩ := Option.isSome_iff_exists.mp htranslate
    rw [← SyncOptions.translate_fits_iff hsnapshot,
      ← SyncOptionsSnapshot.apply_isSome_iff snapshot .live false]
    obtain rfl := Option.some.inj (hsnapshot.symm.trans rfl)
    decide +kernel
  simp only [oddRun, List.mem_cons, List.not_mem_nil, or_false] at hl
  rcases hl with rfl | rfl | rfl | rfl | rfl | rfl | rfl
  · trivial
  · exact hoptions
  · trivial
  · rfl
  · rfl
  · trivial
  · trivial

/-- The record is on disk when its size traps, and it traps on every launch. -/
theorem huge_size_crashes_every_launch :
    ¬StepSystem.Always step (fun s => s.process ≠ .crashed) ⟨⟨none, none⟩, .down⟩ hugeRun ∧
      ∃ s, StepSystem.exec step ⟨⟨none, none⟩, .down⟩ hugeRun = some s ∧ s.process = .crashed ∧
        s.disk.record.isSome = true := by
  have hend : (StepSystem.exec step ⟨⟨none, none⟩, .down⟩ hugeRun).map
      (fun s => (decide (s.process = .crashed), s.disk.record.isSome)) = some (true, true) := by
    decide +kernel
  obtain ⟨s, hrun, hs⟩ := Option.map_eq_some_iff.mp hend
  simp only [Prod.mk.injEq, decide_eq_true_eq] at hs
  exact ⟨fun hall => hall.last hrun hs.1, s, hrun, hs⟩

end Sample

end Install

end SyncProvider.Ios
