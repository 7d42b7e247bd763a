import SyncProvider.Android.Wake

/-!
# Android: the retry wake

Whoever touches the timer last decides when the queue is woken, and nothing says
that it has read the store last. So the wake is kept exactly as long as no row
that is put back between a read of the store and what becomes of it is left out.

Results:
1. `Orderly.step` : nobody cancels a flush of the timer, and only
   `RecoveryWorker` resets.
2. `RetryWakeKept.step` : what keeps the wake.
3. `Informed.upToDate_iff` : what a reading covers, and what it leaves out.
4. `retry_wake_kept_iff` : the wake is kept exactly when the last one to act
   leaves out no row that was put back since it read.
5. `stale_reading_cancels_wake` : a reading from before the cycle wrote its rows
   cancels the timer that the cycle armed.
-/

namespace SyncProvider.Android

/-- A wake that fired offline, on its way to the network coming back. -/
def Task.owes : Task → Bool
  | .firedOffline | .recheck | .networkAvailable => true
  | _ => false

namespace Runtime

variable {accepts : HttpRequest → Bool} {s s' : Runtime}

/-- The latest credential hold. -/
def latestHold (s : Runtime) : Int := ((s.engine.world.wakes.filterMap id).max?).getD 0

/-- Nothing is in progress: no task, no cycle, and no flush of the timer. -/
structure Quiescent (s : Runtime) : Prop where
  tasks : ∀ k ∈ s.tasks, k = .done
  cycles : ¬ s.engine.Unfinished
  flushes : ∀ t, s.internal t = true → (s.engine.calls t).underway = false

/-- When nothing is in progress and nothing forbids it, the timer is due in time
for the earliest row that awaits a retry. -/
def RetryWakeKept (s : Runtime) : Prop :=
  0 < s.attachedEngines → s.engine.paused = false → s.Quiescent →
    ∀ m, SyncItemDao.nextRetryDeadline s.engine.world.table = some m →
      ∃ due, s.retryTimer.waiting = some due ∧ due ≤ max (max m s.latestHold) s.now

/-- The step is a read of the deadline that throws. -/
def Label.isReadFailure : Label → Bool
  | .advance _ .readFails => true
  | _ => false

/-- The network is online, an engine is attached and stays so, the strategy is
not `MANUAL`, and the reads succeed, that of the default headers included. -/
structure Steady (s : Runtime) (l : Label) : Prop where
  online : s.cm.isOffline = false
  attached : 0 < s.attachedEngines
  stays : l = .detachEngine → 1 < s.attachedEngines
  strategy : s.engine.options.strategy ≠ .manual
  credentials : s.engine.credentials ≠ .UNAVAILABLE
  reads : l.isReadFailure = false

/-- What a task is about to do to the timer agrees with the rows that await a
retry now. -/
def UpToDate (s : Runtime) : Task → Prop
  | .halted _ | .pausing | .decided _ none =>
    SyncItemDao.nextRetryDeadline s.engine.world.table = none
  | .decided caller (some deadline) =>
    ∀ m, SyncItemDao.nextRetryDeadline s.engine.world.table = some m →
      caller.wakeAt deadline ≤ max (max m s.latestHold) s.now
  | _ => True

/-- The last one to act on the timer, with nothing else in progress, is up to
date. -/
def LastUpToDate (s : Runtime) : Label → Prop
  | .advance u .go => ∀ k, s.tasks[u]? = some k → s.engine.paused = false →
    Quiescent { s with tasks := s.tasks.set u .done } → s.UpToDate k
  | _ => True

/-! ## 1. Who is cancelled, and who resets -/

structure Orderly (s : Runtime) : Prop where
  uncancelled : ∀ t, s.internal t = true → (s.engine.calls t).cancelled = false
  resetting : ∀ t, (s.engine.calls t).resetting = true → .recovering t ∈ s.tasks
  online : ∀ k ∈ s.tasks, k.owes = false

theorem internal_of_internalAfter {l : Android.Label} {t : Nat}
    (h : s.internalAfter l t = true) : s.internal t = true := by
  unfold internalAfter at h
  split at h
  · rename_i u op
    by_cases hu : t = u
    · subst hu
      rw [Function.update_self] at h
      cases h
    · rwa [Function.update_of_ne hu] at h
  · exact h

namespace Orderly

theorem congr (hO : Orderly s) (hcalls : s'.engine.calls = s.engine.calls)
    (hinternal : s'.internal = s.internal) (htasks : s'.tasks = s.tasks) : Orderly s' := by
  refine ⟨fun t ht => ?_, fun t ht => ?_, ?_⟩
  · rw [hcalls]
    exact hO.uncancelled t (hinternal ▸ ht)
  · rw [htasks]
    exact hO.resetting t (hcalls ▸ ht)
  · rw [htasks]
    exact hO.online

theorem spawn (hO : Orderly s) {k : Task} (hk : k.owes = false) : Orderly (s.spawn k) where
  uncancelled := hO.uncancelled
  resetting t ht := List.mem_append_left _ (hO.resetting t ht)
  online := TaskPool.forall_spawn hO.online hk

theorem set (hO : Orderly s) {u : Nat} {k k' : Task} (h : s.tasks[u]? = some k)
    (hcalls : s'.engine.calls = s.engine.calls) (hinternal : s'.internal = s.internal)
    (hk : ∀ t, k = .recovering t → (s.engine.calls t).resetting = false)
    (hk' : k'.owes = false) : Orderly { s' with tasks := s.tasks.set u k' } where
  uncancelled t ht := by
    show (s'.engine.calls t).cancelled = false
    rw [hcalls]
    exact hO.uncancelled t (hinternal ▸ ht)
  resetting t ht := by
    have ht : (s.engine.calls t).resetting = true := hcalls ▸ ht
    refine TaskPool.mem_set_of_ne h (hO.resetting t ht) fun heq => ?_
    rw [hk t heq.symm] at ht
    cases ht
  online := TaskPool.forall_set hO.online hk'

/-- A call that nobody cancels: a reset is one of `RecoveryWorker`. -/
theorem call (hO : Orderly s) {u t : Nat} {k k' : Task} {op : Operation} {e : Engine}
    (h : s.tasks[u]? = some k) (hk : ∀ t, k ≠ .recovering t) (hk' : k'.owes = false)
    (hop : op = .resetInFlight → k' = .recovering t)
    (he : s.engine.step accepts (.call t op) = some e) :
    Orderly { s with
      engine := e
      internal := Function.update s.internal t true
      tasks := s.tasks.set u k' } where
  uncancelled v hv := by
    obtain ⟨-, rfl⟩ := Engine.step_call_eq he
    by_cases hvt : v = t
    · subst hvt
      simp [Engine.setCall]
    · simp only [Function.update_of_ne hvt] at hv
      simpa [Engine.setCall, Function.update_of_ne hvt] using hO.uncancelled v hv
  resetting v hv := by
    rcases (Engine.step_call he v).2 hv with hv | hv
    · exact TaskPool.mem_set_of_ne h (hO.resetting v hv) fun heq => hk v heq.symm
    · cases hv
      exact hop rfl ▸ TaskPool.mem_set_self h
  online := TaskPool.forall_set hO.online hk'

theorem engine (hO : Orderly s) {l : Android.Label} (hattached : 0 < s.attachedEngines)
    (h : s.step accepts (.engine l) = some s') : Orderly s' := by
  obtain ⟨hl, e, he, rfl⟩ := step_engine h
  refine ⟨fun t ht => ?_, fun t ht => ?_, hO.online⟩
  · have hinternal : s.internal t = true := internal_of_internalAfter ht
    rw [Bool.eq_false_iff]
    intro hcancelled
    rcases (Engine.step_call he t).1 hcancelled with hc | rfl
    · rw [hO.uncancelled t hinternal] at hc
      cases hc
    · simp [allows, hinternal] at hl
  · rcases (Engine.step_call he t).2 ht with hr | rfl
    · exact hO.resetting t hr
    · simp [allows] at hl
      omega

theorem advance (hO : Orderly s) {u : Nat} {ev : TaskEvent} {k k' : Task}
    (h : s.tasks[u]? = some k) (honline : s.cm.isOffline = false)
    (hadvance : Advances accepts s k ev s' k') : Orderly { s' with tasks := s.tasks.set u k' } := by
  have hk : k.owes = false := hO.online k (List.mem_of_getElem? h)
  cases hadvance with
  | recover he => exact hO.call h (by rintro t ⟨⟩) rfl (fun _ => rfl) he
  | dispatch he => exact hO.call h (by rintro t ⟨⟩) rfl (by rintro ⟨⟩) he
  | recovered hidle =>
    refine hO.set h rfl rfl ?_ rfl
    rintro t ⟨⟩
    simp [Call.resetting, hidle]
  | readFails caller =>
    refine hO.set h rfl rfl (by rintro t ⟨⟩) ?_
    split <;> rfl
  | offline hoffline =>
    rw [honline] at hoffline
    cases hoffline
  | owe | stillOffline | returned | deliver | delivered => cases hk
  | halt | ask | cancelHalted | read | cancelEmpty | arm | unattended | cancelPaused | online =>
    exact hO.set h rfl rfl (by rintro t ⟨⟩) rfl

theorem step (hO : Orderly s) {l : Label} (hsteady : s.Steady l)
    (h : s.step accepts l = some s') : Orderly s' := by
  cases l with
  | engine l => exact hO.engine hsteady.attached h
  | finish t =>
    obtain ⟨e, notBefore, he, -, rfl⟩ := step_finish h
    refine spawn (s := { s with engine := e }) ⟨fun v hv => ?_, fun v hv => ?_, hO.online⟩ rfl
    · rw [Bool.eq_false_iff]
      intro hc
      rcases (Engine.step_call he v).1 hc with hc | hl
      · rw [hO.uncancelled v hv] at hc
        cases hc
      · cases hl
    · rcases (Engine.step_call he v).2 hv with hr | hl
      · exact hO.resetting v hr
      · cases hl
  | attachEngine =>
    have hA := step_attachEngine h
    have hcalls : s'.engine.calls = s.engine.calls := by rw [hA.engine]
    rcases hA.tasks with ⟨htasks, -⟩ | htasks
    · exact hO.congr hcalls hA.internal htasks
    · exact (hO.spawn (k := .recovery) rfl).congr hcalls hA.internal htasks
  | detachEngine =>
    have hstays := hsteady.stays rfl
    simp only [Runtime.step] at h
    rw [if_neg (by omega), if_neg (by omega)] at h
    cases h
    exact hO.congr rfl rfl rfl
  | pause | resume | configure options credentials =>
    cases h
    refine spawn ?_ ?_
    · exact hO.congr rfl rfl rfl
    · rfl
  | recoverSecret options credentials =>
    simp only [Runtime.step, Option.ite_none_right_eq_some] at h
    exact absurd h.1 hsteady.credentials
  | advance u ev =>
    obtain ⟨k, s₁, k', hk, hadvance, rfl⟩ := step_advance h
    exact hO.advance hk hsteady.online hadvance
  | fire =>
    obtain ⟨due, hdue, rfl⟩ := Option.map_eq_some_iff.mp h
    refine spawn ?_ ?_
    · exact hO.congr rfl rfl rfl
    · rfl
  | tick ms | network network caps | activate network =>
    cases h
    exact hO.congr rfl rfl rfl
  | callback =>
    simp only [Runtime.step] at h
    split at h <;> cases h
    exact hO.congr rfl rfl rfl
  | collect =>
    simp only [Runtime.step] at h
    split at h
    · split at h <;> cases h
      exact hO.congr rfl rfl rfl
    · cases h
  | deliver =>
    simp only [Runtime.step] at h
    split at h
    · split at h <;> cases h
      · refine spawn ?_ ?_
        · exact hO.congr rfl rfl rfl
        · rfl
      · exact hO.congr rfl rfl rfl
    · cases h

end Orderly

/-! ## 2. What keeps the wake -/

namespace RetryWakeKept

/-- Nothing has to be kept while something is in progress. -/
theorem of_task {k : Task} (h : k ∈ s.tasks) (hk : k ≠ .done) : RetryWakeKept s :=
  fun _ _ hquiet => absurd (hquiet.tasks k h) hk

theorem of_spawn {k : Task} (hk : k ≠ .done) : RetryWakeKept (s.spawn k) :=
  of_task TaskPool.mem_spawn_self hk

theorem of_set {u : Nat} {k k' : Task} (h : s.tasks[u]? = some k) (hk' : k' ≠ .done) :
    RetryWakeKept { s' with tasks := s.tasks.set u k' } :=
  of_task (TaskPool.mem_set_self h) hk'

/-- A step that touches neither the timer nor what it is for. -/
theorem congr (hK : RetryWakeKept s) (hattached : 0 < s.attachedEngines)
    (hengine : s'.engine = s.engine) (hinternal : s'.internal = s.internal)
    (htasks : s'.tasks = s.tasks) (hwaiting : s'.retryTimer.waiting = s.retryTimer.waiting)
    (hnow : s.now ≤ s'.now) : RetryWakeKept s' := by
  intro _ hpaused hquiet m hm
  obtain ⟨htasks', hcycles, hflushes⟩ := hquiet
  rw [htasks] at htasks'
  rw [hengine] at hpaused hcycles hflushes hm
  rw [hinternal] at hflushes
  obtain ⟨due, hdue, hle⟩ := hK hattached hpaused ⟨htasks', hcycles, hflushes⟩ m hm
  have hhold : s'.latestHold = s.latestHold := by rw [latestHold, hengine, latestHold]
  rw [hwaiting, hhold]
  exact ⟨due, hdue, by omega⟩

/-- The dispatcher takes a step of its own. -/
theorem engine (hK : RetryWakeKept s) (hO : Orderly s) (hcredentials :
    s.engine.credentials ≠ .UNAVAILABLE) {e : Engine} {internal : Nat → Bool}
    (hB : Engine.Between s.engine e) (hinternal : ∀ t, s.internal t = true →
      (s.engine.calls t).underway = true → internal t = true) :
    RetryWakeKept { s with engine := e, internal := internal } := by
  intro hattached hpaused hquiet m hm
  have hpaused₀ : s.engine.paused = false := hB.paused ▸ hpaused
  have hcycles : ¬ e.Unfinished := hquiet.cycles
  have hflushes (t : Nat) (ht : s.internal t = true) : (s.engine.calls t).underway = false := by
    rw [Bool.eq_false_iff]
    intro hunderway
    rcases hB.underway t hunderway with h | h | h | h | h
    · have hidle : (e.calls t).underway = false := hquiet.flushes t (hinternal t ht hunderway)
      rw [hidle] at h
      cases h
    · exact hcycles h
    · rw [hO.uncancelled t ht] at h
      cases h
    · rw [hpaused₀] at h
      cases h
    · exact hcredentials h
  have hrows : ∀ r ∈ e.world.table.rows, r.status = .PENDING → 0 < r.nextRetryAt →
      r ∈ s.engine.world.table.rows := by
    intro r hr hs hn
    rcases hB.rows r hr ⟨hs, hn⟩ with h | h | ⟨t, ht⟩
    · exact h
    · exact absurd h hcycles
    · -- a reset is one of `RecoveryWorker`, which is still in progress
      exact absurd (hquiet.tasks _ (hO.resetting t ht)) (by rintro ⟨⟩)
  obtain ⟨m₀, hm₀, hle⟩ := SyncItemDao.exists_nextRetryDeadline_of_subset hrows hm
  have hquiet₀ : s.Quiescent := ⟨hquiet.tasks, fun h => hcycles (hB.unfinished h), hflushes⟩
  obtain ⟨due, hdue, hdue_le⟩ := hK hattached hpaused₀ hquiet₀ m₀ hm₀
  have hhold : latestHold { s with engine := e, internal := internal } = s.latestHold := by
    rw [latestHold, hB.wakes.resolve_right hcycles, latestHold]
  rw [hhold]
  exact ⟨due, hdue, le_trans hdue_le (by dsimp only; omega)⟩

/-- The last one to act on the timer drops it, with no row that awaits a retry. -/
theorem cancel {u : Nat} (hempty : s.engine.paused = false →
    Quiescent { s with tasks := s.tasks.set u .done } →
      SyncItemDao.nextRetryDeadline s.engine.world.table = none) :
    RetryWakeKept { s with retryTimer := .cancel, tasks := s.tasks.set u .done } := by
  intro _ hpaused hquiet m hm
  have hnone := hempty hpaused ⟨hquiet.tasks, hquiet.cycles, hquiet.flushes⟩
  change SyncItemDao.nextRetryDeadline s.engine.world.table = some m at hm
  rw [hnone] at hm
  cases hm

theorem arm {u : Nat} {wakeAt : Int} (hcovers : s.engine.paused = false →
    Quiescent { s with tasks := s.tasks.set u .done } →
      ∀ m, SyncItemDao.nextRetryDeadline s.engine.world.table = some m →
        wakeAt ≤ max (max m s.latestHold) s.now) :
    RetryWakeKept { s with
      retryTimer := .arm s.now (s.delayUntil wakeAt)
      tasks := s.tasks.set u .done } := by
  intro _ hpaused hquiet m hm
  have hle := hcovers hpaused ⟨hquiet.tasks, hquiet.cycles, hquiet.flushes⟩ m hm
  refine ⟨s.now + s.delayUntil wakeAt, rfl, ?_⟩
  show s.now + max (wakeAt - s.now) 0 ≤ max (max m s.latestHold) s.now
  omega

theorem advance (hO : Orderly s) {u : Nat} {ev : TaskEvent} {k k' : Task}
    (h : s.tasks[u]? = some k) (hsteady : s.Steady (.advance u ev))
    (hcurrent : s.LastUpToDate (.advance u ev)) (hadvance : Advances accepts s k ev s' k') :
    RetryWakeKept { s' with tasks := s.tasks.set u k' } := by
  have hk : k.owes = false := hO.online k (List.mem_of_getElem? h)
  cases hadvance with
  | cancelHalted | cancelEmpty | cancelPaused => exact cancel (s := s) (hcurrent _ h)
  | arm => exact arm (s := s) (hcurrent _ h)
  | readFails => exact absurd hsteady.reads (by rintro ⟨⟩)
  | unattended caller deadline hattached => exact absurd hsteady.attached (by omega)
  | @dispatch t e he =>
    -- the flush is under way
    obtain ⟨-, rfl⟩ := Engine.step_call_eq he
    intro _ _ hquiet
    have hidle := hquiet.flushes t (by simp)
    simp [Engine.setCall, Call.underway] at hidle
  | owe | stillOffline | returned | deliver | delivered => cases hk
  | halt | ask | read | recover | recovered | online | offline => exact of_set h (by rintro ⟨⟩)

theorem step (hK : RetryWakeKept s) (hO : Orderly s) {l : Label} (hsteady : s.Steady l)
    (hcurrent : s.LastUpToDate l) (h : s.step accepts l = some s') : RetryWakeKept s' := by
  cases l with
  | engine l =>
    obtain ⟨hl, e, he, rfl⟩ := step_engine h
    have hB : Engine.Between s.engine e := by
      refine Engine.step_between ?_ ?_ ?_ he
      · rintro options credentials rfl
        cases hl
      · rintro paused rfl
        cases hl
      · rintro t rfl
        cases hl
    refine hK.engine hO hsteady.credentials hB fun t ht hunderway => ?_
    cases l with
    | call u op =>
      -- the caller was idle
      have hidle := (Engine.step_call_eq he).1
      have hu : t ≠ u := by
        rintro rfl
        simp [Call.underway, hidle] at hunderway
      simpa [internalAfter, Function.update_of_ne hu] using ht
    | _ => exact ht
  | finish t =>
    obtain ⟨e, notBefore, he, -, rfl⟩ := step_finish h
    exact of_spawn (by rintro ⟨⟩)
  | attachEngine =>
    have hA := step_attachEngine h
    rcases hA.tasks with ⟨htasks, k, hk, hrecovery⟩ | htasks
    · refine of_task (k := k) (by rwa [htasks]) ?_
      rintro rfl
      cases hrecovery
    · exact of_task (k := .recovery) (by rw [htasks]; exact TaskPool.mem_spawn_self) (by rintro ⟨⟩)
  | detachEngine =>
    have hstays := hsteady.stays rfl
    simp only [Runtime.step] at h
    rw [if_neg (by omega), if_neg (by omega)] at h
    cases h
    exact hK.congr hsteady.attached rfl rfl rfl rfl le_rfl
  | pause | resume | configure options credentials =>
    cases h
    exact of_spawn (by rintro ⟨⟩)
  | recoverSecret options credentials =>
    simp only [Runtime.step, Option.ite_none_right_eq_some] at h
    exact absurd h.1 hsteady.credentials
  | advance u ev =>
    obtain ⟨k, s₁, k', hk, hadvance, rfl⟩ := step_advance h
    exact advance hO hk hsteady hcurrent hadvance
  | fire =>
    obtain ⟨due, hdue, rfl⟩ := Option.map_eq_some_iff.mp h
    exact of_spawn (by rintro ⟨⟩)
  | tick ms =>
    cases h
    exact hK.congr hsteady.attached rfl rfl rfl rfl (Int.le_add_of_nonneg_right (by omega))
  | network network caps | activate network =>
    cases h
    exact hK.congr hsteady.attached rfl rfl rfl rfl le_rfl
  | callback =>
    simp only [Runtime.step] at h
    split at h <;> cases h
    exact hK.congr hsteady.attached rfl rfl rfl rfl le_rfl
  | collect =>
    simp only [Runtime.step] at h
    split at h
    · split at h <;> cases h
      exact hK.congr hsteady.attached rfl rfl rfl rfl le_rfl
    · cases h
  | deliver =>
    simp only [Runtime.step] at h
    split at h
    · split at h <;> cases h
      · exact of_spawn (by rintro ⟨⟩)
      · exact hK.congr hsteady.attached rfl rfl rfl rfl le_rfl
    · cases h

end RetryWakeKept

/-- The last one to act was up to date, if the wake is kept after it. -/
theorem LastUpToDate.of_kept {l : Label} (hsteady : s.Steady l)
    (h : s.step accepts l = some s') (hK : RetryWakeKept s') : s.LastUpToDate l := by
  unfold LastUpToDate
  split
  case h_2 => trivial
  case h_1 u =>
    intro k hk hpaused hquiet
    obtain ⟨k₁, s₁, k', hk₁, hadvance, rfl⟩ := step_advance h
    obtain rfl : k₁ = k := Option.some.inj (hk₁.symm.trans hk)
    have dropped (hK : RetryWakeKept { s with
        retryTimer := .cancel, tasks := s.tasks.set u .done }) :
        SyncItemDao.nextRetryDeadline s.engine.world.table = none := by
      cases hm : SyncItemDao.nextRetryDeadline s.engine.world.table with
      | none => rfl
      | some m =>
        obtain ⟨due, hdue, -⟩ :=
          hK hsteady.attached hpaused ⟨hquiet.tasks, hquiet.cycles, hquiet.flushes⟩ m hm
        cases hdue
    cases hadvance with
    | cancelHalted | cancelEmpty | cancelPaused => exact dropped hK
    | arm caller deadline =>
      intro m hm
      obtain ⟨due, hdue, hle⟩ :=
        hK hsteady.attached hpaused ⟨hquiet.tasks, hquiet.cycles, hquiet.flushes⟩ m hm
      cases hdue
      have hle : s.now + max (caller.wakeAt deadline - s.now) 0 ≤
          max (max m s.latestHold) s.now := hle
      omega
    | unattended caller deadline hattached => exact absurd hsteady.attached (by omega)
    | _ => trivial

/-! ## 3. What was read, and what came after -/

/-- The last table each task has read. -/
def observe (s : Runtime) (l : Label) (seen : Nat → SyncItems) : Nat → SyncItems :=
  match l with
  | .advance u .go =>
    match s.tasks[u]? with
    | some (.reading _) => Function.update seen u s.engine.world.table
    | _ => seen
  | _ => seen

/-- What a task is about to do to the timer leaves out a row that awaits a retry. Behind a
read it is one that was put back since, and that is due before the instant this read leads
to. An arm that was halted, and a pause, drop the timer without a read. -/
def LeavesOut (s : Runtime) (seen : SyncItems) : Task → Prop
  | .decided caller _ => ∃ r ∈ s.engine.world.table.rows, r.AwaitsRetry ∧ r ∉ seen.rows ∧
      ∀ deadline ∈ caller.deadline seen,
        max (max r.nextRetryAt s.latestHold) s.now < caller.wakeAt deadline
  | .halted _ | .pausing => ∃ r ∈ s.engine.world.table.rows, r.AwaitsRetry
  | _ => False

/-- The last one to act on the timer, with nothing else in progress and no pause, leaves out
no row. -/
def InTime (p : Runtime × (Nat → SyncItems)) : Label → Prop
  | .advance u .go => ∀ k, p.1.tasks[u]? = some k → p.1.engine.paused = false →
    Quiescent { p.1 with tasks := p.1.tasks.set u .done } → ¬ p.1.LeavesOut (p.2 u) k
  | _ => True

/-- What the tasks know: the deadline of the table they read, and the hold of the cycle that
called them. -/
structure Informed (p : Runtime × (Nat → SyncItems)) : Prop where
  readings : ∀ (u : Nat) (caller : WakeCaller) (deadline : Option Int),
    p.1.tasks[u]? = some (.decided caller deadline) → deadline = caller.deadline (p.2 u)
  floors : ∀ k ∈ p.1.tasks, ∀ (t : Nat) (notBefore : Option Int),
    k.caller? = some (.cycle t notBefore) → notBefore ∈ p.1.engine.world.wakes

/-- No row awaits a retry exactly when the table has no deadline. -/
theorem nextRetryDeadline_eq_none_iff {t : SyncItems} :
    SyncItemDao.nextRetryDeadline t = none ↔ ¬ ∃ r ∈ t.rows, r.AwaitsRetry := by
  constructor
  · rintro hnone ⟨r, hr, hwaits⟩
    obtain ⟨m, hm, -⟩ := SyncItemDao.exists_nextRetryDeadline_le hr hwaits.1 hwaits.2
    rw [hnone] at hm
    cases hm
  · intro hnone
    cases hm : SyncItemDao.nextRetryDeadline t with
    | none => rfl
    | some m =>
      obtain ⟨r, hr, hp, -⟩ := KeyedTable.exists_of_minWhere hm
      exact absurd ⟨r, hr, by simpa [SyncItemEntity.AwaitsRetry] using hp⟩ hnone

/-- Every row that awaits a retry counts in what is read. -/
theorem exists_deadline_le {t : SyncItems} {r : SyncItemEntity} (caller : WakeCaller)
    (hr : r ∈ t.rows) (hwaits : r.AwaitsRetry) :
    ∃ deadline, caller.deadline t = some deadline ∧ deadline ≤ r.nextRetryAt := by
  cases caller with
  | resume => exact KeyedTable.exists_minWhere_le hr (by simp [hwaits.1])
  | cycle t notBefore | configure | recovery =>
    exact SyncItemDao.exists_nextRetryDeadline_le hr hwaits.1 hwaits.2

theorem le_latestHold {hold : Int} (h : some hold ∈ s.engine.world.wakes) :
    hold ≤ s.latestHold := by
  have hmem : hold ∈ s.engine.world.wakes.filterMap id := List.mem_filterMap.mpr ⟨_, h, rfl⟩
  unfold latestHold
  cases hmax : (s.engine.world.wakes.filterMap id).max? with
  | none =>
    rw [List.max?_eq_none_iff] at hmax
    rw [hmax] at hmem
    cases hmem
  | some m => exact (List.max?_eq_some_iff.mp hmax).2 hold hmem

namespace Informed

variable {seen : Nat → SyncItems}

/-- For a row that was read, the instant of the arm is in time. -/
theorem wakeAt_le (hI : Informed (s, seen)) {u : Nat} {caller : WakeCaller} {deadline : Int}
    {r : SyncItemEntity} (hu : s.tasks[u]? = some (.decided caller (some deadline)))
    (hr : r ∈ (seen u).rows) (hwaits : r.AwaitsRetry) :
    caller.wakeAt deadline ≤ max r.nextRetryAt s.latestHold := by
  obtain ⟨d, hd, hle⟩ := exists_deadline_le caller hr hwaits
  rw [← hI.readings u caller _ hu] at hd
  cases hd
  have hpos : 0 < r.nextRetryAt := hwaits.2
  cases caller with
  | cycle t notBefore =>
    have hfloor := hI.floors _ (List.mem_of_getElem? hu) t notBefore rfl
    cases notBefore with
    | none =>
      show max deadline 0 ≤ _
      omega
    | some hold =>
      have hhold : hold ≤ s.latestHold := le_latestHold hfloor
      show max deadline hold ≤ _
      omega
  | configure | recovery =>
    show max deadline 0 ≤ _
    omega
  | resume =>
    show deadline ≤ _
    omega

/-- A task agrees with the rows of the moment exactly when it leaves out none of them: what it
has read it covers. -/
theorem upToDate_iff (hI : Informed (s, seen)) {u : Nat} {k : Task} (hu : s.tasks[u]? = some k) :
    s.UpToDate k ↔ ¬ s.LeavesOut (seen u) k := by
  cases k with
  | halted caller | pausing => exact nextRetryDeadline_eq_none_iff
  | decided caller deadline =>
    have hread := hI.readings u caller deadline hu
    cases deadline with
    | none =>
      refine nextRetryDeadline_eq_none_iff.trans (not_congr ⟨?_, ?_⟩)
      · rintro ⟨r, hr, hwaits⟩
        refine ⟨r, hr, hwaits, fun hseen => ?_, fun d hd => ?_⟩
        · obtain ⟨d, hd, -⟩ := exists_deadline_le caller hseen hwaits
          rw [← hread] at hd
          cases hd
        · rw [← hread] at hd
          cases hd
      · rintro ⟨r, hr, hwaits, -⟩
        exact ⟨r, hr, hwaits⟩
    | some deadline =>
      constructor
      · rintro hcurrent ⟨r, hr, hwaits, -, hlate⟩
        obtain ⟨m, hm, hle⟩ := SyncItemDao.exists_nextRetryDeadline_le hr hwaits.1 hwaits.2
        have hcovers := hcurrent m hm
        have hlate := hlate deadline hread.symm
        omega
      · intro hin m hm
        obtain ⟨r, hr, hp, rfl⟩ := KeyedTable.exists_of_minWhere hm
        have hwaits : r.AwaitsRetry := by simpa [SyncItemEntity.AwaitsRetry] using hp
        by_cases hseen : r ∈ (seen u).rows
        · have := hI.wakeAt_le hu hseen hwaits
          omega
        · by_contra hlate
          refine hin ⟨r, hr, hwaits, hseen, fun d hd => ?_⟩
          have hd : caller.deadline (seen u) = some d := hd
          rw [← hread] at hd
          cases hd
          omega
  | _ => exact ⟨fun _ => id, fun _ => trivial⟩

theorem congr (hI : Informed (s, seen)) (htasks : s'.tasks = s.tasks)
    (hwakes : s.engine.world.wakes ⊆ s'.engine.world.wakes) : Informed (s', seen) where
  readings u caller deadline hu := hI.readings u caller deadline (htasks ▸ hu)
  floors k hk t notBefore hcaller := hwakes (hI.floors k (htasks ▸ hk) t notBefore hcaller)

theorem spawn (hI : Informed (s, seen)) {k : Task} (hread : ∀ caller d, k ≠ .decided caller d)
    (hfloor : ∀ t notBefore, k.caller? = some (.cycle t notBefore) →
      notBefore ∈ s.engine.world.wakes) : Informed (s.spawn k, seen) where
  readings u caller deadline hu := by
    rcases TaskPool.of_getElem?_spawn hu with hu | hu
    · exact hI.readings u caller deadline hu
    · exact absurd hu.symm (hread caller deadline)
  floors := TaskPool.forall_spawn hI.floors hfloor

/-- A task that takes a step keeps its caller, and reads the table it is given. -/
theorem set (hI : Informed (s, seen)) {u : Nat} {k k' : Task} {seen' : Nat → SyncItems}
    (hu : s.tasks[u]? = some k) (hwakes : s.engine.world.wakes ⊆ s'.engine.world.wakes)
    (hcaller : k'.caller? = k.caller? ∨ ∀ t notBefore, k'.caller? ≠ some (.cycle t notBefore))
    (hread : ∀ caller d, k' = .decided caller d → d = caller.deadline (seen' u))
    (hseen : ∀ v ≠ u, seen' v = seen v) :
    Informed ({ s' with tasks := s.tasks.set u k' }, seen') where
  readings v caller deadline hv := by
    by_cases hvu : v = u
    · subst hvu
      obtain ⟨hlt, -⟩ := List.getElem?_eq_some_iff.mp hu
      have hv : (s.tasks.set v k')[v]? = some (.decided caller deadline) := hv
      rw [List.getElem?_set_self hlt] at hv
      exact hread caller deadline (Option.some.inj hv)
    · have hv : (s.tasks.set u k')[v]? = some (.decided caller deadline) := hv
      rw [List.getElem?_set_ne (Ne.symm hvu)] at hv
      show deadline = caller.deadline (seen' v)
      rw [hseen v hvu]
      exact hI.readings v caller deadline hv
  floors := by
    refine TaskPool.forall_set (fun x hx t notBefore hx' => hwakes (hI.floors x hx t notBefore hx'))
      fun t notBefore hk' => ?_
    rcases hcaller with hcaller | hcaller
    · exact hwakes (hI.floors k (List.mem_of_getElem? hu) t notBefore (hcaller ▸ hk'))
    · exact absurd hk' (hcaller t notBefore)

theorem advance (hI : Informed (s, seen)) {u : Nat} {ev : TaskEvent} {k k' : Task}
    (hu : s.tasks[u]? = some k) (hadvance : Advances accepts s k ev s' k') :
    Informed ({ s' with tasks := s.tasks.set u k' }, observe s (.advance u ev) seen) := by
  have moved {l : Android.Label} {e : Engine} (he : s.engine.step accepts l = some e) :
      s.engine.world.wakes ⊆ e.world.wakes := Engine.step_wakes he
  have unread (hk : ∀ caller, k ≠ .reading caller) : observe s (.advance u ev) seen = seen := by
    cases ev with
    | go =>
      simp only [observe, hu]
      cases k with
      | reading caller => exact absurd rfl (hk caller)
      | _ => rfl
    | _ => rfl
  have quiet {k' : Task} (hk : ∀ caller, k ≠ .reading caller)
      (hwakes : s.engine.world.wakes ⊆ s'.engine.world.wakes)
      (hcaller : k'.caller? = k.caller? ∨ ∀ t notBefore, k'.caller? ≠ some (.cycle t notBefore))
      (hread : ∀ caller d, k' ≠ .decided caller d) :
      Informed ({ s' with tasks := s.tasks.set u k' }, observe s (.advance u ev) seen) := by
    rw [unread hk]
    exact hI.set hu hwakes hcaller (fun caller d h => absurd h (hread caller d)) fun _ _ => rfl
  cases hadvance with
  | read caller =>
    have hseen : observe s (.advance u .go) seen = Function.update seen u s.engine.world.table := by
      simp only [observe, hu]
    rw [hseen]
    refine hI.set hu (List.Subset.refl _) (.inl rfl) ?_ fun v hv => Function.update_of_ne hv _ _
    rintro caller d ⟨⟩
    rw [Function.update_self]
  | readFails caller =>
    refine hI.set hu (List.Subset.refl _) (.inr ?_) ?_ fun _ _ => rfl
    · split <;> rintro t notBefore ⟨⟩
    · split <;> rintro caller d ⟨⟩
  | halt caller | ask caller =>
    exact quiet (by rintro _ ⟨⟩) (List.Subset.refl _) (.inl rfl) (by rintro _ _ ⟨⟩)
  | recover he | dispatch he =>
    exact quiet (by rintro _ ⟨⟩) (moved he) (.inr (by rintro _ _ ⟨⟩)) (by rintro _ _ ⟨⟩)
  | _ =>
    exact quiet (by rintro _ ⟨⟩) (List.Subset.refl _) (.inr (by rintro _ _ ⟨⟩))
      (by rintro _ _ ⟨⟩)

theorem step {p p' : Runtime × (Nat → SyncItems)} {l : Label} (hI : Informed p)
    (hstep : StepSystem.ghost (Runtime.step accepts) observe p l = some p') : Informed p' := by
  obtain ⟨s, seen⟩ := p
  obtain ⟨s', seen'⟩ := p'
  obtain ⟨h, hobs⟩ := StepSystem.ghost_eq_some.mp hstep
  obtain rfl : seen' = observe s l seen := hobs
  change s.step accepts l = some s' at h
  have start {s' : Runtime} {k : Task} (hI : Informed (s', seen)) (hk : k.caller? = none ∨
      k = .wake .resume ∨ k = .wake .configure) : Informed (s'.spawn k, seen) := by
    rcases hk with hk | rfl | rfl
    · refine hI.spawn ?_ ?_
      · rintro caller d rfl
        cases hk
      · rintro t notBefore hcaller
        rw [hk] at hcaller
        cases hcaller
    · exact hI.spawn (by rintro _ _ ⟨⟩) (by rintro _ _ ⟨⟩)
    · exact hI.spawn (by rintro _ _ ⟨⟩) (by rintro _ _ ⟨⟩)
  cases l with
  | engine l =>
    obtain ⟨-, e, he, rfl⟩ := step_engine h
    exact hI.congr rfl (Engine.step_wakes he)
  | finish t =>
    obtain ⟨e, notBefore, he, hmem, rfl⟩ := step_finish h
    have hI' : Informed ({ s with engine := e }, seen) := hI.congr rfl (Engine.step_wakes he)
    refine hI'.spawn (by rintro _ _ ⟨⟩) ?_
    rintro t notBefore ⟨⟩
    exact hmem
  | attachEngine =>
    have hA := step_attachEngine h
    have hwakes : s.engine.world.wakes ⊆ s'.engine.world.wakes := by
      rw [hA.engine]
      exact List.Subset.refl _
    rcases hA.tasks with ⟨htasks, -⟩ | htasks
    · exact hI.congr htasks hwakes
    · exact (start hI (k := .recovery) (.inl rfl)).congr htasks hwakes
  | detachEngine =>
    simp only [Runtime.step, Option.ite_none_left_eq_some] at h
    obtain ⟨-, h⟩ := h
    split at h
    · split at h <;> cases h
      · exact start (hI.congr rfl (List.Subset.refl _)) (.inl rfl)
      · exact hI.congr rfl (List.Subset.refl _)
    · cases h
      exact hI.congr rfl (List.Subset.refl _)
  | pause =>
    cases h
    exact start (hI.congr rfl (List.Subset.refl _)) (.inl rfl)
  | resume =>
    cases h
    exact start (hI.congr rfl (List.Subset.refl _)) (.inr (.inl rfl))
  | configure options credentials =>
    cases h
    exact start (hI.congr rfl (List.Subset.refl _)) (.inr (.inr rfl))
  | recoverSecret options credentials =>
    simp only [Runtime.step, Option.ite_none_right_eq_some] at h
    obtain ⟨-, h⟩ := h
    cases h
    exact hI.congr rfl (List.Subset.refl _)
  | advance u ev =>
    obtain ⟨k, s₁, k', hk, hadvance, rfl⟩ := step_advance h
    exact hI.advance hk hadvance
  | fire =>
    obtain ⟨due, hdue, rfl⟩ := Option.map_eq_some_iff.mp h
    exact start (hI.congr rfl (List.Subset.refl _)) (.inl rfl)
  | tick ms | network network caps | activate network =>
    cases h
    exact hI.congr rfl (List.Subset.refl _)
  | callback =>
    simp only [Runtime.step] at h
    split at h <;> cases h
    exact hI.congr rfl (List.Subset.refl _)
  | collect =>
    simp only [Runtime.step] at h
    split at h
    · split at h <;> cases h
      exact hI.congr rfl (List.Subset.refl _)
    · cases h
  | deliver =>
    simp only [Runtime.step] at h
    split at h
    · split at h <;> cases h
      · exact start (hI.congr rfl (List.Subset.refl _)) (.inl rfl)
      · exact hI.congr rfl (List.Subset.refl _)
    · cases h

end Informed

/-! ## 4. The wake over a run -/

theorem Launch.orderly (h : Launch s) (hattach : s.step accepts .attachEngine = some s') :
    Orderly s' := by
  have hA := step_attachEngine hattach
  refine ⟨fun t ht => ?_, fun t ht => ?_, ?_⟩
  · rw [hA.internal, h.internal t] at ht
    cases ht
  · rw [hA.engine] at ht
    exact absurd ht (by simp [h.resetting t])
  · intro k hk
    rcases hA.tasks with ⟨htasks, -⟩ | htasks
    · rw [htasks, h.tasks] at hk
      cases hk
    · rw [htasks, h.tasks] at hk
      obtain rfl := List.mem_singleton.mp hk
      rfl

theorem Launch.kept (h : Launch s) (hattach : s.step accepts .attachEngine = some s') :
    RetryWakeKept s' := by
  have hA := step_attachEngine hattach
  rcases hA.tasks with ⟨-, k, hk, -⟩ | htasks
  · rw [h.tasks] at hk
    cases hk
  · refine RetryWakeKept.of_task (k := .recovery) ?_ (by rintro ⟨⟩)
    rw [htasks]
    exact TaskPool.mem_spawn_self

theorem Launch.informed (h : Launch s) (hattach : s.step accepts .attachEngine = some s') :
    Informed (s', fun _ => .empty) := by
  have hA := step_attachEngine hattach
  have hrecovery : ∀ k ∈ s'.tasks, k = .recovery := by
    rcases hA.tasks with ⟨-, k, hk, -⟩ | htasks
    · rw [h.tasks] at hk
      cases hk
    · rw [htasks, h.tasks]
      exact fun k hk => List.mem_singleton.mp hk
  refine ⟨fun u caller deadline hu => ?_, fun k hk t notBefore hcaller => ?_⟩
  · cases hrecovery _ (List.mem_of_getElem? hu)
  · rw [hrecovery k hk] at hcaller
    cases hcaller

theorem Informed.lastUpToDate_iff {p : Runtime × (Nat → SyncItems)} {l : Label}
    (hI : Informed p) : p.1.LastUpToDate l ↔ InTime p l := by
  unfold LastUpToDate InTime
  split
  · exact forall_congr' fun k => forall_congr' fun hk => forall₂_congr fun _ _ =>
      hI.upToDate_iff hk
  · exact Iff.rfl

/-- Along every run from the first attach that stays online, with an engine
attached, a strategy other than `MANUAL` and successful reads: in every quiescent
state without a pause the timer is due no later than the earliest deadline of a
row that awaits a retry and the latest credential hold, or now, exactly when
whoever acts on the timer as the last one in progress leaves out no row. -/
theorem retry_wake_kept_iff {s₀ s₁ : Runtime} {ls : List Label} (h : Launch s₀)
    (hattach : s₀.step accepts .attachEngine = some s₁)
    (hsteady : StepSystem.Meets (step accepts) Steady s₁ ls)
    (hrun : StepSystem.exec (step accepts) s₁ ls = some s) :
    StepSystem.Always (step accepts) RetryWakeKept s₁ ls ↔
      StepSystem.Meets (StepSystem.ghost (step accepts) observe) InTime (s₁, fun _ => .empty)
        ls := by
  let I (s : Runtime) : Prop := Orderly s ∧ RetryWakeKept s
  have hstep : ∀ {s l s'}, I s → s.Steady l → s.LastUpToDate l → step accepts s l = some s' →
      I s' :=
    fun hI hl hcurrent hs => ⟨hI.1.step hl hs, hI.2.step hI.1 hl hcurrent hs⟩
  have hlast : ∀ {s l s'}, I s → s.Steady l → step accepts s l = some s' → RetryWakeKept s' →
      s.LastUpToDate l :=
    fun _ hl hs hK => .of_kept hl hs hK
  have hinformed : Informed (s₁, fun _ => .empty) := h.informed hattach
  calc StepSystem.Always (step accepts) RetryWakeKept s₁ ls
      ↔ StepSystem.Meets (step accepts) LastUpToDate s₁ ls :=
        StepSystem.always_iff_meets hstep (fun hI => hI.2) hlast
          ⟨h.orderly hattach, h.kept hattach⟩ hsteady hrun
    _ ↔ StepSystem.Meets (StepSystem.ghost (step accepts) observe)
          (fun p l => p.1.LastUpToDate l) (s₁, fun _ => .empty) ls :=
        (StepSystem.meets_ghost_iff observe _).symm
    _ ↔ _ :=
        StepSystem.meets_congr_of_meets (I := Informed) (fun hI _ hs => hI.step hs)
          (fun hI => hI.lastUpToDate_iff) hinformed

section Sample

instance decidableSteady (s : Runtime) (l : Label) : Decidable (s.Steady l) :=
  decidable_of_iff (s.cm.isOffline = false ∧ 0 < s.attachedEngines ∧
      (l = .detachEngine → 1 < s.attachedEngines) ∧ s.engine.options.strategy ≠ .manual ∧
      s.engine.credentials ≠ .UNAVAILABLE ∧ l.isReadFailure = false)
    ⟨fun ⟨h₁, h₂, h₃, h₄, h₅, h₆⟩ => ⟨h₁, h₂, h₃, h₄, h₅, h₆⟩,
      fun ⟨h₁, h₂, h₃, h₄, h₅, h₆⟩ => ⟨h₁, h₂, h₃, h₄, h₅, h₆⟩⟩

instance decidableLeavesOut (s : Runtime) (seen : SyncItems) (k : Task) :
    Decidable (s.LeavesOut seen k) := by
  unfold LeavesOut SyncItemEntity.AwaitsRetry
  split <;> infer_instance

/-- No one that acts on the timer leaves out a row. -/
def LeavesOutNone (p : Runtime × (Nat → SyncItems)) : Label → Prop
  | .advance u .go => ∀ k ∈ p.1.tasks[u]?, ¬ p.1.LeavesOut (p.2 u) k
  | _ => True

instance decidableLeavesOutNone (p : Runtime × (Nat → SyncItems)) (l : Label) :
    Decidable (LeavesOutNone p l) := by
  cases l with
  | advance u ev => cases ev <;> unfold LeavesOutNone <;> infer_instance
  | _ => unfold LeavesOutNone; infer_instance

theorem LeavesOutNone.inTime {p : Runtime × (Nat → SyncItems)} {l : Label}
    (h : LeavesOutNone p l) : InTime p l := by
  unfold InTime
  split
  · intro k hk _ _
    exact h k hk
  · trivial

def wifi : NetworkCapabilities where
  internet := true
  validated := true
  notMetered := true
  standard := true
  transports := [.WIFI]

/-- A process that has just started, with wifi in use. -/
def coldStart : Runtime where
  engine := Engine.coldStart .TRUSTED
  attachedEngines := 0
  internal _ := false
  retryTimer := .cancel
  cm := ⟨[(1, wifi)], some 1⟩
  monitor := ⟨false, unknownState, [], []⟩
  connectivityWatch := none
  now := 2000
  tasks := []

theorem coldStart_launch : Launch coldStart :=
  ⟨fun _ => rfl, rfl, fun _ => rfl, rfl, rfl, rfl⟩

/-- The process after its first attach. -/
def attached : Runtime :=
  { coldStart with
    attachedEngines := 1
    monitor := coldStart.monitor.start coldStart.cm
    connectivityWatch := some (.waiting none)
    tasks := [.recovery] }

/-- The recovery runs as caller 0. It finds nothing to wake for. -/
def recoverRun : List Label :=
  [.advance 0 (.call 0), .engine (.lock 0), .engine (.reset 0), .engine (.unlock 0),
    .advance 0 .go, .advance 0 .go, .advance 0 .go, .advance 0 .go]

/-- Caller 1 flushes: its cycle has the only row in hand. -/
def claimRun : List Label :=
  [.engine (.enqueue [SyncQueueStorage.sampleItem "A"]), .engine (.call 1 .flush),
    .engine (.lock 1), .engine (.checkPaused 1), .engine (.readCredentials 1),
    .engine (.begin 1 2000), .engine (.cycle 1 .emitStarted), .engine (.cycle 1 .claim),
    .engine (.cycle 1 .resume)]

/-- A 503 comes back, the row cools down until 3100, and the cycle ends. -/
def rescheduleRun : List Label :=
  [.engine (.cycle 1 (.dispatch 0 (.start 2001))), .engine (.cycle 1 (.dispatch 0 .send)),
    .engine (.cycle 1 (.dispatch 0 (.respond (.response 503)))),
    .engine (.cycle 1 (.dispatch 0 (.settle 2100 0))), .engine (.cycle 1 (.dispatch 0 .emit)),
    .engine (.cycle 1 .join), .engine (.cycle 1 (.record 2100)), .engine (.cycle 1 .resume),
    .engine (.cycle 1 .emitTerminal), .engine (.cycle 1 .resume), .tick 100, .finish 1,
    .advance 2 .go, .advance 2 .go, .advance 2 .go, .engine (.unlock 1)]

/-- `configure` reads the table while the row is in flight, and acts at once. -/
def promptRun : List Label :=
  recoverRun ++ claimRun ++ [.configure Engine.sampleOptions .TRUSTED, .advance 1 .go,
    .advance 1 .go, .advance 1 .go] ++ rescheduleRun

theorem retry_wake_kept_when_prompt :
    StepSystem.Always (step fun _ => true) RetryWakeKept attached promptRun ∧
      (StepSystem.exec (step fun _ => true) attached promptRun).map
        (fun s => s.retryTimer.waiting) = some (some 3100) := by
  have hattach : coldStart.step (fun _ => true) .attachEngine = some attached := rfl
  have hsteady : StepSystem.Meets (step fun _ => true) Steady attached promptRun := by
    decide +kernel
  have hnone : StepSystem.Meets (StepSystem.ghost (step fun _ => true) observe) LeavesOutNone
      (attached, fun _ => .empty) promptRun := by
    decide +kernel
  have hwaiting : (StepSystem.exec (step fun _ => true) attached promptRun).map
      (fun s => s.retryTimer.waiting) = some (some 3100) := by decide +kernel
  obtain ⟨s, hrun, -⟩ := Option.map_eq_some_iff.mp hwaiting
  refine ⟨?_, hwaiting⟩
  exact (retry_wake_kept_iff coldStart_launch hattach hsteady hrun).mpr
    (hnone.mono fun _ _ h => h.inTime)

/-! ## 5. A reading that is out of date -/

/-- `configure` reads the table while the row is in flight, and acts after the
cycle has armed the timer. -/
def staleRun : List Label :=
  recoverRun ++ claimRun ++ [.configure Engine.sampleOptions .TRUSTED, .advance 1 .go,
    .advance 1 .go] ++ rescheduleRun ++ [.advance 1 .go]

/-- Nothing is in progress, the row awaits its retry at 3100, and no timer is
waiting. -/
theorem stale_reading_cancels_wake :
    Launch coldStart ∧ coldStart.step (fun _ => true) .attachEngine = some attached ∧
    StepSystem.Meets (step fun _ => true) Steady attached staleRun ∧
    ∃ s, StepSystem.exec (step fun _ => true) attached staleRun = some s ∧ s.Quiescent ∧
      0 < s.attachedEngines ∧ s.engine.paused = false ∧
      SyncItemDao.nextRetryDeadline s.engine.world.table = some 3100 ∧
      s.retryTimer.waiting = none ∧ ¬ RetryWakeKept s := by
  refine ⟨coldStart_launch, rfl, by decide +kernel, ?_⟩
  obtain ⟨s, hrun, hs⟩ : ∃ s, StepSystem.exec (step fun _ => true) attached staleRun = some s ∧
      decide ((s.tasks = [.done, .done, .done] ∧ s.engine.calls 0 = .idle ∧
        s.engine.calls 1 = .idle) ∧ s.attachedEngines = 1 ∧ s.engine.paused = false ∧
        SyncItemDao.nextRetryDeadline s.engine.world.table = some 3100 ∧
        s.retryTimer.waiting = none) = true :=
    Option.map_eq_some_iff.mp (by decide +kernel)
  obtain ⟨⟨htasks, h₀, h₁⟩, hattached, hpaused, hdeadline, hwaiting⟩ := of_decide_eq_true hs
  have hidle (t : Nat) : s.engine.calls t = .idle := by
    match t with
    | 0 => exact h₀
    | 1 => exact h₁
    | t + 2 => exact exec_calls_of_le (n := 2) (by decide) (by omega) hrun
  have hquiet : s.Quiescent := by
    refine ⟨?_, ?_, fun t _ => ?_⟩
    · rw [htasks]
      decide
    · rintro ⟨t, ht⟩
      rw [hidle t] at ht
      cases ht
    · rw [hidle t]
      rfl
  refine ⟨s, hrun, hquiet, by omega, hpaused, hdeadline, hwaiting, fun hK => ?_⟩
  obtain ⟨due, hdue, -⟩ := hK (by omega) hpaused hquiet 3100 hdeadline
  rw [hwaiting] at hdue
  cases hdue

end Sample

end Runtime

end SyncProvider.Android
