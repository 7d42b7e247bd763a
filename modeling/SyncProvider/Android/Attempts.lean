import SyncProvider.Android.Dispatcher

/-!
# Android: the attempt budget

A dispatch never reads its row again. It compares the copy its claim handed out
with the budget, and writes the counter from that copy. So the counter is right
as long as the copy agrees with the table until the outcome is written.

Results:
1. `Dispatch.step_counts` : what one step of a dispatch does to the counters.
2. `Cycle.step_cases` : a step of a cycle is a step of one dispatch, or leaves
   all counters alone.
3. `Tracked.step` : the copies in hand agree with the table.
4. `attempts_within_budget` : a counter grows by one with each retry and each
   terminal failure and by nothing else, and stays within the budget of the
   cycle that sends or retries.
-/

namespace SyncProvider.Android

/-- The outcome is that of a retry or of a terminal failure. -/
def ItemOutcome.spendsAttempt : ItemOutcome → Bool
  | .rescheduled _ | .failed _ _ _ => true
  | .succeeded _ _ | .credentialRejected _ _ => false

/-- The counter a write puts into its row. -/
def StoreWrite.attempts? : StoreWrite → Option Int
  | .markSucceeded _ => none
  | .markRetry _ attempts _ _ _ | .markFailed _ attempts _ _ => some attempts

/-- Every counter is a 32-bit integer, as its column is. -/
def InRange (t : SyncItems) : Prop := ∀ r ∈ t.rows, -2 ^ 31 ≤ r.attempts ∧ r.attempts < 2 ^ 31

/-- Every row of `t'` was in `t`, and `ids` lists the rows whose counter went up
by one. -/
def Counts (t t' : SyncItems) (ids : List String) : Prop :=
  ∀ r' ∈ t'.rows, ∃ r ∈ t.rows, r.id = r'.id ∧ r'.attempts = r.attempts + ids.count r'.id

theorem Counts.of_statusOf {t t' : SyncItems}
    (h : ∀ r' ∈ t'.rows, SyncItemDao.StatusOf r' t) : Counts t t' [] := by
  intro r' hr'
  obtain ⟨r, hr, heq⟩ := h r' hr'
  exact ⟨r, hr, by rw [heq], by rw [heq]; simp⟩

theorem Counts.refl (t : SyncItems) : Counts t t [] :=
  .of_statusOf fun _ => .of_mem

/-! ## 1. What a dispatch does to the counters -/

theorem attemptBudget_lt (policy : RetryPolicy) :
    RetryPolicyEvaluator.attemptBudget policy < 2 ^ 31 := by
  unfold RetryPolicyEvaluator.attemptBudget
  have : policy.maxAttempts.toInt32 ≤ 2 ^ 31 - 1 := Double.truncSat_le (by decide) (by decide) _
  omega

theorem StoreWrite.run_cases {s : StoreWrite} {t : SyncItems} {r' : SyncItemEntity}
    (h : r' ∈ (s.run t).rows) : r' ∈ t.rows ∧ r'.id ≠ s.id ∨
      ∃ r ∈ t.rows, r.id = s.id ∧ r'.id = s.id ∧ s.attempts? = some r'.attempts := by
  cases s with
  | markSucceeded id =>
    obtain ⟨hr, hne⟩ := KeyedTable.mem_deleteWhere.mp h
    exact .inl ⟨hr, by simpa [StoreWrite.id] using hne⟩
  | markRetry id attempts lastAttemptAt code nextRetryAt
  | markFailed id attempts lastAttemptAt code =>
    obtain ⟨r, hr, rfl⟩ := SyncItemDao.mem_updateStatus.mp h
    split
    · rename_i hid
      have hid : r.id = id := by simpa using hid
      exact .inr ⟨r, hr, hid, hid, rfl⟩
    · rename_i hid
      exact .inl ⟨hr, by simpa [StoreWrite.id] using hid⟩

/-- The rows of other items stay. -/
theorem StoreWrite.mem_run_of_ne {s : StoreWrite} {t : SyncItems} {r : SyncItemEntity}
    (hr : r ∈ t.rows) (hne : r.id ≠ s.id) : r ∈ (s.run t).rows := by
  cases s with
  | markSucceeded id =>
    exact KeyedTable.mem_deleteWhere.mpr ⟨hr, by simpa [StoreWrite.id] using hne⟩
  | markRetry id attempts lastAttemptAt code nextRetryAt
  | markFailed id attempts lastAttemptAt code =>
    exact SyncItemDao.mem_updateStatus.mpr
      ⟨r, hr, if_neg (by simpa [StoreWrite.id] using hne)⟩

/-- The counter that is written is one more than that of the copy for a retry
and for a terminal failure, and that of the copy otherwise. -/
theorem settle_attempts {options : SyncOptions} {credentials : CredentialPolicy}
    {entity : SyncItemEntity} {startedAt finishedAt : Int} {sample : ℚ} {result : AttemptResult}
    {k : Int} (hlo : -2 ^ 31 ≤ entity.attempts) (hhi : entity.attempts + 1 < 2 ^ 31)
    (h : (settle options credentials entity startedAt finishedAt sample result).write.attempts? =
      some k) :
    k = entity.attempts +
      if (settle options credentials entity startedAt finishedAt sample
        result).outcome.spendsAttempt then 1 else 0 := by
  have hwrap : wrap32 (entity.attempts + 1) = entity.attempts + 1 :=
    wrap32_eq_self (by omega) hhi
  unfold settle at h ⊢
  cases result with
  | success statusCode => cases h
  | failure f =>
    simp only [hwrap] at h ⊢
    split
    · rename_i hheld
      rw [if_pos hheld] at h
      cases h
      simp [holdForCredentialRenewal, ItemOutcome.spendsAttempt]
    · rename_i hheld
      rw [if_neg hheld] at h
      split
      · rename_i hretry
        rw [if_pos hretry] at h
        cases h
        rfl
      · rename_i hretry
        rw [if_neg hretry] at h
        cases h
        rfl

/-- A retry leaves a counter below the budget. -/
theorem settle_rescheduled {options : SyncOptions} {credentials : CredentialPolicy}
    {entity : SyncItemEntity} {startedAt finishedAt : Int} {sample : ℚ} {result : AttemptResult}
    {id : String} {k : Int}
    (hout : (settle options credentials entity startedAt finishedAt sample result).outcome =
      .rescheduled id)
    (h : (settle options credentials entity startedAt finishedAt sample result).write.attempts? =
      some k) : k < RetryPolicyEvaluator.attemptBudget options.retryPolicy := by
  unfold settle at hout h
  cases result with
  | success statusCode => cases h
  | failure f =>
    simp only at hout h
    split at hout
    · cases hout
    · rename_i hheld
      rw [if_neg hheld] at h
      split at hout
      · rename_i hretry
        rw [if_pos hretry] at h
        cases h
        rw [Bool.and_eq_true] at hretry
        simpa [RetryPolicyEvaluator.hasBudget] using hretry.2
      · cases hout

namespace Dispatch

/-- The outcome is not written yet. -/
def unwritten (d : Dispatch) : Bool :=
  match d.state with
  | .settled _ _ | .done _ => false
  | _ => true

/-- The budget was checked, and the outcome is not written yet. -/
def attempting (d : Dispatch) : Bool :=
  match d.state with
  | .requesting _ | .attempted _ _ => true
  | _ => false

/-- The item, when this step ends its dispatch in a retry or in a terminal
failure. -/
def charge (options : SyncOptions) (credentials : CredentialPolicy) (d : Dispatch)
    (ev : DispatchEvent) : List String :=
  match ev, d.state with
  | .settle now sample, .attempted startedAt result =>
    if (settle options credentials d.entity startedAt now sample result).outcome.spendsAttempt then
      [d.entity.id]
    else []
  | _, _ => []

/-- The copy agrees with the row until the outcome is written, and an attempt is
under way only within the budget. -/
structure Tracks (t : SyncItems) (options : SyncOptions) (d : Dispatch) : Prop where
  row : d.unwritten = true → ∀ r ∈ t.rows, r.id = d.entity.id → r.attempts = d.entity.attempts
  budget : d.attempting = true →
    d.entity.attempts < RetryPolicyEvaluator.attemptBudget options.retryPolicy

variable {accepts : HttpRequest → Bool} {live options : SyncOptions}
  {credentials : CredentialPolicy} {w w' : World} {d d' : Dispatch} {ev : DispatchEvent}

theorem charge_subset {id : String} (h : id ∈ d.charge options credentials ev) :
    id = d.entity.id ∧ d.attempting = true := by
  unfold charge at h
  split at h
  · rename_i hs
    refine ⟨?_, by simp [attempting, hs]⟩
    split at h
    · simpa using h
    · cases h
  · cases h

theorem count_charge_le (id : String) : (d.charge options credentials ev).count id ≤ 1 := by
  unfold charge
  split
  · split
    · rw [List.count_singleton]
      split <;> decide
    · exact Nat.zero_le 1
  · exact Nat.zero_le 1

theorem unwritten_of_attempting (h : d.attempting = true) : d.unwritten = true := by
  revert h
  unfold unwritten attempting
  cases d.state <;> simp

/-- A dispatch whose outcome is written has nothing left to keep. -/
theorem Tracks.of_written {t : SyncItems} (h : d.unwritten = false) : d.Tracks t options := by
  refine ⟨fun hu => ?_, fun ha => ?_⟩
  · rw [h] at hu
    cases hu
  · rw [unwritten_of_attempting ha] at h
    cases h

theorem step_counts (hT : d.Tracks w.table options) (hR : InRange w.table)
    (h : d.step accepts live options credentials w ev = some (w', d')) :
    d'.Tracks w'.table options ∧ Counts w.table w'.table (d.charge options credentials ev) := by
  cases step_moves h with
  | start => exact ⟨⟨fun _ => hT.row rfl, by simp [attempting]⟩, .refl _⟩
  | @refuse entity startedAt hspent =>
    refine ⟨.of_written rfl, fun r' hr' => ?_⟩
    rcases StoreWrite.run_cases hr' with ⟨hr, -⟩ | ⟨r, hr, hid, hid', hk⟩
    · exact ⟨r', hr, rfl, by simp [charge]⟩
    · -- `markFailed` writes the counter of the copy
      have hattempts : entity.attempts = r'.attempts := Option.some.inj hk
      have hrow : r.attempts = entity.attempts := hT.row rfl r hr hid
      exact ⟨r, hr, hid.trans hid'.symm, by simp [charge, hrow, hattempts]⟩
  | unbuilt hbudget | send hbudget =>
    exact ⟨⟨fun _ => hT.row rfl, fun _ => by simpa [budgetSpent] using hbudget⟩, .refl _⟩
  | respond => exact ⟨⟨fun _ => hT.row rfl, fun _ => hT.budget rfl⟩, .refl _⟩
  | @settle entity startedAt now sample result =>
    refine ⟨.of_written rfl, fun r' hr' => ?_⟩
    have hcharge : charge options credentials ⟨entity, .attempted startedAt result⟩
        (.settle now sample) = if (Android.settle options credentials entity startedAt now sample
          result).outcome.spendsAttempt then [entity.id] else [] := rfl
    rw [hcharge]
    rcases StoreWrite.run_cases hr' with ⟨hr, hne⟩ | ⟨r, hr, hid, hid', hk⟩
    · rw [settle_write_id] at hne
      refine ⟨r', hr, rfl, ?_⟩
      split
      · rw [List.count_singleton, if_neg (by simpa using Ne.symm hne)]
        simp
      · simp
    · rw [settle_write_id] at hid hid'
      have hrow : r.attempts = entity.attempts := hT.row rfl r hr hid
      have hlt : entity.attempts < RetryPolicyEvaluator.attemptBudget options.retryPolicy :=
        hT.budget rfl
      have hmax := attemptBudget_lt options.retryPolicy
      obtain ⟨hlo, -⟩ := hR r hr
      refine ⟨r, hr, hid.trans hid'.symm, ?_⟩
      have hhi : entity.attempts + 1 < 2 ^ 31 := by
        have : entity.attempts + 1 ≤ _ := hlt
        omega
      rw [settle_attempts (hrow ▸ hlo) hhi hk, hrow, hid']
      split <;> simp
  | emit | crash => exact ⟨.of_written rfl, .refl _⟩

/-- The counter that goes up was below the budget, so it fits its column. -/
theorem inRange_of_counts (hT : d.Tracks w.table options) (hR : InRange w.table)
    (hC : Counts w.table w'.table (d.charge options credentials ev)) : InRange w'.table := by
  intro r' hr'
  obtain ⟨r, hr, hid, hattempts⟩ := hC r' hr'
  have hrange := hR r hr
  by_cases hin : r'.id ∈ d.charge options credentials ev
  · obtain ⟨hid', ha⟩ := charge_subset hin
    have hrow := hT.row (unwritten_of_attempting ha) r hr (hid.trans hid')
    have hlt := hT.budget ha
    have hmax := attemptBudget_lt options.retryPolicy
    have hone : (d.charge options credentials ev).count r'.id ≤ 1 := count_charge_le _
    omega
  · rw [List.count_eq_zero.mpr hin] at hattempts
    simp at hattempts
    omega

/-- A step of a dispatch is about its own row. -/
theorem step_frame (h : d.step accepts live options credentials w ev = some (w', d')) :
    d'.entity = d.entity ∧ (∀ r ∈ w.table.rows, r.id ≠ d.entity.id → r ∈ w'.table.rows) ∧
      ∀ r ∈ w'.table.rows, r.id ≠ d.entity.id → r ∈ w.table.rows := by
  have kept {s : StoreWrite} (hs : s.id = d.entity.id) (t : SyncItems) :
      (∀ r ∈ t.rows, r.id ≠ d.entity.id → r ∈ (s.run t).rows) ∧
        ∀ r ∈ (s.run t).rows, r.id ≠ d.entity.id → r ∈ t.rows := by
    refine ⟨fun r hr hne => StoreWrite.mem_run_of_ne hr (hs ▸ hne), fun r hr hne => ?_⟩
    rcases StoreWrite.run_cases hr with ⟨hr, -⟩ | ⟨-, -, -, hid, -⟩
    · exact hr
    · exact absurd (hid.trans hs) hne
  cases step_moves h with
  | refuse => exact ⟨rfl, kept rfl _⟩
  | settle => exact ⟨rfl, kept (settle_write_id ..) _⟩
  | start | unbuilt | send | respond | emit | crash =>
    exact ⟨rfl, fun r hr _ => hr, fun r hr _ => hr⟩

theorem not_done (h : d.step accepts live options credentials w ev = some (w', d'))
    (outcome : ItemOutcome) : d.state ≠ .done outcome := by
  rintro hdone
  cases step_moves h with
  | crash hlive =>
    cases hdone
    cases hlive
  | _ => cases hdone

theorem start_of_queued (h : d.step accepts live options credentials w ev = some (w', d'))
    (hqueued : d.state = .queued) : ev.isStart = true := by
  cases step_moves h with
  | start => rfl
  | crash hlive =>
    cases hqueued
    cases hlive
  | _ => cases hqueued

/-- A step that adds a request is `send`, and the copy has attempts left. -/
theorem step_request {q : String × HttpRequest}
    (h : d.step accepts live options credentials w ev = some (w', d'))
    (hq : w'.requests = w.requests ++ [q]) :
    ev = .send ∧ q.1 = d.entity.id ∧ d.unwritten = true ∧
      d.entity.attempts < RetryPolicyEvaluator.attemptBudget options.retryPolicy := by
  cases step_moves h with
  | send hbudget =>
    simp only [List.append_cancel_left_eq, List.cons.injEq, and_true] at hq
    exact ⟨rfl, hq ▸ rfl, rfl, by simpa [budgetSpent] using hbudget⟩
  | start | refuse | unbuilt | respond | settle | emit | crash =>
    simp [World.write, World.emit] at hq

end Dispatch

/-- While the probe runs, only the probe moves. -/
theorem tail_queued_set {accepts : HttpRequest → Bool} {live options : SyncOptions}
    {credentials : CredentialPolicy} {cancelled : Bool} {w w' : World} {ds : List Dispatch}
    {i : Nat} {dev : DispatchEvent} {d d' : Dispatch} (hqueued : ∀ d ∈ ds.tail, d.state = .queued)
    (hstart : dev.isStart = true → Cycle.mayStart true cancelled i = true) (hi : ds[i]? = some d)
    (h : d.step accepts live options credentials w dev = some (w', d')) :
    ∀ d ∈ (ds.set i d').tail, d.state = .queued := by
  cases ds with
  | nil => cases hi
  | cons x xs =>
    cases i with
    | zero => exact hqueued
    | succ i =>
      have := hstart (Dispatch.start_of_queued h (hqueued d (List.mem_of_getElem? hi)))
      simp [Cycle.mayStart] at this

/-! ## 2. What a cycle does to the counters -/

namespace Cycle

/-- The item this step charges with an attempt. -/
def charge (c : Cycle) (ev : CycleEvent) : List String :=
  match ev with
  | .dispatch i ev =>
    match c.dispatches[i]? with
    | some d => d.charge c.options c.credentials ev
    | none => []
  | _ => []

/-- The rows in hand stay, are let go, or are rows the table just handed out. -/
inductive HandStep (w : World) (c c' : Cycle) : Prop where
  | keep (h : c'.dispatches = c.dispatches)
  | drop (h : c'.dispatches = [])
  | claim (rows : List SyncItemEntity) (h : c'.dispatches = rows.map Dispatch.queue)
      (hrows : ∀ r ∈ rows, r ∈ w.table.rows)

/-- A step that dispatches nothing. -/
structure Quiet (w : World) (c : Cycle) (ev : CycleEvent) (w' : World) (c' : Cycle) : Prop where
  options : c'.options = c.options
  label : ∀ i dev, ev ≠ .dispatch i dev
  requests : w'.requests = w.requests
  rows : ∀ r' ∈ w'.table.rows, SyncItemDao.StatusOf r' w.table
  hand : HandStep w c c'

/-- The step of the dispatch at position `i`. -/
structure Dispatches (accepts : HttpRequest → Bool) (live : SyncOptions) (w : World) (c : Cycle)
    (i : Nat) (ev : DispatchEvent) (d d' : Dispatch) (w' : World) (c' : Cycle) : Prop where
  before : c.dispatches[i]? = some d
  step : d.step accepts live c.options c.credentials w ev = some (w', d')
  after : c'.dispatches = c.dispatches.set i d'
  options : c'.options = c.options

theorem step_cases {accepts : HttpRequest → Bool} {live : SyncOptions} {cancelled : Bool}
    {w w' : World} {c c' : Cycle} {ev : CycleEvent}
    (h : c.step accepts live cancelled w ev = some (w', c')) :
    Quiet w c ev w' c' ∨ ∃ i dev d d', ev = .dispatch i dev ∧
      Dispatches accepts live w c i dev d d' w' c' := by
  obtain ⟨phase, rfl, hmoves⟩ := step_moves h
  have same {w' : World} (h : w'.table = w.table) :
      ∀ r' ∈ w'.table.rows, SyncItemDao.StatusOf r' w.table :=
    fun r' hr' => .of_mem (h ▸ hr')
  have reset : ∀ r' ∈ w.resetInFlight.table.rows, SyncItemDao.StatusOf r' w.table :=
    fun r' => SyncItemDao.statusOf_resetInFlight
  cases hmoves with
  | claim hphase =>
    exact .inl ⟨rfl, (by rintro _ _ ⟨⟩), rfl, fun r' => SyncItemDao.statusOf_claimPending,
      .claim _ rfl fun r hr => (SyncItemDao.selectClaimable_subset hr).1⟩
  | dispatch hphase hstart hi hstep =>
    have hdispatches := dispatches_of_phase hphase
    exact .inr ⟨_, _, _, _, rfl, hdispatches ▸ hi, hstep, hdispatches ▸ rfl, rfl⟩
  | resumeClaimed hphase | probePassed hphase =>
    refine .inl ⟨rfl, (by rintro _ _ ⟨⟩), rfl, same rfl, .keep ?_⟩
    simp only [dispatches, hphase]
  | release hphase => exact .inl ⟨rfl, (by rintro _ _ ⟨⟩), rfl, reset, .drop rfl⟩
  | throw hcancelled hthrown =>
    exact .inl ⟨rfl, (by rintro _ _ ⟨⟩), rfl, same rfl, .drop (dispatches_thrown hthrown)⟩
  | raise hstorage hthrown =>
    exact .inl ⟨rfl, (by rintro _ _ ⟨⟩), rfl, same rfl, .drop (dispatches_thrown hthrown)⟩
  | abort hphase | abortReported hphase =>
    split
    · exact .inl ⟨rfl, (by rintro _ _ ⟨⟩), rfl, reset, .drop rfl⟩
    · exact .inl ⟨rfl, (by rintro _ _ ⟨⟩), rfl, same rfl, .drop rfl⟩
  | emitStarted hphase | resumeEmpty hphase | probeRejected hphase | join hphase | record hphase
  | resumeRecorded hphase | emitTerminal hphase | resumeReported hphase | emitFailed hphase
  | finish hphase =>
    exact .inl ⟨rfl, (by rintro _ _ ⟨⟩), rfl, same rfl, .drop rfl⟩

/-- The copies in hand agree with the table. -/
def Tracks (t : SyncItems) (c : Cycle) : Prop := ∀ d ∈ c.dispatches, d.Tracks t c.options

variable {accepts : HttpRequest → Bool} {live : SyncOptions} {cancelled : Bool} {w w' : World}
  {c c' : Cycle} {ev : CycleEvent}

theorem Quiet.charge_eq (h : Quiet w c ev w' c') : c.charge ev = [] := by
  unfold charge
  split
  · exact absurd rfl (h.label _ _)
  · rfl

theorem Quiet.tracks (h : Quiet w c ev w' c') (hT : c.Tracks w.table) : c'.Tracks w'.table := by
  have hrow {d : Dispatch} (hd : d.Tracks w.table c.options) :
      d.Tracks w'.table c.options := by
    refine ⟨fun hu r' hr' hid => ?_, hd.budget⟩
    obtain ⟨r, hr, heq⟩ := h.rows r' hr'
    rw [heq] at hid ⊢
    exact hd.row hu r hr hid
  intro d hd
  rw [h.options]
  cases h.hand with
  | keep hkeep => exact hrow (hT d (hkeep ▸ hd))
  | drop hdrop =>
    rw [hdrop] at hd
    cases hd
  | claim rows hclaim hrows =>
    -- a claimed row is a row of the table
    rw [hclaim] at hd
    obtain ⟨x, hx, rfl⟩ := List.mem_map.mp hd
    refine hrow ⟨fun _ r hr hid => ?_, by simp [Dispatch.attempting, Dispatch.queue]⟩
    rw [KeyedTable.eq_of_key_eq hr (hrows x hx) hid]
    rfl

theorem step_counts (hN : c.ids.Nodup) (hT : c.Tracks w.table) (hR : InRange w.table)
    (h : c.step accepts live cancelled w ev = some (w', c')) :
    c'.Tracks w'.table ∧ InRange w'.table ∧ Counts w.table w'.table (c.charge ev) := by
  rcases step_cases h with hq | ⟨i, dev, d, d', rfl, hd⟩
  · refine ⟨hq.tracks hT, fun r' hr' => ?_, ?_⟩
    · obtain ⟨r, hr, heq⟩ := hq.rows r' hr'
      rw [heq]
      exact hR r hr
    · rw [hq.charge_eq]
      exact .of_statusOf hq.rows
  · have hmem : d ∈ c.dispatches := List.mem_of_getElem? hd.before
    obtain ⟨htracks, hcounts⟩ := Dispatch.step_counts (hT d hmem) hR hd.step
    have hcharge : c.charge (.dispatch i dev) = d.charge c.options c.credentials dev := by
      simp only [charge, hd.before]
    refine ⟨fun x hx => ?_, Dispatch.inRange_of_counts (hT d hmem) hR hcounts,
      hcharge ▸ hcounts⟩
    rw [hd.options]
    rw [hd.after] at hx
    obtain ⟨j, hj⟩ := List.mem_iff_getElem?.mp hx
    by_cases hij : i = j
    · subst hij
      obtain ⟨hlt, -⟩ := List.getElem?_eq_some_iff.mp hd.before
      rw [List.getElem?_set_self hlt] at hj
      cases hj
      exact htracks
    · rw [List.getElem?_set_ne hij] at hj
      have hxT := hT x (List.mem_of_getElem? hj)
      refine ⟨fun hu r' hr' hid => ?_, hxT.budget⟩
      obtain ⟨r, hr, hrid, hattempts⟩ := hcounts r' hr'
      -- the charged item is the one that was dispatched, and it is another one
      have hzero : (d.charge c.options c.credentials dev).count r'.id = 0 := by
        refine List.count_eq_zero.mpr fun hin => hij ?_
        have hsame : d.entity.id = x.entity.id := (Dispatch.charge_subset hin).1.symm.trans hid
        have hi : c.ids[i]? = some d.entity.id := by simp [ids, hd.before]
        have hjd : c.ids[j]? = some d.entity.id := by simp [ids, hj, hsame]
        exact (List.getElem?_inj (List.getElem?_eq_some_iff.mp hi).1 hN).mp (hi.trans hjd.symm)
      rw [hattempts, hzero, hxT.row hu r hr (hrid.trans hid)]
      simp

end Cycle

/-! ## 3. The copies in hand -/

namespace Engine

/-- The item this step charges with an attempt. -/
def charged (e : Engine) : Label → List String
  | .cycle t ev =>
    match (e.calls t).state with
    | .cycle c => c.charge ev
    | _ => []
  | _ => []

/-- Every counter fits its column, and the copies in hand agree with the table. -/
structure Tracked (e : Engine) : Prop where
  range : InRange e.world.table
  copies : ∀ t c, (e.calls t).state = .cycle c → c.Tracks e.world.table

variable {accepts : HttpRequest → Bool} {e e' : Engine}

/-- Each row was in the table, its counter up by one if this step charges it, or
it is new and nothing is charged. -/
def CountsStep (e e' : Engine) (ids : List String) : Prop :=
  ∀ r' ∈ e'.world.table.rows,
    (∃ r ∈ e.world.table.rows, r.id = r'.id ∧ r'.attempts = r.attempts + ids.count r'.id) ∨
      r'.id ∉ e.world.issued ∧ r'.attempts = 0 ∧ ids = []

/-- Rows change in their status at most, go, or enter with a new id. No row
comes back from `FAILED`. -/
def StatusStep (e e' : Engine) : Prop :=
  ∀ r' ∈ e'.world.table.rows,
    (∃ r ∈ e.world.table.rows, r' = { r with status := r'.status } ∧
      (r.status = .FAILED → r'.status = .FAILED)) ∨
      r'.id ∉ e.world.issued ∧ r'.attempts = 0

theorem StatusStep.counts (h : StatusStep e e') : CountsStep e e' [] := by
  intro r' hr'
  rcases h r' hr' with ⟨r, hr, heq, -⟩ | ⟨hnew, hzero⟩
  · exact .inl ⟨r, hr, by rw [heq], by rw [heq]; simp⟩
  · exact .inr ⟨hnew, hzero, rfl⟩

/-- A step outside the cycles leaves the rows to `StatusStep`, and no cycle gets
rows in hand. -/
theorem step_outside {l : Label} (hl : ∀ t ev, l ≠ .cycle t ev) (h : e.step accepts l = some e') :
    StatusStep e e' ∧ e'.world.requests = e.world.requests ∧
      ∀ t c, (e'.calls t).state = .cycle c →
        (e.calls t).state = .cycle c ∨ c.dispatches = [] := by
  have same {f : Engine} (hf : f.world.table = e.world.table) : StatusStep e f :=
    fun r' hr' => .inl ⟨r', hf ▸ hr', rfl, id⟩
  have moved {u : Nat} {call : Call} (hcall : ∀ c, call.state = .cycle c →
      (e.calls u).state = .cycle c ∨ c.dispatches = []) :
      ∀ t c, (Function.update e.calls u call t).state = .cycle c →
        (e.calls t).state = .cycle c ∨ c.dispatches = [] := by
    intro t c hc
    by_cases ht : t = u
    · subst ht
      rw [Function.update_self] at hc
      exact hcall c hc
    · rw [Function.update_of_ne ht] at hc
      exact .inl hc
  cases l with
  | enqueue items =>
    obtain ⟨table, hnew, hrows, rfl⟩ := Engine.step_enqueue h
    refine ⟨fun r' hr' => ?_, rfl, fun t c hc => .inl hc⟩
    change r' ∈ table.rows at hr'
    rw [hrows, List.mem_append] at hr'
    rcases hr' with hr' | hr'
    · exact .inl ⟨r', hr', rfl, id⟩
    · obtain ⟨item, hitem, rfl⟩ := List.mem_map.mp hr'
      have hid : item.id ∉ e.world.issued := by
        exact hnew item hitem
      exact .inr ⟨hid, rfl⟩
  | remove call =>
    cases h
    refine ⟨fun r' hr' => .inl ⟨r', ?_, rfl, id⟩, rfl, fun t c hc => .inl hc⟩
    cases call with
    | removeItem id => exact (KeyedTable.mem_deleteWhere.mp hr').1
    | clear => cases hr'
  | configure options credentials =>
    cases h
    exact ⟨same rfl, rfl, fun t c hc => .inl hc⟩
  | setPaused paused =>
    cases h
    exact ⟨same rfl, rfl, fun t c hc => .inl hc⟩
  | cancel u =>
    cases h
    exact ⟨same rfl, rfl, moved fun c hc => .inl hc⟩
  | giveUp u =>
    simp only [step, Option.ite_none_right_eq_some] at h
    obtain ⟨-, h⟩ := h
    split at h <;> cases h
    all_goals exact ⟨same rfl, rfl, moved (by rintro c ⟨⟩)⟩
  | checkPaused u =>
    simp only [step] at h
    split at h <;> cases h
    refine ⟨same rfl, rfl, moved fun c hc => ?_⟩
    dsimp only at hc
    split at hc <;> cases hc
  | readCredentials u =>
    simp only [step] at h
    split at h <;> cases h
    refine ⟨same rfl, rfl, moved fun c hc => ?_⟩
    dsimp only at hc
    split at hc <;> cases hc
  | begin u now =>
    simp only [step] at h
    split at h <;> cases h
    exact ⟨same rfl, rfl, moved (by rintro c ⟨⟩; exact .inr rfl)⟩
  | reset u =>
    simp only [step] at h
    split at h <;> cases h
    exact ⟨fun r' hr' => .inl (SyncItemDao.resetInFlight_cases hr'), rfl, moved (by rintro c ⟨⟩)⟩
  | call u op | lock u =>
    simp only [step] at h
    split at h <;> cases h
    exact ⟨same rfl, rfl, moved (by rintro c ⟨⟩)⟩
  | unlock u =>
    simp only [step] at h
    split at h
    · cases h
      exact ⟨same rfl, rfl, moved (by rintro c ⟨⟩)⟩
    · split at h <;> cases h
      exact ⟨same rfl, rfl, moved (by rintro c ⟨⟩)⟩
    · cases h
  | cycle t ev => exact absurd rfl (hl t ev)

/-- A step of the cycle of caller `t`. -/
theorem step_cycle {t : Nat} {ev : CycleEvent} (h : e.step accepts (.cycle t ev) = some e') :
    ∃ c w c', (e.calls t).state = .cycle c ∧
      c.step accepts e.options (e.calls t).cancelled e.world ev = some (w, c') ∧
      e' = { e.setState t (.cycle c') with world := w } := by
  simp only [step] at h
  split at h
  case h_2 => cases h
  case h_1 c hc =>
    obtain ⟨⟨w, c'⟩, hstep, rfl⟩ := Option.map_eq_some_iff.mp h
    exact ⟨c, w, c', hc, hstep, rfl⟩

theorem cycle_unique {t : Nat} {c d : Cycle} (hc : (e.calls t).state = .cycle c)
    (hd : (e.calls t).state = .cycle d) : c = d :=
  CallState.cycle.inj (hc.symm.trans hd)

/-- The rows of a cycle are distinct. -/
theorem Inv.nodup_ids {t : Nat} {c : Cycle} (hI : Inv e) (hc : (e.calls t).state = .cycle c) :
    c.ids.Nodup := by
  have := hI.nodup t
  simpa [Call.ids, Call.dispatches, Cycle.ids, hc] using this

/-- Two callers inside a cycle are one caller. -/
theorem Inv.eq_of_cycle {t u : Nat} {c d : Cycle} (hI : Inv e) (hc : (e.calls t).state = .cycle c)
    (hd : (e.calls u).state = .cycle d) : t = u :=
  hI.exclusive.eq (by simp [Call.holdsMutex, hc]) (by simp [Call.holdsMutex, hd])

theorem Tracked.step {l : Label} (hI : Inv e) (hT : Tracked e) (h : e.step accepts l = some e') :
    Tracked e' ∧ CountsStep e e' (e.charged l) := by
  by_cases hl : ∃ t ev, l = .cycle t ev
  · obtain ⟨t, ev, rfl⟩ := hl
    obtain ⟨c, w, c', hc, hstep, rfl⟩ := step_cycle h
    have hN := hI.nodup_ids hc
    obtain ⟨htracks, hrange, hcounts⟩ := Cycle.step_counts hN (hT.copies t c hc) hT.range hstep
    have hcharged : e.charged (.cycle t ev) = c.charge ev := by
      simp only [charged, hc]
    refine ⟨⟨hrange, fun u d hd => ?_⟩, fun r' hr' => .inl (hcharged ▸ hcounts r' hr')⟩
    by_cases hu : u = t
    · subst hu
      simp only [setState, setCall, Function.update_self] at hd
      cases hd
      exact htracks
    · simp only [setState, setCall, Function.update_of_ne hu] at hd
      exact absurd (hI.eq_of_cycle hd hc) hu
  · have hl' : ∀ t ev, l ≠ .cycle t ev := fun t ev heq => hl ⟨t, ev, heq⟩
    obtain ⟨hstatus, -, hcycles⟩ := step_outside hl' h
    have hcounts : CountsStep e e' [] := hstatus.counts
    have hnone : e.charged l = [] := by
      cases l with
      | cycle t ev => exact absurd rfl (hl' t ev)
      | _ => rfl
    rw [hnone]
    refine ⟨⟨fun r' hr' => ?_, fun t c hc d hd => ?_⟩, hcounts⟩
    · rcases hcounts r' hr' with ⟨r, hr, -, hattempts⟩ | ⟨-, hzero, -⟩
      · have := hT.range r hr
        simp at hattempts
        omega
      · omega
    · rcases hcycles t c hc with hc | hnil
      · have hdT := hT.copies t c hc d hd
        refine ⟨fun hu r' hr' hid => ?_, hdT.budget⟩
        rcases hcounts r' hr' with ⟨r, hr, hrid, hattempts⟩ | ⟨hnew, -, -⟩
        · rw [hattempts, hdT.row hu r hr (hrid.trans hid)]
          simp
        · -- the row of a copy in hand is not new
          have hids : d.entity.id ∈ (e.calls t).ids := by
            simp only [Call.ids, Call.dispatches, hc]
            exact List.mem_map_of_mem hd
          exact absurd (hI.ids_issued t _ hids) (hid ▸ hnew)
      · rw [hnil] at hd
        cases hd

/-! ## 4. The budget over a run -/

/-- A request starts for a copy in hand that has attempts left. -/
theorem step_request {l : Label} {q : String × HttpRequest} (h : e.step accepts l = some e')
    (hq : e'.world.requests = e.world.requests ++ [q]) :
    ∃ t i c d, l = .cycle t (.dispatch i .send) ∧ (e.calls t).state = .cycle c ∧
      c.dispatches[i]? = some d ∧ q.1 = d.entity.id ∧ d.unwritten = true ∧
      d.entity.attempts < RetryPolicyEvaluator.attemptBudget c.options.retryPolicy := by
  by_cases hl : ∃ t ev, l = .cycle t ev
  · obtain ⟨t, ev, rfl⟩ := hl
    obtain ⟨c, w, c', hc, hstep, rfl⟩ := step_cycle h
    rcases Cycle.step_cases hstep with hquiet | ⟨i, dev, d, d', rfl, hd⟩
    · have hsame : w.requests = e.world.requests := hquiet.requests
      change w.requests = _ at hq
      rw [hsame] at hq
      simp at hq
    · obtain ⟨rfl, hid, hu, hlt⟩ := Dispatch.step_request hd.step hq
      exact ⟨t, i, c, d, rfl, hc, hd.before, hid, hu, hlt⟩
  · obtain ⟨-, hsame, -⟩ := step_outside (fun t ev heq => hl ⟨t, ev, heq⟩) h
    rw [hsame] at hq
    simp at hq

/-- Only rows in hand are charged. -/
theorem Inv.issued_of_charged {id : String} {l : Label} (hI : Inv e) (h : id ∈ e.charged l) :
    id ∈ e.world.issued := by
  unfold charged at h
  split at h
  · rename_i t ev
    split at h
    · rename_i c hc
      unfold Cycle.charge at h
      split at h
      · split at h
        · rename_i d hd
          obtain ⟨rfl, -⟩ := Dispatch.charge_subset h
          refine hI.ids_issued t _ ?_
          simp only [Call.ids, Call.dispatches, hc]
          exact List.mem_map_of_mem (List.mem_of_getElem? hd)
        · cases h
      · cases h
    · cases h
  · cases h

/-- What a run with its charges keeps, from the state `e` on. -/
structure Accounted (e : Engine) (p : Engine × List String) : Prop where
  inv : Inv p.1
  tracked : Tracked p.1
  issued : e.world.issued ⊆ p.1.world.issued
  charges : ∀ id ∈ p.2, id ∈ p.1.world.issued
  rows : ∀ r' ∈ p.1.world.table.rows,
    (∃ r ∈ e.world.table.rows, r.id = r'.id ∧ r'.attempts = r.attempts + p.2.count r'.id) ∨
      r'.id ∉ e.world.issued ∧ r'.attempts = p.2.count r'.id

theorem Accounted.step {p p' : Engine × List String} {l : Label} (hA : Accounted e p)
    (h : StepSystem.recorded (Engine.step accepts) charged p l = some p') : Accounted e p' := by
  obtain ⟨hstep, hcharges⟩ := StepSystem.recorded_eq_some.mp h
  obtain ⟨hT, hcounts⟩ := hA.tracked.step hA.inv hstep
  have hmono : p.1.world.issued ⊆ p'.1.world.issued := (outbox_step hstep).issued_mono
  refine ⟨hA.inv.step hstep, hT, fun id hid => hmono (hA.issued hid), fun id hid => ?_,
    fun r' hr' => ?_⟩
  · rw [hcharges, List.mem_append] at hid
    rcases hid with hid | hid
    · exact hmono (hA.charges id hid)
    · exact hmono (hA.inv.issued_of_charged hid)
  · rw [hcharges, List.count_append]
    rcases hcounts r' hr' with ⟨r₁, hr₁, hid₁, hattempts₁⟩ | ⟨hnew, hzero, hnone⟩
    · rw [← hid₁] at hattempts₁ ⊢
      rcases hA.rows r₁ hr₁ with ⟨r, hr, hid, hattempts⟩ | ⟨hnew, hattempts⟩
      · refine .inl ⟨r, hr, hid, ?_⟩
        push_cast
        omega
      · refine .inr ⟨hnew, ?_⟩
        push_cast
        omega
    · -- no earlier charge names the new row
      have hzero' : p.2.count r'.id = 0 :=
        List.count_eq_zero.mpr fun hin => hnew (hA.charges _ hin)
      refine .inr ⟨fun hin => hnew (hA.issued hin), ?_⟩
      rw [hnone, hzero', hzero]
      simp

/-- In one process, between any two states of a run: a counter grows by one with
each dispatch of its item that ends in a retry or in a terminal failure, and by
nothing else (a held, refused or crashed dispatch charges nothing), and the
counter of a new row is the number of its charges. A request starts only for a
row whose counter is below the budget of its cycle, and a retry leaves a counter
below it. -/
theorem attempts_within_budget {e₀ : Engine} {ls₀ ls : List Label} {charges : List String}
    (h : Boot e₀) (hrange : InRange e₀.world.table)
    (h₀ : StepSystem.exec (step accepts) e₀ ls₀ = some e)
    (hrun : StepSystem.exec (StepSystem.recorded (step accepts) charged) (e, []) ls =
      some (e', charges)) :
    (∀ r' ∈ e'.world.table.rows,
      (∀ r ∈ e.world.table.rows, r.id = r'.id →
        r'.attempts = r.attempts + charges.count r'.id) ∧
      (r'.id ∉ e.world.issued → r'.attempts = charges.count r'.id)) ∧
    (∀ l f q, e'.step accepts l = some f → f.world.requests = e'.world.requests ++ [q] →
      ∃ t i c, l = .cycle t (.dispatch i .send) ∧ (e'.calls t).state = .cycle c ∧
        ∀ r ∈ e'.world.table.rows, r.id = q.1 →
          r.attempts < RetryPolicyEvaluator.attemptBudget c.options.retryPolicy) ∧
    ∀ t i now sample c d startedAt result f, (e'.calls t).state = .cycle c →
      c.dispatches[i]? = some d → d.state = .attempted startedAt result →
      e'.step accepts (.cycle t (.dispatch i (.settle now sample))) = some f →
      (settle c.options c.credentials d.entity startedAt now sample result).outcome =
        .rescheduled d.entity.id →
      ∀ r ∈ f.world.table.rows, r.id = d.entity.id →
        r.attempts < RetryPolicyEvaluator.attemptBudget c.options.retryPolicy := by
  let I (f : Engine) : Prop := Inv f ∧ Tracked f
  have hstep : ∀ {f l f'}, I f → f.step accepts l = some f' → I f' :=
    fun hI hs => ⟨hI.1.step hs, (hI.2.step hI.1 hs).1⟩
  have hboot : I e₀ := by
    refine ⟨h.inv, hrange, fun t c hc => ?_⟩
    rw [h.calls t] at hc
    cases hc
  have hstart : I e := StepSystem.exec_invariant hstep hboot h₀
  have hA : Accounted e (e', charges) :=
    StepSystem.exec_invariant Accounted.step
      ⟨hstart.1, hstart.2, List.Subset.refl _, by simp, fun r hr => .inl ⟨r, hr, rfl, by simp⟩⟩ hrun
  refine ⟨fun r' hr' => ⟨fun r hr hid => ?_, fun hnew => ?_⟩, fun l f q hs hq => ?_, ?_⟩
  · rcases hA.rows r' hr' with ⟨r₁, hr₁, hid₁, hattempts⟩ | ⟨hnew, -⟩
    · rwa [KeyedTable.eq_of_key_eq hr hr₁ (hid.trans hid₁.symm)]
    · exact absurd (hstart.1.keys_issued _ (KeyedTable.key_mem_keys hr)) (hid ▸ hnew)
  · rcases hA.rows r' hr' with ⟨r₁, hr₁, hid₁, -⟩ | ⟨-, hattempts⟩
    · exact absurd (hstart.1.keys_issued _ (KeyedTable.key_mem_keys hr₁)) (hid₁ ▸ hnew)
    · exact hattempts
  · obtain ⟨t, i, c, d, rfl, hc, hi, hid, hu, hlt⟩ := step_request hs hq
    refine ⟨t, i, c, rfl, hc, fun r hr hrid => ?_⟩
    rw [(hA.tracked.copies t c hc d (List.mem_of_getElem? hi)).row hu r hr (hrid.trans hid)]
    exact hlt
  · intro t i now sample c d startedAt result f hc hi hstate hs hout r hr hid
    obtain ⟨c₁, w, c', hc₁, hstep, rfl⟩ := step_cycle hs
    obtain rfl : c = c₁ := by
      rw [hc] at hc₁
      cases hc₁
      rfl
    rcases Cycle.step_cases hstep with hquiet | ⟨j, dev, d₁, d', heq, hd⟩
    · exact absurd rfl (hquiet.label _ _)
    · cases heq
      obtain rfl : d = d₁ := Option.some.inj (hi.symm.trans hd.before)
      have hwrite := hd.step
      obtain ⟨entity, state⟩ := d
      cases hstate
      cases hwrite
      rcases StoreWrite.run_cases hr with ⟨-, hne⟩ | ⟨r₀, -, -, -, hk⟩
      · rw [settle_write_id] at hne
        exact absurd hid hne
      · exact settle_rescheduled hout hk

section Sample

/-- A 500 comes back for the only row, and it is charged once. -/
theorem attempts_within_budget_after_retry :
    ∃ e e', StepSystem.exec (step fun _ => true) (coldStart .TRUSTED)
        [.enqueue [SyncQueueStorage.sampleItem "A"]] = some e ∧
      StepSystem.exec (StepSystem.recorded (step fun _ => true) charged) (e, [])
        (claimRun [] ++ dispatchRun 0 500) = some (e', ["A"]) ∧
      ∀ r' ∈ e'.world.table.rows, ∀ r ∈ e.world.table.rows, r.id = r'.id →
        r'.attempts = r.attempts + ["A"].count r'.id := by
  obtain ⟨e, he, hcharges⟩ : ∃ e, StepSystem.exec (step fun _ => true) (coldStart .TRUSTED)
      [.enqueue [SyncQueueStorage.sampleItem "A"]] = some e ∧
      (StepSystem.exec (StepSystem.recorded (step fun _ => true) charged) (e, [])
        (claimRun [] ++ dispatchRun 0 500)).map (·.2) = some ["A"] :=
    ⟨_, rfl, by decide +kernel⟩
  obtain ⟨⟨e', charges⟩, hrun, rfl⟩ := Option.map_eq_some_iff.mp hcharges
  have hrange : InRange (coldStart .TRUSTED).world.table := by
    rintro r ⟨⟩
  exact ⟨e, e', he, hrun,
    fun r' hr' => ((attempts_within_budget (coldStart_boot .TRUSTED) hrange he hrun).1 r' hr').1⟩

end Sample

end Engine

end SyncProvider.Android
