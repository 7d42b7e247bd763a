import SyncProvider.Android.Attempts
import SyncProvider.Android.Cooldown
import SyncProvider.Lib.Cooldown
import Mathlib

/-!
# Android: the cooldown of an item

A failed attempt leaves a deadline in its row. Claims, releases, resets and the
death of the process all touch the rows, and a cycle works on the copies it
claimed.

Results:
1. `Cycle.cooldown_step` : what one step of a cycle does to the deadlines.
2. `Engine.lives` : the install refines a queue whose items wait for a deadline.
3. `Engine.guards` : no request goes out before the deadline in force.
-/

namespace SyncProvider.Android

open Cooldown (Event Queue)

/-! ## The model -/

/-- What happens on a device. -/
inductive Life where
  | step (l : Label)
  /-- The process dies and starts again with these settings. -/
  | relaunch (options : SyncOptions) (credentials : CredentialPolicy) (paused : Bool)
  deriving DecidableEq

def Engine.live (accepts : HttpRequest → Bool) (e : Engine) : Life → Option Engine
  | .step l => e.step accepts l
  | .relaunch options credentials paused =>
    some
      { world := { e.world with syncing := false }
        options := options
        credentials := credentials
        paused := paused
        flushMutex := none
        calls := fun _ => .idle }

/-- The delay that `settle` adds to the clock, for an attempt that failed. -/
def retryDelayMs (options : SyncOptions) (credentials : CredentialPolicy) (entity : SyncItemEntity)
    (sample : ℚ) : AttemptResult → Int
  | .success _ => 0
  | .failure f =>
    let backoffMs := RetryPolicyEvaluator.computeDelayMs (wrap32 (entity.attempts + 1))
      options.retryPolicy sample
    if credentials = .PERSISTED ∧ f.code = .UNAUTHORIZED then max backoffMs MIN_CREDENTIAL_HOLD_MS
    else backoffMs

theorem settle_nextRetryAt {options : SyncOptions} {credentials : CredentialPolicy}
    {entity : SyncItemEntity} {startedAt finishedAt k : Int} {sample : ℚ} {result : AttemptResult}
    (h : (settle options credentials entity startedAt finishedAt sample
      result).write.nextRetryAt? = some k) :
    k = wrap64 (finishedAt + retryDelayMs options credentials entity sample result) := by
  unfold settle at h
  unfold retryDelayMs
  cases result with
  | success statusCode => cases h
  | failure f =>
    simp only at h ⊢
    split at h
    · rename_i hheld
      rw [if_pos hheld]
      cases h
      rfl
    · rename_i hheld
      rw [if_neg hheld]
      split at h <;> cases h
      rfl

/-- What a step of a dispatch shows, when its batch was claimed at `clock`. -/
def Dispatch.cooldownEvents (accepts : HttpRequest → Bool) (options : SyncOptions)
    (credentials : CredentialPolicy) (clock : Int) (d : Dispatch) (ev : DispatchEvent) :
    List (Event String Int) :=
  match ev, d.state with
  | .refuse, .started _ => [.recorded d.entity.id none]
  | .send, .started _ =>
    if (buildRequest accepts d.entity options.defaultHeaders).isSome then
      [.started d.entity.id clock]
    else []
  | .settle now sample, .attempted startedAt result =>
    [.recorded d.entity.id
      (settle options credentials d.entity startedAt now sample result).write.nextRetryAt?]
  | _, _ => []

/-- The copy of this item is in hand, and its outcome not recorded. -/
def Cycle.InHand (c : Cycle) (id : String) : Prop :=
  ∃ d ∈ c.dispatches, d.unwritten = true ∧ d.entity.id = id

def Cycle.cooldownEvents (accepts : HttpRequest → Bool) (c : Cycle) (ev : CycleEvent) :
    List (Event String Int) :=
  match ev with
  | .dispatch i dev =>
    match c.dispatches[i]? with
    | some d => d.cooldownEvents accepts c.options c.credentials c.startedAt dev
    | none => []
  | _ => []

namespace Engine

def cooldownEvents (accepts : HttpRequest → Bool) (e : Engine) : Life → List (Event String Int)
  | .step (.cycle t ev) =>
    match (e.calls t).state with
    | .cycle c => c.cooldownEvents accepts ev
    | _ => []
  | _ => []

/-- The copy of this item is in hand, in a batch claimed at `clock`. -/
def InHand (e : Engine) (id : String) (clock : Int) : Prop :=
  ∃ t c, (e.calls t).state = .cycle c ∧ c.InHand id ∧ c.startedAt = clock

/-- The queue the install implements. -/
def queue (e : Engine) : Queue String Int where
  issued := {id | id ∈ e.world.issued}
  deadline id := (e.world.table.find? id).map (·.nextRetryAt)
  live := {id | (∃ r ∈ e.world.table.rows, r.id = id ∧ r.status ≠ .FAILED) ∨
    ∃ clock, e.InHand id clock}
  hand := {p | e.InHand p.1 p.2}

theorem queue_deadline {e : Engine} {id : String} {d : Int} :
    e.queue.deadline id = some d ↔
      ∃ r ∈ e.world.table.rows, r.id = id ∧ r.nextRetryAt = d := by
  simp only [queue, Option.map_eq_some_iff, KeyedTable.find?_eq_some, and_assoc]

end Engine

/-! ## 1. A step of a cycle -/

/-- A row after a write is another row, or has the deadline that was written. A
write without a deadline leaves a row that has failed. -/
theorem StoreWrite.run_deadline {s : StoreWrite} {t : SyncItems} {r' : SyncItemEntity}
    (h : r' ∈ (s.run t).rows) : r' ∈ t.rows ∧ r'.id ≠ s.id ∨
      r'.id = s.id ∧ r'.id ∈ t.keys ∧
        (∀ k, s.nextRetryAt? = some k → r'.nextRetryAt = k) ∧
        (s.nextRetryAt? = none → r'.status = .FAILED) := by
  cases s with
  | markSucceeded id =>
    obtain ⟨hr, hne⟩ := KeyedTable.mem_deleteWhere.mp h
    exact .inl ⟨hr, by simpa [StoreWrite.id] using hne⟩
  | markRetry id attempts lastAttemptAt code nextRetryAt
  | markFailed id attempts lastAttemptAt code =>
    obtain ⟨r, hr, rfl⟩ := SyncItemDao.mem_updateStatus.mp h
    split
    · rename_i hid
      have hid : r.id = id := by simpa using hid
      exact .inr ⟨hid, KeyedTable.mem_keys.mpr ⟨r, hr, rfl⟩, by simp [nextRetryAt?],
        by simp [nextRetryAt?]⟩
    · rename_i hid
      exact .inl ⟨hr, by simpa [StoreWrite.id] using hid⟩

/-- What one step of a dispatch does to the deadlines. -/
inductive DispatchCools (accepts : HttpRequest → Bool) (options : SyncOptions)
    (credentials : CredentialPolicy) (clock : Int) (w : World) (d : Dispatch) (ev : DispatchEvent)
    (w' : World) (d' : Dispatch) : Prop where
  | quiet (hentity : d'.entity = d.entity) (htable : w'.table = w.table)
    (hwritten : d'.unwritten = true → d.unwritten = true)
    (hevents : d.cooldownEvents accepts options credentials clock ev = [])
  | start (hentity : d'.entity = d.entity) (htable : w'.table = w.table)
    (hunwritten : d.unwritten = true)
    (hevents : d.cooldownEvents accepts options credentials clock ev =
      [.started d.entity.id clock])
  | write (s : StoreWrite) (hentity : d'.entity = d.entity) (hid : s.id = d.entity.id)
    (htable : w'.table = s.run w.table) (hunwritten : d.unwritten = true)
    (hwritten : d'.unwritten = false)
    (hevents : d.cooldownEvents accepts options credentials clock ev =
      [.recorded d.entity.id s.nextRetryAt?])

theorem Dispatch.cooldown_step {accepts : HttpRequest → Bool} {live options : SyncOptions}
    {credentials : CredentialPolicy} {clock : Int} {w w' : World} {d d' : Dispatch}
    {ev : DispatchEvent} (h : d.step accepts live options credentials w ev = some (w', d')) :
    DispatchCools accepts options credentials clock w d ev w' d' := by
  cases step_moves h with
  | start | respond => exact .quiet rfl rfl (fun _ => rfl) rfl
  | refuse => exact .write (Android.refuse _ _).write rfl rfl rfl rfl rfl rfl
  | unbuilt hbudget hbuild =>
    exact .quiet rfl rfl (fun _ => rfl) (by simp [cooldownEvents, hbuild])
  | send hbudget hbuild => exact .start rfl rfl rfl (by simp [cooldownEvents, hbuild])
  | settle => exact .write _ rfl (settle_write_id ..) rfl rfl rfl rfl
  | emit => exact .quiet rfl rfl (by simp [unwritten]) rfl
  | @crash entity state message hlive hwire =>
    exact .quiet rfl rfl (by simp [unwritten]) (by cases state <;> rfl)

/-- What one step of a cycle does to the deadlines. -/
structure CooldownStep (accepts : HttpRequest → Bool) (w : World) (c : Cycle) (ev : CycleEvent)
    (w' : World) (c' : Cycle) : Prop where
  startedAt : c'.startedAt = c.startedAt
  rows : ∀ r' ∈ w'.table.rows, ∃ r ∈ w.table.rows, r.id = r'.id ∧
    (r.nextRetryAt = r'.nextRetryAt ∨ ∃ d, c.cooldownEvents accepts ev = [.recorded r'.id d]) ∧
    (r.status = .FAILED → r'.status = .FAILED ∨ c.InHand r'.id)
  hand : ∀ id, c'.InHand id → c.InHand id ∨
    ∃ r ∈ w.table.rows, r.id = id ∧ r.status = .PENDING ∧ r.nextRetryAt ≤ c.startedAt
  events : c.cooldownEvents accepts ev = [] ∨
    ∃ id, c.InHand id ∧ (c.cooldownEvents accepts ev = [.started id c.startedAt] ∨
      ∃ d, c.cooldownEvents accepts ev = [.recorded id d] ∧ ¬ c'.InHand id ∧
        (∀ e, d = some e → ∀ r' ∈ w'.table.rows, r'.id = id → r'.nextRetryAt = e) ∧
        (d = none → ∀ r' ∈ w'.table.rows, r'.id = id → r'.status = .FAILED))

namespace CooldownStep

variable {accepts : HttpRequest → Bool} {w w' : World} {c c' : Cycle} {ev : CycleEvent}

/-- A step that dispatches nothing: rows change in their status at most, and the
copies stay in hand or are let go. -/
theorem quiet (hstartedAt : c'.startedAt = c.startedAt) (hev : ∀ i dev, ev ≠ .dispatch i dev)
    (hrows : ∀ r' ∈ w'.table.rows, ∃ r ∈ w.table.rows, r' = { r with status := r'.status } ∧
      (r.status = .FAILED → r'.status = .FAILED))
    (hhand : ∀ id, c'.InHand id → c.InHand id ∨
      ∃ r ∈ w.table.rows, r.id = id ∧ r.status = .PENDING ∧ r.nextRetryAt ≤ c.startedAt) :
    CooldownStep accepts w c ev w' c' := by
  refine ⟨hstartedAt, fun r' hr' => ?_, hhand, .inl ?_⟩
  · obtain ⟨r, hr, heq, hfailed⟩ := hrows r' hr'
    exact ⟨r, hr, by rw [heq], .inl (by rw [heq]), fun h => .inl (hfailed h)⟩
  · unfold Cycle.cooldownEvents
    split
    · exact absurd rfl (hev _ _)
    · rfl

theorem inHand_of_dispatches (h : c'.dispatches = c.dispatches ∨ c'.dispatches = []) :
    ∀ id, c'.InHand id → c.InHand id ∨
      ∃ r ∈ w.table.rows, r.id = id ∧ r.status = .PENDING ∧ r.nextRetryAt ≤ c.startedAt := by
  rintro id ⟨d, hd, hrest⟩
  rcases h with h | h
  · exact .inl ⟨d, h ▸ hd, hrest⟩
  · rw [h] at hd
    cases hd

end CooldownStep

/-- The step of one dispatch. -/
theorem CooldownStep.of_dispatch {accepts : HttpRequest → Bool} {live : SyncOptions} {w w' : World}
    {c c' : Cycle} {i : Nat} {dev : DispatchEvent} {d d' : Dispatch} (hN : c.ids.Nodup)
    (hi : c.dispatches[i]? = some d) (hstartedAt : c'.startedAt = c.startedAt)
    (hafter : c'.dispatches = c.dispatches.set i d')
    (hstep : d.step accepts live c.options c.credentials w dev = some (w', d')) :
    CooldownStep accepts w c (.dispatch i dev) w' c' := by
  have hmem : d ∈ c.dispatches := List.mem_of_getElem? hi
  have hshown : c.cooldownEvents accepts (.dispatch i dev) =
      d.cooldownEvents accepts c.options c.credentials c.startedAt dev := by
    simp only [Cycle.cooldownEvents, hi]
  have hcools : DispatchCools accepts c.options c.credentials c.startedAt w d dev w' d' :=
    Dispatch.cooldown_step hstep
  have hentity : d'.entity = d.entity := by
    cases hcools with
    | quiet hentity | start hentity | write s hentity => exact hentity
  have hwas : d'.unwritten = true → d.unwritten = true := by
    intro hd'
    cases hcools with
    | quiet _ _ hwritten => exact hwritten hd'
    | start _ _ hunwritten => exact hunwritten
    | write s _ _ _ hunwritten => exact hunwritten
  have hhand : ∀ id, c'.InHand id → c.InHand id := by
    rintro id ⟨x, hx, hunwritten, rfl⟩
    rw [hafter] at hx
    rcases Cycle.mem_set_cases hN hi hx with rfl | ⟨hx, -⟩
    · exact ⟨d, hmem, hwas hunwritten, by rw [hentity]⟩
    · exact ⟨x, hx, hunwritten, rfl⟩
  cases hcools with
  | quiet _ htable hwritten hevents =>
    exact ⟨hstartedAt, fun r' hr' => ⟨r', htable ▸ hr', rfl, .inl rfl, .inl⟩,
      fun id hid => .inl (hhand id hid), .inl (hshown.trans hevents)⟩
  | start _ htable hunwritten hevents =>
    exact ⟨hstartedAt, fun r' hr' => ⟨r', htable ▸ hr', rfl, .inl rfl, .inl⟩,
      fun id hid => .inl (hhand id hid),
      .inr ⟨d.entity.id, ⟨d, hmem, hunwritten, rfl⟩, .inl (hshown.trans hevents)⟩⟩
  | write s _ hid htable hunwritten hwritten hevents =>
    have hheld : c.InHand d.entity.id := ⟨d, hmem, hunwritten, rfl⟩
    have hown {r' : SyncItemEntity} (hr' : r' ∈ w'.table.rows) (hr'id : r'.id = d.entity.id) :
        (∀ k, s.nextRetryAt? = some k → r'.nextRetryAt = k) ∧
          (s.nextRetryAt? = none → r'.status = .FAILED) := by
      rw [htable] at hr'
      rcases StoreWrite.run_deadline hr' with ⟨-, hne⟩ | ⟨-, -, hset⟩
      · exact absurd (hr'id.trans hid.symm) hne
      · exact hset
    refine ⟨hstartedAt, fun r' hr' => ?_, fun id hid => .inl (hhand id hid),
      .inr ⟨d.entity.id, hheld, .inr ⟨s.nextRetryAt?, hshown.trans hevents, ?_,
        fun e he r' hr' hr'id => (hown hr' hr'id).1 e he,
        fun hnone r' hr' hr'id => (hown hr' hr'id).2 hnone⟩⟩⟩
    · rw [htable] at hr'
      rcases StoreWrite.run_deadline hr' with ⟨hr, -⟩ | ⟨hr'id, hin, -⟩
      · exact ⟨r', hr, rfl, .inl rfl, .inl⟩
      · obtain ⟨r, hr, hrid⟩ := KeyedTable.mem_keys.mp hin
        have hr'd : r'.id = d.entity.id := hr'id.trans hid
        exact ⟨r, hr, hrid, .inr ⟨_, by rw [hr'd]; exact hshown.trans hevents⟩,
          fun _ => .inr (hr'd ▸ hheld)⟩
    · rintro ⟨x, hx, hxunwritten, hxid⟩
      rw [hafter] at hx
      rcases Cycle.mem_set_cases hN hi hx with rfl | ⟨-, hne⟩
      · rw [hwritten] at hxunwritten
        cases hxunwritten
      · exact hne hxid

theorem Cycle.cooldown_step {accepts : HttpRequest → Bool} {live : SyncOptions} {cancelled : Bool}
    {w w' : World} {c c' : Cycle} {ev : CycleEvent} (hN : c.ids.Nodup)
    (h : c.step accepts live cancelled w ev = some (w', c')) :
    CooldownStep accepts w c ev w' c' := by
  obtain ⟨phase, rfl, hmoves⟩ := step_moves h
  have same {w' : World} (h : w'.table = w.table) : ∀ r' ∈ w'.table.rows, ∃ r ∈ w.table.rows,
      r' = { r with status := r'.status } ∧ (r.status = .FAILED → r'.status = .FAILED) :=
    fun r' hr' => ⟨r', h ▸ hr', rfl, id⟩
  have reset : ∀ r' ∈ w.resetInFlight.table.rows, ∃ r ∈ w.table.rows,
      r' = { r with status := r'.status } ∧ (r.status = .FAILED → r'.status = .FAILED) :=
    fun r' => SyncItemDao.resetInFlight_cases
  cases hmoves with
  | claim hphase =>
    refine .quiet rfl (by simp) (fun r' => SyncItemDao.claimPending_cases) ?_
    rintro id ⟨d, hd, -, rfl⟩
    obtain ⟨r, hr, rfl⟩ := List.mem_map.mp hd
    obtain ⟨hr, hstatus, hle⟩ := SyncItemDao.selectClaimable_subset hr
    exact .inr ⟨r, hr, rfl, hstatus, hle⟩
  | dispatch hphase hstart hi hstep =>
    have hdispatches := dispatches_of_phase hphase
    exact .of_dispatch hN (hdispatches ▸ hi) rfl (hdispatches ▸ rfl) hstep
  | resumeClaimed hphase | probePassed hphase =>
    refine .quiet rfl (by simp) (same rfl) (CooldownStep.inHand_of_dispatches (.inl ?_))
    simp only [dispatches, hphase]
  | release hphase =>
    exact .quiet rfl (by simp) reset (CooldownStep.inHand_of_dispatches (.inr rfl))
  | throw hcancelled hthrown =>
    exact .quiet rfl (by simp) (same rfl)
      (CooldownStep.inHand_of_dispatches (.inr (dispatches_thrown hthrown)))
  | raise hstorage hthrown =>
    exact .quiet rfl (by simp) (same rfl)
      (CooldownStep.inHand_of_dispatches (.inr (dispatches_thrown hthrown)))
  | abort hphase | abortReported hphase =>
    split
    · exact .quiet rfl (by simp) reset (CooldownStep.inHand_of_dispatches (.inr rfl))
    · exact .quiet rfl (by simp) (same rfl) (CooldownStep.inHand_of_dispatches (.inr rfl))
  | emitStarted hphase | resumeEmpty hphase | probeRejected hphase | join hphase | record hphase
  | resumeRecorded hphase | emitTerminal hphase | resumeReported hphase | emitFailed hphase
  | finish hphase =>
    exact .quiet rfl (by simp) (same rfl) (CooldownStep.inHand_of_dispatches (.inr rfl))

/-- Each request of a step is an attempt it shows. -/
theorem Dispatch.requests_shown {accepts : HttpRequest → Bool} {live options : SyncOptions}
    {credentials : CredentialPolicy} {clock : Int} {w w' : World} {d d' : Dispatch}
    {ev : DispatchEvent} (h : d.step accepts live options credentials w ev = some (w', d')) :
    w'.requests.map (·.1) = w.requests.map (·.1) ++
      Cooldown.attempts (d.cooldownEvents accepts options credentials clock ev) := by
  cases step_moves h with
  | unbuilt hbudget hbuild | send hbudget hbuild => simp [cooldownEvents, hbuild]
  | refuse | settle => simp [cooldownEvents, World.write]
  | start | respond | emit => exact (List.append_nil _).symm
  | @crash entity state message hlive hwire =>
    cases state <;> exact (List.append_nil _).symm

theorem Cycle.requests_shown {accepts : HttpRequest → Bool} {live : SyncOptions} {cancelled : Bool}
    {w w' : World} {c c' : Cycle} {ev : CycleEvent}
    (h : c.step accepts live cancelled w ev = some (w', c')) :
    w'.requests.map (·.1) =
      w.requests.map (·.1) ++ Cooldown.attempts (c.cooldownEvents accepts ev) := by
  rcases step_cases h with hquiet | ⟨i, dev, d, d', rfl, hd⟩
  · have hnone : c.cooldownEvents accepts ev = [] := by
      unfold cooldownEvents
      split
      · exact absurd rfl (hquiet.label _ _)
      · rfl
    rw [hnone, hquiet.requests]
    exact (List.append_nil _).symm
  · simp only [cooldownEvents, hd.before]
    exact Dispatch.requests_shown hd.step

/-! ## 2. The refinement -/

namespace Engine

variable {accepts : HttpRequest → Bool} {e e' : Engine} {l : Life}

/-- The process died: nobody is in a cycle, and the table is what it was. -/
theorem live_relaunch {options : SyncOptions} {credentials : CredentialPolicy} {paused : Bool}
    (h : e.live accepts (.relaunch options credentials paused) = some e') :
    e'.world = { e.world with syncing := false } ∧ ∀ t, e'.calls t = .idle := by
  cases h
  exact ⟨rfl, fun _ => rfl⟩

theorem outside_relaunch {options : SyncOptions} {credentials : CredentialPolicy} {paused : Bool}
    (h : e.live accepts (.relaunch options credentials paused) = some e') : Outside e e' := by
  obtain ⟨hworld, hcalls⟩ := live_relaunch h
  refine ⟨?_, fun id hid => .inl ?_, ?_, ?_, fun t => .inr ?_⟩
  · rw [hworld]
    exact List.Subset.refl _
  · rw [hworld] at hid
    exact hid
  · rw [hworld]
  · rw [hworld]
  · rw [hcalls t]
    rfl

theorem Inv.live (hI : Inv e) (h : e.live accepts l = some e') : Inv e' := by
  cases l with
  | step l => exact hI.step h
  | relaunch options credentials paused =>
    obtain ⟨hworld, hcalls⟩ := live_relaunch h
    refine ⟨fun t ht => ?_, fun t => ?_, ?_, fun t id hid => ?_, fun id hid => ?_⟩
    · rw [hcalls t] at ht
      cases ht
    · rw [hcalls t]
      exact List.nodup_nil
    · rw [hworld]
      exact hI.keys_issued
    · rw [hcalls t] at hid
      cases hid
    · rw [hworld] at hid
      exact (hI.succeeded_gone id hid).step (outside_relaunch h).outbox_step

/-- A step that records nothing: rows change in their status at most, go, or
have new ids, and nothing comes into a hand. -/
theorem cools_outside (hissued : e.world.issued ⊆ e'.world.issued) (hrows : StatusStep e e')
    (hhand : ∀ id clock, e'.InHand id clock → e.InHand id clock) :
    Cooldown.Step e.queue e'.queue [] where
  issued := hissued
  deadline id d hd := by
    obtain ⟨r', hr', rfl, rfl⟩ := queue_deadline.mp hd
    rcases hrows r' hr' with ⟨r, hr, heq, -⟩ | ⟨hnew, -⟩
    · exact .inl (queue_deadline.mpr ⟨r, hr, by rw [heq], by rw [heq]⟩)
    · exact .inr (.inl hnew)
  live id hlive := by
    rcases hlive with ⟨r', hr', rfl, hstatus⟩ | ⟨clock, hheld⟩
    · rcases hrows r' hr' with ⟨r, hr, heq, hfailed⟩ | ⟨hnew, -⟩
      · exact .inl (.inl ⟨r, hr, by rw [heq], fun h => hstatus (hfailed h)⟩)
      · exact .inr hnew
    · exact .inl (.inr ⟨clock, hhand id clock hheld⟩)
  hand id k hk := .inl (hhand id k hk)
  events := .inl rfl

/-- A step of a cycle. -/
theorem cools_inCycle (hI : Inv e) {t : Nat} {ev : CycleEvent}
    (h : e.step accepts (.cycle t ev) = some e') :
    Cooldown.Step e.queue e'.queue (e.cooldownEvents accepts (.step (.cycle t ev))) := by
  obtain ⟨c, w, c', hc, hstep, rfl⟩ := step_cycle h
  have hN := hI.nodup_ids hc
  obtain ⟨hstartedAt, hrows, hhand, hevents⟩ := Cycle.cooldown_step hN hstep
  have hshown : e.cooldownEvents accepts (.step (.cycle t ev)) = c.cooldownEvents accepts ev := by
    simp only [cooldownEvents, hc]
  rw [hshown]
  have hissued : w.issued = e.world.issued := (Cycle.step_spec hstep).issued
  have heldBy {id : String} (hid : c.InHand id) : e.InHand id c.startedAt := ⟨t, c, hc, hid, rfl⟩
  -- nobody else is in a cycle
  have hself {u : Nat} {d : Cycle}
      (hd : (({ e.setState t (.cycle c') with world := w } : Engine).calls u).state = .cycle d) :
      d = c' := by
    by_cases hu : u = t
    · subst hu
      simp only [setState, setCall, Function.update_self] at hd
      cases hd
      rfl
    · simp only [setState, setCall, Function.update_of_ne hu] at hd
      exact absurd (hI.eq_of_cycle hd hc) hu
  have hheld {id : String} {k : Int}
      (hk : ({ e.setState t (.cycle c') with world := w } : Engine).InHand id k) :
      k = c.startedAt ∧ (c.InHand id ∨
        ∃ r ∈ e.world.table.rows, r.id = id ∧ r.status = .PENDING ∧
          r.nextRetryAt ≤ c.startedAt) := by
    obtain ⟨u, d, hd, hid, rfl⟩ := hk
    obtain rfl := hself hd
    exact ⟨hstartedAt, hhand id hid⟩
  refine ⟨fun id hid => (congrArg (id ∈ ·) hissued).mpr hid, fun id d hd => ?_,
    fun id hlive => .inl ?_, fun id k hk => ?_, ?_⟩
  · obtain ⟨r', hr', rfl, rfl⟩ := queue_deadline.mp hd
    obtain ⟨r, hr, hid, hretry, -⟩ := hrows r' hr'
    rcases hretry with hretry | ⟨d', hd'⟩
    · exact .inl (queue_deadline.mpr ⟨r, hr, hid, hretry⟩)
    · exact .inr (.inr ⟨d', hd'⟩)
  · rcases hlive with ⟨r', hr', rfl, hstatus⟩ | ⟨k, hk⟩
    · obtain ⟨r, hr, hid, -, hfailed⟩ := hrows r' hr'
      by_cases hwas : r.status = .FAILED
      · rcases hfailed hwas with hstill | hin
        · exact absurd hstill hstatus
        · exact .inr ⟨_, heldBy hin⟩
      · exact .inl ⟨r, hr, hid, hwas⟩
    · rcases (hheld hk).2 with hold | ⟨r, hr, hid, hstatus, -⟩
      · exact .inr ⟨_, heldBy hold⟩
      · exact .inl ⟨r, hr, hid, by simp [hstatus]⟩
  · obtain ⟨rfl, hold | ⟨r, hr, hid, hstatus, hle⟩⟩ := hheld hk
    · exact .inl (heldBy hold)
    · exact .inr ⟨.inl ⟨r, hr, hid, by simp [hstatus]⟩, r.nextRetryAt,
        queue_deadline.mpr ⟨r, hr, hid, rfl⟩, hle⟩
  · rcases hevents with hnone | ⟨id, hid, hstarted | ⟨d, hd, hgone, hset, hfinal⟩⟩
    · exact .inl hnone
    · exact .inr (.inl ⟨id, c.startedAt, hstarted, heldBy hid⟩)
    · have hleft (k : Int) :
          ¬ ({ e.setState t (.cycle c') with world := w } : Engine).InHand id k := by
        rintro ⟨u, d, hd, hin, -⟩
        obtain rfl := hself hd
        exact hgone hin
      refine .inr (.inr ⟨id, d, hd, ?_, hleft, fun e he e' he' => ?_, fun hnone hlive => ?_⟩)
      · obtain ⟨x, hx, -, rfl⟩ := hid
        exact hI.ids_issued t _ (by
          simpa [Call.ids, Call.dispatches, hc] using ⟨x, hx, rfl⟩)
      · obtain ⟨r', hr', hid', rfl⟩ := queue_deadline.mp he'
        exact (hset e he r' hr' hid').symm
      · rcases hlive with ⟨r', hr', hid', hstatus⟩ | ⟨k, hk⟩
        · exact hstatus (hfinal hnone r' hr' hid')
        · exact hleft k hk

theorem cools (hI : Inv e) (h : e.live accepts l = some e') :
    Cooldown.Step e.queue e'.queue (e.cooldownEvents accepts l) := by
  cases l with
  | relaunch options credentials paused =>
    obtain ⟨hworld, hcalls⟩ := live_relaunch h
    refine cools_outside (outside_relaunch h).issued (fun r' hr' => .inl ?_) ?_
    · rw [hworld] at hr'
      exact ⟨r', hr', rfl, id⟩
    · rintro id clock ⟨t, c, hc, -⟩
      rw [hcalls t] at hc
      cases hc
  | step l =>
    by_cases hl : ∃ t ev, l = .cycle t ev
    · obtain ⟨t, ev, rfl⟩ := hl
      exact cools_inCycle hI h
    · have hl' : ∀ t ev, l ≠ .cycle t ev := fun t ev heq => hl ⟨t, ev, heq⟩
      obtain ⟨hstatus, -, hcycles⟩ := step_outside hl' h
      have hnone : e.cooldownEvents accepts (.step l) = [] := by
        cases l with
        | cycle t ev => exact absurd rfl (hl' t ev)
        | _ => rfl
      rw [hnone]
      refine cools_outside (outbox_step h).issued_mono hstatus ?_
      rintro id clock ⟨t, c, hc, ⟨d, hd, hrest⟩, hclock⟩
      rcases hcycles t c hc with hc | hnil
      · exact ⟨t, c, hc, ⟨d, hd, hrest⟩, hclock⟩
      · rw [hnil] at hd
        cases hd

theorem lives (accepts : HttpRequest → Bool) :
    Cooldown.Refines (live accepts) (cooldownEvents accepts) Inv queue where
  inv hI h := hI.live h
  stored hI hd := by
    obtain ⟨r, hr, rfl, -⟩ := queue_deadline.mp hd
    exact hI.keys_issued _ (KeyedTable.mem_keys.mpr ⟨r, hr, rfl⟩)
  sim hI h := cools hI h

/-! ## 3. The cooldown holds -/

/-- The items whose requests were started, in order. -/
def sent (e : Engine) : List String := e.world.requests.map (·.1)

/-- An outcome is recorded at a clock reading not before that of the claim, with
a delay that fits what is left of the clock. -/
def Ordered (e : Engine) : Life → Prop
  | .step (.cycle t (.dispatch i (.settle now sample))) =>
    ∀ c d startedAt result, (e.calls t).state = .cycle c → c.dispatches[i]? = some d →
      d.state = .attempted startedAt result →
      c.startedAt ≤ now ∧ 0 ≤ now ∧
        0 ≤ retryDelayMs c.options c.credentials d.entity sample result ∧
        now + retryDelayMs c.options c.credentials d.entity sample result < 2 ^ 53
  | _ => True

theorem sent_step (h : e.live accepts l = some e') :
    e'.sent = e.sent ++ Cooldown.attempts (e.cooldownEvents accepts l) := by
  cases l with
  | relaunch options credentials paused =>
    rw [sent, (outside_relaunch h).requests]
    exact (List.append_nil _).symm
  | step l =>
    by_cases hl : ∃ t ev, l = .cycle t ev
    · obtain ⟨t, ev, rfl⟩ := hl
      obtain ⟨c, w, c', hc, hstep, rfl⟩ := step_cycle h
      simp only [cooldownEvents, hc]
      exact Cycle.requests_shown hstep
    · have hl' : ∀ t ev, l ≠ .cycle t ev := fun t ev heq => hl ⟨t, ev, heq⟩
      have hnone : e.cooldownEvents accepts (.step l) = [] := by
        cases l with
        | cycle t ev => exact absurd rfl (hl' t ev)
        | _ => rfl
      rw [hnone, sent, (step_outside hl' h).2.1]
      exact (List.append_nil _).symm

theorem forward (hordered : e.Ordered l) :
    Cooldown.Forward e.queue (e.cooldownEvents accepts l) := by
  intro id k hk
  cases l with
  | relaunch options credentials paused => cases hk
  | step l =>
    cases l with
    | cycle t ev =>
      simp only [cooldownEvents] at hk
      split at hk
      · rename_i c hc
        cases ev with
        | dispatch i dev =>
          simp only [Cycle.cooldownEvents] at hk
          split at hk
          · rename_i d hd
            unfold Dispatch.cooldownEvents at hk
            split at hk
            · simp at hk
            · split at hk <;> simp at hk
            · -- the outcome of the copy at hand
              rename_i now sample startedAt result hstate
              simp only [List.mem_singleton, Event.recorded.injEq] at hk
              obtain ⟨rfl, hk⟩ := hk
              obtain ⟨hle, hnow, hdelay, hfits⟩ :=
                hordered c d startedAt result hc hd hstate
              have hsum := settle_nextRetryAt hk.symm
              refine ⟨c.startedAt, ⟨t, c, hc, ⟨d, List.mem_of_getElem? hd, ?_, rfl⟩, rfl⟩, ?_⟩
              · simp [Dispatch.unwritten, hstate]
              · rw [hsum, wrap64, Int.bmod_eq_of_le] <;> omega
            · cases hk
          · cases hk
        | _ => cases hk
      · cases hk
    | _ => cases hk

theorem guards (accepts : HttpRequest → Bool) :
    Cooldown.Guards (live accepts) (cooldownEvents accepts) queue sent Ordered Boot :=
  (lives accepts).guards (fun h => h.inv) sent_step forward

end Engine

end SyncProvider.Android
