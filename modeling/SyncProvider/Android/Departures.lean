import SyncProvider.Android.Payload
import SyncProvider.Lib.Safekeeping

/-!
# Android: what leaves the queue

A row is deleted by `removeItem`, by `clear`, and by a dispatch whose request was answered
with a success. A dispatch that fails between that answer and the deletion keeps the row, and
so do a cancelled cycle and the reset behind it.

Results:
1. `Dispatch.step_kept` : when a dispatch lets a row go.
2. `Cycle.step_dispatches` : what becomes of the rows in hand.
3. `no_item_is_lost` : what becomes of an item in a run.
-/

namespace SyncProvider.Android

open StepSystem (exec recorded)

/-! ## 1. What a dispatch lets go -/

namespace Dispatch

/-- The item was delivered, and its row is still to go. -/
def confirmed (d : Dispatch) : Prop := ∃ startedAt statusCode,
  d.state = .attempted startedAt (.success statusCode)

/-- The step answers the request of the item with a success. -/
def delivers (d : Dispatch) : DispatchEvent → Bool
  | .respond (.response code) => d.onWire && decide (200 ≤ code ∧ code ≤ 299)
  | _ => false

variable {accepts : HttpRequest → Bool} {live options : SyncOptions}
  {credentials : CredentialPolicy} {w w' : World} {d d' : Dispatch} {ev : DispatchEvent}

theorem success_of_classify {policy : RetryPolicy} {timeoutMs : Int} {r : CallResult}
    {statusCode : Int} (h : classify policy timeoutMs r = .success statusCode) :
    ∃ code, r = .response code ∧ 200 ≤ code ∧ code ≤ 299 := by
  cases r with
  | response code =>
    refine ⟨code, rfl, ?_⟩
    simp only [classify, classifyStatus] at h
    split at h
    · assumption
    · repeat' split at h
      all_goals cases h
  | socketTimeout | ioException | otherException | timedOut | thrown => cases h

/-- The write of a failure keeps the rows. -/
theorem keys_write_settle {now startedAt : Int} {sample : ℚ} {entity : SyncItemEntity}
    {f : AttemptFailure} :
    (w.write (Android.settle options credentials entity startedAt now sample (.failure f)).write
      ).table.keys = w.table.keys := by
  simp only [Android.settle]
  repeat' split
  all_goals exact SyncItemDao.keys_updateStatus ..

/-- A dispatch deletes the row of an item it has delivered, and no other. -/
theorem step_kept (h : d.step accepts live options credentials w ev = some (w', d')) {id : String}
    (hid : id ∈ w.table.keys) :
    id ∈ w'.table.keys ∨ d.confirmed ∧ d.entity.id = id := by
  cases step_moves h with
  | refuse =>
    left
    exact (SyncItemDao.keys_updateStatus ..).symm ▸ hid
  | @settle entity startedAt now sample result =>
    cases result with
    | success statusCode =>
      by_cases heq : entity.id = id
      · exact .inr ⟨⟨startedAt, statusCode, rfl⟩, heq⟩
      · exact .inl (SyncItemDao.mem_deleteById.mpr ⟨hid, fun h => heq h.symm⟩)
    | failure f =>
      left
      rwa [keys_write_settle]
  | start | unbuilt | send | respond | emit | crash => exact .inl hid

theorem step_confirmed (h : d.step accepts live options credentials w ev = some (w', d'))
    (hd : d'.confirmed) : d.confirmed ∨ d.delivers ev = true := by
  obtain ⟨startedAt, statusCode, hstate⟩ := hd
  cases step_moves h with
  | respond =>
    simp only [DispatchState.attempted.injEq] at hstate
    obtain ⟨code, rfl, hrange⟩ := success_of_classify hstate.2
    right
    simpa [delivers, onWire] using hrange
  | start | refuse | unbuilt | send | settle | emit | crash => cases hstate

theorem step_awaits (h : d.step accepts live options credentials w ev = some (w', d'))
    (hd : d'.onWire = true) : d.entity.id ∈ w'.requests.map (·.1) := by
  cases step_moves h with
  | send => simp
  | start | refuse | unbuilt | respond | settle | emit | crash => cases hd

end Dispatch

/-! ## 2. What a cycle lets go -/

namespace Cycle

def awaits (c : Cycle) (id : String) : Prop :=
  ∃ d ∈ c.dispatches, d.onWire = true ∧ d.entity.id = id

def confirmed (c : Cycle) (id : String) : Prop :=
  ∃ d ∈ c.dispatches, d.confirmed ∧ d.entity.id = id

/-- The item whose request the step answers with a success. -/
def delivers (c : Cycle) : CycleEvent → List String
  | .dispatch i ev =>
    match c.dispatches[i]? with
    | some d => if d.delivers ev then [d.entity.id] else []
    | none => []
  | _ => []

variable {accepts : HttpRequest → Bool} {live : SyncOptions} {cancelled : Bool} {w w' : World}
  {c c' : Cycle} {ev : CycleEvent}

theorem awaits_of_delivers {id : String} (h : id ∈ c.delivers ev) : c.awaits id := by
  unfold delivers at h
  split at h
  · rename_i i ev
    split at h
    · rename_i d hd
      split at h
      · rename_i hdelivers
        obtain rfl := List.mem_singleton.mp h
        refine ⟨d, List.mem_of_getElem? hd, ?_, rfl⟩
        unfold Dispatch.delivers at hdelivers
        split at hdelivers
        · exact (Bool.and_eq_true_iff.mp hdelivers).1
        · cases hdelivers
      · cases h
    · cases h
  · cases h

/-- What is in hand after a step was in hand before, or is a row just claimed, or is the dispatch
that has moved. -/
theorem step_dispatches (h : c.step accepts live cancelled w ev = some (w', c')) {x : Dispatch}
    (hx : x ∈ c'.dispatches) :
    x ∈ c.dispatches ∨
      (x.state = .queued ∧ x.entity ∈ w.table.rows ∧ x.entity.status = .PENDING) ∨
      ∃ i dev d, ev = .dispatch i dev ∧ c.dispatches[i]? = some d ∧
        d.step accepts live c.options c.credentials w dev = some (w', x) := by
  obtain ⟨phase, rfl, hmoves⟩ := step_moves h
  cases hmoves with
  | claim hphase =>
    obtain ⟨r, hr, rfl⟩ := List.mem_map.mp hx
    obtain ⟨hrow, hpending, -⟩ := SyncItemDao.selectClaimable_subset hr
    exact .inr (.inl ⟨rfl, hrow, hpending⟩)
  | @dispatch probing ds i dev d d' w' hphase hstart hi hstep =>
    have hx : x ∈ ds.set i d' := hx
    rw [dispatches_of_phase hphase]
    rcases List.mem_or_eq_of_mem_set hx with hx | rfl
    · exact .inl hx
    · exact .inr (.inr ⟨i, dev, d, rfl, hi, hstep⟩)
  | resumeClaimed hphase | probePassed hphase =>
    left
    simp only [dispatches, hphase]
    exact hx
  | throw hcancelled hthrown | raise hstorage hthrown =>
    rw [dispatches_thrown hthrown] at hx
    cases hx
  | emitStarted | resumeEmpty | probeRejected | release | join | record | resumeRecorded
  | emitTerminal | resumeReported | abort | abortReported | emitFailed | finish => cases hx

theorem step_kept (h : c.step accepts live cancelled w ev = some (w', c')) {id : String}
    (hid : id ∈ w.table.keys) : id ∈ w'.table.keys ∨ c.confirmed id := by
  obtain ⟨phase, rfl, hmoves⟩ := step_moves h
  cases hmoves with
  | claim hphase =>
    left
    rwa [SyncItemDao.keys_claimPending]
  | @dispatch probing ds i dev d d' w' hphase hstart hi hstep =>
    refine (Dispatch.step_kept hstep hid).imp_right ?_
    rintro ⟨hconfirmed, hentity⟩
    refine ⟨d, ?_, hconfirmed, hentity⟩
    rw [dispatches_of_phase hphase]
    exact List.mem_of_getElem? hi
  | release hphase => exact .inl ((SyncItemDao.keys_resetInFlight w.table).symm ▸ hid)
  | abort hphase | abortReported hphase =>
    left
    split
    · exact (SyncItemDao.keys_resetInFlight w.table).symm ▸ hid
    · exact hid
  | emitStarted | resumeEmpty | resumeClaimed | probeRejected | probePassed | join | record
  | resumeRecorded | emitTerminal | resumeReported | throw | raise | emitFailed | finish =>
    exact .inl hid

theorem step_confirmed (h : c.step accepts live cancelled w ev = some (w', c')) {id : String}
    (hid : c'.confirmed id) : c.confirmed id ∨ id ∈ c.delivers ev := by
  obtain ⟨x, hx, hconfirmed, rfl⟩ := hid
  rcases step_dispatches h hx with hx | ⟨hqueued, -⟩ | ⟨i, dev, d, rfl, hi, hstep⟩
  · exact .inl ⟨x, hx, hconfirmed, rfl⟩
  · obtain ⟨startedAt, statusCode, hstate⟩ := hconfirmed
    rw [hqueued] at hstate
    cases hstate
  · have hentity : x.entity = d.entity := (Dispatch.step_spec hstep).entity
    refine (Dispatch.step_confirmed hstep hconfirmed).imp (fun hd => ?_) fun hdelivers => ?_
    · exact ⟨d, List.mem_of_getElem? hi, hd, hentity ▸ rfl⟩
    · simp only [delivers, hi, hdelivers, if_true, hentity, List.mem_singleton]

/-- A request that is out is in the log. -/
theorem step_awaits (h : c.step accepts live cancelled w ev = some (w', c')) {id : String}
    (hid : c'.awaits id) : c.awaits id ∨ id ∈ w'.requests.map (·.1) := by
  obtain ⟨x, hx, hwire, rfl⟩ := hid
  rcases step_dispatches h hx with hx | ⟨hqueued, -⟩ | ⟨i, dev, d, rfl, hi, hstep⟩
  · exact .inl ⟨x, hx, hwire, rfl⟩
  · simp only [Dispatch.onWire, hqueued, Bool.false_eq_true] at hwire
  · right
    rw [(Dispatch.step_spec hstep).entity]
    exact Dispatch.step_awaits hstep hwire

end Cycle

/-! ## 3. What a run lets go -/

namespace Engine

variable {accepts : HttpRequest → Bool} {e e' : Engine} {l : Label}

def awaits (e : Engine) (id : String) : Prop :=
  ∃ t c, (e.calls t).state = .cycle c ∧ c.awaits id

def confirmed (e : Engine) (id : String) : Prop :=
  ∃ t c, (e.calls t).state = .cycle c ∧ c.confirmed id

def delivers (e : Engine) : Label → List String
  | .cycle t ev =>
    match (e.calls t).state with
    | .cycle c => c.delivers ev
    | _ => []
  | _ => []

/-- The rows that `removeItem` and `clear` take out. -/
def removes (e : Engine) : Label → List String
  | .remove (.removeItem id) => e.world.table.keys.filter (· == id)
  | .remove .clear => e.world.table.keys
  | _ => []

theorem awaits_of_delivers {id : String} (h : id ∈ e.delivers l) : e.awaits id := by
  unfold delivers at h
  split at h
  · split at h
    · rename_i c hc
      exact ⟨_, c, hc, Cycle.awaits_of_delivers h⟩
    · cases h
  · cases h

theorem step_confirmed (h : e.step accepts l = some e') {id : String} (hid : e'.confirmed id) :
    e.confirmed id ∨ id ∈ e.delivers l := by
  obtain ⟨t, c, hc, hid⟩ := hid
  rcases step_newCycle h hc with hc | ⟨now, -, -, hphase, -⟩ | ⟨ev, d, rfl, hd, hstep⟩
  · exact .inl ⟨t, c, hc, hid⟩
  · obtain ⟨x, hx, -⟩ := hid
    simp only [Cycle.dispatches, hphase] at hx
    cases hx
  · simp only [delivers, hd]
    exact (Cycle.step_confirmed hstep hid).imp_left fun hid => ⟨t, d, hd, hid⟩

theorem step_awaits (h : e.step accepts l = some e') {id : String} (hid : e'.awaits id) :
    e.awaits id ∨ id ∈ e'.world.requests.map (·.1) := by
  obtain ⟨t, c, hc, hid⟩ := hid
  rcases step_newCycle h hc with hc | ⟨now, -, -, hphase, -⟩ | ⟨ev, d, rfl, hd, hstep⟩
  · exact .inl ⟨t, c, hc, hid⟩
  · obtain ⟨x, hx, -⟩ := hid
    simp only [Cycle.dispatches, hphase] at hx
    cases hx
  · exact (Cycle.step_awaits hstep hid).imp_left fun hid => ⟨t, d, hd, hid⟩

/-- A row stays, unless it was delivered or the step takes it out. -/
theorem step_keeps (h : e.step accepts l = some e') {id : String}
    (hid : id ∈ e.world.table.keys) :
    id ∈ e'.world.table.keys ∨ e.confirmed id ∨ id ∈ e.removes l := by
  cases l with
  | enqueue items =>
    obtain ⟨table, -, hrows, rfl⟩ := Engine.step_enqueue h
    obtain ⟨r, hr, rfl⟩ := KeyedTable.mem_keys.mp hid
    refine .inl (KeyedTable.key_mem_keys (?_ : r ∈ table.rows))
    rw [hrows]
    exact List.mem_append_left _ hr
  | remove call =>
    cases h
    cases call with
    | removeItem x =>
      by_cases heq : id = x
      · right; right
        simpa [removes, heq] using heq ▸ hid
      · exact .inl (SyncItemDao.mem_deleteById.mpr ⟨hid, heq⟩)
    | clear => exact .inr (.inr hid)
  | configure options credentials | setPaused paused | cancel t =>
    cases h
    exact .inl hid
  | giveUp t =>
    simp only [step, Option.ite_none_right_eq_some] at h
    obtain ⟨-, h⟩ := h
    split at h <;> cases h
    all_goals exact .inl hid
  | call t op | lock t | checkPaused t | readCredentials t | begin t now =>
    simp only [step] at h
    split at h <;> cases h
    exact .inl hid
  | reset t =>
    simp only [step] at h
    split at h <;> cases h
    exact .inl ((SyncItemDao.keys_resetInFlight e.world.table).symm ▸ hid)
  | cycle t ev =>
    obtain ⟨c, w, c', hc, hstep, rfl⟩ := step_cycle h
    exact (Cycle.step_kept hstep hid).imp_right fun hconfirmed => .inl ⟨t, c, hc, hconfirmed⟩
  | unlock t =>
    simp only [step] at h
    split at h
    · cases h
      exact .inl hid
    · split at h <;> cases h
      exact .inl hid
    · cases h

/-- A new id has its row. -/
theorem step_enters (hN : e.world.issued.Nodup) (h : e.step accepts l = some e') {id : String}
    (hid : id ∈ e'.world.issued) : id ∈ e'.world.table.keys ∨ id ∈ e.world.issued := by
  obtain ⟨hissued, -⟩ := step_issued h hN
  rw [hissued, List.mem_append] at hid
  refine hid.symm.imp_left fun hnew => ?_
  cases l with
  | enqueue items =>
    obtain ⟨table, -, hrows, rfl⟩ := Engine.step_enqueue h
    obtain ⟨r, hr, rfl⟩ := List.mem_map.mp hnew
    refine KeyedTable.key_mem_keys (?_ : r ∈ table.rows)
    rw [hrows]
    exact List.mem_append_right _ hr
  | _ => cases hnew

/-- The queue as a store that lets go of what is delivered or taken out. -/
def safekeeping (accepts : HttpRequest → Bool) : Safekeeping (step accepts) String where
  issued e := e.world.issued
  kept e := e.world.table.keys
  sent e := e.world.requests.map (·.1)
  outstanding := awaits
  confirmed := confirmed
  delivers := delivers
  removes := removes
  Sound e := e.world.issued.Nodup
  sound hN h := (step_issued h hN).2
  keeps hN h _ hid := by
    rcases step_enters hN h hid with hkept | hissued
    · exact .inl hkept
    · exact (em _).elim (fun hkept => (step_keeps h hkept).imp_right .inr)
        fun hgone => .inr (.inl ⟨hissued, hgone⟩)
  confirms h _ hid := step_confirmed h hid
  sends h _ hid := step_awaits h hid
  sent_mono h := by
    rcases step_requests h with hsame | ⟨t, c, d, request, -, -, -, hmore⟩
    · rw [hsame]
      exact List.Subset.refl _
    · rw [hmore, List.map_append]
      exact List.subset_append_left _ _
  delivers_outstanding _ hid := awaits_of_delivers hid

theorem Boot.starts (h : Boot e) : (safekeeping accepts).Starts e where
  sound := by
    have hnodup : e.world.issued.Nodup := h.issued ▸ e.world.table.nodup
    exact hnodup
  kept id hid := by
    have hid : id ∈ e.world.issued := hid
    rwa [h.issued] at hid
  confirmed id := by
    rintro ⟨t, c, hc, -⟩
    rw [h.calls] at hc
    cases hc
  outstanding id := by
    rintro ⟨t, c, hc, -⟩
    rw [h.calls] at hc
    cases hc

/-- In every run from the start of a process, whatever the interleaving of cycles, cancellations
and resets: an item that was handed in is in the table as it was handed in, or a request of the
run for it was answered with a success, or `removeItem` or `clear` took it out. -/
theorem no_item_is_lost {e₀ : Engine} {ls : List Label} {gone : List (Departure String)}
    (h0 : Boot e₀)
    (hrun : exec (recorded (Engine.step accepts) (safekeeping accepts).departures) (e₀, []) ls =
      some (e, gone)) :
    (∀ x ∈ e₀.entered ls, (∃ r ∈ e.world.table.rows, r.asEnqueued = x) ∨
      .delivered x.id ∈ gone ∨ .removed x.id ∈ gone) ∧
      ∀ id, .delivered id ∈ gone → id ∈ e.world.requests.map (·.1) := by
  have hF : Faithful accepts e₀ ls e :=
    StepSystem.exec_past_invariant (P := fun past e => Faithful accepts e₀ past e) h0.faithful
      Faithful.step (StepSystem.exec_of_recorded hrun)
  refine ⟨fun x hx => ?_, fun id hid => Safekeeping.delivered_sent h0.starts hrun hid⟩
  have hissued : x.id ∈ e.world.issued := by
    rw [← hF.ids]
    exact List.mem_map_of_mem hx
  refine (Safekeeping.accounted h0.starts hrun x.id hissued).imp_left fun hkept => ?_
  obtain ⟨r, hr, hid⟩ := KeyedTable.mem_keys.mp hkept
  have hdistinct : ((e₀.entered ls).map (·.id)).Nodup := hF.ids ▸ hF.nodup
  exact ⟨r, hr, List.inj_on_of_nodup_map hdistinct (hF.rows r hr) hx hid⟩

section Sample

/-- One item is delivered, and the cycle is cancelled behind it, with another item claimed. -/
def cancelledRun : List Label :=
  claimRun [SyncQueueStorage.sampleItem "A", SyncQueueStorage.sampleItem "B"] ++
    dispatchRun 0 200 ++
    [.cycle 0 (.dispatch 0 .emit), .cancel 0, .cycle 0 .throw, .cycle 0 .abort]

theorem no_item_is_lost_when_cancelled :
    ∃ e gone, exec (recorded (Engine.step fun _ => true) (safekeeping fun _ => true).departures)
        (coldStart .TRUSTED, []) cancelledRun = some (e, gone) ∧
      gone = [.delivered "A"] ∧ e.world.table.keys = ["B"] ∧
      (∀ x ∈ (coldStart .TRUSTED).entered cancelledRun,
        (∃ r ∈ e.world.table.rows, r.asEnqueued = x) ∨
          .delivered x.id ∈ gone ∨ .removed x.id ∈ gone) ∧
      ∀ id, .delivered id ∈ gone → id ∈ e.world.requests.map (·.1) := by
  have hrun : exec (recorded (Engine.step fun _ => true)
      (safekeeping fun _ => true).departures) (coldStart .TRUSTED, []) cancelledRun =
        some (_, [.delivered "A"]) := rfl
  exact ⟨_, _, hrun, rfl, rfl, no_item_is_lost (coldStart_boot .TRUSTED) hrun⟩

end Sample

end Engine

end SyncProvider.Android
