import SyncProvider.Android.Attempts
import SyncProvider.Lib.Past

/-!
# Android: what a request carries

A row is written once, by `enqueue`. Claims, resets and settlements touch its status, its
attempts and its times, and a request is built from the copy that was claimed, with the
options its cycle was started with. So what goes out for an item is what was handed in for
it, under options that were in force at some moment of the run.

Results:
1. `Engine.step_content` : where the content of a row comes from.
2. `Engine.step_newCycle` : how a cycle comes into being.
3. `sends_what_was_enqueued` : what the requests of a run carry.
-/

namespace SyncProvider.Android

open StepSystem (exec exec_past_invariant Visits visits_last)
open SyncQueueStorage (NewItem)

/-! ## What is handed in -/

/-- The row as `enqueue` has written it. -/
def SyncItemEntity.asEnqueued (entity : SyncItemEntity) : SyncItemEntity :=
  { entity with
    attempts := 0
    lastAttemptAt := none
    lastErrorCode := none
    status := .PENDING
    nextRetryAt := 0 }

/-- The rows a call adds. -/
def Label.rows : Label → List SyncItemEntity
  | .enqueue items => items.map NewItem.entity
  | _ => []

/-- What the table had when the process of `e` started, and what the calls of `ls` have handed
in. -/
def Engine.entered (e : Engine) (ls : List Label) : List SyncItemEntity :=
  e.world.table.rows.map SyncItemEntity.asEnqueued ++ ls.flatMap Label.rows

/-! ## 1. The content of a row -/

/-- The row has the content of a row of the table. -/
def ContentOf (r : SyncItemEntity) (t : SyncItems) : Prop :=
  ∃ r₀ ∈ t.rows, r₀.asEnqueued = r.asEnqueued

theorem ContentOf.of_mem {r : SyncItemEntity} {t : SyncItems} (h : r ∈ t.rows) : ContentOf r t :=
  ⟨r, h, rfl⟩

theorem SyncItemDao.StatusOf.content {r : SyncItemEntity} {t : SyncItems}
    (h : SyncItemDao.StatusOf r t) : ContentOf r t := by
  obtain ⟨r₀, hr₀, heq⟩ := h
  exact ⟨r₀, hr₀, by rw [heq]; rfl⟩

/-- A settlement leaves the content of the rows alone. -/
theorem StoreWrite.content_run {s : StoreWrite} {t : SyncItems} {r : SyncItemEntity}
    (hr : r ∈ (s.run t).rows) : ContentOf r t := by
  cases s with
  | markSucceeded id => exact .of_mem (KeyedTable.mem_deleteWhere.mp hr).1
  | markRetry | markFailed =>
    obtain ⟨r₀, hr₀, rfl⟩ := SyncItemDao.mem_updateStatus.mp hr
    refine ⟨r₀, hr₀, ?_⟩
    split <;> rfl

section Cycle

variable {accepts : HttpRequest → Bool} {live : SyncOptions} {cancelled : Bool} {w w' : World}
  {c c' : Cycle} {ev : CycleEvent} {d d' : Dispatch} {dev : DispatchEvent}

theorem Dispatch.step_content
    (h : d.step accepts live c.options c.credentials w dev = some (w', d')) {r : SyncItemEntity}
    (hr : r ∈ w'.table.rows) : ContentOf r w.table := by
  cases step_moves h with
  | refuse | settle => exact StoreWrite.content_run hr
  | start | unbuilt | send | respond | emit | crash => exact .of_mem hr

/-- A cycle adds no row and changes the content of none. -/
theorem Cycle.step_content (h : c.step accepts live cancelled w ev = some (w', c'))
    {r : SyncItemEntity} (hr : r ∈ w'.table.rows) : ContentOf r w.table := by
  obtain ⟨phase, rfl, hmoves⟩ := step_moves h
  cases hmoves with
  | claim hphase => exact (SyncItemDao.statusOf_claimPending hr).content
  | dispatch hphase hstart hi hstep => exact Dispatch.step_content hstep hr
  | release hphase => exact (SyncItemDao.statusOf_resetInFlight hr).content
  | abort hphase | abortReported hphase =>
    split at hr
    · exact (SyncItemDao.statusOf_resetInFlight hr).content
    · exact .of_mem hr
  | emitStarted | resumeEmpty | resumeClaimed | probeRejected | probePassed | join | record
  | resumeRecorded | emitTerminal | resumeReported | throw | raise | emitFailed | finish =>
    exact .of_mem hr

/-- The copies in hand were in hand before, or are claimed from the table. -/
theorem Cycle.step_entity (h : c.step accepts live cancelled w ev = some (w', c')) {x : Dispatch}
    (hx : x ∈ c'.dispatches) :
    (∃ d ∈ c.dispatches, d.entity = x.entity) ∨ x.entity ∈ w.table.rows := by
  obtain ⟨phase, rfl, hmoves⟩ := step_moves h
  cases hmoves with
  | claim hphase =>
    obtain ⟨r, hr, rfl⟩ := List.mem_map.mp hx
    exact .inr (SyncItemDao.selectClaimable_subset hr).1
  | @dispatch probing ds i dev d d' w' hphase hstart hi hstep =>
    have hx : x ∈ ds.set i d' := hx
    left
    rw [dispatches_of_phase hphase]
    rcases List.mem_or_eq_of_mem_set hx with hx | rfl
    · exact ⟨x, hx, rfl⟩
    · exact ⟨d, List.mem_of_getElem? hi, (Dispatch.step_spec hstep).entity.symm⟩
  | resumeClaimed hphase | probePassed hphase =>
    refine .inl ⟨x, ?_, rfl⟩
    simp only [dispatches, hphase]
    exact hx
  | throw hcancelled hthrown | raise hstorage hthrown =>
    rw [dispatches_thrown hthrown] at hx
    cases hx
  | emitStarted | resumeEmpty | probeRejected | release | join | record | resumeRecorded
  | emitTerminal | resumeReported | abort | abortReported | emitFailed | finish => cases hx

/-- A cycle keeps its arguments. -/
theorem Cycle.step_options (h : c.step accepts live cancelled w ev = some (w', c')) :
    c'.options = c.options ∧ c'.credentials = c.credentials := by
  obtain ⟨phase, rfl, -⟩ := step_moves h
  exact ⟨rfl, rfl⟩

/-- A request is built from a copy in hand, with the options of the cycle. -/
theorem Cycle.step_request (h : c.step accepts live cancelled w ev = some (w', c')) :
    w'.requests = w.requests ∨
      ∃ d ∈ c.dispatches, ∃ request,
        buildRequest accepts d.entity c.options.defaultHeaders = some request ∧
          w'.requests = w.requests ++ [(d.entity.id, request)] := by
  obtain ⟨phase, rfl, hmoves⟩ := step_moves h
  cases hmoves with
  | @dispatch probing ds i dev d d' w' hphase hstart hi hstep =>
    cases Dispatch.step_moves hstep with
    | @send entity startedAt request hbudget hbuild =>
      refine .inr ⟨⟨entity, .started startedAt⟩, ?_, request, hbuild, rfl⟩
      rw [dispatches_of_phase hphase]
      exact List.mem_of_getElem? hi
    | start | refuse | unbuilt | respond | settle | emit | crash => exact .inl rfl
  | abort | abortReported =>
    split
    · exact .inl rfl
    · exact .inl rfl
  | emitStarted | claim | resumeEmpty | resumeClaimed | probeRejected | probePassed | release
  | join | record | resumeRecorded | emitTerminal | resumeReported | throw | raise | emitFailed
  | finish => exact .inl rfl

end Cycle

namespace Engine

variable {accepts : HttpRequest → Bool} {e e' : Engine} {l : Label}

/-- A row has the content of an earlier row, or it is a new one. -/
theorem step_content (h : e.step accepts l = some e') {r : SyncItemEntity}
    (hr : r ∈ e'.world.table.rows) : ContentOf r e.world.table ∨ r.asEnqueued ∈ l.rows := by
  cases l with
  | enqueue items =>
    obtain ⟨table, -, hrows, rfl⟩ := Engine.step_enqueue h
    have hr : r ∈ table.rows := hr
    rw [hrows, List.mem_append] at hr
    refine hr.imp .of_mem fun hr => ?_
    obtain ⟨item, hitem, rfl⟩ := List.mem_map.mp hr
    exact List.mem_map_of_mem hitem
  | remove call =>
    cases h
    left
    cases call with
    | removeItem id => exact .of_mem (KeyedTable.mem_deleteWhere.mp hr).1
    | clear => cases hr
  | configure options credentials | setPaused paused | cancel t =>
    cases h
    exact .inl (.of_mem hr)
  | giveUp t =>
    simp only [step, Option.ite_none_right_eq_some] at h
    obtain ⟨-, h⟩ := h
    split at h <;> cases h
    all_goals exact .inl (.of_mem hr)
  | call t op | lock t | checkPaused t | readCredentials t | begin t now =>
    simp only [step] at h
    split at h <;> cases h
    exact .inl (.of_mem hr)
  | reset t =>
    simp only [step] at h
    split at h <;> cases h
    exact .inl (SyncItemDao.statusOf_resetInFlight hr).content
  | cycle t ev =>
    obtain ⟨c, w, c', -, hstep, rfl⟩ := step_cycle h
    exact .inl (Cycle.step_content hstep hr)
  | unlock t =>
    simp only [step] at h
    split at h
    · cases h
      exact .inl (.of_mem hr)
    · split at h <;> cases h
      exact .inl (.of_mem hr)
    · cases h

/-- Every item is issued once. -/
theorem step_issued (h : e.step accepts l = some e') (hN : e.world.issued.Nodup) :
    e'.world.issued = e.world.issued ++ l.rows.map (·.id) ∧ e'.world.issued.Nodup := by
  have hsame (hissued : e'.world.issued = e.world.issued) (hrows : l.rows = []) :
      e'.world.issued = e.world.issued ++ l.rows.map (·.id) ∧ e'.world.issued.Nodup := by
    rw [hissued, hrows, List.map_nil, List.append_nil]
    exact ⟨rfl, hN⟩
  cases l with
  | enqueue items =>
    simp only [step, Option.ite_none_right_eq_some, Option.map_eq_some_iff] at h
    obtain ⟨hnew, table, hins, rfl⟩ := h
    have hids : (items.map NewItem.entity).map (·.id) = items.map (·.id) := by
      rw [List.map_map]
      rfl
    have hkeys : (e.world.table.keys ++ items.map (·.id)).Nodup := by
      rw [← hids, ← KeyedTable.keys_insertAll hins]
      exact table.nodup
    refine ⟨congrArg (e.world.issued ++ ·) hids.symm, List.nodup_append.mpr ⟨hN, ?_, ?_⟩⟩
    · -- the table takes no id twice
      exact (List.nodup_append.mp hkeys).2.1
    · rintro id hid _ hnewid rfl
      obtain ⟨item, hitem, rfl⟩ := List.mem_map.mp hnewid
      have := List.all_eq_true.mp hnew item hitem
      simp [hid] at this
  | remove call | configure options credentials | setPaused paused | cancel t =>
    cases h
    exact hsame rfl rfl
  | giveUp t =>
    simp only [step, Option.ite_none_right_eq_some] at h
    obtain ⟨-, h⟩ := h
    split at h <;> cases h
    all_goals exact hsame rfl rfl
  | call t op | lock t | checkPaused t | readCredentials t | begin t now | reset t =>
    simp only [step] at h
    split at h <;> cases h
    exact hsame rfl rfl
  | cycle t ev =>
    obtain ⟨c, w, c', -, hstep, rfl⟩ := step_cycle h
    exact hsame (Cycle.step_spec hstep).issued rfl
  | unlock t =>
    simp only [step] at h
    split at h
    · cases h
      exact hsame rfl rfl
    · split at h <;> cases h
      exact hsame rfl rfl
    · cases h

/-- A request is built from a copy in hand, with the options of its cycle. -/
theorem step_requests (h : e.step accepts l = some e') :
    e'.world.requests = e.world.requests ∨
      ∃ t c d request, (e.calls t).state = .cycle c ∧ d ∈ c.dispatches ∧
        buildRequest accepts d.entity c.options.defaultHeaders = some request ∧
        e'.world.requests = e.world.requests ++ [(d.entity.id, request)] := by
  by_cases hl : ∃ t ev, l = .cycle t ev
  · obtain ⟨t, ev, rfl⟩ := hl
    obtain ⟨c, w, c', hc, hstep, rfl⟩ := step_cycle h
    refine (Cycle.step_request hstep).imp_right ?_
    rintro ⟨d, hd, request, hbuild, hrequests⟩
    exact ⟨t, c, d, request, hc, hd, hbuild, hrequests⟩
  · exact .inl (step_outside (fun t ev heq => hl ⟨t, ev, heq⟩) h).2.1

/-! ## 2. How a cycle begins -/

/-- A caller other than the one that moves keeps its cycle. -/
theorem state_update {t u : Nat} {call : Call} {c : Cycle}
    (hc : (Function.update e.calls u call t).state = .cycle c) :
    (e.calls t).state = .cycle c ∨ u = t ∧ call.state = .cycle c := by
  by_cases ht : t = u
  · subst ht
    rw [Function.update_self] at hc
    exact .inr ⟨rfl, hc⟩
  · rw [Function.update_of_ne ht] at hc
    exact .inl hc

/-- A cycle that is there after a step was there before, or `begin` has started it on the options
in force, or the step is one of its own. -/
theorem step_newCycle (h : e.step accepts l = some e') {t : Nat} {c : Cycle}
    (hc : (e'.calls t).state = .cycle c) :
    (e.calls t).state = .cycle c ∨
      (∃ now, l = .begin t now ∧ c.options = e.options ∧ c.phase = .starting ∧
        (e.calls t).state = .admitted c.credentials) ∨
      ∃ ev d, l = .cycle t ev ∧ (e.calls t).state = .cycle d ∧
        d.step accepts e.options (e.calls t).cancelled e.world ev = some (e'.world, c) := by
  -- the caller that moves is in no cycle after it
  have outside {u : Nat} {call : Call} (hcall : ∀ d, call.state ≠ .cycle d)
      (hcalls : e'.calls = Function.update e.calls u call) : (e.calls t).state = .cycle c := by
    rw [hcalls] at hc
    rcases state_update hc with hc | ⟨-, hc⟩
    · exact hc
    · exact absurd hc (hcall c)
  have hidle : ∀ d, Call.idle.state ≠ .cycle d := by
    rintro d ⟨⟩
  cases l with
  | enqueue items =>
    obtain ⟨table, -, -, rfl⟩ := Engine.step_enqueue h
    exact .inl hc
  | remove call | configure options credentials | setPaused paused =>
    cases h
    exact .inl hc
  | cancel u =>
    cases h
    rcases state_update hc with hc | ⟨rfl, hcall⟩
    · exact .inl hc
    · exact .inl hcall
  | giveUp u =>
    simp only [step, Option.ite_none_right_eq_some] at h
    obtain ⟨-, h⟩ := h
    split at h <;> cases h
    · exact .inl (outside hidle rfl)
    · exact .inl (outside (by rintro d ⟨⟩) rfl)
  | call u op | lock u | reset u =>
    simp only [step] at h
    split at h <;> cases h
    exact .inl (outside (by rintro d ⟨⟩) rfl)
  | checkPaused u | readCredentials u =>
    simp only [step] at h
    split at h <;> cases h
    refine .inl (outside (fun d hd => ?_) rfl)
    dsimp only at hd
    split at hd <;> cases hd
  | begin u now =>
    simp only [step] at h
    split at h <;> cases h
    rename_i hadmitted
    rcases state_update hc with hc | ⟨rfl, hcall⟩
    · exact .inl hc
    · cases hcall
      exact .inr (.inl ⟨now, rfl, rfl, rfl, hadmitted⟩)
  | cycle u ev =>
    obtain ⟨d, w, d', hd, hstep, rfl⟩ := step_cycle h
    rcases state_update hc with hc | ⟨rfl, hcall⟩
    · exact .inl hc
    · cases hcall
      exact .inr (.inr ⟨ev, d, rfl, hd, hstep⟩)
  | unlock u =>
    simp only [step] at h
    split at h
    · cases h
      exact .inl (outside hidle rfl)
    · split at h <;> cases h
      exact .inl (outside hidle rfl)
    · cases h

/-! ## 3. What a run sends -/

/-- The rows, the copies in hand and the requests of a run from `e₀` come from what entered. -/
structure Faithful (accepts : HttpRequest → Bool) (e₀ : Engine) (past : List Label) (e : Engine) :
    Prop where
  ids : (e₀.entered past).map (·.id) = e.world.issued
  nodup : e.world.issued.Nodup
  rows : ∀ r ∈ e.world.table.rows, r.asEnqueued ∈ e₀.entered past
  options : ∀ t c, (e.calls t).state = .cycle c →
    Visits (step accepts) (fun m => m.options = c.options) e₀ past
  copies : ∀ t c, (e.calls t).state = .cycle c → ∀ d ∈ c.dispatches,
    d.entity.asEnqueued ∈ e₀.entered past
  sent : ∀ q ∈ e.world.requests, ∃ x ∈ e₀.entered past, q.1 = x.id ∧
    Visits (step accepts) (fun m => buildRequest accepts x m.options.defaultHeaders = some q.2) e₀
      past

theorem entered_snoc (e : Engine) (ls : List Label) (l : Label) :
    e.entered (ls ++ [l]) = e.entered ls ++ l.rows := by
  simp [entered]

variable {e₀ : Engine} {past : List Label}

theorem Boot.faithful (h : Boot e) : Faithful accepts e [] e where
  ids := by
    rw [entered, List.flatMap_nil, List.append_nil, List.map_map]
    exact h.issued.symm
  nodup := h.issued ▸ e.world.table.nodup
  rows r hr := List.mem_append_left _ (List.mem_map_of_mem hr)
  options t c hc := by
    rw [h.calls] at hc
    cases hc
  copies t c hc := by
    rw [h.calls] at hc
    cases hc
  sent q hq := by
    rw [h.requests] at hq
    cases hq

theorem Faithful.step (hpast : exec (Engine.step accepts) e₀ past = some e)
    (hF : Faithful accepts e₀ past e) (h : e.step accepts l = some e') :
    Faithful accepts e₀ (past ++ [l]) e' := by
  obtain ⟨hissued, hnodup⟩ := step_issued h hF.nodup
  have hold {x : SyncItemEntity} (hx : x ∈ e₀.entered past) : x ∈ e₀.entered (past ++ [l]) := by
    rw [entered_snoc]
    exact List.mem_append_left _ hx
  have hrow {r : SyncItemEntity} {t : SyncItems} (hr : ContentOf r t)
      (ht : ∀ r₀ ∈ t.rows, r₀.asEnqueued ∈ e₀.entered past) : r.asEnqueued ∈ e₀.entered past := by
    obtain ⟨r₀, hr₀, hsame⟩ := hr
    exact hsame ▸ ht r₀ hr₀
  refine ⟨?_, hnodup, fun r hr => ?_, fun t c hc => ?_, fun t c hc d hd => ?_, fun q hq => ?_⟩
  · rw [entered_snoc, List.map_append, hF.ids]
    exact hissued.symm
  · rcases step_content h hr with hr | hnew
    · exact hold (hrow hr hF.rows)
    · rw [entered_snoc]
      exact List.mem_append_right _ hnew
  · rcases step_newCycle h hc with hc | ⟨now, -, hoptions, -, -⟩ | ⟨ev, d, -, hd, hstep⟩
    · exact (hF.options t c hc).append [l]
    · exact Visits.append (visits_last hpast hoptions.symm) [l]
    · rw [(Cycle.step_options hstep).1]
      exact (hF.options t d hd).append [l]
  · rcases step_newCycle h hc with hc | ⟨now, -, -, hphase, -⟩ | ⟨ev, c₀, -, hc₀, hstep⟩
    · exact hold (hF.copies t c hc d hd)
    · simp only [Cycle.dispatches, hphase] at hd
      cases hd
    · rcases Cycle.step_entity hstep hd with ⟨d₀, hd₀, hsame⟩ | hr
      · exact hold (hsame ▸ hF.copies t c₀ hc₀ d₀ hd₀)
      · exact hold (hF.rows _ hr)
  · have hearlier (hq : q ∈ e.world.requests) : ∃ x ∈ e₀.entered (past ++ [l]), q.1 = x.id ∧
        Visits (Engine.step accepts)
          (fun m => buildRequest accepts x m.options.defaultHeaders = some q.2) e₀
          (past ++ [l]) := by
      obtain ⟨x, hx, hid, hvisits⟩ := hF.sent q hq
      exact ⟨x, hold hx, hid, hvisits.append [l]⟩
    rcases step_requests h with hsame | ⟨t, c, d, request, hc, hd, hbuild, hmore⟩
    · exact hearlier (hsame ▸ hq)
    · rw [hmore, List.mem_append, List.mem_singleton] at hq
      rcases hq with hq | rfl
      · exact hearlier hq
      · refine ⟨d.entity.asEnqueued, hold (hF.copies t c hc d hd), rfl, ?_⟩
        refine Visits.append ((hF.options t c hc).mono fun m hm => ?_) [l]
        rw [hm]
        exact hbuild

/-- In every run from the start of a process, whatever the interleaving: each request belongs to an
item that was handed in, and it is the one that this item has under options of the run. The rows
keep the content they were handed in with. -/
theorem sends_what_was_enqueued {ls : List Label} (h0 : Boot e₀)
    (hrun : exec (Engine.step accepts) e₀ ls = some e) :
    (∀ r ∈ e.world.table.rows, r.asEnqueued ∈ e₀.entered ls) ∧
      (∀ q ∈ e.world.requests, ∃ x ∈ e₀.entered ls, q.1 = x.id) ∧
      ∀ x ∈ e₀.entered ls, ∀ q ∈ e.world.requests, q.1 = x.id →
        Visits (Engine.step accepts)
          (fun m => buildRequest accepts x m.options.defaultHeaders = some q.2) e₀ ls := by
  have hF : Faithful accepts e₀ ls e :=
    exec_past_invariant (P := fun past e => Faithful accepts e₀ past e) h0.faithful Faithful.step
      hrun
  refine ⟨hF.rows, fun q hq => ?_, fun x hx q hq hid => ?_⟩
  · obtain ⟨x, hx, hid, -⟩ := hF.sent q hq
    exact ⟨x, hx, hid⟩
  · obtain ⟨y, hy, hidy, hvisits⟩ := hF.sent q hq
    -- no id enters twice
    have hdistinct : ((e₀.entered ls).map (·.id)).Nodup := hF.ids ▸ hF.nodup
    obtain rfl : y = x := List.inj_on_of_nodup_map hdistinct hy hx (hidy.symm.trans hid)
    exact hvisits

section Sample

/-- One item, enqueued and sent. -/
theorem sends_what_was_enqueued_once :
    ∃ e q, exec (Engine.step fun _ => true) (coldStart .TRUSTED)
        (claimRun [SyncQueueStorage.sampleItem "A"] ++ dispatchRun 0 200) = some e ∧
      e.world.requests = [("A", q)] ∧
        Visits (Engine.step fun _ => true)
          (fun m => buildRequest (fun _ => true) (SyncQueueStorage.sampleItem "A").entity
            m.options.defaultHeaders = some q)
          (coldStart .TRUSTED)
          (claimRun [SyncQueueStorage.sampleItem "A"] ++ dispatchRun 0 200) := by
  obtain ⟨e, q, he, hsent⟩ : ∃ e q, exec (Engine.step fun _ => true) (coldStart .TRUSTED)
      (claimRun [SyncQueueStorage.sampleItem "A"] ++ dispatchRun 0 200) = some e ∧
      e.world.requests = [("A", q)] := ⟨_, _, rfl, rfl⟩
  refine ⟨e, q, he, hsent, ?_⟩
  exact (sends_what_was_enqueued (coldStart_boot .TRUSTED) he).2.2
    (SyncQueueStorage.sampleItem "A").entity (List.mem_singleton_self _) ("A", q)
    (hsent ▸ List.mem_singleton_self _) rfl

end Sample

end Engine

end SyncProvider.Android
