import SyncProvider.Ios.Bracket
import SyncProvider.Ios.Budget
import SyncProvider.Lib.Cooldown
import Mathlib

/-!
# iOS: the cooldown of an item

A failed attempt leaves a deadline in its row. Claims, refunds, launch recovery
and the death of the process all touch the rows, and a cycle works on snapshots
that are as old as its fetch.

Results:
1. `Cycle.cooldown_step` : what one step of a cycle does to the deadlines.
2. `Clocked.refines` : the engine refines a queue whose items wait for a deadline.
3. `Clocked.guards` : no request goes out before the deadline in force.
-/

namespace SyncProvider.Ios

open Cooldown (Event Queue)

/-! ## The model -/

/-- The engine, and the clock each flush call read when it fetched its batch. -/
structure Clocked where
  engine : Engine
  fetchedAt : Nat → Int

/-- The deadline a write leaves, if the item is to be tried again. -/
def FailureWrite.deadline (nowMs : Int) : FailureWrite → Option Int
  | .markCredentialRejected _ retryDelayMs _ => some (SyncItemDao.heldUntil retryDelayMs nowMs)
  | .markPendingForRetry _ retryDelayMs => some (nowMs + max 0 retryDelayMs)
  | .markFailed _ => none

theorem FailureWrite.le_deadline {nowMs d : Int} {write : FailureWrite}
    (h : write.deadline nowMs = some d) : nowMs ≤ d := by
  cases write with
  | markFailed errorCode => cases h
  | markPendingForRetry errorCode retryDelayMs | markCredentialRejected errorCode retryDelayMs =>
    cases h
    simp [SyncItemDao.heldUntil]

/-- What a step of a cycle shows, when it fetched its batch at `clock`. -/
def Cycle.cooldownEvents (clock : Int) (c : Cycle) (ev : CycleEvent) : List (Event String Int) :=
  match ev, c.phase with
  | .send, .prepared item _ _ _ _ => [.started item.id clock]
  | .write _, .removing item _ _ => [.recorded item.id none]
  | .write nowMs, .recording item _ record => [.recorded item.id (record.write.deadline nowMs)]
  | _, _ => []

namespace Clocked

def step (scheme : String → Option String) (s : Clocked) (l : Label) : Option Clocked :=
  (s.engine.step scheme l).map fun e =>
    { engine := e
      fetchedAt := match l with
        | .cycle t (.fetch nowMs) => Function.update s.fetchedAt t nowMs
        | _ => s.fetchedAt }

def events (s : Clocked) : Label → List (Event String Int)
  | .cycle t ev =>
    match s.engine.flushes t with
    | some c => c.cooldownEvents (s.fetchedAt t) ev
    | none => []
  | _ => []

/-- A snapshot of this item is in hand, in a batch fetched at `clock`. -/
def InHand (s : Clocked) (id : String) (clock : Int) : Prop :=
  ∃ t c, s.engine.flushes t = some c ∧ (∃ x ∈ c.phase.hand.items, x.id = id) ∧
    s.fetchedAt t = clock

/-- The queue the engine implements. -/
def queue (s : Clocked) : Queue String Int where
  issued := {id | id ∈ s.engine.world.issued}
  deadline id := (s.engine.world.store.find? id).map (·.nextRetryAt)
  live := {id | (∃ r ∈ s.engine.world.store.rows, r.id = id ∧ r.status ≠ .FAILED) ∨
    ∃ clock, s.InHand id clock}
  hand := {p | s.InHand p.1 p.2}

theorem queue_deadline {s : Clocked} {id : String} {d : Int} :
    s.queue.deadline id = some d ↔
      ∃ r ∈ s.engine.world.store.rows, r.id = id ∧ r.nextRetryAt = d := by
  simp only [queue, Option.map_eq_some_iff, KeyedTable.find?_eq_some, and_assoc]

end Clocked

/-! ## 1. A step of a cycle -/

/-- What one step of a cycle does to the deadlines. -/
structure CooldownStep (clock : Int) (w : World) (c : Cycle) (ev : CycleEvent) (w' : World)
    (c' : Cycle) : Prop where
  rows : ∀ r' ∈ w'.store.rows, ∃ r ∈ w.store.rows, r.id = r'.id ∧
    (r.nextRetryAt = r'.nextRetryAt ∨ ∃ d, c.cooldownEvents clock ev = [.recorded r'.id d]) ∧
    (r.status = .FAILED → r'.status = .FAILED ∨ ∃ x ∈ c.phase.hand.items, x.id = r'.id)
  hand : ∀ x ∈ c'.phase.hand.items,
    (x ∈ c.phase.hand.items ∧ ∀ nowMs, ev ≠ .fetch nowMs) ∨
      ∃ nowMs, ev = .fetch nowMs ∧ x ∈ w.store.rows ∧ x.status = .PENDING ∧ x.nextRetryAt ≤ nowMs
  events : c.cooldownEvents clock ev = [] ∨
    ∃ x ∈ c.phase.hand.items, c.cooldownEvents clock ev = [.started x.id clock] ∨
      ∃ d, c.cooldownEvents clock ev = [.recorded x.id d] ∧
        (∀ y ∈ c'.phase.hand.items, y.id ≠ x.id) ∧
        (∀ e, d = some e → ∀ r' ∈ w'.store.rows, r'.id = x.id → r'.nextRetryAt = e) ∧
        (d = none → ∀ r' ∈ w'.store.rows, r'.id = x.id → r'.status = .FAILED)

namespace CooldownStep

variable {clock : Int} {w w' : World} {c c' : Cycle} {ev : CycleEvent}

/-- A step that leaves the rows alone and records nothing. -/
theorem pass (hstore : w'.store = w.store)
    (hhand : c'.phase.hand.items ⊆ c.phase.hand.items) (hev : ∀ nowMs, ev ≠ .fetch nowMs)
    (hevents : c.cooldownEvents clock ev = [] ∨
      ∃ x ∈ c.phase.hand.items, c.cooldownEvents clock ev = [.started x.id clock]) :
    CooldownStep clock w c ev w' c' where
  rows r' hr' := ⟨r', hstore ▸ hr', rfl, .inl rfl, .inl⟩
  hand _ hx := .inl ⟨hhand hx, hev⟩
  events := hevents.imp_right fun h => h.imp fun _ hx => ⟨hx.1, .inl hx.2⟩

/-- The record of the outcome of the item at hand, by a write of its row. -/
theorem of_update {item : StoredSyncItem} {rest : List StoredSyncItem}
    {f : StoredSyncItem → StoredSyncItem} {d : Option Int} (hf : ∀ r, (f r).id = r.id)
    (hL : Ledger w c.phase.hand) (hitems : c.phase.hand.items = item :: rest)
    (hstore : w'.store = SyncItemDao.updateById item.id f hf w.store)
    (hhand : c'.phase.hand.items ⊆ rest) (hev : ∀ nowMs, ev ≠ .fetch nowMs)
    (hevents : c.cooldownEvents clock ev = [.recorded item.id d])
    (hset : ∀ e, d = some e → ∀ r, (f r).nextRetryAt = e)
    (hfinal : d = none → ∀ r, (f r).status = .FAILED) : CooldownStep clock w c ev w' c' := by
  have hnodup := hL.nodup
  rw [hitems] at hnodup
  simp only [List.map_cons, List.nodup_cons, List.mem_map, not_exists, not_and] at hnodup
  have hitem : item ∈ c.phase.hand.items := hitems ▸ List.mem_cons_self
  have hrow {r' : StoredSyncItem} (hr' : r' ∈ w'.store.rows) :
      r' ∈ w.store.rows ∧ r'.id ≠ item.id ∨ ∃ r ∈ w.store.rows, r.id = item.id ∧ f r = r' := by
    rw [hstore] at hr'
    exact SyncItemDao.updateById_cases hr'
  have hown {r' : StoredSyncItem} (hr' : r' ∈ w'.store.rows) (hid : r'.id = item.id) :
      ∃ r, f r = r' := by
    rcases hrow hr' with ⟨-, hne⟩ | ⟨r, -, -, hr⟩
    · exact absurd hid hne
    · exact ⟨r, hr⟩
  refine ⟨fun r' hr' => ?_, fun x hx => .inl ⟨?_, hev⟩, .inr ⟨item, hitem, .inr ⟨d, hevents,
    fun y hy => hnodup.1 y (hhand hy), fun e he r' hr' hid => ?_, fun hd r' hr' hid => ?_⟩⟩⟩
  · rcases hrow hr' with ⟨hr, -⟩ | ⟨r, hr, hid, rfl⟩
    · exact ⟨r', hr, rfl, .inl rfl, .inl⟩
    · have hid' : (f r).id = item.id := (hf r).trans hid
      exact ⟨r, hr, (hf r).symm, .inr ⟨d, by rw [hid', hevents]⟩,
        fun _ => .inr ⟨item, hitem, hid'.symm⟩⟩
  · rw [hitems]
    exact List.mem_cons_of_mem _ (hhand hx)
  · obtain ⟨r, rfl⟩ := hown hr' hid
    exact hset e he r
  · obtain ⟨r, rfl⟩ := hown hr' hid
    exact hfinal hd r

end CooldownStep

/-- The record of a failed dispatch. -/
theorem CooldownStep.record {clock : Int} {w : World} {c : Cycle} {item : StoredSyncItem}
    {rest : List StoredSyncItem} {record : FailureRecord} {nowMs : Int}
    (hL : Ledger w c.phase.hand) (hphase : c.phase = .recording item rest record) :
    CooldownStep clock w c (.write nowMs) (Cycle.writeFailure w c item rest record nowMs).1
      (Cycle.writeFailure w c item rest record nowMs).2 := by
  have hitems : c.phase.hand.items = item :: rest := by rw [hphase]; rfl
  have hevents : c.cooldownEvents clock (.write nowMs) =
      [.recorded item.id (record.write.deadline nowMs)] := by
    unfold Cycle.cooldownEvents
    rw [hphase]
  unfold Cycle.writeFailure
  cases hwrite : record.write with
  | markFailed errorCode =>
    rw [hwrite] at hevents
    refine .of_update ?_ hL hitems rfl (List.Subset.refl _) (by simp) hevents ?_ ?_
    · exact fun r => rfl
    · rintro e ⟨⟩
    · exact fun _ r => rfl
  | markPendingForRetry errorCode retryDelayMs =>
    rw [hwrite] at hevents
    refine .of_update ?_ hL hitems rfl (List.Subset.refl _) (by simp) hevents ?_ ?_
    · exact fun r => rfl
    · rintro e ⟨⟩ r
      rfl
    · rintro ⟨⟩
  | markCredentialRejected errorCode retryDelayMs attempts =>
    rw [hwrite] at hevents
    refine .of_update ?_ hL hitems rfl (List.nil_subset _) (by simp) hevents ?_ ?_
    · exact fun r => rfl
    · rintro e ⟨⟩ r
      rfl
    · rintro ⟨⟩

theorem Cycle.cooldown_step {scheme : String → Option String} {config : DispatcherConfig}
    {paused : Bool} {clock : Int} {w w' : World} {c c' : Cycle} {ev : CycleEvent}
    (hL : Ledger w c.phase.hand) (h : c.step scheme config paused w ev = some (w', c')) :
    CooldownStep clock w c ev w' c' := by
  have hsame {p : CyclePhase} {d : Cycle} (hphase : c.phase = p)
      (h : d.phase.hand.items = p.hand.items) :
      d.phase.hand.items ⊆ c.phase.hand.items := by
    rw [hphase, h]
    exact List.Subset.refl _
  have hquiet {p : CyclePhase} (hphase : c.phase = p)
      (h : Cycle.cooldownEvents clock { c with phase := p } ev = []) :
      c.cooldownEvents clock ev = [] := by
    rw [← h, ← hphase]
  cases Cycle.step_cases h with
  | fetchNone hphase hnothing =>
    exact ⟨fun r' hr' => ⟨r', hr', rfl, .inl rfl, .inl⟩, fun x hx => (by cases hx),
      .inl (hquiet hphase rfl)⟩
  | @fetch limit nowMs pending hphase hpending hsome =>
    refine ⟨fun r' hr' => ⟨r', hr', rfl, .inl rfl, .inl⟩, fun x hx => .inr ⟨nowMs, rfl, ?_⟩,
      .inl (hquiet hphase rfl)⟩
    have hx : x ∈ pending := hx
    rw [← hpending] at hx
    exact SyncItemDao.fetchPending_subset hx
  | take hphase hpaused | prepare hphase hurl | rejectUrl hphase hurl | sendFails hphase
  | answer hphase | succeed hphase hok | failItem hphase hok =>
    exact .pass rfl (hsame hphase rfl) (by simp) (.inl (hquiet hphase rfl))
  | @send item before rest sentWith request hphase =>
    refine .pass rfl (hsame hphase rfl) (by simp) (.inr ⟨item, ?_, ?_⟩)
    · rw [hphase]
      exact List.mem_cons_self
    · unfold Cycle.cooldownEvents
      rw [hphase]
  | @markInFlight item rest nowMs hphase =>
    have hitem : item ∈ c.phase.hand.items := by
      rw [hphase]
      exact List.mem_cons_self
    refine ⟨fun r' hr' => ?_, fun x hx => .inl ⟨hsame hphase rfl hx, by simp⟩,
      .inl (hquiet hphase rfl)⟩
    obtain ⟨r, hr, rfl⟩ := SyncItemDao.mem_markInFlight.mp hr'
    by_cases hid : r.id = item.id
    · rw [if_pos hid]
      exact ⟨r, hr, rfl, .inl rfl, fun _ => .inr ⟨item, hitem, hid.symm⟩⟩
    · rw [if_neg hid]
      exact ⟨r, hr, rfl, .inl rfl, .inl⟩
  | @remove item rest statusCode nowMs hphase =>
    have hevents : c.cooldownEvents clock (.write nowMs) = [.recorded item.id none] := by
      unfold Cycle.cooldownEvents
      rw [hphase]
    have hnodup := hL.nodup
    rw [hphase] at hnodup
    simp only [CyclePhase.hand, Hand.items, Option.toList_some, List.singleton_append,
      List.map_cons, List.nodup_cons, List.mem_map, not_exists, not_and] at hnodup
    refine ⟨fun r' hr' => ⟨r', (KeyedTable.mem_deleteWhere.mp hr').1, rfl, .inl rfl, .inl⟩,
      fun x hx => .inl ⟨?_, by simp⟩, .inr ⟨item, ?_, .inr ⟨none, hevents, hnodup.1, ?_, ?_⟩⟩⟩
    · rw [hphase]
      exact List.mem_cons_of_mem _ hx
    · rw [hphase]
      exact List.mem_cons_self
    · rintro e ⟨⟩
    · intro _ r' hr' hid
      have hne := (KeyedTable.mem_deleteWhere.mp hr').2
      simp [hid] at hne
  | record hphase => exact .record hL hphase
  | leave hphase | summarize hphase | finish hphase =>
    exact .pass rfl (List.nil_subset _) (by simp) (.inl (hquiet hphase rfl))
  | fail hstorage => exact .pass rfl (List.nil_subset _) (by simp) (.inl rfl)

/-- Each request of a step is an attempt it shows. -/
theorem Cycle.requests_shown {scheme : String → Option String} {config : DispatcherConfig}
    {paused : Bool} {clock : Int} {w w' : World} {c c' : Cycle} {ev : CycleEvent}
    (h : c.step scheme config paused w ev = some (w', c')) :
    w'.requests.map (·.1) =
      w.requests.map (·.1) ++ Cooldown.attempts (c.cooldownEvents clock ev) := by
  have hquiet {w' : World} (hrequests : w'.requests = w.requests)
      (hevents : Cooldown.attempts (c.cooldownEvents clock ev) = []) :
      w'.requests.map (·.1) =
        w.requests.map (·.1) ++ Cooldown.attempts (c.cooldownEvents clock ev) := by
    rw [hrequests, hevents, List.append_nil]
  cases step_cases h with
  | send hphase =>
    simp only [cooldownEvents, hphase, List.map_append, List.map_singleton,
      Cooldown.attempts_started]
  | record hphase =>
    refine hquiet (writeFailure_spec ..).2.2.1 ?_
    simp only [cooldownEvents, hphase]
    rfl
  | remove hphase =>
    refine hquiet rfl ?_
    simp only [cooldownEvents, hphase]
    rfl
  | fetchNone hphase | fetch hphase | take hphase | prepare hphase | rejectUrl hphase
  | sendFails hphase | answer hphase | succeed hphase | failItem hphase | markInFlight hphase
  | leave hphase | summarize hphase | finish hphase | fail hphase => exact hquiet rfl rfl

/-! ## 2. The refinement -/

namespace Clocked

variable {scheme : String → Option String} {s s' : Clocked} {l : Label}

theorem step_engine (h : s.step scheme l = some s') :
    s.engine.step scheme l = some s'.engine := by
  obtain ⟨e, he, rfl⟩ := Option.map_eq_some_iff.mp h
  exact he

theorem fetchedAt_of_step (h : s.step scheme l = some s') (t : Nat)
    (hl : ∀ nowMs, l ≠ .cycle t (.fetch nowMs)) : s'.fetchedAt t = s.fetchedAt t := by
  obtain ⟨e, he, rfl⟩ := Option.map_eq_some_iff.mp h
  dsimp only
  split
  · rename_i u nowMs
    have hu : t ≠ u := by
      rintro rfl
      exact hl nowMs rfl
    exact Function.update_of_ne hu _ _
  · rfl

/-- A step that records nothing: rows keep their deadlines, go, or have new ids,
and nothing comes into a hand. -/
theorem step_outside (hissued : s.engine.world.issued ⊆ s'.engine.world.issued)
    (hrows : ∀ r' ∈ s'.engine.world.store.rows,
      (∃ r ∈ s.engine.world.store.rows, r.id = r'.id ∧ r.nextRetryAt = r'.nextRetryAt ∧
        (r.status = .FAILED → r'.status = .FAILED)) ∨ r'.id ∉ s.engine.world.issued)
    (hhand : ∀ id clock, s'.InHand id clock → s.InHand id clock) :
    Cooldown.Step s.queue s'.queue [] where
  issued := hissued
  deadline id d hd := by
    obtain ⟨r', hr', rfl, rfl⟩ := queue_deadline.mp hd
    rcases hrows r' hr' with ⟨r, hr, hid, hretry, -⟩ | hnew
    · exact .inl (queue_deadline.mpr ⟨r, hr, hid, hretry⟩)
    · exact .inr (.inl hnew)
  live id hlive := by
    rcases hlive with ⟨r', hr', rfl, hstatus⟩ | ⟨clock, hheld⟩
    · rcases hrows r' hr' with ⟨r, hr, hid, -, hfailed⟩ | hnew
      · exact .inl (.inl ⟨r, hr, hid, fun h => hstatus (hfailed h)⟩)
      · exact .inr hnew
    · exact .inl (.inr ⟨clock, hhand id clock hheld⟩)
  hand id k hk := .inl (hhand id k hk)
  events := .inl rfl

/-- Rows that stay as they are, or go. -/
theorem rows_of_subset (h : ∀ r ∈ s'.engine.world.store.rows, r ∈ s.engine.world.store.rows) :
    ∀ r' ∈ s'.engine.world.store.rows,
      (∃ r ∈ s.engine.world.store.rows, r.id = r'.id ∧ r.nextRetryAt = r'.nextRetryAt ∧
        (r.status = .FAILED → r'.status = .FAILED)) ∨ r'.id ∉ s.engine.world.issued :=
  fun r' hr' => .inl ⟨r', h r' hr', rfl, rfl, fun hstatus => hstatus⟩

theorem inHand_of_flushes {id : String} {clock : Int}
    (hflushes : s'.engine.flushes = s.engine.flushes)
    (hclocks : ∀ t, s'.fetchedAt t = s.fetchedAt t) (h : s'.InHand id clock) :
    s.InHand id clock := by
  obtain ⟨t, c, hc, hx, hclock⟩ := h
  exact ⟨t, c, hflushes ▸ hc, hx, (hclocks t).symm.trans hclock⟩

/-- A step of a cycle. -/
theorem step_inCycle (hA : s.engine.Accounts) {t : Nat} {ev : CycleEvent} {c c' : Cycle}
    (hcycle : Engine.InCycle scheme s.engine s'.engine t ev c c')
    (h : s.step scheme (.cycle t ev) = some s') :
    Cooldown.Step s.queue s'.queue (s.events (.cycle t ev)) := by
  have hL := (hA.hands t c hcycle.before).1
  have hcools : CooldownStep (s.fetchedAt t) s.engine.world c ev s'.engine.world c' :=
    Cycle.cooldown_step hL hcycle.step
  obtain ⟨hrows, hhand, hevents⟩ := hcools
  have hshown : s.events (.cycle t ev) = c.cooldownEvents (s.fetchedAt t) ev := by
    simp only [events, hcycle.before]
  rw [hshown]
  have heldBy {x : StoredSyncItem} (hx : x ∈ c.phase.hand.items) :
      s.InHand x.id (s.fetchedAt t) := ⟨t, c, hcycle.before, ⟨x, hx, rfl⟩, rfl⟩
  -- a hand of another cycle stays as it is
  have hother {u : Nat} {d : Cycle} (hu : u ≠ t) (hd : s'.engine.flushes u = some d) :
      s.engine.flushes u = some d ∧ s'.fetchedAt u = s.fetchedAt u :=
    ⟨(hcycle.flushes_of_ne hu).symm.trans hd, fetchedAt_of_step h u (by simp [Ne.symm hu])⟩
  have hself {d : Cycle} (hd : s'.engine.flushes t = some d) : d = c' := by
    rw [hcycle.flushes, Function.update_self] at hd
    exact (Option.some.inj hd).symm
  have hheld {id : String} {k : Int} (hk : s'.InHand id k) : s.InHand id k ∨
      ∃ r ∈ s.engine.world.store.rows, r.id = id ∧ r.status = .PENDING ∧ r.nextRetryAt ≤ k := by
    obtain ⟨u, d, hd, ⟨x, hx, rfl⟩, rfl⟩ := hk
    by_cases hu : u = t
    · subst hu
      obtain rfl := hself hd
      rcases hhand x hx with ⟨hx, hev⟩ | ⟨nowMs, rfl, hr, hstatus, hle⟩
      · rw [fetchedAt_of_step h u (by simpa using hev)]
        exact .inl (heldBy hx)
      · refine .inr ⟨x, hr, rfl, hstatus, ?_⟩
        obtain ⟨e, he, rfl⟩ := Option.map_eq_some_iff.mp h
        simpa using hle
    · obtain ⟨hd, hclock⟩ := hother hu hd
      exact .inl ⟨u, d, hd, ⟨x, hx, rfl⟩, hclock.symm⟩
  have hissued : s'.engine.world.issued = s.engine.world.issued :=
    (Cycle.step_spec hcycle.step).issued
  refine ⟨fun id hid => (congrArg (id ∈ ·) hissued).mpr hid, fun id d hd => ?_,
    fun id hlive => .inl ?_, fun id k hk => ?_, ?_⟩
  · obtain ⟨r', hr', rfl, rfl⟩ := queue_deadline.mp hd
    obtain ⟨r, hr, hid, hretry, -⟩ := hrows r' hr'
    rcases hretry with hretry | ⟨d', hd'⟩
    · exact .inl (queue_deadline.mpr ⟨r, hr, hid, hretry⟩)
    · exact .inr (.inr ⟨d', hd'⟩)
  · rcases hlive with ⟨r', hr', rfl, hstatus⟩ | ⟨k, hk⟩
    · obtain ⟨r, hr, hid, -, hfailed⟩ := hrows r' hr'
      by_cases hwas : r.status = .FAILED
      · rcases hfailed hwas with hstill | ⟨x, hx, hxid⟩
        · exact absurd hstill hstatus
        · exact .inr ⟨_, hxid ▸ heldBy hx⟩
      · exact .inl ⟨r, hr, hid, hwas⟩
    · rcases hheld hk with hold | ⟨r, hr, hid, hstatus, -⟩
      · exact .inr ⟨k, hold⟩
      · exact .inl ⟨r, hr, hid, by simp [hstatus]⟩
  · rcases hheld hk with hold | ⟨r, hr, hid, hstatus, hle⟩
    · exact .inl hold
    · exact .inr ⟨.inl ⟨r, hr, hid, by simp [hstatus]⟩, r.nextRetryAt,
        queue_deadline.mpr ⟨r, hr, hid, rfl⟩, hle⟩
  · rcases hevents with hnone | ⟨x, hx, hstarted | ⟨d, hd, hgone, hset, hfinal⟩⟩
    · exact .inl hnone
    · exact .inr (.inl ⟨x.id, s.fetchedAt t, hstarted, heldBy hx⟩)
    · have hleft (k : Int) : ¬ s'.InHand x.id k := by
        rintro ⟨u, c₂, hc₂, ⟨y, hy, hyx⟩, -⟩
        by_cases hu : u = t
        · subst hu
          obtain rfl := hself hc₂
          exact hgone y hy hyx
        · -- the other cycles have nothing in hand
          have hca : c.active = true := by
            by_contra hended
            rw [CyclePhase.hand_of_ended (by simpa using hended)] at hx
            cases hx
          have hc₂a := hA.oneCycle.ended (Ne.symm hu) (hother hu hc₂).1 hcycle.before hca
          rw [CyclePhase.hand_of_ended hc₂a] at hy
          cases hy
      refine .inr (.inr ⟨x.id, d, hd, hL.items_issued x hx, hleft, fun e he e' he' => ?_,
        fun hnone hlive => ?_⟩)
      · obtain ⟨r', hr', hid, rfl⟩ := queue_deadline.mp he'
        exact (hset e he r' hr' hid).symm
      · rcases hlive with ⟨r', hr', hid, hstatus⟩ | ⟨k, hk⟩
        · exact hstatus (hfinal hnone r' hr' hid)
        · exact hleft k hk

theorem sim (hA : s.engine.Accounts) (h : s.step scheme l = some s') :
    Cooldown.Step s.queue s'.queue (s.events l) := by
  have he := step_engine h
  have hclocks (hl : ∀ t nowMs, l ≠ .cycle t (.fetch nowMs)) (t : Nat) :
      s'.fetchedAt t = s.fetchedAt t := fetchedAt_of_step h t (hl t)
  cases l with
  | enqueue items =>
    obtain ⟨store, hnew, hrows, heq⟩ := Engine.step_enqueue he
    refine step_outside ?_ (fun r' hr' => ?_)
      fun id clock => inHand_of_flushes (by rw [heq]) (hclocks (by simp))
    · rw [heq]
      exact List.subset_append_left _ _
    · rw [heq] at hr'
      change r' ∈ store.rows at hr'
      rw [hrows, List.mem_append] at hr'
      rcases hr' with hr' | hr'
      · exact .inl ⟨r', hr', rfl, rfl, fun h => h⟩
      · obtain ⟨item, hitem, rfl⟩ := List.mem_map.mp hr'
        refine .inr ?_
        show item.id ∉ s.engine.world.issued
        exact hnew item hitem
  | remove call =>
    have heq : _ = s'.engine := Option.some.inj he
    refine step_outside (by rw [← heq]; exact List.Subset.refl _) (rows_of_subset fun r hr => ?_)
      fun id clock => inHand_of_flushes (by rw [← heq]) (hclocks (by simp))
    rw [← heq] at hr
    cases call with
    | remove id => exact (KeyedTable.mem_deleteWhere.mp hr).1
    | clear => cases hr
  | updateConfig config | setPaused paused =>
    have heq : _ = s'.engine := Option.some.inj he
    exact step_outside (by rw [← heq]; exact List.Subset.refl _)
      (rows_of_subset fun r hr => by rw [← heq] at hr; exact hr)
      fun id clock => inHand_of_flushes (by rw [← heq]) (hclocks (by simp))
  | flush t recovered nowMs =>
    simp only [Engine.step, Option.ite_none_right_eq_some, Option.some.injEq] at he
    obtain ⟨-, heq⟩ := he
    obtain ⟨config, -, hflush | ⟨-, hflush⟩⟩ := s.engine.flush_cases t recovered nowMs <;>
      rw [hflush] at heq
    · exact step_outside (by rw [← heq]; exact List.Subset.refl _)
        (rows_of_subset fun r hr => by rw [← heq] at hr; exact hr)
        fun id clock => inHand_of_flushes (by rw [← heq]) (hclocks (by simp))
    · refine step_outside (by rw [← heq]; exact List.Subset.refl _)
        (rows_of_subset fun r hr => by rw [← heq] at hr; exact hr) ?_
      rintro id clock ⟨u, d, hd, ⟨x, hx, rfl⟩, hclock⟩
      rw [← heq] at hd
      rcases Engine.flushes_setCycle hd with ⟨-, rfl⟩ | ⟨-, hd⟩
      · cases hx
      · exact ⟨u, d, hd, ⟨x, hx, rfl⟩, (hclocks (by simp) u).symm.trans hclock⟩
  | cycle t ev =>
    obtain ⟨c, c', hcycle⟩ := Engine.step_cycle he
    exact step_inCycle hA hcycle h
  | recover =>
    simp only [Engine.step, Option.ite_none_right_eq_some, Option.some.injEq] at he
    obtain ⟨-, heq⟩ := he
    refine step_outside (by rw [← heq]; exact List.Subset.refl _) (fun r' hr' => ?_)
      fun id clock => inHand_of_flushes (by rw [← heq]) (hclocks (by simp))
    rw [← heq] at hr'
    rcases SyncItemDao.resetInFlightToPending_cases hr' with ⟨hr, -⟩ | ⟨r, hr, hflight, rfl⟩
    · exact .inl ⟨r', hr, rfl, rfl, fun h => h⟩
    · exact .inl ⟨r, hr, rfl, rfl, by simp [hflight]⟩
  | kill config paused =>
    have heq : _ = s'.engine := Option.some.inj he
    refine step_outside (by rw [← heq]; exact List.Subset.refl _)
      (rows_of_subset fun r hr => by rw [← heq] at hr; exact hr) ?_
    rintro id clock ⟨u, d, hd, -⟩
    rw [← heq] at hd
    cases hd

theorem refines (scheme : String → Option String) :
    Cooldown.Refines (step scheme) events (fun s => s.engine.Accounts) queue where
  inv hA h := hA.step (step_engine h)
  stored hA hd := by
    obtain ⟨r, hr, rfl, -⟩ := queue_deadline.mp hd
    exact hA.ledger.rows_issued r hr
  sim hA h := sim hA h

/-! ## 3. The cooldown holds -/

/-- The items whose requests were started, in order. -/
def sent (s : Clocked) : List String := s.engine.world.requests.map (·.1)

/-- An outcome is recorded at a clock reading not before that of the fetch. -/
def Ordered (s : Clocked) : Label → Prop
  | .cycle t (.write nowMs) => s.fetchedAt t ≤ nowMs
  | _ => True

/-- A process that was just launched. -/
def Boot (s : Clocked) : Prop := s.engine.Boot ∧ s.engine.world.store = .empty

theorem sent_step (h : s.step scheme l = some s') :
    s'.sent = s.sent ++ Cooldown.attempts (s.events l) := by
  have he := step_engine h
  by_cases hl : ∃ t ev, l = .cycle t ev
  · obtain ⟨t, ev, rfl⟩ := hl
    obtain ⟨c, c', hcycle⟩ := Engine.step_cycle he
    have hshown : s.events (.cycle t ev) = c.cooldownEvents (s.fetchedAt t) ev := by
      simp only [events, hcycle.before]
    rw [hshown]
    exact Cycle.requests_shown hcycle.step
  · have hnone : s.events l = [] := by
      cases l with
      | cycle t ev => exact absurd ⟨t, ev, rfl⟩ hl
      | _ => rfl
    rw [hnone]
    rcases Engine.step_cases he with hout | ⟨t, ev, c, c', hcycle, -⟩
    · simp [sent, hout.requests]
    · exact absurd ⟨t, ev, hcycle⟩ hl

theorem forward (hordered : s.Ordered l) : Cooldown.Forward s.queue (s.events l) := by
  intro id d hd
  cases l with
  | cycle t ev =>
    simp only [events] at hd
    split at hd
    · rename_i c hc
      unfold Cycle.cooldownEvents at hd
      split at hd
      · simp at hd
      · simp at hd
      · -- the outcome of the item at hand
        rename_i nowMs item rest record hphase
        simp only [List.mem_singleton, Event.recorded.injEq] at hd
        obtain ⟨rfl, hd⟩ := hd
        have hle : s.fetchedAt t ≤ nowMs := hordered
        have hitem : item ∈ c.phase.hand.items := by
          rw [hphase]
          exact List.mem_cons_self
        exact ⟨s.fetchedAt t, ⟨t, c, hc, ⟨item, hitem, rfl⟩, rfl⟩,
          hle.trans (FailureWrite.le_deadline hd.symm)⟩
      · cases hd
    · cases hd
  | _ => cases hd

theorem guards (scheme : String → Option String) :
    Cooldown.Guards (step scheme) events queue sent Ordered Boot :=
  (refines scheme).guards (fun h => h.1.accounts h.2) sent_step forward

end Clocked

end SyncProvider.Ios
