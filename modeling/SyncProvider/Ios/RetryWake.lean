import SyncProvider.Ios.Wake

/-!
# iOS: the retry wake

Between two calls, every row that awaits a retry is covered: the timer is due in
time, a fired wake is on its way to a flush, or the newest re-arm has read a
store that had the row. While something is going on that will re-arm in the end
(a cycle, a call, the task of `attachHybrid`), nothing has to be covered.

Results:
1. `Kept.engine`, `Kept.advance`, `Kept.step` : every step keeps the cover.
2. `retry_wake_kept` : in a quiescent state the timer is due in time, or not
   armed when it must not be.
-/

namespace SyncProvider.Ios

namespace Task

/-- A re-arm is still to draw its ticket. -/
def willRearm : Task → Bool
  | .rearm _ _ | .attaching | .attachWake | .detaching | .pausing | .configuring _ => true
  | _ => false

/-- The ticket of a re-arm that has not touched the timer yet. -/
def ticket? : Task → Option Nat
  | .ticketed _ ticket _ _ | .asked _ ticket _ _ _ | .decided ticket _ _ => some ticket
  | _ => none

/-- A fired wake that has not been given up. -/
def isWake : Task → Bool
  | .fired | .firedAttached | .firedUnpaused | .firedOnline => true
  | _ => false

/-- A call of the JS layer that has not returned: attach, detach or pause. -/
def isCall : Task → Bool
  | .attaching | .detaching | .pausing => true
  | _ => false

end Task

namespace SyncEngine

/-- The timer may be armed. -/
def Active (s : SyncEngine) : Prop :=
  0 < s.attachedHybrids ∧ s.isManual = false ∧ s.engine.paused = false

/-- Something goes on that will re-arm in the end. -/
def Busy (s : SyncEngine) : Prop :=
  s.engine.Unfinished ∨ ∃ k ∈ s.tasks, k.willRearm = true

/-- What a re-arm has looked up is up to date. -/
def Fresh (s : SyncEngine) : Task → Prop
  | .ticketed _ _ canArm holdUntil =>
    canArm = (decide (0 < s.attachedHybrids) && !s.isManual) ∧ holdUntil = s.credentialHoldUntil
  | .asked _ _ canArm holdUntil isPaused =>
    canArm = (decide (0 < s.attachedHybrids) && !s.isManual) ∧
      holdUntil = s.credentialHoldUntil ∧ isPaused = s.engine.paused
  | .decided _ holdUntil wakeAt =>
    holdUntil = s.credentialHoldUntil ∧ (¬ s.Active → wakeAt = none) ∧
      (s.Active → ∀ r ∈ s.engine.world.store.rows, r.AwaitsRetry →
        ∃ m, wakeAt = some m ∧ m ≤ r.nextRetryAt)
  | _ => True

/-- The timer is due in time for a row. -/
def Due (s : SyncEngine) (r : StoredSyncItem) : Prop :=
  ∃ due, s.timer = some due ∧ due ≤ max (max r.nextRetryAt s.credentialHoldUntil) s.now

/-- The timer, or the wake it fired, covers what it has to, and nothing else. -/
structure Settled (s : SyncEngine) : Prop where
  armed : s.Active → ∀ r ∈ s.engine.world.store.rows, r.AwaitsRetry →
    s.Due r ∨ ∃ k ∈ s.tasks, k.isWake = true
  disarmed : ¬ s.Active → s.timer = none

def HasNewest (s : SyncEngine) : Prop := ∃ k ∈ s.tasks, k.ticket? = some s.rearmTicket

/-- What a quiet engine keeps. -/
structure Covered (s : SyncEngine) : Prop where
  fresh : ∀ k ∈ s.tasks, k.ticket? = some s.rearmTicket → s.Fresh k
  settled : s.HasNewest ∨ s.Settled

/-- The bookkeeping of the calls and the tickets. -/
structure Orderly (s : SyncEngine) : Prop where
  serial : s.engine.Serial
  online : s.current.isOnline = true
  noOffline : .firedOffline ∉ s.tasks
  tickets : ∀ k ∈ s.tasks, ∀ n, k.ticket? = some n → n ≤ s.rearmTicket
  /-- A hybrid that is attached before launch recovery has a task waiting for it. -/
  waits : s.engine.recovering = true → 0 < s.attachedHybrids →
    ∃ k ∈ s.tasks, k = .attaching ∨ k = .attachWake
  detaching : .detaching ∈ s.tasks → s.attachedHybrids = 0
  pausing : .pausing ∈ s.tasks → s.engine.paused = true
  apart : .attaching ∈ s.tasks → .pausing ∉ s.tasks

/-- The steps of a run that stays online, with readable credentials and
successful reads, and whose attach, detach, pause and resume calls do not
overlap. -/
def Steady (s : SyncEngine) : Label → Prop
  | .attachHybrid | .detachHybrid | .pause | .resume => ∀ k ∈ s.tasks, k.isCall = false
  | .pathUpdate status => status.isOnline = true
  | .advance _ .readFails => False
  | .advance _ (.flush _ recovered _) =>
    (restoreCredentialsIfNeeded s.engine.config recovered).isSome = true
  | _ => True

/-! ## 1. The bookkeeping -/

theorem Launch.orderly {s : SyncEngine} (h : Launch s) (honline : s.current.isOnline = true) :
    Orderly s := by
  have hnone {k : Task} {p : Prop} (hk : k ∈ s.tasks) : p := by
    rw [h.tasks] at hk
    cases hk
  refine ⟨h.serial, honline, hnone, fun k hk => hnone hk, fun _ hpos => ?_, hnone, hnone, hnone⟩
  rw [h.attachedHybrids] at hpos
  exact absurd hpos (lt_irrefl 0)

namespace Orderly

variable {scheme : String → Option String} {s s' : SyncEngine}

/-- A step of the dispatcher. -/
theorem engine (hO : Orderly s) {e : Engine} (hpaused : e.paused = s.engine.paused)
    (hrecovering : e.recovering = true → s.engine.recovering = true) (hS : e.Serial) :
    Orderly { s with engine := e } where
  serial := hS
  online := hO.online
  noOffline := hO.noOffline
  tickets := hO.tickets
  waits hr := hO.waits (hrecovering hr)
  detaching := hO.detaching
  pausing h := hpaused.trans (hO.pausing h)
  apart := hO.apart

/-- The pause is lifted while no call of `pause` is under way. -/
theorem unpause (hO : Orderly s) (h : .pausing ∉ s.tasks) : Orderly (s.setPaused false) where
  serial := hO.serial.congr rfl rfl
  online := hO.online
  noOffline := hO.noOffline
  tickets := hO.tickets
  waits := hO.waits
  detaching := hO.detaching
  pausing hk := absurd hk h
  apart := hO.apart

/-- A step that leaves the tasks, the dispatcher and the hybrids alone. -/
theorem congr (hO : Orderly s) (hengine : s'.engine = s.engine) (htasks : s'.tasks = s.tasks)
    (hattached : s'.attachedHybrids = s.attachedHybrids) (hcurrent : s'.current.isOnline = true)
    (hticket : s.rearmTicket ≤ s'.rearmTicket) : Orderly s' := by
  obtain ⟨engine, isManual, awaiting, ticket, attached, hold, timer, current, listening, changes,
    now, tasks⟩ := s'
  subst hengine htasks hattached
  exact ⟨hO.serial, hcurrent, hO.noOffline, fun k hk n hn => (hO.tickets k hk n hn).trans hticket,
    hO.waits, hO.detaching, hO.pausing, hO.apart⟩

/-- A task that starts, and is no call. -/
theorem spawn (hO : Orderly s) {k : Task} (hcall : k.isCall = false) (hticket : k.ticket? = none)
    (hoffline : k ≠ .firedOffline) : Orderly (s.spawn k) := by
  have hold {x : Task} (hx : x ∈ (s.spawn k).tasks) (hxcall : x.isCall = true) : x ∈ s.tasks := by
    rcases List.mem_append.mp hx with hx | hx
    · exact hx
    · rw [List.mem_singleton.mp hx, hcall] at hxcall
      cases hxcall
  refine ⟨hO.serial, hO.online, fun hk => ?_, TaskPool.forall_spawn hO.tickets fun n hn => ?_,
    fun hr hpos => TaskPool.exists_spawn (hO.waits hr hpos), fun hk => hO.detaching (hold hk rfl),
    fun hk => hO.pausing (hold hk rfl), fun hk hk' => hO.apart (hold hk rfl) (hold hk' rfl)⟩
  · rcases List.mem_append.mp hk with hk | hk
    · exact hO.noOffline hk
    · exact hoffline (List.mem_singleton.mp hk).symm
  · rw [hticket] at hn
    cases hn

/-- A call that starts while there is none. -/
theorem call (hO : Orderly s) (s' : SyncEngine) (hnone : ∀ k ∈ s.tasks, k.isCall = false)
    (htasks : s'.tasks = s.tasks) (hticket : s'.rearmTicket = s.rearmTicket)
    (hcurrent : s'.current = s.current) (hserial : s'.engine.Serial) {k : Task}
    (hcall : k.isCall = true)
    (hwaits : s'.engine.recovering = true → 0 < s'.attachedHybrids →
      k = .attaching ∨ s.engine.recovering = true ∧ 0 < s.attachedHybrids)
    (hdetaching : k = .detaching → s'.attachedHybrids = 0)
    (hpausing : k = .pausing → s'.engine.paused = true) : Orderly (s'.spawn k) := by
  have hmem {x : Task} (hx : x ∈ (s'.spawn k).tasks) : x ∈ s.tasks ∨ x = k := by
    rcases List.mem_append.mp hx with hx | hx
    · exact .inl (htasks ▸ hx)
    · exact .inr (List.mem_singleton.mp hx)
  have hself {x : Task} (hx : x ∈ (s'.spawn k).tasks) (hxcall : x.isCall = true) : x = k := by
    rcases hmem hx with hx | hx
    · rw [hnone x hx] at hxcall
      cases hxcall
    · exact hx
  refine ⟨hserial, ?_, fun hk => ?_, fun x hx n hn => ?_, fun hr hpos => ?_, fun hk => ?_,
    fun hk => ?_, fun hk hk' => ?_⟩
  · show s'.current.isOnline = true
    rw [hcurrent]
    exact hO.online
  · rcases hmem hk with hk | rfl
    · exact hO.noOffline hk
    · cases hcall
  · show n ≤ s'.rearmTicket
    rw [hticket]
    rcases hmem hx with hx | rfl
    · exact hO.tickets x hx n hn
    · cases x <;> cases hcall <;> cases hn
  · rcases hwaits hr hpos with hk | ⟨hr, hpos⟩
    · exact ⟨k, TaskPool.mem_spawn_self, .inl hk⟩
    · refine TaskPool.exists_spawn ?_
      rw [htasks]
      exact hO.waits hr hpos
  · exact hdetaching (hself hk rfl).symm
  · exact hpausing (hself hk rfl).symm
  · have heq : Task.attaching = .pausing := (hself hk rfl).trans (hself hk' rfl).symm
    cases heq

/-- A task that goes on, and not into a call. -/
theorem set (hO : Orderly s) {u : Nat} {k k' : Task} (h : s.tasks[u]? = some k)
    (hcall : k'.isCall = false) (hoffline : k' ≠ .firedOffline)
    (hticket : ∀ n, k'.ticket? = some n → n ≤ s.rearmTicket)
    (hwaits : k = .attaching ∨ k = .attachWake → s.engine.recovering = true → k' = .attachWake) :
    Orderly { s with tasks := s.tasks.set u k' } := by
  have hold {x : Task} (hx : x ∈ s.tasks.set u k') (hxcall : x.isCall = true) : x ∈ s.tasks := by
    rcases List.mem_or_eq_of_mem_set hx with hx | rfl
    · exact hx
    · rw [hcall] at hxcall
      cases hxcall
  refine ⟨hO.serial, hO.online, fun hk => ?_, TaskPool.forall_set hO.tickets hticket,
    fun hr hpos => ?_, fun hk => hO.detaching (hold hk rfl), fun hk => hO.pausing (hold hk rfl),
    fun hk hk' => hO.apart (hold hk rfl) (hold hk' rfl)⟩
  · rcases List.mem_or_eq_of_mem_set hk with hk | hk
    · exact hO.noOffline hk
    · exact hoffline hk.symm
  · exact TaskPool.exists_set h (hO.waits hr hpos) fun hk => .inr (hwaits hk hr)

/-- A step of a task. -/
theorem advance (hO : Orderly s) {u : Nat} {ev : TaskEvent} {k k' : Task}
    (h : s.tasks[u]? = some k) (hadvance : Advances scheme s k ev s' k') :
    Orderly { s' with tasks := s.tasks.set u k' } := by
  have hk : k ∈ s.tasks := List.mem_of_getElem? h
  have hticket {n : Nat} (hn : k.ticket? = some n) : n ≤ s.rearmTicket := hO.tickets k hk n hn
  cases hadvance with
  | draw scope notBefore =>
    have hO' : Orderly { s with
        rearmTicket := s.rearmTicket + 1
        credentialHoldUntil := max s.credentialHoldUntil (notBefore.getD 0) } :=
      hO.congr rfl rfl rfl hO.online (Nat.le_succ _)
    exact hO'.set h rfl (by rintro ⟨⟩) (by rintro n ⟨⟩; exact le_rfl)
      (by rintro (h | h) <;> cases h)
  | ask scope ticket canArm holdUntil =>
    exact hO.set h rfl (by rintro ⟨⟩) (by rintro n ⟨⟩; exact hticket rfl)
      (by rintro (h | h) <;> cases h)
  | read scope ticket canArm holdUntil isPaused =>
    exact hO.set h rfl (by rintro ⟨⟩) (by rintro n ⟨⟩; exact hticket rfl)
      (by rintro (h | h) <;> cases h)
  | readFails | stale | detached | paused | attached | unpaused | online =>
    exact hO.set h rfl (by rintro ⟨⟩) (by rintro _ ⟨⟩) (by rintro (h | h) <;> cases h)
  | cancel holdUntil =>
    have hO' : Orderly { s with timer := none, wakeAwaitingConnectivity := false } :=
      hO.congr rfl rfl rfl hO.online le_rfl
    exact hO'.set h rfl (by rintro ⟨⟩) (by rintro _ ⟨⟩) (by rintro (h | h) <;> cases h)
  | arm holdUntil wakeAt =>
    have hO' : Orderly { s with
        timer := some (SyncEngine.arm s.now (max 0 (max wakeAt holdUntil - s.now))) } :=
      hO.congr rfl rfl rfl hO.online le_rfl
    exact hO'.set h rfl (by rintro ⟨⟩) (by rintro _ ⟨⟩) (by rintro (h | h) <;> cases h)
  | offline honline =>
    rw [hO.online] at honline
    cases honline
  | record => exact absurd hk hO.noOffline
  | @flush t recovered nowMs hnone =>
    have hB := s.engine.between_flush t recovered nowMs
    have hO' := hO.engine hB.paused hB.recovering (hO.serial.flush t recovered nowMs)
    exact hO'.set h rfl (by rintro ⟨⟩) (by rintro _ ⟨⟩) (by rintro (h | h) <;> cases h)
  | unpause =>
    exact (hO.unpause (hO.apart hk)).set h rfl (by rintro ⟨⟩) (by rintro _ ⟨⟩) fun _ _ => rfl
  | started hrecovering =>
    refine hO.set h rfl (by rintro ⟨⟩) (by rintro _ ⟨⟩) fun _ hr => ?_
    rw [hrecovering] at hr
    cases hr
  | disarmDetached | disarmPaused =>
    have hO' : Orderly s.disarmRetryTimer := hO.congr rfl rfl rfl hO.online (Nat.le_succ _)
    exact hO'.set h rfl (by rintro ⟨⟩) (by rintro _ ⟨⟩) (by rintro (h | h) <;> cases h)
  | configured config =>
    have hO' : Orderly { s with
        engine := { s.engine with config := updateConfig s.engine.config config } } :=
      hO.engine rfl id (hO.serial.congr rfl rfl)
    exact hO'.set h rfl (by rintro ⟨⟩) (by rintro _ ⟨⟩) (by rintro (h | h) <;> cases h)

theorem step (hO : Orderly s) {l : Label} (hsteady : s.Steady l)
    (h : s.step scheme l = some s') : Orderly s' := by
  cases l with
  | engine l =>
    obtain ⟨hl, e, he, rfl⟩ := step_engine h
    have hB := Engine.step_between hl he
    exact hO.engine hB.paused hB.recovering (hO.serial.step he)
  | finish t =>
    obtain ⟨e, notBefore, he, hpaused, hrecovering, rfl⟩ := step_finish h
    have hO' := hO.engine hpaused (fun hr => hrecovering ▸ hr) (hO.serial.step he)
    exact hO'.spawn rfl rfl (by rintro ⟨⟩)
  | attachHybrid =>
    cases h
    exact hO.call { s with attachedHybrids := s.attachedHybrids + 1 } hsteady rfl rfl rfl
      hO.serial rfl (fun _ _ => .inl rfl) (by rintro ⟨⟩) (by rintro ⟨⟩)
  | detachHybrid =>
    simp only [SyncEngine.step, Option.some.injEq] at h
    split at h <;> subst h
    · rename_i hzero
      refine hO.call { s with attachedHybrids := s.attachedHybrids - 1 } hsteady rfl rfl rfl
        hO.serial rfl (fun _ hpos => ?_) (fun _ => hzero) (by rintro ⟨⟩)
      exact absurd hzero hpos.ne'
    · refine ⟨hO.serial, hO.online, hO.noOffline, hO.tickets, fun hr hpos => ?_, fun hk => ?_,
        hO.pausing, hO.apart⟩
      · exact hO.waits hr (Nat.lt_of_lt_of_le hpos (Nat.sub_le _ _))
      · cases hsteady _ hk
  | pause =>
    cases h
    exact hO.call (s.setPaused true) hsteady rfl rfl rfl (hO.serial.congr rfl rfl) rfl
      (fun hr hpos => .inr ⟨hr, hpos⟩) (by rintro ⟨⟩) fun _ => rfl
  | resume =>
    cases h
    refine (hO.unpause fun hk => ?_).spawn rfl rfl (by rintro ⟨⟩)
    cases hsteady _ hk
  | configure isManual config =>
    cases h
    have hO' : Orderly { s with isManual := isManual, credentialHoldUntil := 0 } :=
      hO.congr rfl rfl rfl hO.online le_rfl
    exact hO'.spawn rfl rfl (by rintro ⟨⟩)
  | advance u ev =>
    obtain ⟨k, s₁, k', hk, hadvance, rfl⟩ := step_advance h
    exact hO.advance hk hadvance
  | tick ms =>
    cases h
    exact hO.congr rfl rfl rfl hO.online le_rfl
  | fire =>
    obtain ⟨due, hdue, rfl⟩ := Option.map_eq_some_iff.mp h
    have hO' : Orderly { s with timer := none } := hO.congr rfl rfl rfl hO.online le_rfl
    exact hO'.spawn rfl rfl (by rintro ⟨⟩)
  | pathUpdate status =>
    simp only [SyncEngine.step] at h
    split at h <;> cases h
    exact hO.congr rfl rfl rfl hsteady le_rfl
  | listen =>
    simp only [SyncEngine.step, Option.ite_none_right_eq_some, hO.online, if_true] at h
    obtain ⟨-, h⟩ := h
    have hO' : Orderly { s with
        listening := false
        connectionChanges := s.connectionChanges ++ [s.current]
        wakeAwaitingConnectivity := false } :=
      hO.congr rfl rfl rfl hO.online le_rfl
    split at h <;> cases h
    · exact hO'.spawn rfl rfl (by rintro ⟨⟩)
    · exact hO'

end Orderly

/-! ## 2. The cover -/

variable {scheme : String → Option String} {s s' : SyncEngine}

/-- A step that leaves the tasks and the timer alone, and what a re-arm looks up
except for rows that go. -/
theorem Covered.congr (hC : Covered s) (htasks : s'.tasks = s.tasks)
    (hticket : s'.rearmTicket = s.rearmTicket)
    (hattached : 0 < s'.attachedHybrids ↔ 0 < s.attachedHybrids)
    (hmanual : s'.isManual = s.isManual) (hpaused : s'.engine.paused = s.engine.paused)
    (hhold : s'.credentialHoldUntil = s.credentialHoldUntil) (htimer : s'.timer = s.timer)
    (hnow : s.now ≤ s'.now)
    (hrows : s'.Active → ∀ r ∈ s'.engine.world.store.rows, r.AwaitsRetry →
      r ∈ s.engine.world.store.rows) : Covered s' := by
  have hactive : s'.Active ↔ s.Active := by
    unfold Active
    rw [hattached, hmanual, hpaused]
  have hfresh {k : Task} (hk : s.Fresh k) : s'.Fresh k := by
    have hcan : decide (0 < s'.attachedHybrids) = decide (0 < s.attachedHybrids) :=
      decide_eq_decide.mpr hattached
    cases k with
    | ticketed scope ticket canArm holdUntil =>
      unfold Fresh
      rw [hcan, hmanual, hhold]
      exact hk
    | asked scope ticket canArm holdUntil isPaused =>
      unfold Fresh
      rw [hcan, hmanual, hhold, hpaused]
      exact hk
    | decided ticket holdUntil wakeAt =>
      obtain ⟨hhold', hnone, hsome⟩ := hk
      refine ⟨hhold'.trans hhold.symm, fun hA => hnone (hactive.not.mp hA), fun hA r hr hw => ?_⟩
      exact hsome (hactive.mp hA) r (hrows hA r hr hw) hw
    | _ => trivial
  refine ⟨fun k hk hn => ?_, hC.settled.imp ?_ fun hS => ⟨fun hA r hr hw => ?_, fun hA => ?_⟩⟩
  · rw [htasks] at hk
    rw [hticket] at hn
    exact hfresh (hC.fresh k hk hn)
  · rintro ⟨k, hk, hn⟩
    exact ⟨k, htasks ▸ hk, hticket ▸ hn⟩
  · rcases hS.armed (hactive.mp hA) r (hrows hA r hr hw) hw with ⟨due, hdue, hle⟩ | hwake
    · refine .inl ⟨due, htimer.trans hdue, ?_⟩
      rw [hhold]
      omega
    · exact .inr (htasks ▸ hwake)
  · rw [htimer]
    exact hS.disarmed (hactive.not.mp hA)

/-- A task that starts, and has no ticket. -/
theorem Covered.spawn (hC : Covered s) {k : Task} (hticket : k.ticket? = none) :
    Covered (s.spawn k) := by
  refine ⟨fun x hx hn => ?_, hC.settled.imp TaskPool.exists_spawn fun hS => ⟨?_, hS.disarmed⟩⟩
  · rcases List.mem_append.mp hx with hx | hx
    · have hfresh := hC.fresh x hx hn
      cases x <;> exact hfresh
    · rw [List.mem_singleton.mp hx, hticket] at hn
      cases hn
  · intro hA r hr hw
    exact (hS.armed hA r hr hw).imp id TaskPool.exists_spawn

/-- A task that goes on. It keeps its ticket if that is the newest, and a wake
goes on as a wake. -/
theorem Covered.set (hC : Covered s) {u : Nat} {k k' : Task} (h : s.tasks[u]? = some k)
    (hfresh : k'.ticket? = some s.rearmTicket → s.Fresh k')
    (hticket : k.ticket? = some s.rearmTicket → k'.ticket? = some s.rearmTicket)
    (hwake : s.Active → k.isWake = true → k'.isWake = true) :
    Covered { s with tasks := s.tasks.set u k' } := by
  refine ⟨fun x hx hn => ?_, hC.settled.imp (fun hN => TaskPool.exists_set h hN hticket)
    fun hS => ⟨fun hA r hr hw => ?_, hS.disarmed⟩⟩
  · have hx' : s.Fresh x := by
      rcases List.mem_or_eq_of_mem_set hx with hx | rfl
      · exact hC.fresh x hx hn
      · exact hfresh hn
    cases x <;> exact hx'
  · exact (hS.armed hA r hr hw).imp id fun hex => TaskPool.exists_set h hex (hwake hA)

/-- Either something will re-arm in the end, or everything is covered. -/
def Kept (s : SyncEngine) : Prop := s.Busy ∨ s.Covered

/-- Who is still to re-arm does so by drawing a ticket. -/
theorem Busy.set (hB : s.Busy) {u : Nat} {k k' : Task} (h : s.tasks[u]? = some k)
    (hk : k.willRearm = true → k'.willRearm = true) :
    Busy { s with tasks := s.tasks.set u k' } :=
  hB.imp id fun hex => TaskPool.exists_set h hex hk

theorem Busy.spawn (hB : s.Busy) (k : Task) : Busy (s.spawn k) :=
  hB.imp id TaskPool.exists_spawn

theorem busy_spawn {k : Task} (hk : k.willRearm = true) : Busy (s.spawn k) :=
  .inr ⟨k, TaskPool.mem_spawn_self, hk⟩

theorem busy_set {u : Nat} {k k' : Task} (h : s.tasks[u]? = some k) (hk' : k'.willRearm = true) :
    Busy { s with tasks := s.tasks.set u k' } :=
  .inr ⟨k', TaskPool.mem_set_self h, hk'⟩

namespace Kept

/-- A step of the dispatcher between the calls. -/
theorem engine (hK : Kept s) (hO : Orderly s) {e : Engine} (hB : Engine.Between s.engine e) :
    Kept { s with engine := e } := by
  rcases hK with hbusy | hC
  · exact .inl (hbusy.imp hB.unfinished id)
  by_cases hbusy : Busy { s with engine := e }
  · exact .inl hbusy
  refine .inr (hC.congr rfl rfl .rfl rfl hB.paused rfl rfl le_rfl fun hA r hr hw => ?_)
  rcases hB.rows r hr hw with hr | hunfinished | hrecovering
  · exact hr
  · exact absurd (.inl hunfinished) hbusy
  · -- before launch recovery an attached hybrid has a task waiting
    obtain ⟨k, hk, hwaiting⟩ := hO.waits hrecovering hA.1
    refine absurd (.inr ⟨k, hk, ?_⟩) hbusy
    rcases hwaiting with rfl | rfl <;> rfl

/-- Both scopes see a row that awaits a retry. -/
theorem exists_earliest_le (scope : RetryWakeScope) {t : StoredItems} {r : StoredSyncItem}
    (hr : r ∈ t.rows) (hw : r.AwaitsRetry) :
    ∃ m, earliest scope t = some m ∧ m ≤ r.nextRetryAt := by
  cases scope with
  | attempted => exact SyncItemDao.exists_earliestRetryAt_le hr hw.1 hw.2
  | allPending => exact SyncItemDao.exists_earliestPendingAt_le hr hw.1

/-- A task that goes on without changing the engine. -/
theorem set (hK : Kept s) {u : Nat} {k k' : Task} (h : s.tasks[u]? = some k)
    (hbusy : k.willRearm = true → k'.willRearm = true)
    (hfresh : s.Covered → k'.ticket? = some s.rearmTicket → s.Fresh k')
    (hticket : k.ticket? = some s.rearmTicket → k'.ticket? = some s.rearmTicket)
    (hwake : s.Active → k.isWake = true → k'.isWake = true) :
    Kept { s with tasks := s.tasks.set u k' } :=
  hK.imp (fun hB => hB.set h hbusy) fun hC => hC.set h (hfresh hC) hticket hwake

/-- A task without a ticket, before and after. -/
theorem pass (hK : Kept s) {u : Nat} {k k' : Task} (h : s.tasks[u]? = some k)
    (hbusy : k.willRearm = false) (hticket : k.ticket? = none) (hticket' : k'.ticket? = none)
    (hwake : s.Active → k.isWake = true → k'.isWake = true) :
    Kept { s with tasks := s.tasks.set u k' } := by
  refine hK.set h (fun hk => ?_) (fun _ hn => ?_) (fun hn => ?_) hwake
  · rw [hbusy] at hk
    cases hk
  · rw [hticket'] at hn
    cases hn
  · rw [hticket] at hn
    cases hn

/-- A re-arm draws the newest ticket, with what it looks up at that moment. -/
theorem draw (hO : Orderly s) {u : Nat} {k : Task} (h : s.tasks[u]? = some k)
    (scope : RetryWakeScope) (holdUntil : Int) :
    Kept { s with
      rearmTicket := s.rearmTicket + 1
      credentialHoldUntil := holdUntil
      tasks := s.tasks.set u (.ticketed scope (s.rearmTicket + 1)
        (decide (0 < s.attachedHybrids) && !s.isManual) holdUntil) } := by
  refine .inr ⟨fun x hx hn => ?_, .inl ⟨_, TaskPool.mem_set_self h, rfl⟩⟩
  rcases List.mem_or_eq_of_mem_set hx with hx | rfl
  · exact absurd (hO.tickets x hx _ hn) (Nat.not_succ_le_self _)
  · exact ⟨rfl, rfl⟩

/-- A disarm outdates every re-arm and leaves no wake, when none is wanted. -/
theorem disarm (hO : Orderly s) {u : Nat} (hA : ¬ s.Active) :
    Kept { s.disarmRetryTimer with tasks := s.tasks.set u .done } := by
  refine .inr ⟨fun x hx hn => ?_, .inr ⟨fun hA' => absurd hA' hA, fun _ => rfl⟩⟩
  rcases List.mem_or_eq_of_mem_set hx with hx | rfl
  · exact absurd (hO.tickets x hx _ hn) (Nat.not_succ_le_self _)
  · cases hn

/-- A re-arm decides on what it looked up. -/
theorem read (hK : Kept s) {u : Nat} {scope : RetryWakeScope} {ticket : Nat} {canArm : Bool}
    {holdUntil : Int} {isPaused : Bool}
    (h : s.tasks[u]? = some (.asked scope ticket canArm holdUntil isPaused)) :
    Kept { s with tasks := s.tasks.set u (.decided ticket holdUntil
      (if canArm && !isPaused then earliest scope s.engine.world.store else none)) } := by
  refine hK.set h (by rintro ⟨⟩) (fun hC hn => ?_) id (by rintro _ ⟨⟩)
  obtain ⟨hcan, hhold, hpaused⟩ := hC.fresh _ (List.mem_of_getElem? h) hn
  have hactive : (canArm && !isPaused) = true ↔ s.Active := by
    rw [hcan, hpaused]
    simp [Active, and_assoc]
  refine ⟨hhold, fun hA => if_neg (hactive.not.mpr hA), fun hA r hr hw => ?_⟩
  rw [if_pos (hactive.mpr hA)]
  exact exists_earliest_le scope hr hw

/-- The newest re-arm found nothing. -/
theorem cancel (hK : Kept s) {u : Nat} {holdUntil : Int}
    (h : s.tasks[u]? = some (.decided s.rearmTicket holdUntil none)) :
    Kept { s with
      timer := none
      wakeAwaitingConnectivity := false
      tasks := s.tasks.set u .done } := by
  rcases hK with hB | hC
  · exact .inl (hB.set h (by rintro ⟨⟩))
  refine .inr ⟨fun x hx hn => ?_, .inr ⟨fun hA r hr hw => ?_, fun _ => rfl⟩⟩
  · rcases List.mem_or_eq_of_mem_set hx with hx | rfl
    · have hfresh := hC.fresh x hx hn
      cases x <;> exact hfresh
    · cases hn
  · obtain ⟨-, -, hsome⟩ := hC.fresh _ (List.mem_of_getElem? h) rfl
    obtain ⟨m, hm, -⟩ := hsome hA r hr hw
    cases hm

/-- The newest re-arm arms the timer. -/
theorem arm (hK : Kept s) {u : Nat} {holdUntil wakeAt : Int}
    (h : s.tasks[u]? = some (.decided s.rearmTicket holdUntil (some wakeAt))) :
    Kept { s with
      timer := some (SyncEngine.arm s.now (max 0 (max wakeAt holdUntil - s.now)))
      tasks := s.tasks.set u .done } := by
  rcases hK with hB | hC
  · exact .inl (hB.set h (by rintro ⟨⟩))
  obtain ⟨hhold, hnone, hsome⟩ := hC.fresh _ (List.mem_of_getElem? h) rfl
  refine .inr ⟨fun x hx hn => ?_, .inr ⟨fun hA r hr hw => .inl ⟨_, rfl, ?_⟩, fun hA => ?_⟩⟩
  · rcases List.mem_or_eq_of_mem_set hx with hx | rfl
    · have hfresh := hC.fresh x hx hn
      cases x <;> exact hfresh
    · cases hn
  · obtain ⟨m, hm, hle⟩ := hsome hA r hr hw
    obtain rfl := Option.some.inj hm
    show SyncEngine.arm s.now _ ≤ max (max r.nextRetryAt s.credentialHoldUntil) s.now
    unfold SyncEngine.arm
    omega
  · have := hnone hA
    cases this

theorem advance (hK : Kept s) (hO : Orderly s) {u : Nat} {ev : TaskEvent} {k k' : Task}
    (h : s.tasks[u]? = some k) (hsteady : s.Steady (.advance u ev))
    (hadvance : Advances scheme s k ev s' k') : Kept { s' with tasks := s.tasks.set u k' } := by
  have hk : k ∈ s.tasks := List.mem_of_getElem? h
  cases hadvance with
  | draw scope notBefore => exact Kept.draw hO h scope _
  | ask scope ticket canArm holdUntil =>
    refine hK.set h (by rintro ⟨⟩) (fun hC hn => ?_) id (by rintro _ ⟨⟩)
    obtain ⟨hcan, hhold⟩ := hC.fresh _ hk hn
    exact ⟨hcan, hhold, rfl⟩
  | read scope ticket canArm holdUntil isPaused => exact hK.read h
  | readFails => exact hsteady.elim
  | stale hstale holdUntil wakeAt =>
    refine hK.set h (by rintro ⟨⟩) (fun _ hn => ?_) (fun hn => ?_) fun _ hwake => ?_
    · cases hn
    · exact absurd (Option.some.inj hn) hstale
    · cases hwake
  | cancel holdUntil => exact hK.cancel h
  | arm holdUntil wakeAt => exact hK.arm h
  | attached | unpaused | online => exact hK.pass h rfl rfl rfl fun _ _ => rfl
  | detached hattached =>
    refine hK.pass h rfl rfl rfl fun hA _ => ?_
    exact absurd hattached hA.1.ne'
  | paused hpaused =>
    refine hK.pass h rfl rfl rfl fun hA _ => ?_
    rw [hA.2.2] at hpaused
    cases hpaused
  | offline honline =>
    rw [hO.online] at honline
    cases honline
  | record => exact absurd hk hO.noOffline
  | @flush t recovered nowMs hnone =>
    have hB := s.engine.between_flush t recovered nowMs
    by_cases hA : s.Active
    · -- the wake gets its cycle, or finds one running
      exact .inl (.inl (hO.serial.unfinished_flush hA.2.2 hsteady))
    · have hK' := hK.engine hO hB
      refine hK'.pass h rfl rfl rfl fun hA' _ => absurd ?_ hA
      exact ⟨hA'.1, hA'.2.1, hB.paused.symm.trans hA'.2.2⟩
  | unpause => exact .inl (busy_set h rfl)
  | started hrecovering => exact .inl (busy_set h rfl)
  | disarmDetached =>
    refine Kept.disarm hO fun hA => ?_
    exact absurd (hO.detaching hk) hA.1.ne'
  | disarmPaused =>
    refine Kept.disarm hO fun hA => ?_
    have hpaused := hO.pausing hk
    rw [hA.2.2] at hpaused
    cases hpaused
  | configured config => exact .inl (busy_set h rfl)

theorem step (hK : Kept s) (hO : Orderly s) {l : Label} (hsteady : s.Steady l)
    (h : s.step scheme l = some s') : Kept s' := by
  cases l with
  | engine l =>
    obtain ⟨hl, e, he, rfl⟩ := step_engine h
    exact hK.engine hO (Engine.step_between hl he)
  | finish t =>
    obtain ⟨e, notBefore, -, -, -, rfl⟩ := step_finish h
    exact .inl (busy_spawn rfl)
  | attachHybrid | pause | resume | configure isManual config =>
    cases h
    exact .inl (busy_spawn rfl)
  | detachHybrid =>
    simp only [SyncEngine.step, Option.some.injEq] at h
    split at h <;> subst h
    · exact .inl (busy_spawn rfl)
    · rename_i hmore
      refine hK.imp id fun hC => hC.congr rfl rfl ?_ rfl rfl rfl rfl le_rfl fun _ r hr _ => hr
      show 0 < s.attachedHybrids - 1 ↔ 0 < s.attachedHybrids
      change ¬ s.attachedHybrids - 1 = 0 at hmore
      omega
  | advance u ev =>
    obtain ⟨k, s₁, k', hk, hadvance, rfl⟩ := step_advance h
    exact hK.advance hO hk hsteady hadvance
  | tick ms =>
    cases h
    refine hK.imp id fun hC => hC.congr rfl rfl .rfl rfl rfl rfl rfl ?_ fun _ r hr _ => hr
    show s.now ≤ s.now + ms
    omega
  | fire =>
    obtain ⟨due, hdue, rfl⟩ := Option.map_eq_some_iff.mp h
    rcases hK with hB | hC
    · exact .inl (hB.imp id TaskPool.exists_spawn)
    · refine .inr ⟨fun x hx hn => ?_, hC.settled.imp TaskPool.exists_spawn fun _ =>
        ⟨fun _ r _ _ => .inr ⟨.fired, TaskPool.mem_spawn_self, rfl⟩, fun _ => rfl⟩⟩
      rcases List.mem_append.mp hx with hx | hx
      · have hfresh := hC.fresh x hx hn
        cases x <;> exact hfresh
      · rw [List.mem_singleton.mp hx] at hn
        cases hn
  | pathUpdate status =>
    simp only [SyncEngine.step] at h
    split at h <;> cases h
    exact hK.imp id fun hC => hC.congr rfl rfl .rfl rfl rfl rfl rfl le_rfl fun _ r hr _ => hr
  | listen =>
    simp only [SyncEngine.step, Option.ite_none_right_eq_some, hO.online, if_true] at h
    obtain ⟨-, h⟩ := h
    have hK' : Kept { s with
        listening := false
        connectionChanges := s.connectionChanges ++ [s.current]
        wakeAwaitingConnectivity := false } :=
      hK.imp id fun hC => hC.congr rfl rfl .rfl rfl rfl rfl rfl le_rfl fun _ r hr _ => hr
    split at h <;> cases h
    · exact hK'.imp (fun hB => hB.spawn _) fun hC => hC.spawn rfl
    · exact hK'

end Kept

/-! ## 3. The wake over a run -/

theorem Launch.kept (h : Launch s) : Kept s := by
  have hnone {k : Task} {p : Prop} (hk : k ∈ s.tasks) : p := by
    rw [h.tasks] at hk
    cases hk
  refine .inr ⟨fun k hk => hnone hk, .inr ⟨fun hA => ?_, fun _ => h.timer⟩⟩
  exact absurd h.attachedHybrids hA.1.ne'

theorem Quiescent.not_busy (h : Quiescent s) : ¬ s.Busy := by
  rintro (⟨t, c, hc, hphase⟩ | ⟨k, hk, hrearm⟩)
  · exact hphase (h.2 t c hc)
  · rw [h.1 k hk] at hrearm
    cases hrearm

/-- Along every run from the creation of the engine that stays online, with
readable credentials and successful deadline reads, and in which attach, detach,
pause and resume do not overlap one another: whenever nothing is in progress,
with a hybrid attached, no pause and a strategy other than MANUAL, the timer is
due no later than the earliest deadline of a row that awaits a retry and the end
of the credential hold, or now; and otherwise it is not armed. -/
theorem retry_wake_kept {s₀ s : SyncEngine} {ls : List Label} (h : Launch s₀)
    (honline : s₀.current.isOnline = true)
    (hsteady : StepSystem.Meets (step scheme) Steady s₀ ls)
    (hrun : StepSystem.exec (step scheme) s₀ ls = some s) (hquiet : Quiescent s) :
    (s.Active → ∀ earliestRetryAt,
      SyncItemDao.earliestRetryAt s.engine.world.store = some earliestRetryAt →
        ∃ due, s.timer = some due ∧
          due ≤ max (max earliestRetryAt s.credentialHoldUntil) s.now) ∧
    (¬ s.Active → s.timer = none) := by
  have hstep : ∀ {s l s'}, Orderly s ∧ Kept s → s.Steady l → step scheme s l = some s' →
      Orderly s' ∧ Kept s' :=
    fun hI hl hs => ⟨hI.1.step hl hs, hI.2.step hI.1 hl hs⟩
  obtain ⟨-, hbusy | hC⟩ :=
    StepSystem.exec_invariant_of_meets hstep ⟨h.orderly honline, h.kept⟩ hsteady hrun
  · exact absurd hbusy hquiet.not_busy
  have hS : s.Settled := by
    refine hC.settled.resolve_left ?_
    rintro ⟨k, hk, hn⟩
    rw [hquiet.1 k hk] at hn
    cases hn
  refine ⟨fun hA m hm => ?_, hS.disarmed⟩
  obtain ⟨r, hr, hw, rfl⟩ := SyncItemDao.exists_of_earliestRetryAt hm
  rcases hS.armed hA r hr hw with hdue | ⟨k, hk, hwake⟩
  · exact hdue
  · rw [hquiet.1 k hk] at hwake
    cases hwake

section Sample

instance decidableSteady (s : SyncEngine) (l : Label) : Decidable (s.Steady l) := by
  cases l with
  | advance u ev => cases ev <;> unfold Steady <;> infer_instance
  | _ => unfold Steady; infer_instance

/-- A row that cools down until 5000. -/
def coolingRow : StoredSyncItem :=
  { (SyncQueueStorage.sampleItem "A").stored with attempts := 1, nextRetryAt := 5000 }

/-- An engine that was just created, with these rows in its store. -/
def created (rows : List StoredSyncItem) (h : (rows.map (·.id)).Nodup) : SyncEngine where
  engine := { Engine.firstLaunch with
    world := { Engine.firstLaunch.world with store := ⟨rows, h⟩, issued := rows.map (·.id) } }
  isManual := false
  wakeAwaitingConnectivity := false
  rearmTicket := 0
  attachedHybrids := 0
  credentialHoldUntil := 0
  timer := none
  current := .connected
  listening := false
  connectionChanges := []
  now := 1000
  tasks := []

theorem created_launch (rows : List StoredSyncItem) (h : (rows.map (·.id)).Nodup) :
    Launch (created rows h) :=
  ⟨fun _ => rfl, rfl, rfl, rfl, rfl, rfl, rfl, rfl⟩

/-- A hybrid attaches and configures. The re-arm of `configure` draws the older
ticket and reads last. -/
def competingRun : List Label :=
  [.attachHybrid, .advance 0 .go, .configure false sampleConfig, .advance 1 .go, .advance 1 .go,
    .engine .recover, .advance 0 .go, .advance 0 .go, .advance 0 .go, .tick 100, .advance 1 .go,
    .advance 0 .go, .advance 0 .go, .advance 1 .go, .advance 1 .go]

/-- The timer is due when the row is. -/
theorem retry_wake_kept_by_newest :
    ∃ s, StepSystem.exec (step Engine.https) (created [coolingRow] (by decide)) competingRun =
        some s ∧ Quiescent s ∧ ∃ due, s.timer = some due ∧ due ≤ 5000 := by
  have hsteady : StepSystem.Meets (step Engine.https) Steady (created [coolingRow] (by decide))
      competingRun := by decide +kernel
  have htrace : (StepSystem.exec (step Engine.https) (created [coolingRow] (by decide))
      competingRun).map (fun s => decide ((∀ k ∈ s.tasks, k = .done) ∧
        (0 < s.attachedHybrids ∧ s.isManual = false ∧ s.engine.paused = false) ∧
        SyncItemDao.earliestRetryAt s.engine.world.store = some 5000 ∧
        s.credentialHoldUntil = 0 ∧ s.now = 1100)) = some true := by decide +kernel
  obtain ⟨s, hrun, hstate⟩ := Option.map_eq_some_iff.mp htrace
  obtain ⟨htasks, hA, hearliest, hhold, hnow⟩ := of_decide_eq_true hstate
  have hflushes : s.engine.flushes = fun _ => none := by
    have hnone : ∀ l ∈ competingRun, l.flush? = none := by decide +kernel
    funext t
    refine exec_flushes_eq_none (fun l hl heq => ?_) rfl hrun
    rw [hnone l hl] at heq
    cases heq
  have hquiet : Quiescent s := quiescent_of_no_cycle htasks hflushes
  obtain ⟨due, hdue, hle⟩ :=
    (retry_wake_kept (created_launch _ _) rfl hsteady hrun hquiet).1 hA 5000 hearliest
  rw [hhold, hnow] at hle
  exact ⟨s, hrun, hquiet, due, hdue, hle⟩

end Sample

end SyncEngine

end SyncProvider.Ios
