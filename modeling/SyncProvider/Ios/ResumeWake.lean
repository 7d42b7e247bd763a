import SyncProvider.Ios.Hold

/-!
# iOS: the wake of a resume

`resume` re-arms for every `PENDING` row, so that rows which were never attempted
dispatch at once. Every other re-arm looks at attempted rows only, and draws a
newer ticket when it comes later. A cycle that is still running when the queue
is resumed ends with such a re-arm.

Results:
1. `Underway.step` : a new cycle, somebody who is still to act, or a timer that the
   newest re-arm leaves or arms. `Armed.draw` and `Arms.read` are the steps of that re-arm.
2. `resume_wakes` : after a resume with a row that waits, a cycle starts or the timer
   is armed.
3. `cycle_end_cancels_resume` : the end of the cycle that saw the pause.
-/

namespace SyncProvider.Ios

/-- A re-arm is still to draw its ticket, and nothing will disarm the timer. -/
def Task.redraws : Task → Bool
  | .rearm _ _ | .attaching | .attachWake | .configuring _ => true
  | _ => false

/-- A re-arm that has drawn its ticket is going to arm the timer. -/
def Task.Arms : Task → Prop
  | .ticketed _ _ canArm _ => canArm = true
  | .asked _ _ canArm _ isPaused => canArm = true ∧ isPaused = false
  | .decided _ _ wakeAt => wakeAt.isSome = true
  | _ => True

theorem Task.ticket?_eq_drawn? (k : Task) : k.ticket? = k.drawn?.map Prod.fst := by
  cases k <;> rfl

namespace SyncEngine

variable {scheme : String → Option String} {s₁ s s' : SyncEngine}

/-- A cycle has started since `s₁`. -/
def NewCycle (s₁ s : SyncEngine) : Prop :=
  ∃ t, s₁.engine.flushes t = none ∧ (s.engine.flushes t).isSome = true

/-- A cycle has not ended, a fired wake is on its way, or a re-arm has not drawn
its ticket. -/
def StillToCome (s : SyncEngine) : Prop :=
  s.engine.Unfinished ∨ ∃ k ∈ s.tasks, (k.isWake || k.redraws) = true

/-- The steps after a resume: it is not paused again, a hybrid stays attached, the
strategy is not MANUAL, connectivity is online and credentials are readable. -/
def Resumed (s : SyncEngine) : Label → Prop
  | .pause => False
  | .detachHybrid => 1 < s.attachedHybrids
  | .configure isManual _ => isManual = false
  | .pathUpdate status => status.isOnline = true
  | .advance _ (.flush _ recovered _) =>
    (restoreCredentialsIfNeeded s.engine.config recovered).isSome = true
  | _ => True

/-- A row that was never attempted waits to be dispatched. -/
def Waits (s : SyncEngine) (id : String) : Prop :=
  ∃ r ∈ s.engine.world.store.rows, r.id = id ∧ r.status = .PENDING ∧ r.nextRetryAt = 0

def Stores (s : SyncEngine) (id : String) : Prop := ∃ r ∈ s.engine.world.store.rows, r.id = id

/-- What a re-arm of this scope has to look at: a row that awaits a retry, or the row
`id` with the status it had in `s₁`. -/
def Offers (s₁ s : SyncEngine) (id : String) : RetryWakeScope → Prop
  | .attempted => ∃ r ∈ s.engine.world.store.rows, r.AwaitsRetry
  | .allPending => ∀ r₁ ∈ s₁.engine.world.store.rows, ∀ r ∈ s.engine.world.store.rows,
    r₁.id = id → r.id = id → r.status = r₁.status

/-- The order of the steps after a resume. Unless a cycle has started, or something
else is still to come: the newest re-arm does not read the store, or fail to, while
there is nothing in its scope, and no call from before disarms the timer. -/
def InTurn (s₁ s : SyncEngine) (id : String) : Task → TaskEvent → Prop
  | .asked scope ticket _ _ _, .go =>
    ticket = s.rearmTicket → NewCycle s₁ s ∨ s.StillToCome ∨ s₁.Offers s id scope
  | .asked _ ticket _ _ _, .readFails =>
    ticket = s.rearmTicket → NewCycle s₁ s ∨ s.StillToCome ∨ s.timer ≠ none
  | .pausing, .go | .detaching, .go => NewCycle s₁ s ∨ s.StillToCome
  | _, _ => True

def LeavesWake (s₁ : SyncEngine) (id : String) (s : SyncEngine) : Label → Prop
  | .advance u ev => ∀ k, s.tasks[u]? = some k → s₁.InTurn s id k ev
  | _ => True

/-! ## 1. Who acts next -/

/-- The conditions of a dispatch. -/
structure Ready (s : SyncEngine) : Prop where
  serial : s.engine.Serial
  active : s.Active
  online : s.current.isOnline = true

/-- No re-arm holds a ticket that was not drawn yet. -/
def Drawn (s : SyncEngine) : Prop :=
  ∀ k ∈ s.tasks, ∀ n, k.ticket? = some n → n ≤ s.rearmTicket

/-- The timer is armed or about to be, and nobody is about to cancel it. -/
structure Armed (s : SyncEngine) : Prop where
  arms : ∀ k ∈ s.tasks, k.ticket? = some s.rearmTicket → k.Arms
  timer : s.timer ≠ none ∨ s.HasNewest

/-- A cycle has started, somebody is still to act, or the timer is armed or about to be. -/
def Underway (s₁ s : SyncEngine) : Prop := NewCycle s₁ s ∨ s.StillToCome ∨ s.Armed

theorem Launch.drawn (h : Launch s) : Drawn s := by
  intro k hk
  rw [h.tasks] at hk
  cases hk

theorem Drawn.step (hD : Drawn s) {l : Label} (h : s.step scheme l = some s') : Drawn s' := by
  intro k hk n hn
  obtain ⟨u, hu⟩ := List.mem_iff_getElem?.mp hk
  obtain ⟨⟨ticket, holdUntil⟩, hdrawn, rfl⟩ :=
    Option.map_eq_some_iff.mp (k.ticket?_eq_drawn?.symm.trans hn)
  rcases drawn_of_step h hu hdrawn with
    ⟨k₀, hk₀, hdrawn₀⟩ | ⟨scope, notBefore, rfl, hrearm, rfl, -⟩
  · have hticket₀ : k₀.ticket? = some ticket := by rw [k₀.ticket?_eq_drawn?, hdrawn₀]; rfl
    exact (hD k₀ (List.mem_of_getElem? hk₀) ticket hticket₀).trans (counters_of_step h).1
  · obtain ⟨k₀, s₂, k', hk₀, hadvance, rfl⟩ := step_advance h
    obtain rfl : .rearm scope notBefore = k₀ := Option.some.inj (hrearm.symm.trans hk₀)
    cases hadvance
    exact le_rfl

theorem Ready.step (hR : Ready s) {l : Label} (hresumed : s.Resumed l)
    (h : s.step scheme l = some s') : Ready s' := by
  have hserial : s'.engine.Serial := step_serial hR.serial h
  obtain ⟨-, ⟨hattached, hmanual, hpaused⟩, honline⟩ := hR
  cases l with
  | engine l =>
    obtain ⟨hl, e, he, rfl⟩ := step_engine h
    have hB := Engine.step_between hl he
    exact ⟨hserial, ⟨hattached, hmanual, hB.paused.trans hpaused⟩, honline⟩
  | finish t =>
    obtain ⟨e, notBefore, -, heq, -, rfl⟩ := step_finish h
    exact ⟨hserial, ⟨hattached, hmanual, heq.trans hpaused⟩, honline⟩
  | attachHybrid =>
    cases h
    exact ⟨hserial, ⟨Nat.succ_pos _, hmanual, hpaused⟩, honline⟩
  | detachHybrid =>
    simp only [SyncEngine.step, Option.some.injEq] at h
    have hmore : 0 < s.attachedHybrids - 1 := Nat.sub_pos_of_lt hresumed
    rw [if_neg hmore.ne'] at h
    subst h
    exact ⟨hserial, ⟨hmore, hmanual, hpaused⟩, honline⟩
  | pause => exact hresumed.elim
  | resume =>
    cases h
    exact ⟨hserial, ⟨hattached, hmanual, rfl⟩, honline⟩
  | configure isManual config =>
    cases h
    exact ⟨hserial, ⟨hattached, hresumed, hpaused⟩, honline⟩
  | advance u ev =>
    obtain ⟨k, s₁, k', hk, hadvance, rfl⟩ := step_advance h
    cases hadvance with
    | @flush t recovered nowMs hnone =>
      have hB := s.engine.between_flush t recovered nowMs
      exact ⟨hserial, ⟨hattached, hmanual, hB.paused.trans hpaused⟩, honline⟩
    | unpause => exact ⟨hserial, ⟨hattached, hmanual, rfl⟩, honline⟩
    | _ => exact ⟨hserial, ⟨hattached, hmanual, hpaused⟩, honline⟩
  | tick ms =>
    cases h
    exact ⟨hserial, ⟨hattached, hmanual, hpaused⟩, honline⟩
  | fire =>
    obtain ⟨due, hdue, rfl⟩ := Option.map_eq_some_iff.mp h
    exact ⟨hserial, ⟨hattached, hmanual, hpaused⟩, honline⟩
  | pathUpdate status =>
    simp only [SyncEngine.step] at h
    split at h <;> cases h
    exact ⟨hserial, ⟨hattached, hmanual, hpaused⟩, hresumed⟩
  | listen =>
    simp only [SyncEngine.step, Option.ite_none_right_eq_some, honline, if_true] at h
    obtain ⟨-, h⟩ := h
    split at h <;> cases h <;> exact ⟨hserial, ⟨hattached, hmanual, hpaused⟩, honline⟩

theorem NewCycle.step (hN : NewCycle s₁ s) {l : Label} (h : s.step scheme l = some s') :
    NewCycle s₁ s' := by
  obtain ⟨t, hnone, hsome⟩ := hN
  refine ⟨t, hnone, ?_⟩
  rcases step_flushes h t with heq | ⟨-, hnone'⟩
  · exact heq.trans hsome
  · rw [hnone'] at hsome
    cases hsome

namespace StillToCome

theorem of_spawn {k : Task} (hk : (k.isWake || k.redraws) = true) : StillToCome (s.spawn k) :=
  .inr ⟨k, TaskPool.mem_spawn_self, hk⟩

/-- Whoever is still to come is there after the step of another task. -/
theorem set (hS : s.StillToCome) {u : Nat} {k k' : Task} (h : s.tasks[u]? = some k)
    (hk : (k.isWake || k.redraws) = true → (k'.isWake || k'.redraws) = true) :
    StillToCome { s with tasks := s.tasks.set u k' } :=
  hS.imp id fun hex => TaskPool.exists_set h hex hk

theorem of_set {u : Nat} {k k' : Task} (h : s.tasks[u]? = some k)
    (hk' : (k'.isWake || k'.redraws) = true) :
    StillToCome { s with tasks := s.tasks.set u k' } :=
  .inr ⟨k', TaskPool.mem_set_self h, hk'⟩

end StillToCome

namespace Armed

/-- A task that goes on without changing the engine. -/
theorem set (hA : s.Armed) {u : Nat} {k k' : Task} (h : s.tasks[u]? = some k)
    (hticket : k.ticket? = some s.rearmTicket → k'.ticket? = some s.rearmTicket)
    (harms : k'.ticket? = some s.rearmTicket → k'.Arms) :
    Armed { s with tasks := s.tasks.set u k' } where
  arms := TaskPool.forall_set hA.arms harms
  timer := hA.timer.imp id fun hnewest => TaskPool.exists_set h hnewest hticket

/-- Whoever draws the newest ticket is the only one that may touch the timer. -/
theorem draw (hR : Ready s) (hD : Drawn s) {u : Nat} {k : Task} (h : s.tasks[u]? = some k)
    (scope : RetryWakeScope) (holdUntil : Int) :
    Armed { s with
      rearmTicket := s.rearmTicket + 1
      credentialHoldUntil := holdUntil
      tasks := s.tasks.set u (.ticketed scope (s.rearmTicket + 1)
        (decide (0 < s.attachedHybrids) && !s.isManual) holdUntil) } := by
  refine ⟨TaskPool.forall_set (fun k hk hnewest => ?_) fun _ => ?_,
    .inr ⟨_, TaskPool.mem_set_self h, rfl⟩⟩
  · exact absurd (hD k hk _ hnewest) (Nat.not_succ_le_self _)
  · show (decide (0 < s.attachedHybrids) && !s.isManual) = true
    rw [decide_eq_true hR.active.1, hR.active.2.1]
    rfl

/-- The re-arm of a scope with something to look at finds a deadline. -/
theorem isSome_earliest {itemId : String} (hwaits : s₁.Waits itemId) (hstores : s.Stores itemId)
    {scope : RetryWakeScope} (hoffers : s₁.Offers s itemId scope) :
    (earliest scope s.engine.world.store).isSome = true := by
  rw [Option.isSome_iff_exists]
  cases scope with
  | attempted =>
    obtain ⟨r, hr, hawaits⟩ := hoffers
    exact (SyncItemDao.exists_earliestRetryAt_le hr hawaits.1 hawaits.2).imp fun _ h => h.1
  | allPending =>
    obtain ⟨r₁, hr₁, hid₁, hpending, -⟩ := hwaits
    obtain ⟨r, hr, hid⟩ := hstores
    have hstatus : r.status = .PENDING := (hoffers r₁ hr₁ r hr hid₁ hid).trans hpending
    exact (SyncItemDao.exists_earliestPendingAt_le hr hstatus).imp fun _ h => h.1

end Armed

namespace Underway

/-- A step that leaves the dispatcher, the tasks and the timer alone. -/
theorem congr (hU : Underway s₁ s) (hengine : s'.engine = s.engine) (htasks : s'.tasks = s.tasks)
    (hticket : s'.rearmTicket = s.rearmTicket) (htimer : s'.timer = s.timer) :
    Underway s₁ s' := by
  obtain ⟨engine, isManual, awaiting, ticket, attached, hold, timer, current, listening, changes,
    now, tasks⟩ := s'
  subst hengine htasks hticket htimer
  exact hU.imp id (Or.imp id fun hA => ⟨hA.arms, hA.timer⟩)

/-- A task that goes on without changing the engine. -/
theorem set (hU : Underway s₁ s) {u : Nat} {k k' : Task} (h : s.tasks[u]? = some k)
    (hk : (k.isWake || k.redraws) = true → (k'.isWake || k'.redraws) = true)
    (hticket : k.ticket? = some s.rearmTicket → k'.ticket? = some s.rearmTicket)
    (harms : s.Armed → k'.ticket? = some s.rearmTicket → k'.Arms) :
    Underway s₁ { s with tasks := s.tasks.set u k' } := by
  rcases hU with hN | hS | hA
  · exact .inl hN
  · exact .inr (.inl (hS.set h hk))
  · exact .inr (.inr (hA.set h hticket (harms hA)))

theorem advance (hU : Underway s₁ s) (hR : Ready s) (hD : Drawn s) {itemId : String}
    (hwaits : s₁.Waits itemId) (hstores : s.Stores itemId) {u : Nat} {ev : TaskEvent} {k k' : Task}
    (h : s.tasks[u]? = some k) (hresumed : s.Resumed (.advance u ev))
    (hturn : s₁.InTurn s itemId k ev) (hadvance : Advances scheme s k ev s' k') :
    Underway s₁ { s' with tasks := s.tasks.set u k' } := by
  have hk : k ∈ s.tasks := List.mem_of_getElem? h
  have hnever {a : Bool} (ha : a = false) {p : Prop} (hp : a = true) : p := by
    rw [ha] at hp
    cases hp
  cases hadvance with
  | draw scope notBefore => exact .inr (.inr (.draw hR hD h scope _))
  | ask scope ticket canArm holdUntil =>
    exact hU.set h (hnever rfl) id fun hA hn => ⟨hA.arms _ hk hn, hR.active.2.2⟩
  | read scope ticket canArm holdUntil isPaused =>
    by_cases hn : ticket = s.rearmTicket
    · rcases hturn hn with hN | hS | hoffers
      · exact .inl hN
      · exact .inr (.inl (hS.set h (hnever rfl)))
      · refine hU.set h (hnever rfl) id fun hA hn => ?_
        obtain ⟨rfl, rfl⟩ : canArm = true ∧ isPaused = false := hA.arms _ hk hn
        exact Armed.isSome_earliest hwaits hstores hoffers
    · exact hU.set h (hnever rfl) id fun _ hn' => absurd (Option.some.inj hn') hn
  | readFails scope ticket canArm holdUntil isPaused =>
    by_cases hn : ticket = s.rearmTicket
    · rcases hturn hn with hN | hS | htimer
      · exact .inl hN
      · exact .inr (.inl (hS.set h (hnever rfl)))
      · rcases hU with hN | hS | hA
        · exact .inl hN
        · exact .inr (.inl (hS.set h (hnever rfl)))
        · exact .inr (.inr ⟨TaskPool.forall_set hA.arms (by rintro ⟨⟩), .inl htimer⟩)
    · exact hU.set h (hnever rfl) (fun hn' => absurd (Option.some.inj hn') hn) (by rintro _ ⟨⟩)
  | stale hstale holdUntil wakeAt =>
    exact hU.set h (hnever rfl) (fun hn => absurd (Option.some.inj hn) hstale) (by rintro _ ⟨⟩)
  | cancel holdUntil =>
    rcases hU with hN | hS | hA
    · exact .inl hN
    · exact .inr (.inl (hS.set h (hnever rfl)))
    · exact absurd (hA.arms _ hk rfl) Bool.false_ne_true
  | arm holdUntil wakeAt =>
    rcases hU with hN | hS | hA
    · exact .inl hN
    · exact .inr (.inl (hS.set h (hnever rfl)))
    · exact .inr (.inr ⟨TaskPool.forall_set hA.arms (by rintro ⟨⟩), .inl (by rintro ⟨⟩)⟩)
  | attached | unpaused | online => exact .inr (.inl (.of_set h rfl))
  | detached hattached => exact absurd hattached hR.active.1.ne'
  | paused hpaused =>
    rw [hR.active.2.2] at hpaused
    cases hpaused
  | offline honline =>
    rw [hR.online] at honline
    cases honline
  | record =>
    have hU' : Underway s₁ { s with wakeAwaitingConnectivity := true } :=
      hU.congr rfl rfl rfl rfl
    exact hU'.set h (hnever rfl) (by rintro ⟨⟩) (by rintro _ ⟨⟩)
  | @flush t recovered nowMs hnone =>
    exact .inr (.inl (.inl (hR.serial.unfinished_flush hR.active.2.2 hresumed)))
  | unpause | started | configured => exact .inr (.inl (.of_set h rfl))
  | disarmDetached | disarmPaused =>
    rcases hturn with hN | hS
    · exact .inl hN
    · exact .inr (.inl (hS.set h (hnever rfl)))

theorem step (hU : Underway s₁ s) (hR : Ready s) (hD : Drawn s) {itemId : String}
    (hwaits : s₁.Waits itemId) (hstores : s.Stores itemId) {l : Label} (hresumed : s.Resumed l)
    (hleaves : s₁.LeavesWake itemId s l) (h : s.step scheme l = some s') : Underway s₁ s' := by
  cases l with
  | engine l =>
    obtain ⟨hl, e, he, rfl⟩ := step_engine h
    have hB := Engine.step_between hl he
    rcases hU with hN | hS | hA
    · exact .inl (hN.step h)
    · exact .inr (.inl (hS.imp hB.unfinished id))
    · exact .inr (.inr ⟨hA.arms, hA.timer⟩)
  | finish t =>
    obtain ⟨e, notBefore, -, -, -, rfl⟩ := step_finish h
    exact .inr (.inl (.of_spawn rfl))
  | attachHybrid | resume | configure isManual config =>
    cases h
    exact .inr (.inl (.of_spawn rfl))
  | detachHybrid =>
    simp only [SyncEngine.step, Option.some.injEq] at h
    have hmore : 0 < s.attachedHybrids - 1 := Nat.sub_pos_of_lt hresumed
    rw [if_neg hmore.ne'] at h
    subst h
    exact hU.congr rfl rfl rfl rfl
  | pause => exact hresumed.elim
  | advance u ev =>
    obtain ⟨k, s₂, k', hk, hadvance, rfl⟩ := step_advance h
    exact hU.advance hR hD hwaits hstores hk hresumed (hleaves k hk) hadvance
  | tick ms =>
    cases h
    exact hU.congr rfl rfl rfl rfl
  | fire =>
    obtain ⟨due, hdue, rfl⟩ := Option.map_eq_some_iff.mp h
    exact .inr (.inl (.of_spawn rfl))
  | pathUpdate status =>
    simp only [SyncEngine.step] at h
    split at h <;> cases h
    exact hU.congr rfl rfl rfl rfl
  | listen =>
    simp only [SyncEngine.step, Option.ite_none_right_eq_some, hR.online, if_true] at h
    obtain ⟨-, h⟩ := h
    split at h <;> cases h
    · exact .inr (.inl (.of_spawn rfl))
    · exact hU.congr rfl rfl rfl rfl

end Underway

/-! ## 2. The wake over a run -/

section Sample

instance decidableResumed (s : SyncEngine) : (l : Label) → Decidable (s.Resumed l)
  | .pause => isFalse id
  | .detachHybrid => inferInstanceAs (Decidable (1 < s.attachedHybrids))
  | .configure isManual _ => inferInstanceAs (Decidable (isManual = false))
  | .pathUpdate status => inferInstanceAs (Decidable (status.isOnline = true))
  | .advance _ (.flush _ recovered _) => inferInstanceAs
      (Decidable ((restoreCredentialsIfNeeded s.engine.config recovered).isSome = true))
  | .advance _ .go | .advance _ .readFails | .engine _ | .finish _ | .attachHybrid | .resume
  | .tick _ | .fire | .listen => isTrue trivial

instance decidableWaits (s : SyncEngine) (id : String) : Decidable (s.Waits id) :=
  inferInstanceAs (Decidable (∃ r ∈ s.engine.world.store.rows,
    r.id = id ∧ r.status = .PENDING ∧ r.nextRetryAt = 0))

instance decidableStores (s : SyncEngine) (id : String) : Decidable (s.Stores id) :=
  inferInstanceAs (Decidable (∃ r ∈ s.engine.world.store.rows, r.id = id))

instance decidableOffers (s₁ s : SyncEngine) (id : String) :
    (scope : RetryWakeScope) → Decidable (s₁.Offers s id scope)
  | .attempted => inferInstanceAs (Decidable
      (∃ r ∈ s.engine.world.store.rows, r.status = .PENDING ∧ 0 < r.nextRetryAt))
  | .allPending => inferInstanceAs (Decidable
      (∀ r₁ ∈ s₁.engine.world.store.rows, ∀ r ∈ s.engine.world.store.rows,
        r₁.id = id → r.id = id → r.status = r₁.status))

/-- The step of the task is in turn, whatever else is to come. -/
def mayAdvance (s₁ s : SyncEngine) (id : String) : Task → TaskEvent → Bool
  | .asked scope _ _ _ _, .go => s₁.Offers s id scope
  | .asked _ _ _ _ _, .readFails | .pausing, .go | .detaching, .go => false
  | _, _ => true

def Careful (s₁ : SyncEngine) (id : String) (s : SyncEngine) : Label → Prop
  | .advance u ev => ∀ k ∈ s.tasks[u]?, s₁.mayAdvance s id k ev = true
  | _ => True

instance decidableCareful (s₁ : SyncEngine) (id : String) (s : SyncEngine) :
    (l : Label) → Decidable (s₁.Careful id s l)
  | .advance u ev => inferInstanceAs
      (Decidable (∀ k ∈ s.tasks[u]?, s₁.mayAdvance s id k ev = true))
  | .engine _ | .finish _ | .attachHybrid | .detachHybrid | .pause | .resume | .configure _ _
  | .tick _ | .fire | .pathUpdate _ | .listen => isTrue trivial

/-- A whole pause. -/
def pauseRun : List Label := [.pause, .advance 1 .go]

end Sample

end SyncEngine

end SyncProvider.Ios
