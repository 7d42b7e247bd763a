import SyncProvider.Android.RetryWake

/-!
# Android: a wake that fires offline

A timer that fires offline owes a wake, and the collector of the flow delivers it
once the flow says that the network is back. The flow is conflated and is filled
by callbacks, while the timer asks the system. So an owed wake is delivered
exactly as long as a return of the network makes a difference to the collector.

Results:
1. `OfflineWakeKept.step` : what keeps the wake.
2. `offline_wake_kept_iff` : no wake is left owed exactly when every return of
   the network gets through to the collector.
3. `conflated_outage_strands_wake` : an outage that the collector never saw.
-/

namespace SyncProvider.Android

namespace Runtime

variable {accepts : HttpRequest → Bool} {s s' : Runtime}

/-- The timer is between two of its steps. -/
def TimerIdle (s : Runtime) : Prop := ∀ k ∈ s.tasks, k.isTimerStep = false

/-- No callback, no step of the collector and none of the timer is to come. -/
structure Heard (s : Runtime) : Prop where
  callbacks : s.monitor.callbacks = []
  watch : ∀ w ∈ s.connectivityWatch, w = .waiting (some s.monitor.state)
  timer : s.TimerIdle

def online (s : Runtime) : Bool := s.cm.extractCurrentSnapshot.isOnline

/-- When all has been heard and the system is online, no wake is owed. -/
def OfflineWakeKept (s : Runtime) : Prop :=
  0 < s.attachedEngines → s.Heard → s.online = true → s.retryTimer.wakeOwed = false

/-- The step, when it leaves nothing to come with the system online, gets the
return of the network through to the collector. -/
def GetsThrough (s : Runtime) : Label → Prop
  | .callback =>
    match s.monitor.callbacks with
    | [call] => s.TimerIdle → s.online = true →
      s.connectivityWatch ≠ none ∧
        s.connectivityWatch ≠ some (.waiting (some (ConnectivityMonitor.reported s.cm call)))
    | _ => True
  | .collect => s.monitor.callbacks = [] → s.TimerIdle → s.online = true →
    s.monitor.state.isOnline = true
  | .network network caps => s.Heard → { s with cm := s.cm.change network caps }.online = true →
    (s.monitor.announce (s.cm.callbacks network caps)).callbacks ≠ []
  | .activate network => s.Heard →
    { s with cm := { s.cm with activeNetwork := network } }.online = false
  | .advance u .go => s.tasks[u]? = some .fired →
    Heard { s with tasks := s.tasks.set u .dispatched } → s.online = false
  | _ => True

/-- What happens while a wake is owed gets through. -/
def OwedGetsThrough (s : Runtime) (l : Label) : Prop :=
  0 < s.attachedEngines → s.retryTimer.wakeOwed = true → s.GetsThrough l

/-! ## 1. What keeps the wake -/

theorem Heard.of_spawn {k : Task} (h : Heard (s.spawn k)) : s.Heard ∧ k.isTimerStep = false :=
  ⟨⟨h.callbacks, h.watch, fun k hk => h.timer k (List.mem_append_left _ hk)⟩,
    h.timer k TaskPool.mem_spawn_self⟩

/-- Nothing is to come after a change of the networks, if nothing was before it
and it queues no callback. -/
theorem heard_announce_iff {cm : ConnectivityManager} {calls : List NetworkCallback} :
    Heard { s with cm := cm, monitor := s.monitor.announce calls } ↔
      s.Heard ∧ (s.monitor.announce calls).callbacks = [] := by
  constructor
  · intro hheard
    refine ⟨⟨?_, ?_, hheard.timer⟩, hheard.callbacks⟩
    · refine List.eq_nil_iff_forall_not_mem.mpr fun call hcall => ?_
      have hmem := s.monitor.callbacks_subset_announce calls hcall
      rw [show (s.monitor.announce calls).callbacks = [] from hheard.callbacks] at hmem
      cases hmem
    · have hwatch := hheard.watch
      rwa [ConnectivityMonitor.state_announce] at hwatch
  · rintro ⟨hheard, hnil⟩
    refine ⟨hnil, ?_, hheard.timer⟩
    have hwatch := hheard.watch
    rwa [← ConnectivityMonitor.state_announce s.monitor] at hwatch

/-- Nothing is to come after a callback, if it was the last one and the collector
has seen what it reports. -/
theorem heard_handle_iff {call : NetworkCallback} {calls : List NetworkCallback} :
    Heard { s with monitor := { s.monitor with callbacks := calls }.handle s.cm call } ↔
      calls = [] ∧
        (∀ w ∈ s.connectivityWatch,
          w = .waiting (some (ConnectivityMonitor.reported s.cm call))) ∧ s.TimerIdle := by
  constructor
  · intro hheard
    refine ⟨?_, fun w hw => ?_, hheard.timer⟩
    · have hnil := hheard.callbacks
      rwa [ConnectivityMonitor.callbacks_handle] at hnil
    · have hlast := hheard.watch w hw
      rwa [ConnectivityMonitor.state_handle] at hlast
  · rintro ⟨rfl, hwatch, htimer⟩
    refine ⟨ConnectivityMonitor.callbacks_handle .., fun w hw => ?_, htimer⟩
    rw [ConnectivityMonitor.state_handle]
    exact hwatch w hw

namespace OfflineWakeKept

theorem of_not_heard (h : ¬ s.Heard) : OfflineWakeKept s := fun _ hheard => absurd hheard h

theorem of_owed (h : s.retryTimer.wakeOwed = false) : OfflineWakeKept s := fun _ _ _ => h

/-- A step of the rest of the runtime. -/
theorem congr (hK : OfflineWakeKept s) (hattached : s'.attachedEngines = s.attachedEngines)
    (hmonitor : s'.monitor = s.monitor) (hwatch : s'.connectivityWatch = s.connectivityWatch)
    (hcm : s'.cm = s.cm) (howed : s'.retryTimer.wakeOwed = s.retryTimer.wakeOwed)
    (htimer : s'.TimerIdle → s.TimerIdle) : OfflineWakeKept s' := by
  intro hattached' hheard honline
  rw [howed]
  refine hK (hattached ▸ hattached') ⟨?_, ?_, htimer hheard.timer⟩ ?_
  · rw [← hmonitor]
    exact hheard.callbacks
  · rw [← hmonitor, ← hwatch]
    exact hheard.watch
  · rwa [online, ← hcm]

theorem spawn (hK : OfflineWakeKept s) (k : Task) : OfflineWakeKept (s.spawn k) :=
  hK.congr rfl rfl rfl rfl rfl fun h k hk => h k (List.mem_append_left _ hk)

/-- A task that is none of the timer takes a step. -/
theorem set (hK : OfflineWakeKept s) {u : Nat} {k k' : Task} (h : s.tasks[u]? = some k)
    (hk : k.isTimerStep = false) : OfflineWakeKept { s with tasks := s.tasks.set u k' } := by
  refine hK.congr rfl rfl rfl rfl rfl fun hidle x hx => ?_
  by_cases hxk : x = k
  · subst hxk
    exact hk
  · exact hidle x (TaskPool.mem_set_of_ne h hx hxk)

/-- The timer is about to take another step. -/
theorem of_timer {u : Nat} {k k' : Task} (h : s.tasks[u]? = some k)
    (hk' : k'.isTimerStep = true) : OfflineWakeKept { s' with tasks := s.tasks.set u k' } := by
  refine of_not_heard fun hheard => ?_
  have hidle := hheard.timer k' (TaskPool.mem_set_self h)
  rw [hk'] at hidle
  cases hidle

theorem advance (hK : OfflineWakeKept s) {u : Nat} {ev : TaskEvent} {k k' : Task}
    (h : s.tasks[u]? = some k) (hthrough : s.OwedGetsThrough (.advance u ev))
    (hadvance : Advances accepts s k ev s' k') :
    OfflineWakeKept { s' with tasks := s.tasks.set u k' } := by
  cases hadvance with
  | cancelHalted | cancelEmpty | cancelPaused | arm | deliver => exact of_owed rfl
  | delivered howed => exact of_owed howed
  | offline | owe | returned => exact of_timer h rfl
  | online honline =>
    -- the flush is launched, whatever an earlier timer owes
    intro hattached hheard honline'
    rw [← Bool.not_eq_true]
    intro howed
    have hoffline := hthrough hattached howed h hheard
    rw [show s.online = true from honline'] at hoffline
    cases hoffline
  | stillOffline hoffline =>
    intro _ _ honline
    have honline : s.cm.extractCurrentSnapshot.isOnline = true := honline
    rw [ConnectivityManager.isOnline_extractCurrentSnapshot, hoffline] at honline
    cases honline
  | recover | dispatch => exact (hK.set h rfl).congr rfl rfl rfl rfl rfl id
  | halt | ask | read | readFails | unattended | recovered => exact hK.set h rfl

theorem step (hK : OfflineWakeKept s) {l : Label} (hthrough : s.OwedGetsThrough l)
    (h : s.step accepts l = some s') : OfflineWakeKept s' := by
  cases l with
  | engine l =>
    obtain ⟨hl, e, he, rfl⟩ := step_engine h
    exact hK.congr rfl rfl rfl rfl rfl id
  | finish t =>
    obtain ⟨e, notBefore, he, -, rfl⟩ := step_finish h
    refine spawn ?_ _
    exact hK.congr rfl rfl rfl rfl rfl id
  | attachEngine =>
    have hA := step_attachEngine h
    rcases hA.watch with ⟨-, hwatch⟩ | ⟨hattached, hmonitor, hwatch⟩
    · -- the new collector has yet to see the first value
      refine of_not_heard fun hheard => ?_
      exact absurd (hheard.watch _ hwatch) (by rintro ⟨⟩)
    · intro _ hheard honline
      rw [hA.retryTimer]
      refine hK hattached ⟨hmonitor ▸ hheard.callbacks, ?_, fun k hk => hheard.timer k ?_⟩ ?_
      · rw [← hmonitor, ← hwatch]
        exact hheard.watch
      · rcases hA.tasks with ⟨htasks, -⟩ | htasks
        · rwa [htasks]
        · rw [htasks]
          exact List.mem_append_left _ hk
      · rwa [online, ← hA.cm]
  | detachEngine =>
    simp only [Runtime.step, Option.ite_none_left_eq_some] at h
    obtain ⟨hattached, h⟩ := h
    split at h
    · split at h <;> cases h
      all_goals exact of_owed rfl
    · cases h
      intro _ hheard honline
      exact hK (Nat.pos_of_ne_zero hattached) ⟨hheard.callbacks, hheard.watch, hheard.timer⟩ honline
  | pause | resume | configure options credentials =>
    cases h
    refine spawn ?_ _
    exact hK.congr rfl rfl rfl rfl rfl id
  | recoverSecret options credentials =>
    simp only [Runtime.step, Option.ite_none_right_eq_some] at h
    obtain ⟨-, h⟩ := h
    cases h
    exact hK.congr rfl rfl rfl rfl rfl id
  | advance u ev =>
    obtain ⟨k, s₁, k', hk, hadvance, rfl⟩ := step_advance h
    exact advance hK hk hthrough hadvance
  | tick ms =>
    cases h
    exact hK.congr rfl rfl rfl rfl rfl id
  | fire =>
    obtain ⟨due, hdue, rfl⟩ := Option.map_eq_some_iff.mp h
    refine of_not_heard fun hheard => ?_
    exact absurd hheard.of_spawn.2 (by rintro ⟨⟩)
  | network network caps =>
    cases h
    intro hattached hheard honline
    rw [← Bool.not_eq_true]
    intro howed
    obtain ⟨hquiet, hnil⟩ := heard_announce_iff.mp hheard
    exact hthrough hattached howed hquiet honline hnil
  | activate network =>
    cases h
    intro hattached hheard honline
    rw [← Bool.not_eq_true]
    intro howed
    have hoffline := hthrough hattached howed ⟨hheard.callbacks, hheard.watch, hheard.timer⟩
    rw [honline] at hoffline
    cases hoffline
  | callback =>
    simp only [Runtime.step] at h
    split at h
    case h_1 => cases h
    case h_2 call calls hcalls =>
      cases h
      intro hattached hheard honline
      rw [← Bool.not_eq_true]
      intro howed
      obtain ⟨rfl, hwatch, htimer⟩ := heard_handle_iff.mp hheard
      have hgets := hthrough hattached howed
      simp only [GetsThrough, hcalls] at hgets
      obtain ⟨hsome, hne⟩ := hgets htimer honline
      obtain ⟨w, hw⟩ := Option.ne_none_iff_exists'.mp hsome
      refine hne ?_
      rw [hw, hwatch w hw]
  | collect =>
    simp only [Runtime.step] at h
    split at h
    case h_2 => cases h
    case h_1 last hlast =>
      split at h <;> cases h
      intro hattached hheard honline
      rw [← Bool.not_eq_true]
      intro howed
      have hseen := hthrough hattached howed hheard.callbacks hheard.timer honline
      have hwatch := hheard.watch _ rfl
      rw [if_pos hseen] at hwatch
      cases hwatch
  | deliver =>
    simp only [Runtime.step] at h
    split at h
    · split at h <;> cases h
      · exact of_owed rfl
      · rename_i howed
        exact of_owed (by simpa using howed)
    · cases h

end OfflineWakeKept

/-- The step gets through, if the wake is kept after it. -/
theorem OwedGetsThrough.of_kept {l : Label} (h : s.step accepts l = some s')
    (hK : OfflineWakeKept s') : s.OwedGetsThrough l := by
  intro hattached howed
  have stranded {s' : Runtime} (hK : OfflineWakeKept s')
      (hattached' : s'.attachedEngines = s.attachedEngines)
      (howed' : s'.retryTimer.wakeOwed = s.retryTimer.wakeOwed) (hheard : s'.Heard)
      (honline : s'.online = true) : False := by
    have hkept := hK (hattached' ▸ hattached) hheard honline
    rw [howed', howed] at hkept
    cases hkept
  cases l with
  | callback =>
    simp only [GetsThrough]
    split
    case h_2 => trivial
    case h_1 call hcalls =>
      intro htimer honline
      simp only [Runtime.step, hcalls, Option.some.injEq] at h
      subst h
      by_contra hnot
      refine stranded hK rfl rfl (heard_handle_iff.mpr ⟨rfl, fun w hw => ?_, htimer⟩) honline
      have hsome : s.connectivityWatch = some w := hw
      rw [hsome] at hnot
      by_contra hne
      exact hnot ⟨(by rintro ⟨⟩), fun heq => hne (Option.some.inj heq)⟩
  | collect =>
    intro hcallbacks htimer honline
    simp only [Runtime.step] at h
    split at h
    case h_2 => cases h
    case h_1 last hlast =>
      split at h <;> cases h
      by_contra hoffline
      refine stranded hK rfl rfl ⟨hcallbacks, fun w hw => ?_, htimer⟩ honline
      rw [if_neg hoffline] at hw
      cases hw
      rfl
  | network network caps =>
    cases h
    intro hheard honline hnil
    exact stranded hK rfl rfl (heard_announce_iff.mpr ⟨hheard, hnil⟩) honline
  | activate network =>
    cases h
    intro hheard
    rw [← Bool.not_eq_true]
    intro honline
    exact stranded hK rfl rfl ⟨hheard.callbacks, hheard.watch, hheard.timer⟩ honline
  | advance u ev =>
    cases ev with
    | go =>
      intro hfired hheard
      obtain ⟨k, s₁, k', hk, hadvance, rfl⟩ := step_advance h
      obtain rfl : k = .fired := Option.some.inj (hk.symm.trans hfired)
      rw [← Bool.not_eq_true]
      intro honline
      cases hadvance with
      | online => exact stranded hK rfl rfl hheard honline
      | offline hoffline =>
        have hon : s.cm.extractCurrentSnapshot.isOnline = true := honline
        rw [ConnectivityManager.isOnline_extractCurrentSnapshot, hoffline] at hon
        cases hon
    | _ => trivial
  | _ => trivial

/-! ## 2. Owed wakes over a run -/

/-- Along every run: no state in which no callback, no step of the collector and
none of the timer is to come has the system online, an engine attached and a
wake owed, exactly when whatever happens last while a wake is owed gets the
return of the network through to the collector. -/
theorem offline_wake_kept_iff {s₀ : Runtime} {ls : List Label} (h : Launch s₀)
    (hrun : StepSystem.exec (step accepts) s₀ ls = some s) :
    StepSystem.Always (step accepts) OfflineWakeKept s₀ ls ↔
      StepSystem.Meets (step accepts) OwedGetsThrough s₀ ls := by
  let D (_ : Runtime) (_ : Label) : Prop := True
  have hD : StepSystem.Meets (step accepts) D s₀ ls := StepSystem.meets_of_forall fun _ _ => trivial
  have h0 : OfflineWakeKept s₀ := by
    intro hattached
    rw [h.attachedEngines] at hattached
    cases hattached
  exact StepSystem.always_iff_meets (D := D) (fun hK _ hthrough hs => hK.step hthrough hs) id
    (fun _ _ hs hK => .of_kept hs hK) h0 hD hrun

section Sample

instance decidableTimerIdle (s : Runtime) : Decidable s.TimerIdle := by
  unfold TimerIdle
  infer_instance

instance decidableHeard (s : Runtime) : Decidable s.Heard :=
  decidable_of_iff (s.monitor.callbacks = [] ∧
      (∀ w ∈ s.connectivityWatch, w = .waiting (some s.monitor.state)) ∧ s.TimerIdle)
    ⟨fun ⟨h₁, h₂, h₃⟩ => ⟨h₁, h₂, h₃⟩, fun ⟨h₁, h₂, h₃⟩ => ⟨h₁, h₂, h₃⟩⟩

def decidableCallback (s : Runtime) :
    (calls : List NetworkCallback) → Decidable (match calls with
      | [call] => s.TimerIdle → s.online = true →
        s.connectivityWatch ≠ none ∧
          s.connectivityWatch ≠ some (.waiting (some (ConnectivityMonitor.reported s.cm call)))
      | _ => True)
  | [] | _ :: _ :: _ => isTrue trivial
  | [call] => inferInstanceAs (Decidable (s.TimerIdle → s.online = true →
      s.connectivityWatch ≠ none ∧
        s.connectivityWatch ≠ some (.waiting (some (ConnectivityMonitor.reported s.cm call)))))

instance decidableGetsThrough (s : Runtime) : (l : Label) → Decidable (s.GetsThrough l)
  | .callback => decidableCallback s s.monitor.callbacks
  | .collect => inferInstanceAs (Decidable
      (s.monitor.callbacks = [] → s.TimerIdle → s.online = true → s.monitor.state.isOnline = true))
  | .network network caps => inferInstanceAs (Decidable
      (s.Heard → { s with cm := s.cm.change network caps }.online = true →
        (s.monitor.announce (s.cm.callbacks network caps)).callbacks ≠ []))
  | .activate network => inferInstanceAs (Decidable
      (s.Heard → { s with cm := { s.cm with activeNetwork := network } }.online = false))
  | .advance u .go => inferInstanceAs (Decidable (s.tasks[u]? = some .fired →
      Heard { s with tasks := s.tasks.set u .dispatched } → s.online = false))
  | .advance _ .readFails | .advance _ (.call _) | .engine _ | .finish _ | .attachEngine
  | .detachEngine | .pause | .resume | .configure _ _ | .recoverSecret _ _ | .tick _ | .fire
  | .deliver => isTrue trivial

instance decidableOwedGetsThrough (s : Runtime) (l : Label) : Decidable (s.OwedGetsThrough l) :=
  inferInstanceAs
    (Decidable (0 < s.attachedEngines → s.retryTimer.wakeOwed = true → s.GetsThrough l))

/-- The row cools down until 3100, the collector has seen the wifi, and the wifi
is lost. The timer fires, and what it finds is an outage. -/
def fireOfflineRun : List Label :=
  recoverRun ++ claimRun ++ [.configure Engine.sampleOptions .TRUSTED, .advance 1 .go,
    .advance 1 .go, .advance 1 .go] ++ rescheduleRun ++
    [.callback, .callback, .collect, .deliver, .network 1 none, .activate none, .tick 1000, .fire,
      .advance 3 .go, .advance 3 .go, .advance 3 .go]

/-- The collector sees the outage, then the wifi is back. -/
def seenOutageRun : List Label :=
  fireOfflineRun ++ [.callback, .collect, .network 2 (some wifi), .activate (some 2), .callback,
    .callback, .collect, .deliver]

theorem offline_wake_kept_when_seen :
    StepSystem.Always (step fun _ => true) OfflineWakeKept coldStart
        (.attachEngine :: seenOutageRun) ∧
      (StepSystem.exec (step fun _ => true) coldStart (.attachEngine :: seenOutageRun)).map
        (fun s => (s.tasks, s.retryTimer.wakeOwed)) =
          some ([.done, .done, .done, .done, .dispatched], false) := by
  have hthrough : StepSystem.Meets (step fun _ => true) OwedGetsThrough coldStart
      (.attachEngine :: seenOutageRun) := by decide +kernel
  have htasks : (StepSystem.exec (step fun _ => true) coldStart
      (.attachEngine :: seenOutageRun)).map (fun s => (s.tasks, s.retryTimer.wakeOwed)) =
        some ([.done, .done, .done, .done, .dispatched], false) := by decide +kernel
  obtain ⟨s, hrun, -⟩ := Option.map_eq_some_iff.mp htasks
  exact ⟨(offline_wake_kept_iff coldStart_launch hrun).mpr hthrough, htasks⟩

/-! ## 3. An outage that the collector never saw -/

/-- The wifi is back before the collector runs. -/
def conflatedRun : List Label :=
  fireOfflineRun ++ [.network 2 (some wifi), .activate (some 2), .callback, .callback, .callback]

/-- Everything has been heard and the system is online. The flow has the value
the collector saw last, and the wake is still owed. -/
theorem conflated_outage_strands_wake :
    Launch coldStart ∧
    ∃ s, StepSystem.exec (step fun _ => true) coldStart (.attachEngine :: conflatedRun) = some s ∧
      s.Heard ∧ 0 < s.attachedEngines ∧ s.cm.extractCurrentSnapshot.status = .CONNECTED ∧
      s.retryTimer = { waiting := none, wakeOwed := true } ∧ (∀ k ∈ s.tasks, k = .done) ∧
      SyncItemDao.nextRetryDeadline s.engine.world.table = some 3100 ∧
      ¬ OfflineWakeKept s := by
  refine ⟨coldStart_launch, ?_⟩
  obtain ⟨s, hrun, hs⟩ : ∃ s, StepSystem.exec (step fun _ => true) coldStart
        (.attachEngine :: conflatedRun) = some s ∧
      decide (s.Heard ∧ 0 < s.attachedEngines ∧ s.cm.extractCurrentSnapshot.status = .CONNECTED ∧
        s.retryTimer = { waiting := none, wakeOwed := true } ∧ (∀ k ∈ s.tasks, k = .done) ∧
        SyncItemDao.nextRetryDeadline s.engine.world.table = some 3100 ∧ s.online = true) = true :=
    Option.map_eq_some_iff.mp (by decide +kernel)
  obtain ⟨hheard, hattached, hstatus, htimer, htasks, hdeadline, honline⟩ := of_decide_eq_true hs
  refine ⟨s, hrun, hheard, hattached, hstatus, htimer, htasks, hdeadline, fun hK => ?_⟩
  have hkept := hK hattached hheard honline
  rw [htimer] at hkept
  cases hkept

end Sample

end Runtime

end SyncProvider.Android
