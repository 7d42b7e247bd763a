import SyncProvider.Ios.RetryWake

/-!
# iOS: a wake that fires offline

A fired wake that finds connectivity offline records that it waits, and the next
listener call for an online snapshot takes the record back and fires it again.
The check and the record are two steps, with nothing that looks again after the
record.

Results:
1. `AnnouncedIfWaiting.step` : the record is kept only for who will be told.
2. `offline_wake_kept` : no wake is left waiting while connectivity is back.
3. `late_record_strands_wake` : a record that comes after the listener call.
-/

namespace SyncProvider.Ios

namespace SyncEngine

variable {scheme : String → Option String} {s s' : SyncEngine}

/-- A wake waits although it could be flushed. -/
def Stranded (s : SyncEngine) : Prop :=
  s.current.isOnline = true ∧ 0 < s.attachedHybrids ∧ s.engine.paused = false ∧
    s.wakeAwaitingConnectivity = true

/-- A wake is recorded only while connectivity is still offline, or the listener
has yet to hear that it is back. -/
def RecordsInTime (s : SyncEngine) : Label → Prop
  | .advance u .go =>
    s.tasks[u]? = some .firedOffline → s.current.isOnline = false ∨ s.listening = true
  | _ => True

/-! ## 1. Who waits will be told -/

/-- While a wake waits, connectivity is offline or a listener call is to come. -/
def AnnouncedIfWaiting (s : SyncEngine) : Prop :=
  s.wakeAwaitingConnectivity = true → s.current.isOnline = false ∨ s.listening = true

namespace AnnouncedIfWaiting

theorem advance (hI : AnnouncedIfWaiting s) {u : Nat} {ev : TaskEvent} {k k' : Task}
    (h : s.tasks[u]? = some k) (hintime : s.RecordsInTime (.advance u ev))
    (hadvance : Advances scheme s k ev s' k') : AnnouncedIfWaiting s' := by
  cases hadvance with
  | record => exact fun _ => hintime h
  | cancel | disarmDetached | disarmPaused => rintro ⟨⟩
  | _ => exact hI

theorem step (hI : AnnouncedIfWaiting s) {l : Label} (hintime : s.RecordsInTime l)
    (h : s.step scheme l = some s') : AnnouncedIfWaiting s' := by
  cases l with
  | engine l =>
    obtain ⟨hl, e, he, rfl⟩ := step_engine h
    exact hI
  | finish t =>
    obtain ⟨e, notBefore, he, -, -, rfl⟩ := step_finish h
    exact hI
  | attachHybrid | pause | resume | configure isManual config | tick ms =>
    cases h
    exact hI
  | detachHybrid =>
    simp only [SyncEngine.step, Option.some.injEq] at h
    split at h <;> subst h <;> exact hI
  | advance u ev =>
    obtain ⟨k, s₁, k', hk, hadvance, rfl⟩ := step_advance h
    have hI' : AnnouncedIfWaiting s₁ := hI.advance hk hintime hadvance
    exact hI'
  | fire =>
    obtain ⟨due, hdue, rfl⟩ := Option.map_eq_some_iff.mp h
    exact hI
  | pathUpdate status =>
    -- whatever the snapshot is, its listener call is to come
    simp only [SyncEngine.step] at h
    split at h <;> cases h
    exact fun _ => .inr rfl
  | listen =>
    simp only [SyncEngine.step, Option.ite_none_right_eq_some] at h
    obtain ⟨-, h⟩ := h
    split at h
    · split at h <;> cases h <;> rintro ⟨⟩
    · rename_i hoffline
      cases h
      exact fun _ => .inl (by simpa using hoffline)

end AnnouncedIfWaiting

/-! ## 2. Wakes over a run -/

/-- Along every run whose wakes are recorded in time: once the listener has heard
of every snapshot, and so in every quiescent state, no wake waits while
connectivity is online, with a hybrid attached and no pause. -/
theorem offline_wake_kept {s₀ s : SyncEngine} {ls : List Label} (h : Launch s₀)
    (hintime : StepSystem.Meets (step scheme) RecordsInTime s₀ ls)
    (hrun : StepSystem.exec (step scheme) s₀ ls = some s) (hheard : s.listening = false) :
    ¬ s.Stranded := by
  have h0 : AnnouncedIfWaiting s₀ := by
    intro hwaiting
    rw [h.wakeAwaitingConnectivity] at hwaiting
    cases hwaiting
  have hI : AnnouncedIfWaiting s :=
    StepSystem.exec_invariant_of_meets (fun hI hl hs => hI.step hl hs) h0 hintime hrun
  rintro ⟨honline, -, -, hwaiting⟩
  rcases hI hwaiting with hoffline | hlistening
  · rw [honline] at hoffline
    cases hoffline
  · rw [hheard] at hlistening
    cases hlistening

section Sample

instance decidableRecordsInTime (s : SyncEngine) :
    (l : Label) → Decidable (s.RecordsInTime l)
  | .advance u .go => inferInstanceAs (Decidable
      (s.tasks[u]? = some .firedOffline → s.current.isOnline = false ∨ s.listening = true))
  | .advance _ .readFails | .advance _ (.flush _ _ _) => isTrue trivial
  | .engine _ | .finish _ | .attachHybrid | .detachHybrid | .pause | .resume | .configure _ _
  | .tick _ | .fire | .pathUpdate _ | .listen => isTrue trivial

/-- Connectivity is lost, a hybrid attaches, the timer is armed and fires, and
the wake finds connectivity offline. -/
def fireOfflineRun : List Label :=
  [.pathUpdate .disconnected, .listen, .attachHybrid, .advance 0 .go, .engine .recover,
    .advance 0 .go, .advance 0 .go, .advance 0 .go, .advance 0 .go, .advance 0 .go, .tick 4000,
    .fire, .advance 1 .go, .advance 1 .go, .advance 1 .go]

/-- The wake is recorded, then connectivity comes back. -/
def recordInTimeRun : List Label :=
  fireOfflineRun ++ [.advance 1 .go, .pathUpdate .connected, .listen]

/-- The wake fires again. -/
theorem offline_wake_fires_again :
    ∃ s, StepSystem.exec (step Engine.https) (created [coolingRow] (by decide)) recordInTimeRun =
        some s ∧ s.tasks = [.done, .done, .fired] ∧ ¬ s.Stranded := by
  have hintime : StepSystem.Meets (step Engine.https) RecordsInTime
      (created [coolingRow] (by decide)) recordInTimeRun := by decide +kernel
  exact ⟨_, rfl, rfl, offline_wake_kept (created_launch _ _) hintime rfl rfl⟩

/-! ## 3. A record that comes too late -/

/-- Connectivity comes back between the check and the record. -/
def recordLateRun : List Label :=
  fireOfflineRun ++ [.pathUpdate .connected, .listen, .advance 1 .go]

/-- Nothing is in progress, connectivity is back, and the wake waits for the next
change. The row it was for is due. -/
theorem late_record_strands_wake :
    ∃ s, StepSystem.exec (step Engine.https) (created [coolingRow] (by decide)) recordLateRun =
        some s ∧ Quiescent s ∧ s.listening = false ∧ s.Stranded ∧ s.timer = none ∧
      s.engine.world.store.rows.map (fun r => (r.status, r.nextRetryAt)) = [(.PENDING, 5000)] ∧
      s.now = 5000 := by
  refine ⟨_, rfl, quiescent_of_no_cycle ?_ rfl, rfl, ⟨rfl, by decide, rfl, rfl⟩, rfl, ?_, rfl⟩
  · decide +kernel
  · decide +kernel

end Sample

end SyncEngine

end SyncProvider.Ios
