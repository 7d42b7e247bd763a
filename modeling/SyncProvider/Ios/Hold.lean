import SyncProvider.Ios.RetryWake
import SyncProvider.Ios.Rejection

/-!
# iOS: a credential hold and the wakes

After a cycle whose stored credential was rejected, the engine remembers until
when nothing is to be woken, and every later re-arm respects it. A wake that was
armed before does not know of it.

Results:
1. `Kept.step` : a timer, a wake and a record of a wake wait for the holds their
   re-arm knew of.
2. `credential_hold_kept_iff` : the hold is kept exactly when every wake that
   starts a cycle while it lasts comes from a re-arm that knew of it.
3. `recorded_wake_breaks_hold` : a wake that was recorded offline before.
-/

namespace SyncProvider.Ios

/-! ## The hold, as it is observed -/

/-- A hold, with the re-arm that was called for it. -/
structure Hold where
  ends : Int
  ticket : Nat
  /-- `configure` was called while the re-arm was under way. -/
  lifted : Bool
  deriving DecidableEq

/-- The re-arm that set the timer of a wake, and when it did. -/
structure WakeOrigin where
  ticket : Nat
  armedAt : Int
  deriving DecidableEq

/-- The re-arm drew its ticket when the engine knew of the hold, and the timer can
wait that long. -/
def WakeOrigin.Knows (origin : WakeOrigin) (hold : Hold) : Prop :=
  hold.lifted = false ∧ hold.ticket ≤ origin.ticket ∧ hold.ends ≤ origin.armedAt + (2 ^ 31 - 1)

/-- A run, and what is to be said about it. -/
structure Observed where
  engine : SyncEngine
  /-- The holds of the re-arms under way, by their tasks. -/
  owed : Nat → Option Hold
  /-- The holds of the re-arms that are done, since the last `configure`. -/
  holds : List Hold
  /-- Where the timer, the recorded wake and each wake under way come from. -/
  timer : WakeOrigin
  awaiting : WakeOrigin
  wakes : Nat → WakeOrigin

namespace SyncEngine

/-- A call of `flush` starts a cycle now. -/
def startsCycle (s : SyncEngine) (recovered : Option StringMap) : Bool :=
  !s.engine.paused && (restoreCredentialsIfNeeded s.engine.config recovered).isSome &&
    !s.engine.world.isCycleRunning

/-- The timer does not fire before it is due. -/
def Punctual (s : SyncEngine) (l : Label) : Prop := l = .fire → ∀ due ∈ s.timer, due ≤ s.now

end SyncEngine

namespace Observed

def start (s : SyncEngine) : Observed where
  engine := s
  owed _ := none
  holds := []
  timer := ⟨0, 0⟩
  awaiting := ⟨0, 0⟩
  wakes _ := ⟨0, 0⟩

def owedAfter (o : Observed) : SyncEngine.Label → Nat → Option Hold
  | .advance u .go =>
    match o.engine.tasks[u]? with
    | some (.rearm _ (some notBefore)) =>
      Function.update o.owed u (some ⟨notBefore, o.engine.rearmTicket + 1, false⟩)
    | some (.decided _ _ _) => Function.update o.owed u none
    | _ => o.owed
  | .advance u .readFails => Function.update o.owed u none
  | .configure _ _ => fun u => (o.owed u).map fun hold => { hold with lifted := true }
  | _ => o.owed

def holdsAfter (o : Observed) : SyncEngine.Label → List Hold
  | .advance u .go =>
    match o.engine.tasks[u]? with
    | some (.decided _ _ _) => o.holds ++ (o.owed u).toList
    | _ => o.holds
  | .advance u .readFails => o.holds ++ (o.owed u).toList
  | .configure _ _ => []
  | _ => o.holds

def timerAfter (o : Observed) : SyncEngine.Label → WakeOrigin
  | .advance u .go =>
    match o.engine.tasks[u]? with
    | some (.decided ticket _ (some _)) =>
      if ticket = o.engine.rearmTicket then ⟨ticket, o.engine.now⟩ else o.timer
    | _ => o.timer
  | _ => o.timer

def awaitingAfter (o : Observed) : SyncEngine.Label → WakeOrigin
  | .advance u .go =>
    match o.engine.tasks[u]? with
    | some .firedOffline => o.wakes u
    | _ => o.awaiting
  | _ => o.awaiting

def wakesAfter (o : Observed) : SyncEngine.Label → Nat → WakeOrigin
  | .fire => Function.update o.wakes o.engine.tasks.length o.timer
  | .listen => Function.update o.wakes o.engine.tasks.length o.awaiting
  | _ => o.wakes

def step (scheme : String → Option String) (o : Observed) (l : SyncEngine.Label) :
    Option Observed :=
  (o.engine.step scheme l).map fun s =>
    { engine := s
      owed := o.owedAfter l
      holds := o.holdsAfter l
      timer := o.timerAfter l
      awaiting := o.awaitingAfter l
      wakes := o.wakesAfter l }

/-- The task of the wake that starts a cycle in this step. -/
def wakeStarts (o : Observed) : SyncEngine.Label → Option Nat
  | .advance u (.flush _ recovered _) =>
    if o.engine.tasks[u]? = some .firedOnline ∧ o.engine.startsCycle recovered then some u else none
  | _ => none

/-- No wake starts a cycle before the end of a hold. -/
def Respects (o : Observed) (l : SyncEngine.Label) : Prop :=
  ∀ u ∈ o.wakeStarts l, ∀ hold ∈ o.holds, hold.ends ≤ o.engine.now

/-- A wake that starts a cycle before the end of a hold knows of the hold. -/
def Informed (o : Observed) (l : SyncEngine.Label) : Prop :=
  ∀ u ∈ o.wakeStarts l, ∀ hold ∈ o.holds, o.engine.now < hold.ends → (o.wakes u).Knows hold

/-- The hold of a re-arm that is under way or done. -/
def Live (o : Observed) (hold : Hold) : Prop := hold ∈ o.holds ∨ ∃ u, o.owed u = some hold

/-- The instant is not before the end of a hold that the origin knows of. -/
def Late (o : Observed) (origin : WakeOrigin) (instant : Int) : Prop :=
  ∀ hold, o.Live hold → origin.Knows hold → hold.ends ≤ instant

end Observed

/-! ## 1. What the wakes wait for -/

/-- The ticket a re-arm has drawn, and the hold it read with it. -/
def Task.drawn? : Task → Option (Nat × Int)
  | .ticketed _ ticket _ holdUntil | .asked _ ticket _ holdUntil _
  | .decided ticket holdUntil _ => some (ticket, holdUntil)
  | _ => none

/-- The wake of a timer, up to its flush. -/
def Task.hasFired : Task → Bool
  | .fired | .firedAttached | .firedUnpaused | .firedOffline | .firedOnline => true
  | _ => false

namespace SyncEngine

variable {scheme : String → Option String} {s s' : SyncEngine}

/-- What a step does to the tasks. -/
theorem step_tasks {l : Label} (h : s.step scheme l = some s') :
    s'.tasks = s.tasks ∨
    (∃ k, k.drawn? = none ∧ (k.hasFired = true → l = .fire ∧ s.timer.isSome = true ∨
      l = .listen ∧ s.wakeAwaitingConnectivity = true) ∧ s'.tasks = s.tasks ++ [k]) ∨
    ∃ u ev k s₁ k', l = .advance u ev ∧ s.tasks[u]? = some k ∧ Advances scheme s k ev s₁ k' ∧
      s'.tasks = s.tasks.set u k' := by
  have spawned {k : Task} (hk : k.drawn? = none) (hwake : k.hasFired = false)
      (htasks : s'.tasks = s.tasks ++ [k]) : ∃ k, k.drawn? = none ∧ (k.hasFired = true →
        l = .fire ∧ s.timer.isSome = true ∨ l = .listen ∧ s.wakeAwaitingConnectivity = true) ∧
          s'.tasks = s.tasks ++ [k] :=
    ⟨k, hk, fun h => absurd (hwake.symm.trans h) Bool.false_ne_true, htasks⟩
  cases l with
  | engine l =>
    obtain ⟨-, e, he, rfl⟩ := step_engine h
    exact .inl rfl
  | finish t =>
    obtain ⟨e, notBefore, he, -, -, rfl⟩ := step_finish h
    exact .inr (.inl (spawned rfl rfl rfl))
  | attachHybrid | pause | resume | configure isManual config =>
    cases h
    exact .inr (.inl (spawned rfl rfl rfl))
  | detachHybrid =>
    simp only [step, Option.some.injEq] at h
    split at h <;> subst h
    · exact .inr (.inl (spawned rfl rfl rfl))
    · exact .inl rfl
  | advance u ev =>
    obtain ⟨k, s₁, k', hk, hadvance, rfl⟩ := step_advance h
    exact .inr (.inr ⟨u, ev, k, s₁, k', rfl, hk, hadvance, rfl⟩)
  | tick ms =>
    cases h
    exact .inl rfl
  | fire =>
    obtain ⟨due, hdue, rfl⟩ := Option.map_eq_some_iff.mp h
    exact .inr (.inl ⟨_, rfl, fun _ => .inl ⟨rfl, by rw [hdue]; rfl⟩, rfl⟩)
  | pathUpdate status =>
    simp only [step] at h
    split at h <;> cases h
    exact .inl rfl
  | listen =>
    simp only [step, Option.ite_none_right_eq_some] at h
    obtain ⟨-, h⟩ := h
    split at h
    · split at h <;> cases h
      · rename_i hwake
        exact .inr (.inl ⟨_, rfl, fun _ => .inr ⟨rfl, hwake⟩, rfl⟩)
      · exact .inl rfl
    · cases h
      exact .inl rfl

/-- A re-arm keeps its ticket and its hold from the moment it draws them. -/
theorem drawn_of_step {l : Label} {u : Nat} {k' : Task} {ticket : Nat} {holdUntil : Int}
    (h : s.step scheme l = some s') (hk' : s'.tasks[u]? = some k')
    (hdrawn : k'.drawn? = some (ticket, holdUntil)) :
    (∃ k, s.tasks[u]? = some k ∧ k.drawn? = some (ticket, holdUntil)) ∨
      ∃ scope notBefore, l = .advance u .go ∧ s.tasks[u]? = some (.rearm scope notBefore) ∧
        ticket = s.rearmTicket + 1 ∧ holdUntil = max s.credentialHoldUntil (notBefore.getD 0) := by
  rcases step_tasks h with
    htasks | ⟨k, hk, -, htasks⟩ | ⟨v, ev, k, s₁, k₁, rfl, hk, hadvance, htasks⟩
  · rw [htasks] at hk'
    exact .inl ⟨k', hk', hdrawn⟩
  · rw [htasks] at hk'
    rcases TaskPool.of_getElem?_spawn hk' with hk' | rfl
    · exact .inl ⟨k', hk', hdrawn⟩
    · rw [hk] at hdrawn
      cases hdrawn
  · rw [htasks] at hk'
    rcases TaskPool.of_getElem?_set hk' with hk' | ⟨rfl, rfl⟩
    · exact .inl ⟨k', hk', hdrawn⟩
    · cases hadvance with
      | draw scope notBefore =>
        cases hdrawn
        exact .inr ⟨scope, notBefore, rfl, hk, rfl, rfl⟩
      | ask | read =>
        cases hdrawn
        exact .inl ⟨_, hk, rfl⟩
      | _ => cases hdrawn

/-- A wake under way was under way before, or the timer or the record is its start. -/
theorem fired_of_step {l : Label} {u : Nat} {k' : Task} (h : s.step scheme l = some s')
    (hk' : s'.tasks[u]? = some k') (hfired : k'.hasFired = true) :
    (∃ k, s.tasks[u]? = some k ∧ k.hasFired = true) ∨ u = s.tasks.length ∧
      (l = .fire ∧ s.timer.isSome = true ∨ l = .listen ∧ s.wakeAwaitingConnectivity = true) := by
  rcases step_tasks h with
    htasks | ⟨k, -, hk, htasks⟩ | ⟨v, ev, k, s₁, k₁, rfl, hk, hadvance, htasks⟩
  · rw [htasks] at hk'
    exact .inl ⟨k', hk', hfired⟩
  · rw [htasks, List.getElem?_append] at hk'
    split at hk'
    · exact .inl ⟨k', hk', hfired⟩
    · rename_i hlen
      obtain ⟨hpos, rfl⟩ := List.getElem?_eq_some_iff.mp hk'
      rw [List.length_singleton] at hpos
      refine .inr ⟨by omega, hk ?_⟩
      rwa [List.getElem_singleton] at hfired
  · rw [htasks] at hk'
    rcases TaskPool.of_getElem?_set hk' with hk' | ⟨rfl, rfl⟩
    · exact .inl ⟨k', hk', hfired⟩
    · cases hadvance with
      | attached | unpaused | online | offline => exact .inl ⟨_, hk, rfl⟩
      | _ => cases hfired

/-- The timer, the recorded wake and what the re-arms read stay. -/
structure Beside (s s' : SyncEngine) : Prop where
  timer : s'.timer = s.timer
  awaiting : s'.wakeAwaitingConnectivity = s.wakeAwaitingConnectivity
  ticket : s'.rearmTicket = s.rearmTicket
  hold : s'.credentialHoldUntil = s.credentialHoldUntil
  now : s'.now = s.now

/-- The labels that reach the timer, or what decides about it. -/
def Label.isTiming : Label → Bool
  | .advance _ _ | .tick _ | .fire | .listen | .configure _ _ => true
  | _ => false

theorem step_beside {l : Label} (h : s.step scheme l = some s') (hl : l.isTiming = false) :
    Beside s s' := by
  cases l with
  | engine l =>
    obtain ⟨-, e, he, rfl⟩ := step_engine h
    exact ⟨rfl, rfl, rfl, rfl, rfl⟩
  | finish t =>
    obtain ⟨e, notBefore, he, -, -, rfl⟩ := step_finish h
    exact ⟨rfl, rfl, rfl, rfl, rfl⟩
  | attachHybrid | pause | resume =>
    cases h
    exact ⟨rfl, rfl, rfl, rfl, rfl⟩
  | detachHybrid =>
    simp only [step, Option.some.injEq] at h
    split at h <;> subst h <;> exact ⟨rfl, rfl, rfl, rfl, rfl⟩
  | pathUpdate status =>
    simp only [step] at h
    split at h <;> cases h
    exact ⟨rfl, rfl, rfl, rfl, rfl⟩
  | advance u ev | tick ms | fire | listen | configure isManual config => cases hl

/-- The listener takes the record of a wake, and touches nothing else of these. -/
theorem step_listen (h : s.step scheme .listen = some s') : s'.timer = s.timer ∧
    s'.rearmTicket = s.rearmTicket ∧ s'.credentialHoldUntil = s.credentialHoldUntil ∧
    s'.now = s.now ∧ (s'.wakeAwaitingConnectivity = true → s.wakeAwaitingConnectivity = true) := by
  simp only [step, Option.ite_none_right_eq_some] at h
  obtain ⟨-, h⟩ := h
  split at h
  · split at h <;> cases h <;> exact ⟨rfl, rfl, rfl, rfl, by rintro ⟨⟩⟩
  · cases h
    exact ⟨rfl, rfl, rfl, rfl, fun h => h⟩

/-- The timer keeps its instant, or a re-arm with the newest ticket sets it. -/
theorem timer_of_step {l : Label} {due : Int} (h : s.step scheme l = some s')
    (hdue : s'.timer = some due) : s.timer = some due ∨
      ∃ u holdUntil wakeAt, l = .advance u .go ∧
        s.tasks[u]? = some (.decided s.rearmTicket holdUntil (some wakeAt)) ∧
        due = arm s.now (max 0 (max wakeAt holdUntil - s.now)) := by
  cases hl : l.isTiming with
  | false => exact .inl ((step_beside h hl).timer ▸ hdue)
  | true =>
    cases l with
    | advance u ev =>
      obtain ⟨k, s₁, k', hk, hadvance, rfl⟩ := step_advance h
      cases hadvance with
      | arm holdUntil wakeAt =>
        exact .inr ⟨u, holdUntil, wakeAt, rfl, hk, (Option.some.inj hdue).symm⟩
      | cancel | disarmDetached | disarmPaused => cases hdue
      | _ => exact .inl hdue
    | configure isManual config | tick ms =>
      cases h
      exact .inl hdue
    | fire =>
      obtain ⟨_, -, rfl⟩ := Option.map_eq_some_iff.mp h
      cases hdue
    | listen => exact .inl ((step_listen h).1 ▸ hdue)
    | _ => cases hl

theorem awaiting_of_step {l : Label} (h : s.step scheme l = some s')
    (hwake : s'.wakeAwaitingConnectivity = true) : s.wakeAwaitingConnectivity = true ∨
      ∃ u, l = .advance u .go ∧ s.tasks[u]? = some .firedOffline := by
  cases hl : l.isTiming with
  | false => exact .inl ((step_beside h hl).awaiting ▸ hwake)
  | true =>
    cases l with
    | advance u ev =>
      obtain ⟨k, s₁, k', hk, hadvance, rfl⟩ := step_advance h
      cases hadvance with
      | record => exact .inr ⟨u, rfl, hk⟩
      | cancel | disarmDetached | disarmPaused => cases hwake
      | _ => exact .inl hwake
    | configure isManual config | tick ms =>
      cases h
      exact .inl hwake
    | fire =>
      obtain ⟨_, -, rfl⟩ := Option.map_eq_some_iff.mp h
      exact .inl hwake
    | listen => exact .inl ((step_listen h).2.2.2.2 hwake)
    | _ => cases hl

theorem counters_of_step {l : Label} (h : s.step scheme l = some s') :
    s.rearmTicket ≤ s'.rearmTicket ∧ s.now ≤ s'.now ∧
      (s.credentialHoldUntil ≤ s'.credentialHoldUntil ∨
        ∃ isManual config, l = .configure isManual config) := by
  cases hl : l.isTiming with
  | false =>
    have hB := step_beside h hl
    exact ⟨hB.ticket.ge, hB.now.ge, .inl hB.hold.ge⟩
  | true =>
    cases l with
    | advance u ev =>
      obtain ⟨k, s₁, k', hk, hadvance, rfl⟩ := step_advance h
      cases hadvance with
      | draw scope notBefore => exact ⟨Nat.le_succ _, le_rfl, .inl (le_max_left _ _)⟩
      | disarmDetached | disarmPaused => exact ⟨Nat.le_succ _, le_rfl, .inl le_rfl⟩
      | _ => exact ⟨le_rfl, le_rfl, .inl le_rfl⟩
    | configure isManual config =>
      cases h
      exact ⟨le_rfl, le_rfl, .inr ⟨isManual, config, rfl⟩⟩
    | tick ms =>
      cases h
      exact ⟨le_rfl, by show s.now ≤ s.now + ms; omega, .inl le_rfl⟩
    | fire =>
      obtain ⟨_, -, rfl⟩ := Option.map_eq_some_iff.mp h
      exact ⟨le_rfl, le_rfl, .inl le_rfl⟩
    | listen =>
      obtain ⟨-, hticket, hhold, hnow, -⟩ := step_listen h
      exact ⟨hticket.ge, hnow.ge, .inl hhold.ge⟩
    | _ => cases hl

end SyncEngine

/-! ## 2. The holds the wakes know of -/

namespace Observed

variable {scheme : String → Option String} {o o' : Observed} {l : SyncEngine.Label}

theorem live_of_holdsAfter {hold : Hold} (h : hold ∈ o.holdsAfter l) :
    o.Live hold := by
  have done {u : Nat} (h : hold ∈ o.holds ++ (o.owed u).toList) : o.Live hold := by
    rcases List.mem_append.mp h with h | h
    · exact .inl h
    · exact .inr ⟨u, Option.mem_toList.mp h⟩
  unfold holdsAfter at h
  split at h
  · split at h
    · exact done h
    · exact .inl h
  · exact done h
  · cases h
  · exact .inl h

theorem owed_of_owedAfter {hold : Hold} {v : Nat}
    (h : o.owedAfter l v = some hold) (hlifted : hold.lifted = false) : o.owed v = some hold ∨
      ∃ u scope notBefore, l = .advance u .go ∧
        o.engine.tasks[u]? = some (.rearm scope (some notBefore)) ∧
        hold = ⟨notBefore, o.engine.rearmTicket + 1, false⟩ := by
  have updated {u : Nat} {owed : Option Hold} (h : Function.update o.owed u owed v = some hold) :
      o.owed v = some hold ∨ owed = some hold := by
    by_cases hu : v = u
    · rw [hu, Function.update_self] at h
      exact .inr h
    · rw [Function.update_of_ne hu] at h
      exact .inl h
  cases l with
  | advance u ev =>
    cases ev with
    | go =>
      have hcases : o.owedAfter (.advance u .go) = o.owed ∨
          o.owedAfter (.advance u .go) = Function.update o.owed u none ∨
          ∃ scope notBefore, o.engine.tasks[u]? = some (.rearm scope (some notBefore)) ∧
            o.owedAfter (.advance u .go) =
              Function.update o.owed u (some ⟨notBefore, o.engine.rearmTicket + 1, false⟩) := by
        simp only [owedAfter]
        split
        · rename_i scope notBefore hk
          exact .inr (.inr ⟨scope, notBefore, hk, rfl⟩)
        · exact .inr (.inl rfl)
        · exact .inl rfl
      rcases hcases with heq | heq | ⟨scope, notBefore, hk, heq⟩
      · exact .inl (heq ▸ h)
      · rw [heq] at h
        rcases updated h with h | h
        · exact .inl h
        · cases h
      · rw [heq] at h
        rcases updated h with h | h
        · exact .inl h
        · exact .inr ⟨u, scope, notBefore, rfl, hk, (Option.some.inj h).symm⟩
    | readFails =>
      rcases updated h with h | h
      · exact .inl h
      · cases h
    | flush t recovered nowMs => exact .inl h
  | configure isManual config =>
    obtain ⟨hold', -, rfl⟩ := Option.map_eq_some_iff.mp h
    cases hlifted
  | _ => exact .inl h

/-- A hold that `configure` has not lifted was there, or its re-arm has just drawn
its ticket. -/
theorem live_of_step {hold : Hold} (h : o.step scheme l = some o')
    (hlive : o'.Live hold) (hlifted : hold.lifted = false) : o.Live hold ∨
      ∃ u scope notBefore, l = .advance u .go ∧
        o.engine.tasks[u]? = some (.rearm scope (some notBefore)) ∧
        hold = ⟨notBefore, o.engine.rearmTicket + 1, false⟩ := by
  obtain ⟨s, -, rfl⟩ := Option.map_eq_some_iff.mp h
  rcases hlive with hmem | ⟨v, howed⟩
  · exact .inl (live_of_holdsAfter hmem)
  · rcases owed_of_owedAfter howed hlifted with howed | hnew
    · exact .inl (.inr ⟨v, howed⟩)
    · exact .inr hnew

theorem Late.mono {origin : WakeOrigin} {instant instant' : Int} (h : o.Late origin instant)
    (hlive : ∀ hold, o'.Live hold → hold.lifted = false → origin.Knows hold → o.Live hold)
    (hle : instant ≤ instant') : o'.Late origin instant' := by
  intro hold hhold hknows
  exact (h hold (hlive hold hhold hknows.1 hknows) hknows).trans hle

/-- The re-arms, the timer and the wakes wait for the holds they know of. -/
structure Kept (o : Observed) : Prop where
  known : ∀ hold, o.Live hold → hold.lifted = false → hold.ends ≤ o.engine.credentialHoldUntil
  drawn : ∀ (u : Nat) (k : Task) ticket holdUntil, o.engine.tasks[u]? = some k →
    k.drawn? = some (ticket, holdUntil) → ticket ≤ o.engine.rearmTicket ∧
      ∀ hold, o.Live hold → hold.lifted = false → hold.ticket ≤ ticket → hold.ends ≤ holdUntil
  timer : o.timer.ticket ≤ o.engine.rearmTicket ∧
    ∀ due, o.engine.timer = some due → o.Late o.timer due
  awaiting : o.awaiting.ticket ≤ o.engine.rearmTicket ∧
    (o.engine.wakeAwaitingConnectivity = true → o.Late o.awaiting o.engine.now)
  wakes : ∀ u, (o.wakes u).ticket ≤ o.engine.rearmTicket ∧
    ∀ k : Task, o.engine.tasks[u]? = some k → k.hasFired = true → o.Late (o.wakes u) o.engine.now

namespace Kept

/-- What an origin from before the step knows of was there before the step. -/
theorem live (h : o.step scheme l = some o') {hold : Hold} {ticket : Nat}
    (hticket : ticket ≤ o.engine.rearmTicket) (hlive : o'.Live hold) (hlifted : hold.lifted = false)
    (hknows : hold.ticket ≤ ticket) : o.Live hold := by
  rcases live_of_step h hlive hlifted with hlive | ⟨u, scope, notBefore, -, -, rfl⟩
  · exact hlive
  · -- the ticket is a new one
    exact absurd hknows (by show ¬ o.engine.rearmTicket + 1 ≤ ticket; omega)

theorem late (h : o.step scheme l = some o') {origin : WakeOrigin} {instant instant' : Int}
    (hticket : origin.ticket ≤ o.engine.rearmTicket) (hlate : o.Late origin instant)
    (hle : instant ≤ instant') : o'.Late origin instant' :=
  hlate.mono (fun _ hlive hlifted hknows => live h hticket hlive hlifted hknows.2.1) hle

theorem known_step (hK : Kept o) (h : o.step scheme l = some o') :
    ∀ hold, o'.Live hold → hold.lifted = false → hold.ends ≤ o'.engine.credentialHoldUntil := by
  intro hold hlive hlifted
  obtain ⟨s, hs, rfl⟩ := Option.map_eq_some_iff.mp h
  rcases live_of_step h hlive hlifted with hlive₀ | ⟨u, scope, notBefore, rfl, hk, rfl⟩
  · rcases (SyncEngine.counters_of_step hs).2.2 with hle | ⟨isManual, config, rfl⟩
    · exact (hK.known hold hlive₀ hlifted).trans hle
    · -- a hold that is left is one that `configure` has lifted
      rcases hlive with hmem | ⟨u, howed⟩
      · cases hmem
      · obtain ⟨hold', -, rfl⟩ := Option.map_eq_some_iff.mp howed
        cases hlifted
  · obtain ⟨k, s₁, k', hk', hadvance, rfl⟩ := SyncEngine.step_advance hs
    obtain rfl : .rearm scope (some notBefore) = k := Option.some.inj (hk.symm.trans hk')
    cases hadvance
    exact le_max_right _ _

theorem drawn_step (hK : Kept o) (h : o.step scheme l = some o') (u : Nat) (k : Task)
    (ticket : Nat) (holdUntil : Int) (hk : o'.engine.tasks[u]? = some k)
    (hdrawn : k.drawn? = some (ticket, holdUntil)) : ticket ≤ o'.engine.rearmTicket ∧
      ∀ hold, o'.Live hold → hold.lifted = false → hold.ticket ≤ ticket →
        hold.ends ≤ holdUntil := by
  obtain ⟨s, hs, rfl⟩ := Option.map_eq_some_iff.mp h
  rcases SyncEngine.drawn_of_step hs hk hdrawn with
    ⟨k₀, hk₀, hdrawn₀⟩ | ⟨scope, notBefore, rfl, hrearm, rfl, rfl⟩
  · obtain ⟨hticket, hholds⟩ := hK.drawn u k₀ ticket holdUntil hk₀ hdrawn₀
    refine ⟨hticket.trans (SyncEngine.counters_of_step hs).1, fun hold hlive hlifted hle => ?_⟩
    exact hholds hold (live h hticket hlive hlifted hle) hlifted hle
  · obtain ⟨k₀, s₁, k', hk₀, hadvance, rfl⟩ := SyncEngine.step_advance hs
    obtain rfl : .rearm scope notBefore = k₀ := Option.some.inj (hrearm.symm.trans hk₀)
    cases hadvance
    refine ⟨le_rfl, fun hold hlive hlifted _ => ?_⟩
    exact hK.known_step h hold hlive hlifted

/-- The origin of the timer stays, or a re-arm with the newest ticket sets the timer. -/
theorem timerAfter_cases : o.timerAfter l = o.timer ∧ (∀ u holdUntil wakeAt, l = .advance u .go →
      o.engine.tasks[u]? ≠ some (.decided o.engine.rearmTicket holdUntil (some wakeAt))) ∨
    ∃ u holdUntil wakeAt, l = .advance u .go ∧
      o.engine.tasks[u]? = some (.decided o.engine.rearmTicket holdUntil (some wakeAt)) ∧
      o.timerAfter l = ⟨o.engine.rearmTicket, o.engine.now⟩ := by
  unfold timerAfter
  split
  · rename_i u
    split
    · rename_i ticket holdUntil wakeAt hk
      split
      · rename_i hticket
        subst hticket
        exact .inr ⟨u, holdUntil, wakeAt, rfl, hk, rfl⟩
      · rename_i hticket
        refine .inl ⟨rfl, fun v holdUntil' wakeAt' hv hk' => hticket ?_⟩
        cases hv
        cases hk.symm.trans hk'
        rfl
    · rename_i hk
      refine .inl ⟨rfl, fun v holdUntil wakeAt hv hk' => ?_⟩
      cases hv
      exact hk _ _ _ hk'
  · rename_i hl
    exact .inl ⟨rfl, fun v holdUntil wakeAt hv _ => hl v hv⟩

/-- A timer that is armed waits for what its re-arm read, as far as timers reach. -/
theorem le_arm {now ends holdUntil wakeAt : Int} (hhold : ends ≤ holdUntil)
    (hreach : ends ≤ now + (2 ^ 31 - 1)) :
    ends ≤ SyncEngine.arm now (max 0 (max wakeAt holdUntil - now)) := by
  unfold SyncEngine.arm
  omega

theorem timer_step (hK : Kept o) (h : o.step scheme l = some o') :
    o'.timer.ticket ≤ o'.engine.rearmTicket ∧
      ∀ due, o'.engine.timer = some due → o'.Late o'.timer due := by
  obtain ⟨hticket, hlate⟩ := hK.timer
  obtain ⟨s, hs, rfl⟩ := Option.map_eq_some_iff.mp h
  have hcounters := (SyncEngine.counters_of_step hs).1
  rcases timerAfter_cases (o := o) (l := l) with
    ⟨hsame, hnone⟩ | ⟨u, holdUntil, wakeAt, rfl, hk, harmed⟩
  · have horigin := (congrArg WakeOrigin.ticket hsame).le
    refine ⟨horigin.trans (hticket.trans hcounters), fun due hdue => ?_⟩
    rcases SyncEngine.timer_of_step hs hdue with hdue₀ | ⟨u, holdUntil, wakeAt, hl, hk, -⟩
    · have hlate' := late h hticket (hlate due hdue₀) le_rfl
      rwa [← hsame] at hlate'
    · exact absurd hk (hnone u holdUntil wakeAt hl)
  · refine ⟨(congrArg WakeOrigin.ticket harmed).le.trans hcounters, fun due hdue => ?_⟩
    show Late _ (o.timerAfter (.advance u .go)) due
    rw [harmed]
    obtain ⟨k, s₁, k', hk', hadvance, rfl⟩ := SyncEngine.step_advance hs
    obtain rfl := Option.some.inj (hk.symm.trans hk')
    cases hadvance with
    | stale hstale => exact absurd rfl hstale
    | arm =>
      intro hold hlive hknows
      obtain rfl := Option.some.inj hdue
      obtain ⟨-, hholds⟩ := hK.drawn u _ _ _ hk rfl
      have hlive₀ := live h le_rfl hlive hknows.1 hknows.2.1
      exact le_arm (hholds hold hlive₀ hknows.1 hknows.2.1) hknows.2.2

/-- The origin of the record stays, or a wake that finds the device offline is
recorded. -/
theorem awaitingAfter_cases :
    o.awaitingAfter l = o.awaiting ∧ (∀ u, l = .advance u .go →
      o.engine.tasks[u]? ≠ some .firedOffline) ∨
    ∃ u, l = .advance u .go ∧ o.engine.tasks[u]? = some .firedOffline ∧
      o.awaitingAfter l = o.wakes u := by
  unfold awaitingAfter
  split
  · rename_i u
    split
    · rename_i hk
      exact .inr ⟨u, rfl, hk, rfl⟩
    · rename_i hk
      refine .inl ⟨rfl, fun v hv => ?_⟩
      cases hv
      exact hk
  · rename_i hl
    exact .inl ⟨rfl, fun v hv _ => hl v hv⟩

theorem awaiting_step (hK : Kept o) (h : o.step scheme l = some o') :
    o'.awaiting.ticket ≤ o'.engine.rearmTicket ∧
      (o'.engine.wakeAwaitingConnectivity = true → o'.Late o'.awaiting o'.engine.now) := by
  obtain ⟨hticket, hlate⟩ := hK.awaiting
  obtain ⟨s, hs, rfl⟩ := Option.map_eq_some_iff.mp h
  obtain ⟨hcounters, hnow, -⟩ := SyncEngine.counters_of_step hs
  rcases awaitingAfter_cases (o := o) (l := l) with ⟨hsame, hnone⟩ | ⟨u, rfl, hk, hrecord⟩
  · have horigin := (congrArg WakeOrigin.ticket hsame).le
    refine ⟨horigin.trans (hticket.trans hcounters), fun hwake => ?_⟩
    rcases SyncEngine.awaiting_of_step hs hwake with hwake₀ | ⟨u, hl, hk⟩
    · have hlate' := late h hticket (hlate hwake₀) hnow
      rwa [← hsame] at hlate'
    · exact absurd hk (hnone u hl)
  · obtain ⟨hticket, hlate⟩ := hK.wakes u
    have horigin := (congrArg WakeOrigin.ticket hrecord).le
    refine ⟨horigin.trans (hticket.trans hcounters), fun _ => ?_⟩
    have hlate' := late h hticket (hlate _ hk rfl) hnow
    rwa [← hrecord] at hlate'

theorem wakes_step (hK : Kept o) (hpunctual : o.engine.Punctual l) (h : o.step scheme l = some o')
    (u : Nat) : (o'.wakes u).ticket ≤ o'.engine.rearmTicket ∧ ∀ k : Task,
      o'.engine.tasks[u]? = some k → k.hasFired = true → o'.Late (o'.wakes u) o'.engine.now := by
  obtain ⟨hticket, hlate⟩ := hK.wakes u
  obtain ⟨s, hs, rfl⟩ := Option.map_eq_some_iff.mp h
  obtain ⟨hcounters, hnow, -⟩ := SyncEngine.counters_of_step hs
  by_cases hnew : u = o.engine.tasks.length ∧ (l = .fire ∨ l = .listen)
  · obtain ⟨rfl, rfl | rfl⟩ := hnew
    · obtain ⟨hticket, hlate⟩ := hK.timer
      have horigin : o.wakesAfter .fire o.engine.tasks.length = o.timer := Function.update_self ..
      refine ⟨(congrArg WakeOrigin.ticket horigin).le.trans (hticket.trans hcounters), ?_⟩
      intro k hk hfired
      obtain ⟨due, hdue, -⟩ := Option.map_eq_some_iff.mp hs
      have hlate' := late h hticket (hlate due hdue) ((hpunctual rfl due hdue).trans hnow)
      rwa [← horigin] at hlate'
    · obtain ⟨hticket, hlate⟩ := hK.awaiting
      have horigin : o.wakesAfter .listen o.engine.tasks.length = o.awaiting :=
        Function.update_self ..
      refine ⟨(congrArg WakeOrigin.ticket horigin).le.trans (hticket.trans hcounters), ?_⟩
      intro k hk hfired
      rcases SyncEngine.fired_of_step hs hk hfired with ⟨k₀, hk₀, -⟩ | ⟨-, ⟨hl, -⟩ | ⟨-, hwake⟩⟩
      · exact absurd (List.getElem?_eq_some_iff.mp hk₀).1 (lt_irrefl _)
      · cases hl
      · have hlate' := late h hticket (hlate hwake) hnow
        rwa [← horigin] at hlate'
  · have horigin : o.wakesAfter l u = o.wakes u := by
      cases l with
      | fire | listen =>
        refine Function.update_of_ne (fun hu => hnew ⟨hu, ?_⟩) ..
        first | exact .inl rfl | exact .inr rfl
      | _ => rfl
    refine ⟨(congrArg WakeOrigin.ticket horigin).le.trans (hticket.trans hcounters), ?_⟩
    intro k hk hfired
    rcases SyncEngine.fired_of_step hs hk hfired with
      ⟨k₀, hk₀, hfired₀⟩ | ⟨rfl, ⟨rfl, -⟩ | ⟨rfl, -⟩⟩
    · have hlate' := late h hticket (hlate k₀ hk₀ hfired₀) hnow
      rwa [← horigin] at hlate'
    · exact absurd ⟨rfl, .inl rfl⟩ hnew
    · exact absurd ⟨rfl, .inr rfl⟩ hnew

theorem step (hK : Kept o) (hpunctual : o.engine.Punctual l) (h : o.step scheme l = some o') :
    Kept o' where
  known := hK.known_step h
  drawn := hK.drawn_step h
  timer := hK.timer_step h
  awaiting := hK.awaiting_step h
  wakes := hK.wakes_step hpunctual h

end Kept

/-! ## 3. The hold is kept by the wakes that know of it -/

theorem start_kept {s : SyncEngine} (h : s.Launch) : Kept (start s) where
  known hold hlive _ := by
    rcases hlive with hmem | ⟨u, howed⟩
    · cases hmem
    · cases howed
  drawn u k ticket holdUntil hk _ := by
    have htasks : (start s).engine.tasks = [] := h.tasks
    rw [htasks] at hk
    cases hk
  timer := ⟨Nat.zero_le _, fun due hdue => by cases h.timer.symm.trans hdue⟩
  awaiting := ⟨Nat.zero_le _, fun hwake => by cases h.wakeAwaitingConnectivity.symm.trans hwake⟩
  wakes u := by
    refine ⟨Nat.zero_le _, fun k hk _ => ?_⟩
    have htasks : (start s).engine.tasks = [] := h.tasks
    rw [htasks] at hk
    cases hk

/-- The wake whose flush starts a cycle is under way. -/
theorem fired_of_wakeStarts {u : Nat} (h : u ∈ o.wakeStarts l) :
    o.engine.tasks[u]? = some .firedOnline := by
  unfold wakeStarts at h
  split at h
  · split at h
    · obtain rfl := Option.mem_some.mp h
      rename_i hwake
      exact hwake.1
    · cases h
  · cases h

/-- A wake that knows of a hold waits for its end. -/
theorem Kept.respects_iff (hK : Kept o) : o.Respects l ↔ o.Informed l := by
  constructor
  · intro h u hu hold hhold hnow
    exact absurd (h u hu hold hhold) (not_le.mpr hnow)
  · intro h u hu hold hhold
    by_contra hnow
    have hknows := h u hu hold hhold (not_le.mp hnow)
    exact hnow ((hK.wakes u).2 _ (fired_of_wakeStarts hu) rfl hold (.inl hhold) hknows)

/-- On every run whose timers are punctual, no wake starts a cycle before the end
of a hold exactly when every wake that starts a cycle while a hold lasts comes
from a re-arm that knew of the hold. -/
theorem credential_hold_kept_iff {s : SyncEngine} {ls : List SyncEngine.Label} (h : s.Launch)
    (hpunctual : StepSystem.Meets (step scheme) (fun o l => o.engine.Punctual l) (start s) ls) :
    StepSystem.Meets (step scheme) Respects (start s) ls ↔
      StepSystem.Meets (step scheme) Informed (start s) ls :=
  StepSystem.meets_congr (fun hK hl hs => hK.step hl hs) Kept.respects_iff (start_kept h) hpunctual

section Sample

instance decidablePunctual (s : SyncEngine) (l : SyncEngine.Label) : Decidable (s.Punctual l) :=
  inferInstanceAs (Decidable (l = .fire → ∀ due ∈ s.timer, due ≤ s.now))

instance decidableKnows (origin : WakeOrigin) (hold : Hold) : Decidable (origin.Knows hold) :=
  inferInstanceAs (Decidable (hold.lifted = false ∧ hold.ticket ≤ origin.ticket ∧
    hold.ends ≤ origin.armedAt + (2 ^ 31 - 1)))

instance decidableRespects (o : Observed) (l : SyncEngine.Label) : Decidable (o.Respects l) :=
  inferInstanceAs (Decidable (∀ u ∈ o.wakeStarts l, ∀ hold ∈ o.holds, hold.ends ≤ o.engine.now))

instance decidableInformed (o : Observed) (l : SyncEngine.Label) : Decidable (o.Informed l) :=
  inferInstanceAs (Decidable (∀ u ∈ o.wakeStarts l, ∀ hold ∈ o.holds,
    o.engine.now < hold.ends → (o.wakes u).Knows hold))

/-- An engine whose configuration was read back, with a row that is due. -/
def restored : SyncEngine :=
  { SyncEngine.created [SyncEngine.coolingRow] (by decide) with
    engine := { (SyncEngine.created [SyncEngine.coolingRow] (by decide)).engine with
      config := Engine.storedConfig } }

theorem restored_launch : restored.Launch := ⟨fun _ => rfl, rfl, rfl, rfl, rfl, rfl, rfl, rfl⟩

/-- A hybrid attaches, and its re-arm arms the timer for 5000. -/
def attachRun : List SyncEngine.Label :=
  [.attachHybrid, .advance 0 .go, .engine .recover, .advance 0 .go, .advance 0 .go,
    .advance 0 .go, .advance 0 .go, .advance 0 .go, .tick 4000]

/-- A flush of the JS layer at 5000 is answered 401, and the re-arm of its cycle is
task `u`. -/
def rejectedRun (u : Nat) : List SyncEngine.Label :=
  [.engine (.flush 0 none 5000), .engine (.cycle 0 (.fetch 5000)), .engine (.cycle 0 .next),
    .engine (.cycle 0 (.markInFlight 5000)), .engine (.cycle 0 .prepare), .engine (.cycle 0 .send),
    .engine (.cycle 0 (.answer (some 401) none)), .engine (.cycle 0 (.settle 0)),
    .engine (.cycle 0 (.write 5000)), .engine (.cycle 0 (.summarize 5000)), .finish 0,
    .advance u .go, .advance u .go, .advance u .go, .advance u .go]

/-- Wake `u` is on its way, and calls `flush`. -/
def wakeRun (u : Nat) (nowMs : Int) : List SyncEngine.Label :=
  [.advance u .go, .advance u .go, .advance u .go, .advance u (.flush 1 none nowMs)]

/-- The timer of the hold fires at its end. -/
def heldRun : List SyncEngine.Label :=
  attachRun ++ rejectedRun 1 ++ [.tick 60000, .fire] ++ wakeRun 2 65000

/-- The timer fires while the device is offline, and the wake is recorded. The
flush of the JS layer comes through, and then the device is reported online. -/
def recordedRun : List SyncEngine.Label :=
  [.pathUpdate .disconnected, .listen] ++ attachRun ++
    [.fire, .advance 1 .go, .advance 1 .go, .advance 1 .go, .advance 1 .go] ++ rejectedRun 2 ++
    [.pathUpdate .connected, .listen] ++ wakeRun 3 5000

/-- The wake of the hold starts a cycle, at its end. -/
theorem credential_hold_kept_iff_of_heldRun :
    StepSystem.Meets (step Engine.https) Respects (start restored) heldRun ∧
      ∃ o, StepSystem.exec (step Engine.https) (start restored) heldRun = some o ∧
        o.holds = [⟨65000, 2, false⟩] ∧ o.engine.now = 65000 ∧
        o.engine.engine.world.isCycleRunning = true := by
  have hpunctual : StepSystem.Meets (step Engine.https) (fun o l => o.engine.Punctual l)
      (start restored) heldRun := by decide +kernel
  refine ⟨(credential_hold_kept_iff restored_launch hpunctual).mpr (by decide +kernel), ?_⟩
  have hend : (StepSystem.exec (step Engine.https) (start restored) heldRun).map
      (fun o => (o.holds, o.engine.now, o.engine.engine.world.isCycleRunning)) =
        some ([⟨65000, 2, false⟩], 65000, true) := by
    decide +kernel
  obtain ⟨o, hrun, ho⟩ := Option.map_eq_some_iff.mp hend
  simp only [Prod.mk.injEq] at ho
  exact ⟨o, hrun, ho⟩

/-! ## 4. A wake that was recorded before the hold -/

/-- The re-arm of the hold has armed the timer for its end, and connectivity coming
back starts a cycle 60 seconds before. -/
theorem recorded_wake_breaks_hold :
    restored.Launch ∧
      StepSystem.Meets (step Engine.https) (fun o l => o.engine.Punctual l) (start restored)
        recordedRun ∧
      ¬StepSystem.Meets (step Engine.https) Respects (start restored) recordedRun ∧
      ∃ o, StepSystem.exec (step Engine.https) (start restored) recordedRun = some o ∧
        o.holds = [⟨65000, 2, false⟩] ∧ o.engine.now = 5000 ∧ o.engine.timer = some 65000 ∧
        o.engine.engine.world.isCycleRunning = true := by
  refine ⟨restored_launch, by decide +kernel, by decide +kernel, ?_⟩
  have hend : (StepSystem.exec (step Engine.https) (start restored) recordedRun).map
      (fun o => (o.holds, o.engine.now, o.engine.timer, o.engine.engine.world.isCycleRunning)) =
        some ([⟨65000, 2, false⟩], 5000, some 65000, true) := by
    decide +kernel
  obtain ⟨o, hrun, ho⟩ := Option.map_eq_some_iff.mp hend
  simp only [Prod.mk.injEq] at ho
  exact ⟨o, hrun, ho⟩

end Sample

end Observed

end SyncProvider.Ios
