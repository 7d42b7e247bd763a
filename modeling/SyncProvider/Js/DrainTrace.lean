import SyncProvider.Js.DrainStops

/-!
# JS: what a drain does, in order

The events of a drain: its passes, what it starts, what it reads and how long it
has slept. They are recorded beside the run and take no part in it.

`Asks` lists what the loop can ask for next and with which locals, `Move` what a
step can do, with its events.

Results:
1. `moves_step` : what a step can do.
-/

namespace SyncProvider.Js

/-! ## The events -/

inductive Event where
  /-- A pass of the loop begins. -/
  | pass
  /-- A wait has begun, and what it is for has been started. -/
  | started (work : Work)
  /-- A native call has resolved while it was awaited. -/
  | answered (value : Value)
  /-- A sleep has come to its end, after this time. -/
  | slept (ms : ℚ)
  deriving DecidableEq

def passes (log : List Event) : Nat := log.count .pass

def flushes (log : List Event) : Nat := log.count (.started .flush)

theorem flushes_append (log events : List Event) :
    flushes (log ++ events) = flushes log + flushes events :=
  List.count_append

namespace Drain

variable {d d' : Drain}

/-- The next turn begins a pass. -/
def comesRound (d : Drain) : Bool :=
  match d.phase with
  | .settled _ (.value .flushed) | .settled _ (.value .slept) => d.sleepTimer.isNone
  | _ => false

/-- The wait that has just begun. -/
def begun (d : Drain) : List Event :=
  match d.phase with
  | .awaiting work _ => [.started work]
  | _ => []

/-- The events of a step. -/
def observed (d : Drain) : Label → List Event
  | .answer value => [.answered value]
  | .sleepTimer =>
    match d.phase with
    | .awaiting _ since => [.slept (d.clock - since)]
    | _ => []
  | .run =>
    (if d.comesRound then [.pass] else []) ++
      match d.run with
      | some d' => d'.begun
      | none => []
  | _ => []

/-- The events of the first turn. -/
def opening (options : DrainOptions) (now : ℚ) : List Event := .pass :: (start options now).begun

/-- A drain with its events so far. -/
def Traced (options : DrainOptions) (now : ℚ) (d : Drain) (log : List Event) : Prop :=
  ∃ ls, StepSystem.exec (StepSystem.recorded step observed)
    (start options now, opening options now) ls = some (d, log)

/-! ## What the loop asks for -/

/-- The loop after a queue size: the flag it goes on with, and what it asks for. -/
inductive Sized (d : Drain) (size : Int) : Bool → Work → Prop where
  | again (hsize : size = 0) : Sized d size d.cycleJustRan .isSyncingAgain
  | fresh (hsize : size ≠ 0) (hlt : (d.iterations : ℚ) < d.maxIterations)
    (hcycle : d.cycleJustRan = false) : Sized d size false .getConnectionStatus
  | pending (hsize : size ≠ 0) (hlt : (d.iterations : ℚ) < d.maxIterations)
    (hcycle : d.cycleJustRan = true) (hremoved : d.removed size ≤ 0) :
    Sized d size false .getPendingItems
  | rest (hlt : (d.iterations : ℚ) < d.maxIterations) (hcycle : d.cycleJustRan = true)
    (hremoved : 0 < d.removed size) (hdelay : 0 < d.delayBetweenCyclesMs) :
    Sized d size false (.sleep d.delayBetweenCyclesMs)
  | next (hsize : size ≠ 0) (hlt : (d.iterations : ℚ) < d.maxIterations)
    (hcycle : d.cycleJustRan = true) (hremoved : 0 < d.removed size) :
    Sized d size false .getConnectionStatus

/-- What the loop asks for next, with the pass that begins and the locals. -/
inductive Asks (d : Drain) : List Event → Drain → Work → Prop where
  | busy (hphase : d.phase = .settled .isSyncing (.value (.isSyncing true))) :
    Asks d [] d (.sleep DRAIN_IDLE_WAIT_MS)
  | size (hphase : d.phase = .settled .isSyncing (.value (.isSyncing false))) :
    Asks d [] d .getQueueSize
  | sized {size : Int} {cycleJustRan : Bool} {work : Work}
    (hphase : d.phase = .settled .getQueueSize (.value (.queueSize size)))
    (h : Sized d size cycleJustRan work) :
    Asks d [] { d.readSize size with cycleJustRan := cycleJustRan } work
  | busyAgain (hphase : d.phase = .settled .isSyncingAgain (.value (.isSyncingAgain true))) :
    Asks d [] d (.sleep DRAIN_IDLE_WAIT_MS)
  | cooled {waitMs : ℚ} (hphase : d.phase = .returned (.value waitMs)) (hpos : 0 < waitMs) :
    Asks d [] d (.sleep waitMs)
  | offline (hphase : d.phase =
      .settled .getConnectionStatus (.value (.connectionStatus .DISCONNECTED))) :
    Asks d [] d (.sleep d.idleWaitMs)
  | flush {status : ConnectionStatus}
    (hphase : d.phase = .settled .getConnectionStatus (.value (.connectionStatus status)))
    (hstatus : status ≠ .DISCONNECTED) :
    Asks d [] { d with iterations := d.iterations + 1, cycleJustRan := true } .flush
  | flushed (hphase : d.phase = .settled .flush (.value .flushed)) : Asks d [.pass] d .isSyncing
  | slept {ms : ℚ} (hphase : d.phase = .settled (.sleep ms) (.value .slept)) :
    Asks d [.pass] d .isSyncing

/-- The locals of the loop. -/
structure Locals (d d' : Drain) : Prop where
  maxIterations : d'.maxIterations = d.maxIterations
  delayBetweenCyclesMs : d'.delayBetweenCyclesMs = d.delayBetweenCyclesMs
  deadlineAt : d'.deadlineAt = d.deadlineAt
  iterations : d'.iterations = d.iterations
  itemsDispatched : d'.itemsDispatched = d.itemsDispatched
  lastSize : d'.lastSize = d.lastSize
  cycleJustRan : d'.cycleJustRan = d.cycleJustRan

end Drain

/-- The drain starts nothing any more. -/
def Phase.Over : Phase → Prop
  | .settled _ (.value _) | .returned (.value _) | .awaiting _ _ => False
  | _ => True

/-- A size has been read that the loop has not looked at. -/
def Phase.Unread : Phase → Prop
  | .settled _ (.value (.queueSize _)) => True
  | _ => False

namespace Drain

variable {d d' : Drain}

/-- What a step can do, with its events. -/
inductive Move (d : Drain) : List Event → Drain → Prop where
  | keep {d' : Drain} (hlocals : Locals d d') (hphase : d'.phase = d.phase)
    (hclock : d.clock ≤ d'.clock) : Move d [] d'
  | answered {work : Work} {since : ℚ} {value : Value} (hphase : d.phase = .awaiting work since)
    (hanswers : value.answers work = true) :
    Move d [.answered value] { d with phase := .settled work (.value value) }
  | slept {ms since : ℚ} (hphase : d.phase = .awaiting (.sleep ms) since)
    (hlong : min ms MAX_TIMER_DELAY_MS ≤ d.clock - since) :
    Move d [.slept (d.clock - since)] { d with phase := .settled (.sleep ms) (.value .slept) }
  | asks {d₀ d' : Drain} {mark : List Event} {work : Work} (hasks : Asks d mark d₀ work)
    (hgoes : ¬ d.Stopping) (hlocals : Locals d₀ d') (hphase : d'.phase = .awaiting work d.clock)
    (hclock : d'.clock = d.clock) : Move d (mark ++ [.started work]) d'
  | stops {d₀ d' : Drain} {mark : List Event} {work : Work} {cause : StopCause}
    (hasks : Asks d mark d₀ work) (hstopping : d.Stopping) (hlocals : Locals d₀ d')
    (hphase : d'.phase = .settled work (.stop cause)) (hclock : d'.clock = d.clock) :
    Move d mark d'
  | returns {pending : List SyncItem} {waitMs : ℚ}
    (hphase : d.phase = .settled .getPendingItems (.value (.pendingItems pending)))
    (hpos : 0 < waitMs) : Move d [] { d with phase := .returned (.value waitMs) }
  | ends {d' : Drain} (hlocals : Locals d d') (hover : d'.phase.Over) (hread : ¬ d.phase.Unread)
    (hresult : ∀ result cause, d'.phase = .resolved result cause →
      result = d.result result.stoppedReason)
    (hclock : d'.clock = d.clock) : Move d [] d'
  | maxIterations {size : Int}
    (hphase : d.phase = .settled .getQueueSize (.value (.queueSize size))) :
    Move d [] { d.readSize size with
      phase := .resolved ((d.readSize size).result .MAX_ITERATIONS) none }

/-- What a value that an `await` gave says of what was awaited, and when the sleep
timer is set. -/
def Sound (d : Drain) : Prop :=
  match d.phase with
  | .awaiting work since => d.sleepTimer = work.sleepTimer since
  | .settled work (.value .slept) => ∃ ms, work = .sleep ms
  | .settled work (.value value) => value.answers work = true
  | .returned (.value waitMs) => d.sleepTimer = none ∧ 0 < waitMs
  | _ => True

/-! ## 1. What a step can do -/

theorem Asks.sameStops {d₀ : Drain} {mark : List Event} {work : Work} (h : Asks d mark d₀ work) :
    SameStops d d₀ := by
  cases h <;> exact ⟨rfl, rfl, rfl⟩

theorem Asks.sleepTimer {d₀ : Drain} {mark : List Event} {work : Work} (h : Asks d mark d₀ work) :
    d₀.sleepTimer = d.sleepTimer := by
  cases h <;> rfl

/-- A pass begins with what the loop asks for after a cycle or a sleep. -/
theorem Asks.mark {d₀ : Drain} {mark : List Event} {work : Work} (h : Asks d mark d₀ work)
    (hclear : d.sleepTimer = none) : (if d.comesRound then [.pass] else []) = mark := by
  cases h with
  | busy hphase | size hphase | sized hphase | busyAgain hphase | cooled hphase | offline hphase
  | flush hphase => simp [comesRound, hphase]
  | flushed hphase | slept hphase => simp [comesRound, hphase, hclear]

theorem moves_race {d₀ : Drain} {mark : List Event} {work : Work} (hasks : Asks d mark d₀ work)
    (hclear : d.sleepTimer = none) (hrun : d.run = some (d₀.raceWithStop work)) :
    Move d (d.observed .run) (d₀.raceWithStop work) ∧ (d₀.raceWithStop work).Sound := by
  have hsame := hasks.sameStops
  have htimer : d₀.sleepTimer = none := hasks.sleepTimer.trans hclear
  have hobserved : d.observed .run = mark ++ (d₀.raceWithStop work).begun := by
    rw [observed, hrun, hasks.mark hclear]
  rw [hobserved]
  by_cases hstopping : d.Stopping
  · obtain ⟨cause, hrace⟩ := raceWithStop_of_stopping (hstopping.same hsame) work
    rw [hrace]
    constructor
    · have hbegun : begun { d₀ with phase := .settled work (.stop cause) } = [] := rfl
      rw [hbegun, List.append_nil]
      exact .stops hasks hstopping ⟨rfl, rfl, rfl, rfl, rfl, rfl, rfl⟩ rfl hsame.clock
    · trivial
  · have hcancelled : ¬ d₀.cancelled = true := by
      rw [hsame.cancelled]
      exact fun h => hstopping (.inl h)
    have hlate : ¬ d₀.deadlineAt - d₀.clock ≤ 0 := by
      rw [hsame.deadlineAt, hsame.clock, sub_nonpos]
      exact fun h => hstopping (.inr h)
    have hrace : d₀.raceWithStop work = { d₀ with
        phase := .awaiting work d.clock, sleepTimer := work.sleepTimer d.clock } := by
      unfold raceWithStop
      rw [if_neg hcancelled, if_neg hlate, ← hsame.clock]
      cases work <;> simp [Work.sleepTimer, htimer]
    rw [hrace]
    constructor
    · exact .asks hasks hstopping ⟨rfl, rfl, rfl, rfl, rfl, rfl, rfl⟩ rfl hsame.clock
    · exact rfl

theorem lt_sooner {now : ℚ} {soonest : Option ℚ} {item : SyncItem}
    (h : ∀ s ∈ soonest, now < s) : ∀ s ∈ sooner now soonest item, now < s := by
  unfold sooner
  split
  · rename_i hitem
    rintro s ⟨⟩
    exact hitem.1
  · exact h

theorem lt_foldl_sooner {items : List SyncItem} {now : ℚ} {soonest : Option ℚ}
    (h : ∀ s ∈ soonest, now < s) : ∀ s ∈ items.foldl (sooner now) soonest, now < s := by
  induction items generalizing soonest with
  | nil => exact h
  | cons item items ih => exact ih (lt_sooner h)

/-- The soonest end is still in the future. -/
theorem lt_soonestCooldownEnd {items : List SyncItem} {now cooldownEnd : ℚ}
    (h : soonestCooldownEnd items now = some cooldownEnd) : now < cooldownEnd :=
  lt_foldl_sooner (by rintro _ ⟨⟩) cooldownEnd h

theorem idleWaitMs_pos (d : Drain) : 0 < d.idleWaitMs := by
  have hidle : (0 : ℚ) < DRAIN_IDLE_WAIT_MS := by norm_num [DRAIN_IDLE_WAIT_MS]
  exact hidle.trans_le (le_max_right _ _)

/-- The wait after a cycle that took nothing off the queue has a length. -/
theorem waitMs_pos {pending : List SyncItem} {waitMs : ℚ}
    (h : d.waitAfterNoProgress pending = .value waitMs) : 0 < waitMs := by
  unfold waitAfterNoProgress at h
  split at h
  · cases h
    exact idleWaitMs_pos d
  · rename_i cooldownEnd hsoonest
    split at h <;> cases h
    exact (sub_pos.mpr (lt_soonestCooldownEnd hsoonest)).trans_le (le_max_right _ _)

theorem moves_afterSize {size : Int} (hclear : d.sleepTimer = none)
    (hphase : d.phase = .settled .getQueueSize (.value (.queueSize size)))
    (hrun : d.run = some (d.afterSize size)) :
    Move d (d.observed .run) (d.afterSize size) ∧ (d.afterSize size).Sound := by
  have hasked {cycleJustRan : Bool} {work : Work} (hsized : Sized d size cycleJustRan work)
      (heq : d.afterSize size =
        { d.readSize size with cycleJustRan := cycleJustRan }.raceWithStop work) :
      Move d (d.observed .run) (d.afterSize size) ∧ (d.afterSize size).Sound := by
    rw [heq] at hrun ⊢
    exact moves_race (.sized hphase hsized) hclear hrun
  by_cases hsize : size = 0
  · refine hasked (.again hsize) ?_
    rw [afterSize, if_pos hsize]
    rfl
  by_cases hle : d.maxIterations ≤ d.iterations
  · have heq : d.afterSize size = { d.readSize size with
        phase := .resolved ((d.readSize size).result .MAX_ITERATIONS) none } := by
      rw [afterSize, if_neg hsize, if_pos hle]
    have hobserved : d.observed .run = [] := by
      simp [observed, comesRound, begun, hrun, heq, hphase]
    rw [hobserved, heq]
    exact ⟨.maxIterations hphase, trivial⟩
  have hlt : (d.iterations : ℚ) < d.maxIterations := not_le.mp hle
  cases hcycle : d.cycleJustRan with
  | false =>
    refine hasked (.fresh hsize hlt hcycle) ?_
    have hlocal : { d.readSize size with cycleJustRan := false } = d.readSize size := by
      rw [← hcycle]
      rfl
    rw [hlocal, afterSize, if_neg hsize, if_neg hle, hcycle]
    rfl
  | true =>
    by_cases hremoved : 0 < d.removed size
    · have heq : d.afterSize size = { d.readSize size with cycleJustRan := false }.waitFor
          d.delayBetweenCyclesMs := by
        rw [afterSize, if_neg hsize, if_neg hle, if_pos hcycle, if_pos hremoved]
      by_cases hdelay : 0 < d.delayBetweenCyclesMs
      · refine hasked (.rest hlt hcycle hremoved hdelay) ?_
        rw [heq, waitFor, if_pos hdelay]
      · refine hasked (.next hsize hlt hcycle hremoved) ?_
        rw [heq, waitFor, if_neg hdelay]
    · refine hasked (.pending hsize hlt hcycle (not_lt.mp hremoved)) ?_
      rw [afterSize, if_neg hsize, if_neg hle, if_pos hcycle, if_neg hremoved]

/-- The value is one that the loop can get from this work. -/
theorem answers_of_sound {work : Work} {value : Value} (hd : d.Sound)
    (hphase : d.phase = .settled work (.value value)) :
    (value = .slept ∧ ∃ ms, work = .sleep ms) ∨ value.answers work = true := by
  rw [Sound, hphase] at hd
  cases value with
  | slept => exact .inl ⟨rfl, hd⟩
  | isSyncing | queueSize | isSyncingAgain | pendingItems | connectionStatus | flushed =>
    exact .inr hd

theorem sound_of_answers {work : Work} {value : Value}
    (h : value.answers work = true) : { d with phase := .settled work (.value value) }.Sound := by
  cases value with
  | slept => cases h
  | isSyncing | queueSize | isSyncingAgain | pendingItems | connectionStatus | flushed => exact h

theorem moves_resume {work : Work} {value : Value} (hd : d.Sound)
    (hphase : d.phase = .settled work (.value value)) (hclear : d.sleepTimer = none)
    (hrun : d.run = some (d.resume value)) :
    Move d (d.observed .run) (d.resume value) ∧ (d.resume value).Sound := by
  have hanswers := answers_of_sound hd hphase
  cases value with
  | isSyncing syncing =>
    have hwork : work = .isSyncing := by
      cases work <;> first | rfl | simp [Value.answers] at hanswers
    subst hwork
    cases syncing with
    | true => exact moves_race (.busy hphase) hclear hrun
    | false => exact moves_race (.size hphase) hclear hrun
  | queueSize size =>
    have hwork : work = .getQueueSize := Value.answers_queueSize (by simpa using hanswers)
    subst hwork
    exact moves_afterSize hclear hphase hrun
  | isSyncingAgain syncing =>
    have hwork : work = .isSyncingAgain := Value.answers_isSyncingAgain (by simpa using hanswers)
    subst hwork
    cases syncing with
    | true => exact moves_race (.busyAgain hphase) hclear hrun
    | false =>
      have hobserved : d.observed .run = [] := by
        simp [observed, comesRound, begun, hrun, hphase, resume]
      rw [hobserved]
      refine ⟨.ends ⟨rfl, rfl, rfl, rfl, rfl, rfl, rfl⟩ trivial (by simp [hphase, Phase.Unread])
        ?_ rfl, trivial⟩
      rintro result cause ⟨⟩
      rfl
  | pendingItems pending =>
    have hwork : work = .getPendingItems := by
      cases work <;> first | rfl | simp [Value.answers] at hanswers
    subst hwork
    have hobserved : d.observed .run = [] := by
      simp [observed, comesRound, begun, hrun, hphase, resume]
    rw [hobserved]
    simp only [resume]
    cases hwait : d.waitAfterNoProgress pending with
    | value waitMs => exact ⟨.returns hphase (waitMs_pos hwait), hclear, waitMs_pos hwait⟩
    | stop cause =>
      exact ⟨.ends ⟨rfl, rfl, rfl, rfl, rfl, rfl, rfl⟩ trivial (by simp [hphase, Phase.Unread])
        (by rintro result cause ⟨⟩) rfl, trivial⟩
    | error message =>
      exact ⟨.ends ⟨rfl, rfl, rfl, rfl, rfl, rfl, rfl⟩ trivial (by simp [hphase, Phase.Unread])
        (by rintro result cause ⟨⟩) rfl, trivial⟩
  | connectionStatus status =>
    have hwork : work = .getConnectionStatus := by
      cases work <;> first | rfl | simp [Value.answers] at hanswers
    subst hwork
    by_cases hstatus : status = .DISCONNECTED
    · subst hstatus
      exact moves_race (.offline hphase) hclear hrun
    · have heq : d.resume (.connectionStatus status) =
          { d with iterations := d.iterations + 1, cycleJustRan := true }.raceWithStop .flush := by
        simp only [resume, if_neg hstatus]
      rw [heq] at hrun ⊢
      exact moves_race (.flush hphase hstatus) hclear hrun
  | flushed =>
    have hwork : work = .flush := by
      cases work <;> first | rfl | simp [Value.answers] at hanswers
    subst hwork
    exact moves_race (.flushed hphase) hclear hrun
  | slept =>
    obtain ⟨-, ms, rfl⟩ | hfalse := hanswers
    · exact moves_race (.slept hphase) hclear hrun
    · cases hfalse

/-- The drain ends, or is about to. -/
theorem moves_over {phase : Phase} (hrun : d.run = some { d with phase := phase })
    (hover : phase.Over) (hround : d.comesRound = false) (hread : ¬ d.phase.Unread)
    (hresult : ∀ result cause, phase = .resolved result cause →
      result = d.result result.stoppedReason) :
    Move d (d.observed .run) { d with phase := phase } ∧ { d with phase := phase }.Sound := by
  have hbegun : begun { d with phase := phase } = [] ∧ { d with phase := phase }.Sound := by
    unfold begun Sound
    cases phase with
    | awaiting => exact hover.elim
    | settled work settlement =>
      cases settlement with
      | value => exact hover.elim
      | stop | error => exact ⟨rfl, trivial⟩
    | returned settlement =>
      cases settlement with
      | value => exact hover.elim
      | stop | error => exact ⟨rfl, trivial⟩
    | resolved | rejected => exact ⟨rfl, trivial⟩
  have hobserved : d.observed .run = [] := by
    rw [observed, hrun, hround]
    exact hbegun.1
  rw [hobserved]
  exact ⟨.ends ⟨rfl, rfl, rfl, rfl, rfl, rfl, rfl⟩ hover hread hresult rfl, hbegun.2⟩

theorem moves_run (hd : d.Sound) (h : d.run = some d') :
    Move d (d.observed .run) d' ∧ d'.Sound := by
  have hrun := h
  unfold run at h
  split at h
  · rename_i work settlement hphase
    split at h
    · rename_i hset
      cases h
      have hobserved : d.observed .run = [] := by
        have hround : d.comesRound = false := by
          unfold comesRound
          split
          · simpa using hset
          · simpa using hset
          · rfl
        rw [observed, hrun, hround]
        simp [begun, hphase]
      rw [hobserved]
      refine ⟨.keep ⟨rfl, rfl, rfl, rfl, rfl, rfl, rfl⟩ rfl le_rfl, ?_⟩
      rw [Sound, hphase] at hd
      simp only [Sound, hphase]
      cases settlement with
      | value value => cases value <;> exact hd
      | stop | error => trivial
    · rename_i hset
      have hclear : d.sleepTimer = none := by simpa using hset
      split at h
      · cases h
        exact moves_resume hd hphase hclear hrun
      · cases h
        exact moves_over hrun trivial (by simp [comesRound, hphase])
          (by simp [hphase, Phase.Unread]) (by rintro result cause ⟨⟩)
      · cases h
        exact moves_over hrun trivial (by simp [comesRound, hphase])
          (by simp [hphase, Phase.Unread]) (by rintro result cause ⟨⟩)
      · cases h
        refine moves_over hrun trivial (by simp [comesRound, hphase])
          (by simp [hphase, Phase.Unread]) ?_
        rintro result cause ⟨⟩
        rfl
      · cases h
        exact moves_over hrun trivial (by simp [comesRound, hphase])
          (by simp [hphase, Phase.Unread]) (by rintro result cause ⟨⟩)
  · rename_i waitMs hphase
    rw [Sound, hphase] at hd
    obtain ⟨hclear, hpos⟩ := hd
    cases h
    rw [waitFor, if_pos hpos] at hrun ⊢
    exact moves_race (.cooled hphase hpos) hclear hrun
  · rename_i cause hphase
    cases h
    refine moves_over hrun trivial (by simp [comesRound, hphase])
      (by simp [hphase, Phase.Unread]) ?_
    rintro result cause ⟨⟩
    rfl
  · rename_i message hphase
    cases h
    exact moves_over hrun trivial (by simp [comesRound, hphase])
      (by simp [hphase, Phase.Unread]) (by rintro result cause ⟨⟩)
  · cases h

theorem moves_step {l : Label} (hd : d.Sound) (h : d.step l = some d') :
    Move d (d.observed l) d' ∧ d'.Sound := by
  cases l with
  | tick now =>
    simp only [step, Option.ite_none_right_eq_some] at h
    obtain ⟨⟨-, hle⟩, h⟩ := h
    cases h
    exact ⟨.keep ⟨rfl, rfl, rfl, rfl, rfl, rfl, rfl⟩ rfl hle, hd⟩
  | answer value =>
    simp only [step] at h
    split at h
    · rename_i hphase
      split at h <;> cases h
      rename_i hanswers
      exact ⟨.answered hphase hanswers, sound_of_answers hanswers⟩
    · cases h
  | fail message =>
    simp only [step] at h
    split at h <;> cases h
    rename_i hphase
    exact ⟨.ends ⟨rfl, rfl, rfl, rfl, rfl, rfl, rfl⟩ trivial (by simp [hphase, Phase.Unread])
      (by rintro result cause ⟨⟩) rfl, trivial⟩
  | sleepTimer =>
    simp only [step] at h
    split at h
    · rename_i work since due hphase hset
      split at h <;> cases h
      rename_i hdue
      have htimer : d.sleepTimer = work.sleepTimer since := by
        rw [Sound, hphase] at hd
        exact hd
      rw [hset] at htimer
      cases work with
      | sleep ms =>
        cases htimer
        simp only [observed, hphase]
        exact ⟨.slept hphase (by linarith), ms, rfl⟩
      | isSyncing | getQueueSize | isSyncingAgain | getPendingItems | getConnectionStatus
      | flush => cases htimer
    · cases h
  | deadlineTimer =>
    simp only [step] at h
    split at h
    · rename_i hphase
      split at h <;> cases h
      exact ⟨.ends ⟨rfl, rfl, rfl, rfl, rfl, rfl, rfl⟩ trivial (by simp [hphase, Phase.Unread])
        (by rintro result cause ⟨⟩) rfl, trivial⟩
    · cases h
  | cancel =>
    simp only [step] at h
    split at h
    · rename_i hphase
      cases h
      exact ⟨.ends ⟨rfl, rfl, rfl, rfl, rfl, rfl, rfl⟩ trivial (by simp [hphase, Phase.Unread])
        (by rintro result cause ⟨⟩) rfl, trivial⟩
    · split at h <;> cases h
      exact ⟨.keep ⟨rfl, rfl, rfl, rfl, rfl, rfl, rfl⟩ rfl le_rfl, hd⟩
  | run => exact moves_run hd h

/-! ## Every run -/

/-- The first turn waits for `isSyncing`, or the drain is over. -/
theorem start_cases (options : DrainOptions) (now : ℚ) :
    Locals (enter options now) (start options now) ∧ (start options now).clock = now ∧
      (((start options now).phase = .awaiting .isSyncing now ∧
          opening options now = [.pass, .started .isSyncing]) ∨
        ((start options now).phase.Over ∧ opening options now = [.pass])) := by
  unfold opening
  have hcancelled : ¬ (enter options now).cancelled = true := by simp [enter]
  unfold start raceWithStop
  rw [if_neg hcancelled]
  split
  · exact ⟨⟨rfl, rfl, rfl, rfl, rfl, rfl, rfl⟩, rfl, .inr ⟨trivial, rfl⟩⟩
  · exact ⟨⟨rfl, rfl, rfl, rfl, rfl, rfl, rfl⟩, rfl, .inl ⟨rfl, rfl⟩⟩

theorem sound_start (options : DrainOptions) (now : ℚ) : (start options now).Sound := by
  unfold start raceWithStop
  split
  · trivial
  · split
    · trivial
    · exact rfl

/-- What holds at the start and after every move holds of every run. -/
theorem Traced.induction {options : DrainOptions} {now : ℚ} {I : Drain → List Event → Prop}
    (hstart : I (start options now) (opening options now))
    (hmove : ∀ {d log events d'}, d.Sound → I d log → Move d events d' → I d' (log ++ events))
    {log : List Event} (h : Traced options now d log) : I d log := by
  obtain ⟨ls, hrun⟩ := h
  have hall : (d, log).1.Sound ∧ I (d, log).1 (d, log).2 := by
    refine StepSystem.exec_invariant (I := fun p => p.1.Sound ∧ I p.1 p.2) ?_
      ⟨sound_start options now, hstart⟩ hrun
    rintro ⟨d, log⟩ l ⟨d', log'⟩ ⟨hsound, hI⟩ hs
    obtain ⟨hstep, hlog⟩ := StepSystem.recorded_eq_some.mp hs
    obtain ⟨hmoves, hsound'⟩ := moves_step hsound hstep
    change log' = log ++ d.observed l at hlog
    rw [hlog]
    exact ⟨hsound', hmove hsound hI hmoves⟩
  exact hall.2

end Drain

end SyncProvider.Js
