import SyncProvider.Lib.Blocks
import SyncProvider.Js.DrainTrace

/-!
# JS: how long a drain takes

When the deadline has come, a timer of the wait in progress is due, and any timer
that fires settles the drain. Until then the loop is paced: a pass that starts no
flush ends with a wait of at least `DRAIN_IDLE_WAIT_MS`, or it is the one pass that
a flush before it pays for.

Results:
1. `settlesSoon_of_timer`, `settlesSoon_of_unwaited` : the drain and its deadline.
2. `Budget.move` : the flushes.
3. `Paid.move` : the passes and the time.
4. `Spaced.move` : what a pass that starts no flush waits for.
5. `drain_terminates` : all of it.
-/

namespace SyncProvider.Js

/-! ## The model -/

/-- The loop has seen that it may start another flush. -/
def Phase.BeforeFlush : Phase → Prop
  | .awaiting .getPendingItems _ | .awaiting .getConnectionStatus _
  | .settled .getPendingItems (.value _) | .settled .getConnectionStatus (.value _)
  | .returned (.value _) => True
  | _ => False

/-- What a phase is to the pass it is in. -/
inductive Place where
  | asleep (ms since : ℚ)
  /-- The pass starts a flush, or ends with a sleep that is paid for already. -/
  | leadsOn
  | within
  | over
  deriving DecidableEq

def Phase.place : Phase → Place
  | .awaiting (.sleep ms) since => .asleep ms since
  | .awaiting .flush _ | .settled .flush (.value _) | .settled (.sleep _) (.value _)
  | .awaiting .getPendingItems _ | .settled .getPendingItems (.value _)
  | .returned (.value _) => .leadsOn
  | .awaiting _ _ | .settled _ (.value _) => .within
  | _ => .over

theorem place_of_over {phase : Phase} (h : phase.Over) : phase.place = .over := by
  cases phase with
  | awaiting => exact h.elim
  | settled work settlement =>
    cases settlement with
    | value => exact h.elim
    | stop | error => cases work <;> rfl
  | returned settlement =>
    cases settlement with
    | value => exact h.elim
    | stop | error => rfl
  | resolved | rejected => rfl

namespace Drain

variable {d d' : Drain} {log events : List Event}

/-! ## 1. The deadline -/

/-- Turns of its own code are due until the drain has settled, at most five of them,
and they alone settle it. -/
def SettlesSoon (d : Drain) : Prop :=
  (∀ ls d', StepSystem.exec step d ls = some d' →
    ls.count .run ≤ 5 ∧ (d'.active = true → (d'.step .run).isSome = true)) ∧
  ∃ k d', k ≤ 5 ∧ StepSystem.exec step d (List.replicate k .run) = some d' ∧ d'.active = false

theorem WindsUp.settlesSoon (hd : WindsUp d) : d.SettlesSoon := by
  have hmax := turnsLeft_le_five d
  constructor
  · intro ls d' hrun
    have hturns := hd.turnsLeft_run hrun
    have hlast : WindsUp d' :=
      StepSystem.exec_invariant (fun hd hs => WindsUp.step hd hs) hd hrun
    exact ⟨by omega, hlast.run_isSome⟩
  · obtain ⟨k, d', hk, hrun, hsettled⟩ := hd.settles
    exact ⟨k, d', hk.trans hmax, hrun, hsettled⟩

/-- At the deadline the deadline timer of the wait in progress is due. -/
theorem deadlineTimer_due {work : Work} {since : ℚ} (hle : d.deadlineAt ≤ d.clock)
    (hphase : d.phase = .awaiting work since) : (d.step .deadlineTimer).isSome = true := by
  have hdue : d.deadlineTimerDue since ≤ d.clock := by
    have hmin : min (d.deadlineAt - since) MAX_TIMER_DELAY_MS ≤ d.deadlineAt - since :=
      min_le_left _ _
    unfold deadlineTimerDue
    linarith
  simp [step, hphase, hdue]

theorem settlesSoon_of_unwaited (hle : d.deadlineAt ≤ d.clock)
    (hphase : ∀ work since, d.phase ≠ .awaiting work since) : d.SettlesSoon :=
  WindsUp.settlesSoon ⟨.inr hle, hphase⟩

/-- Whichever timer fires. -/
theorem settlesSoon_of_timer {l : Label} (hl : l = .deadlineTimer ∨ l = .sleepTimer)
    (hle : d.deadlineAt ≤ d.clock) (h : d.step l = some d') : d'.SettlesSoon := by
  cases step_cases h with
  | settle hphase hends => exact settlesSoon_of_unwaited hle (by simp)
  | tick | cancelWait | cancel | clearSleep | resume | leave | wait | stop | reject =>
    rcases hl with hl | hl <;> cases hl

/-! ## 2. The flushes -/

/-- No more flushes than iterations, no more iterations than allowed. -/
structure Budget (options : DrainOptions) (d : Drain) (log : List Event) : Prop where
  maxIterations : d.maxIterations = finiteOr options.maxIterations DRAIN_DEFAULT_MAX_ITERATIONS
  started : flushes log ≤ d.iterations
  iterations : (d.iterations : ℤ) ≤ max 0 ⌈d.maxIterations⌉
  left : d.phase.BeforeFlush → (d.iterations : ℚ) < d.maxIterations

variable {options : DrainOptions} {now : ℚ}

theorem passes_append (log events : List Event) :
    passes (log ++ events) = passes log + passes events :=
  List.count_append

/-- The same counts, in a phase that does not lead to a flush without another look. -/
theorem Budget.other (h : Budget options d log) (hlocals : Locals d d')
    (hflushes : flushes events = 0)
    (hleft : d'.phase.BeforeFlush → (d.iterations : ℚ) < d.maxIterations) :
    Budget options d' (log ++ events) := by
  refine ⟨hlocals.maxIterations.trans h.maxIterations, ?_, ?_, ?_⟩
  · rw [flushes_append, hflushes, hlocals.iterations]
    exact h.started
  · rw [hlocals.iterations, hlocals.maxIterations]
    exact h.iterations
  · rw [hlocals.iterations, hlocals.maxIterations]
    exact hleft

theorem not_beforeFlush_of_over {phase : Phase} (h : phase.Over) : ¬ phase.BeforeFlush := by
  intro hbefore
  cases phase with
  | awaiting => exact h
  | settled work settlement =>
    cases settlement with
    | value => exact h
    | stop | error => cases work <;> exact hbefore
  | returned settlement =>
    cases settlement with
    | value => exact h
    | stop | error => exact hbefore
  | resolved | rejected => exact hbefore

theorem Budget.asks {d₀ : Drain} {mark : List Event} {work : Work}
    (h : Budget options d log) (hasks : Asks d mark d₀ work) :
    flushes (log ++ mark) + (if work = .flush then 1 else 0) ≤ d₀.iterations ∧
      (d₀.iterations : ℤ) ≤ max 0 ⌈d.maxIterations⌉ ∧ d₀.maxIterations = d.maxIterations ∧
      (work = .getPendingItems ∨ work = .getConnectionStatus →
        (d₀.iterations : ℚ) < d.maxIterations) := by
  have hkept : flushes (log ++ []) ≤ d.iterations := by
    rw [List.append_nil]
    exact h.started
  have hpass : flushes (log ++ [Event.pass]) ≤ d.iterations := by
    rw [flushes_append]
    exact h.started
  cases hasks with
  | busy | busyAgain | cooled | offline | size =>
    exact ⟨hkept, h.iterations, rfl, by simp⟩
  | flushed | slept => exact ⟨hpass, h.iterations, rfl, by simp⟩
  | sized hphase hsized =>
    cases hsized with
    | again => exact ⟨hkept, h.iterations, rfl, by simp⟩
    | rest => exact ⟨hkept, h.iterations, rfl, by simp⟩
    | fresh hsize hlt | pending hsize hlt | next hsize hlt =>
      exact ⟨hkept, h.iterations, rfl, fun _ => hlt⟩
  | flush hphase hstatus =>
    have hlt : (d.iterations : ℚ) < d.maxIterations := by
      apply h.left
      rw [hphase]
      trivial
    have hceil : (d.iterations : ℤ) < ⌈d.maxIterations⌉ := by
      rw [Int.lt_ceil]
      exact_mod_cast hlt
    refine ⟨Nat.succ_le_succ hkept, ?_, rfl, by simp⟩
    push_cast
    exact (Int.add_one_le_iff.mpr hceil).trans (le_max_right _ _)

theorem Budget.move (h : Budget options d log) (hmove : Move d events d') :
    Budget options d' (log ++ events) := by
  cases hmove with
  | keep hlocals hphase hclock =>
    refine h.other hlocals rfl ?_
    rw [hphase]
    exact h.left
  | @answered work since value hphase hanswers =>
    refine h.other ⟨rfl, rfl, rfl, rfl, rfl, rfl, rfl⟩ (by simp [flushes]) ?_
    intro hbefore
    apply h.left
    rw [hphase]
    cases work <;> trivial
  | slept hphase hlong =>
    exact h.other ⟨rfl, rfl, rfl, rfl, rfl, rfl, rfl⟩ (by simp [flushes])
      fun hbefore => hbefore.elim
  | @asks d₀ _ mark work hasks hgoes hlocals hphase hclock =>
    obtain ⟨hflushes, hiterations, hmax, hlt⟩ := h.asks hasks
    have hmax' : d'.maxIterations = d.maxIterations := hlocals.maxIterations.trans hmax
    refine ⟨hmax'.trans h.maxIterations, ?_, ?_, ?_⟩
    · rw [hlocals.iterations, ← List.append_assoc, flushes_append]
      have hone : flushes [.started work] = if work = .flush then 1 else 0 := by
        simp [flushes, List.count_singleton]
      rw [hone]
      exact hflushes
    · rw [hlocals.iterations, hmax']
      exact hiterations
    · rw [hphase, hlocals.iterations, hmax']
      intro hbefore
      apply hlt
      cases work <;> first | exact .inl rfl | exact .inr rfl | exact hbefore.elim
  | @stops d₀ _ mark work cause hasks hstopping hlocals hphase hclock =>
    obtain ⟨hflushes, hiterations, hmax, -⟩ := h.asks hasks
    have hmax' : d'.maxIterations = d.maxIterations := hlocals.maxIterations.trans hmax
    refine ⟨hmax'.trans h.maxIterations, ?_, ?_, ?_⟩
    · rw [hlocals.iterations]
      exact (Nat.le_add_right _ _).trans hflushes
    · rw [hlocals.iterations, hmax']
      exact hiterations
    · intro hbefore
      refine absurd hbefore (not_beforeFlush_of_over ?_)
      rw [hphase]
      trivial
  | returns hphase hpos =>
    refine h.other ⟨rfl, rfl, rfl, rfl, rfl, rfl, rfl⟩ rfl fun _ => h.left ?_
    rw [hphase]
    trivial
  | ends hlocals hover hread hresult hclock =>
    exact h.other hlocals rfl fun hbefore => absurd hbefore (not_beforeFlush_of_over hover)
  | maxIterations hphase =>
    refine ⟨h.maxIterations, ?_, h.iterations, fun hbefore => hbefore.elim⟩
    rw [List.append_nil]
    exact h.started

/-! ## 3. The passes and the time -/

/-- The time that the passes so far and `n` more take at least, with the flushes that
have been started. -/
def load (log : List Event) (n : Nat) : ℚ :=
  DRAIN_IDLE_WAIT_MS * (passes log + n - 2 * flushes log - 1)

/-- The flag, as the pass without a flush that it still allows. -/
def ran (d : Drain) : Nat := if d.cycleJustRan then 1 else 0

/-- The passes so far are paid for, and in a phase that leads to the next pass, that
one too. A sleep of `DRAIN_IDLE_WAIT_MS` pays for it when it is over. -/
def Paid (now : ℚ) (log : List Event) (d : Drain) : Prop :=
  match d.phase.place with
  | .asleep ms since =>
    (DRAIN_IDLE_WAIT_MS ≤ ms ∧ since ≤ d.clock ∧ load log d.ran ≤ since - now) ∨
      load log (d.ran + 1) ≤ d.clock - now
  | .leadsOn => load log (d.ran + 1) ≤ d.clock - now
  | .within => load log d.ran ≤ d.clock - now
  | .over => load log 0 ≤ d.clock - now

theorem load_mono (log : List Event) {n k : Nat} (h : n ≤ k) : load log n ≤ load log k := by
  have hidle : (0 : ℚ) ≤ DRAIN_IDLE_WAIT_MS := by norm_num [DRAIN_IDLE_WAIT_MS]
  have hcast : (n : ℚ) ≤ k := by exact_mod_cast h
  unfold load
  apply mul_le_mul_of_nonneg_left _ hidle
  linarith

theorem load_pass (log : List Event) (n : Nat) :
    load (log ++ [Event.pass]) n = load log (n + 1) := by
  have hp : passes (log ++ [Event.pass]) = passes log + 1 := passes_append log _
  have hf : flushes (log ++ [Event.pass]) = flushes log := flushes_append log _
  rw [load, load, hp, hf]
  push_cast
  ring

/-- A flush pays for two passes. -/
theorem load_flush (log : List Event) (n : Nat) :
    load (log ++ [Event.started .flush]) (n + 2) = load log n := by
  have hp : passes (log ++ [Event.started .flush]) = passes log := passes_append log _
  have hf : flushes (log ++ [Event.started .flush]) = flushes log + 1 := flushes_append log _
  rw [load, load, hp, hf]
  push_cast
  ring

/-- Nothing else counts. -/
theorem load_other {event : Event} (hpass : event ≠ .pass) (hflush : event ≠ .started .flush)
    (log : List Event) (n : Nat) : load (log ++ [event]) n = load log n := by
  have hp : passes (log ++ [event]) = passes log := by
    rw [passes_append]
    simp [passes, hpass]
  have hf : flushes (log ++ [event]) = flushes log := by
    rw [flushes_append]
    simp [flushes, hflush]
  rw [load, load, hp, hf]

theorem load_succ (log : List Event) (n : Nat) :
    load log (n + 1) = load log n + DRAIN_IDLE_WAIT_MS := by
  unfold load
  push_cast
  ring

/-- Whatever the phase, the passes so far are paid for. -/
theorem Paid.load_zero (h : Paid now log d) : load log 0 ≤ d.clock - now := by
  unfold Paid at h
  split at h
  · rcases h with ⟨-, hsince, hload⟩ | hload
    · exact (load_mono log (Nat.zero_le _)).trans (hload.trans (sub_le_sub_right hsince now))
    · exact (load_mono log (Nat.zero_le _)).trans hload
  · exact (load_mono log (Nat.zero_le _)).trans h
  · exact (load_mono log (Nat.zero_le _)).trans h
  · exact h

theorem paid_of_over (h : load log 0 ≤ d.clock - now) (hover : d.phase.Over) : Paid now log d := by
  rw [Paid, place_of_over hover]
  exact h

/-- Time passes. -/
theorem Paid.later (h : Paid now log d) (hlocals : Locals d d') (hphase : d'.phase = d.phase)
    (hclock : d.clock ≤ d'.clock) : Paid now log d' := by
  have hran : d'.ran = d.ran := by rw [ran, ran, hlocals.cycleJustRan]
  have htime : d.clock - now ≤ d'.clock - now := sub_le_sub_right hclock now
  unfold Paid at h ⊢
  rw [hphase, hran]
  split at h
  · exact h.imp (fun h => ⟨h.1, h.2.1.trans hclock, h.2.2⟩) fun h => h.trans htime
  · exact h.trans htime
  · exact h.trans htime
  · exact h.trans htime

theorem Paid.answered {work : Work} {since : ℚ} {value : Value} (h : Paid now log d)
    (hphase : d.phase = .awaiting work since) (hanswers : value.answers work = true) :
    Paid now (log ++ [Event.answered value]) { d with phase := .settled work (.value value) } := by
  have hload (n : Nat) : load (log ++ [Event.answered value]) n = load log n :=
    load_other (by simp) (by simp) log n
  have hplace : (Phase.settled work (.value value)).place = (Phase.awaiting work since).place := by
    cases work with
    | sleep ms => cases value <;> cases hanswers
    | isSyncing | getQueueSize | isSyncingAgain | getPendingItems | getConnectionStatus | flush =>
      rfl
  simp only [Paid, hload, hplace]
  rw [Paid, hphase] at h
  exact h

/-- A sleep pays for the pass it ends. -/
theorem Paid.slept {ms since : ℚ} (h : Paid now log d)
    (hphase : d.phase = .awaiting (.sleep ms) since)
    (hlong : min ms MAX_TIMER_DELAY_MS ≤ d.clock - since) :
    Paid now (log ++ [Event.slept (d.clock - since)])
      { d with phase := .settled (.sleep ms) (.value .slept) } := by
  have hload (n : Nat) : load (log ++ [Event.slept (d.clock - since)]) n = load log n :=
    load_other (by simp) (by simp) log n
  rw [Paid, hphase] at h
  change load _ (d.ran + 1) ≤ d.clock - now
  rw [hload]
  rcases h with ⟨hms, -, hsince⟩ | h
  · have hmax : DRAIN_IDLE_WAIT_MS ≤ MAX_TIMER_DELAY_MS := by
      norm_num [DRAIN_IDLE_WAIT_MS, MAX_TIMER_DELAY_MS]
    have hidle : DRAIN_IDLE_WAIT_MS ≤ d.clock - since := (le_min hms hmax).trans hlong
    calc load log (d.ran + 1) = load log d.ran + DRAIN_IDLE_WAIT_MS := load_succ log d.ran
      _ ≤ (since - now) + (d.clock - since) := add_le_add hsince hidle
      _ = d.clock - now := by ring
  · exact h

theorem paid_of_sleep {ms : ℚ} (hphase : d'.phase = .awaiting (.sleep ms) d.clock)
    (hclock : d'.clock = d.clock)
    (h : (DRAIN_IDLE_WAIT_MS ≤ ms ∧ load log d'.ran ≤ d.clock - now) ∨
      load log (d'.ran + 1) ≤ d.clock - now) : Paid now log d' := by
  rw [Paid, hphase, hclock]
  exact h.imp (fun h => ⟨h.1, le_rfl, h.2⟩) id

theorem paid_of_leadsOn (hplace : d.phase.place = .leadsOn)
    (h : load log (d.ran + 1) ≤ d.clock - now) : Paid now log d := by
  rw [Paid, hplace]
  exact h

theorem paid_of_within (hplace : d.phase.place = .within) (h : load log d.ran ≤ d.clock - now) :
    Paid now log d := by
  rw [Paid, hplace]
  exact h

/-- A wait that begins is paid for by the phase before it. -/
theorem Paid.asks {d₀ : Drain} {mark : List Event} {work : Work} (h : Paid now log d)
    (hasks : Asks d mark d₀ work) (hlocals : Locals d₀ d')
    (hphase : d'.phase = .awaiting work d.clock) (hclock : d'.clock = d.clock) :
    Paid now (log ++ mark ++ [Event.started work]) d' := by
  have hran : d'.ran = d₀.ran := by rw [ran, ran, hlocals.cycleJustRan]
  have hwithin (hplace : d.phase.place = .within) : load log d.ran ≤ d.clock - now := by
    rw [Paid, hplace] at h
    exact h
  have hleadsOn (hplace : d.phase.place = .leadsOn) : load log (d.ran + 1) ≤ d.clock - now := by
    rw [Paid, hplace] at h
    exact h
  have hplace' : d'.phase.place = (Phase.awaiting work d.clock).place := by rw [hphase]
  cases hasks with
  | busy hd | busyAgain hd =>
    refine paid_of_sleep hphase hclock (.inl ⟨le_rfl, ?_⟩)
    rw [List.append_nil, load_other (by simp) (by simp), hran]
    exact hwithin (by rw [hd]; rfl)
  | offline hd =>
    refine paid_of_sleep hphase hclock (.inl ⟨le_max_right _ _, ?_⟩)
    rw [List.append_nil, load_other (by simp) (by simp), hran]
    exact hwithin (by rw [hd]; rfl)
  | cooled hd hpos =>
    refine paid_of_sleep hphase hclock (.inr ?_)
    rw [List.append_nil, load_other (by simp) (by simp), hran]
    exact hleadsOn (by rw [hd]; rfl)
  | size hd =>
    refine paid_of_within hplace' ?_
    rw [List.append_nil, load_other (by simp) (by simp), hran, hclock]
    exact hwithin (by rw [hd]; rfl)
  | @sized size cycleJustRan _ hd hsized =>
    have hpaid : load log d.ran ≤ d.clock - now := hwithin (by rw [hd]; rfl)
    rw [List.append_nil]
    cases hsized with
    | again =>
      refine paid_of_within hplace' ?_
      rw [load_other (by simp) (by simp), hran, hclock]
      exact hpaid
    | fresh | next =>
      refine paid_of_within hplace' ?_
      rw [load_other (by simp) (by simp), hran, hclock]
      exact (load_mono log (Nat.zero_le _)).trans hpaid
    | pending hsize hlt hcycle hremoved =>
      -- the flag is spent on the pass that ends with the wait to come
      refine paid_of_leadsOn hplace' ?_
      rw [load_other (by simp) (by simp), hran, hclock]
      rw [ran, hcycle, if_pos rfl] at hpaid
      exact hpaid
    | rest hlt hcycle hremoved hdelay =>
      refine paid_of_sleep hphase hclock (.inr ?_)
      rw [load_other (by simp) (by simp), hran]
      rw [ran, hcycle, if_pos rfl] at hpaid
      exact hpaid
  | flush hd hstatus =>
    refine paid_of_leadsOn hplace' ?_
    have hone : d'.ran = 1 := hran
    rw [List.append_nil, hone, load_flush log 0, hclock]
    exact (load_mono log (Nat.zero_le _)).trans (hwithin (by rw [hd]; rfl))
  | flushed hd | slept hd =>
    refine paid_of_within hplace' ?_
    rw [load_other (by simp) (by simp), load_pass, hran, hclock]
    exact hleadsOn (by rw [hd]; rfl)

theorem Paid.move (h : Paid now log d) (hmove : Move d events d') :
    Paid now (log ++ events) d' := by
  cases hmove with
  | keep hlocals hphase hclock =>
    rw [List.append_nil]
    exact h.later hlocals hphase hclock
  | answered hphase hanswers => exact h.answered hphase hanswers
  | slept hphase hlong => exact h.slept hphase hlong
  | asks hasks hgoes hlocals hphase hclock =>
    rw [← List.append_assoc]
    exact h.asks hasks hlocals hphase hclock
  | stops hasks hstopping hlocals hphase hclock =>
    refine paid_of_over ?_ (by rw [hphase]; trivial)
    rw [hclock]
    cases hasks with
    | flushed hd | slept hd =>
      rw [Paid, hd] at h
      rw [load_pass]
      exact (load_mono log (Nat.le_add_left _ _)).trans h
    | busy | busyAgain | offline | size | sized | cooled | flush =>
      rw [List.append_nil]
      exact h.load_zero
  | returns hphase hpos =>
    rw [Paid, hphase] at h
    rw [List.append_nil]
    exact h
  | ends hlocals hover hread hresult hclock =>
    rw [List.append_nil]
    refine paid_of_over ?_ hover
    rw [hclock]
    exact h.load_zero
  | maxIterations hphase =>
    rw [List.append_nil]
    exact paid_of_over h.load_zero trivial

/-- The passes, counted. -/
theorem Paid.passes_le (h : Paid now log d) :
    passes log ≤ 2 * flushes log + ⌊(d.clock - now) / DRAIN_IDLE_WAIT_MS⌋₊ + 1 := by
  have hidle : (0 : ℚ) < DRAIN_IDLE_WAIT_MS := by norm_num [DRAIN_IDLE_WAIT_MS]
  have hload := h.load_zero
  rw [load, mul_comm, ← le_div_iff₀ hidle] at hload
  by_cases hle : passes log ≤ 2 * flushes log + 1
  · exact hle.trans (by omega)
  · have hsub : ((passes log - (2 * flushes log + 1) : ℕ) : ℚ) ≤
        (d.clock - now) / DRAIN_IDLE_WAIT_MS := by
      rw [Nat.cast_sub (Nat.le_of_not_le hle)]
      push_cast at hload ⊢
      linarith
    have hfloor := Nat.le_floor hsub
    omega

/-! ## 4. What a pass waits for -/

/-- A wait of at least `DRAIN_IDLE_WAIT_MS` has come to its end. -/
def Waits (b : List Event) : Prop := ∃ ms, DRAIN_IDLE_WAIT_MS ≤ ms ∧ .slept ms ∈ b

/-- A flush has been started, and every pass that has ended since has waited. -/
def Credit (log : List Event) : Prop :=
  ∃ a₁ a₂, log = a₁ ++ .started .flush :: a₂ ∧ Blocks.Each .pass (fun _ b => Waits b) a₂

/-- The same of the passes that have ended when the next one begins. -/
def FollowsFlush (log : List Event) : Prop :=
  ∃ a₁ a₂, log = a₁ ++ .started .flush :: a₂ ∧
    Blocks.Each .pass (fun _ b => Waits b) (a₂ ++ [.pass])

/-- The pass `b` starts a flush, or waits, or comes after a flush that no other such
pass has come after. -/
def Spared (a b : List Event) : Prop := .started .flush ∈ b ∨ Waits b ∨ FollowsFlush a

/-- Every pass that has ended was spared. -/
def Paced (log : List Event) : Prop := Blocks.Each .pass Spared log

/-- What the pass in progress is to its end. -/
structure Spaced (log : List Event) (d : Drain) : Prop where
  paced : Paced log
  current : ∃ a b, Blocks.Last .pass log a b ∧
    match d.phase.place with
    | .asleep ms _ => (DRAIN_IDLE_WAIT_MS ≤ ms ∧ (d.cycleJustRan = true → Credit log)) ∨
      (Spared a b ∧ (d.cycleJustRan = true → FollowsFlush log))
    | .leadsOn => Spared a b ∧ (d.cycleJustRan = true → FollowsFlush log)
    | .within => d.cycleJustRan = true → Credit log
    | .over => True

theorem Waits.snoc {b : List Event} (h : Waits b) (event : Event) : Waits (b ++ [event]) := by
  obtain ⟨ms, hms, hmem⟩ := h
  exact ⟨ms, hms, List.mem_append_left _ hmem⟩

theorem waits_slept {ms : ℚ} (h : DRAIN_IDLE_WAIT_MS ≤ ms) (b : List Event) :
    Waits (b ++ [Event.slept ms]) :=
  ⟨ms, h, List.mem_append_right _ List.mem_cons_self⟩

theorem Spared.snoc {a b : List Event} (h : Spared a b) (event : Event) :
    Spared a (b ++ [event]) := by
  rcases h with hflush | hwaits | hfollows
  · exact .inl (List.mem_append_left _ hflush)
  · exact .inr (.inl (hwaits.snoc event))
  · exact .inr (.inr hfollows)

theorem Credit.snoc (h : Credit log) {event : Event} (hevent : event ≠ .pass) :
    Credit (log ++ [event]) := by
  obtain ⟨a₁, a₂, rfl, heach⟩ := h
  exact ⟨a₁, a₂ ++ [event], by simp, heach.snoc_of_ne hevent⟩

theorem FollowsFlush.snoc (h : FollowsFlush log) {event : Event} (hevent : event ≠ .pass) :
    FollowsFlush (log ++ [event]) := by
  obtain ⟨a₁, a₂, rfl, heach⟩ := h
  exact ⟨a₁, a₂ ++ [event], by simp, heach.extend hevent fun _ b hb => hb.snoc event⟩

/-- The next pass has begun. -/
theorem FollowsFlush.credit (h : FollowsFlush log) : Credit (log ++ [Event.pass]) := by
  obtain ⟨a₁, a₂, rfl, heach⟩ := h
  exact ⟨a₁, a₂ ++ [Event.pass], by simp, heach⟩

theorem followsFlush_started (log : List Event) : FollowsFlush (log ++ [Event.started .flush]) := by
  refine ⟨log, [], rfl, Blocks.each_nil.snoc ?_⟩
  intro a b hlast
  have heq := hlast.eq
  simp at heq

/-- A pass that waits does not use up the flush. -/
theorem Credit.slept (h : Credit log) {ms : ℚ} (hms : DRAIN_IDLE_WAIT_MS ≤ ms) :
    FollowsFlush (log ++ [Event.slept ms]) := by
  obtain ⟨a₁, a₂, rfl, heach⟩ := h
  refine ⟨a₁, a₂ ++ [Event.slept ms], by simp, (heach.snoc_of_ne (by simp)).snoc ?_⟩
  intro a b hlast
  obtain ⟨b', rfl, -⟩ := Blocks.last_snoc_of_ne hlast (by simp)
  exact waits_slept hms b'

/-- The pass in progress uses it up. -/
theorem Credit.spared (h : Credit log) {a b : List Event} (hlast : Blocks.Last .pass log a b) :
    Spared a b := by
  obtain ⟨a₁, a₂, heq, heach⟩ := h
  rcases List.append_eq_append_iff.mp (hlast.eq.symm.trans heq) with ⟨t, rfl, ht⟩ | ⟨t, rfl, ht⟩
  · -- the flush is one of this pass
    cases t with
    | nil => cases ht
    | cons x t =>
      have hb : b = t ++ .started .flush :: a₂ := (List.cons.inj ht).2
      refine .inl ?_
      rw [hb]
      exact List.mem_append_right _ List.mem_cons_self
  · cases t with
    | nil => cases ht
    | cons x t =>
      obtain ⟨rfl, rfl⟩ := List.cons.inj ht
      refine .inr (.inr ⟨a₁, t, rfl, ?_⟩)
      have hsplit : t ++ .pass :: b = (t ++ [Event.pass]) ++ b := by simp
      have hall : Blocks.Each .pass (fun _ b => Waits b) ((t ++ [Event.pass]) ++ b) :=
        hsplit ▸ heach
      exact hall.of_append

theorem Paced.snoc (h : Paced log) {event : Event} (hevent : event ≠ .pass) :
    Paced (log ++ [event]) :=
  Blocks.Each.snoc_of_ne h hevent

/-- The pass in progress ends. -/
theorem Paced.pass (h : Paced log) {a b : List Event} (hlast : Blocks.Last .pass log a b)
    (hspared : Spared a b) : Paced (log ++ [Event.pass]) := by
  refine Blocks.Each.snoc h ?_
  intro a' b' hlast'
  obtain ⟨rfl, rfl⟩ := Blocks.last_unique hlast hlast'
  exact hspared

/-- An event of the pass in progress. -/
theorem last_event {a b : List Event} (hlast : Blocks.Last .pass log a b)
    {event : Event} (hevent : event ≠ .pass) :
    Blocks.Last .pass (log ++ [event]) a (b ++ [event]) :=
  hlast.append (by simpa using hevent.symm)

theorem Spaced.asks {d₀ : Drain} {mark : List Event} {work : Work} (h : Spaced log d)
    (hasks : Asks d mark d₀ work) (hlocals : Locals d₀ d')
    (hphase : d'.phase = .awaiting work d.clock) :
    Spaced (log ++ mark ++ [Event.started work]) d' := by
  obtain ⟨hpaced, a, b, hlast, hcurrent⟩ := h
  have hcycle := hlocals.cycleJustRan
  cases hasks with
  | busy hd | busyAgain hd | offline hd =>
    rw [hd] at hcurrent
    rw [List.append_nil]
    refine ⟨hpaced.snoc (by simp), a, _, last_event hlast (by simp), ?_⟩
    rw [hphase]
    refine .inl ⟨by first | exact le_rfl | exact le_max_right _ _, fun hran => ?_⟩
    rw [hcycle] at hran
    exact (hcurrent hran).snoc (by simp)
  | cooled hd hpos =>
    rw [hd] at hcurrent
    rw [List.append_nil]
    refine ⟨hpaced.snoc (by simp), a, _, last_event hlast (by simp), ?_⟩
    rw [hphase]
    refine .inr ⟨hcurrent.1.snoc _, fun hran => ?_⟩
    rw [hcycle] at hran
    exact (hcurrent.2 hran).snoc (by simp)
  | size hd =>
    rw [hd] at hcurrent
    rw [List.append_nil]
    refine ⟨hpaced.snoc (by simp), a, _, last_event hlast (by simp), ?_⟩
    rw [hphase]
    intro hran
    rw [hcycle] at hran
    exact (hcurrent hran).snoc (by simp)
  | @sized size cycleJustRan _ hd hsized =>
    rw [hd] at hcurrent
    rw [List.append_nil]
    refine ⟨hpaced.snoc (by cases hsized <;> simp), a, _,
      last_event hlast (by cases hsized <;> simp), ?_⟩
    rw [hphase]
    cases hsized with
    | again =>
      intro hran
      rw [hcycle] at hran
      exact (hcurrent hran).snoc (by simp)
    | fresh | next =>
      intro hran
      rw [hcycle] at hran
      cases hran
    | pending hsize hlt hran hremoved =>
      refine ⟨((hcurrent hran).spared hlast).snoc _, fun hran' => ?_⟩
      rw [hcycle] at hran'
      cases hran'
    | rest hlt hran hremoved hdelay =>
      refine .inr ⟨((hcurrent hran).spared hlast).snoc _, fun hran' => ?_⟩
      rw [hcycle] at hran'
      cases hran'
  | flush hd hstatus =>
    rw [List.append_nil]
    refine ⟨hpaced.snoc (by simp), a, _, last_event hlast (by simp), ?_⟩
    rw [hphase]
    exact ⟨.inl (List.mem_append_right _ List.mem_cons_self), fun _ => followsFlush_started log⟩
  | flushed hd | slept hd =>
    rw [hd] at hcurrent
    refine ⟨(hpaced.pass hlast hcurrent.1).snoc (by simp), log, _,
      last_event (Blocks.last_opened log) (by simp), ?_⟩
    rw [hphase]
    intro hran
    rw [hcycle] at hran
    exact (hcurrent.2 hran).credit.snoc (by simp)

theorem Spaced.move (h : Spaced log d) (hmove : Move d events d') : Spaced (log ++ events) d' := by
  cases hmove with
  | keep hlocals hphase hclock =>
    obtain ⟨hpaced, a, b, hlast, hcurrent⟩ := h
    rw [List.append_nil]
    refine ⟨hpaced, a, b, hlast, ?_⟩
    rw [hphase, hlocals.cycleJustRan]
    exact hcurrent
  | @answered work since value hphase hanswers =>
    obtain ⟨hpaced, a, b, hlast, hcurrent⟩ := h
    refine ⟨hpaced.snoc (by simp), a, _, last_event hlast (by simp), ?_⟩
    rw [hphase] at hcurrent
    have hspared (hc : Spared a b ∧ (d.cycleJustRan = true → FollowsFlush log)) :
        Spared a (b ++ [Event.answered value]) ∧
          (d.cycleJustRan = true → FollowsFlush (log ++ [Event.answered value])) :=
      ⟨hc.1.snoc _, fun hran => (hc.2 hran).snoc (by simp)⟩
    cases work with
    | sleep ms => cases value <;> cases hanswers
    | flush | getPendingItems => exact hspared hcurrent
    | isSyncing | getQueueSize | isSyncingAgain | getConnectionStatus =>
      exact fun hran => (hcurrent hran).snoc (by simp)
  | @slept ms since hphase hlong =>
    obtain ⟨hpaced, a, b, hlast, hcurrent⟩ := h
    rw [hphase] at hcurrent
    refine ⟨hpaced.snoc (by simp), a, _, last_event hlast (by simp), ?_⟩
    change Spared _ _ ∧ _
    rcases hcurrent with ⟨hms, hcredit⟩ | ⟨hspared, hfollows⟩
    · have hmax : DRAIN_IDLE_WAIT_MS ≤ MAX_TIMER_DELAY_MS := by
        norm_num [DRAIN_IDLE_WAIT_MS, MAX_TIMER_DELAY_MS]
      have hidle : DRAIN_IDLE_WAIT_MS ≤ d.clock - since := (le_min hms hmax).trans hlong
      exact ⟨.inr (.inl (waits_slept hidle b)), fun hran => (hcredit hran).slept hidle⟩
    · exact ⟨hspared.snoc _, fun hran => (hfollows hran).snoc (by simp)⟩
  | asks hasks hgoes hlocals hphase hclock =>
    rw [← List.append_assoc]
    exact h.asks hasks hlocals hphase
  | stops hasks hstopping hlocals hphase hclock =>
    obtain ⟨hpaced, a, b, hlast, hcurrent⟩ := h
    have hover : d'.phase.place = .over := by
      apply place_of_over
      rw [hphase]
      trivial
    cases hasks with
    | flushed hd | slept hd =>
      rw [hd] at hcurrent
      refine ⟨hpaced.pass hlast hcurrent.1, log, [], Blocks.last_opened log, ?_⟩
      rw [hover]
      trivial
    | busy | busyAgain | offline | size | sized | cooled | flush =>
      rw [List.append_nil]
      refine ⟨hpaced, a, b, hlast, ?_⟩
      rw [hover]
      trivial
  | returns hphase hpos =>
    obtain ⟨hpaced, a, b, hlast, hcurrent⟩ := h
    rw [hphase] at hcurrent
    rw [List.append_nil]
    exact ⟨hpaced, a, b, hlast, hcurrent⟩
  | ends hlocals hover hread hresult hclock =>
    obtain ⟨hpaced, a, b, hlast, -⟩ := h
    rw [List.append_nil]
    refine ⟨hpaced, a, b, hlast, ?_⟩
    rw [place_of_over hover]
    trivial
  | maxIterations hphase =>
    obtain ⟨hpaced, a, b, hlast, -⟩ := h
    rw [List.append_nil]
    exact ⟨hpaced, a, b, hlast, trivial⟩

/-! ## 5. Every run -/

theorem deadlineAt_move (hmove : Move d events d') : d'.deadlineAt = d.deadlineAt := by
  cases hmove with
  | keep hlocals | ends hlocals => exact hlocals.deadlineAt
  | asks hasks _ hlocals | stops hasks _ hlocals =>
    exact hlocals.deadlineAt.trans hasks.sameStops.deadlineAt
  | answered | slept | returns | maxIterations => rfl

theorem budget_start (options : DrainOptions) (now : ℚ) :
    Budget options (start options now) (opening options now) := by
  obtain ⟨hlocals, -, hphase⟩ := start_cases options now
  have hiterations : (start options now).iterations = 0 := hlocals.iterations
  refine ⟨hlocals.maxIterations, ?_, ?_, ?_⟩
  · rcases hphase with ⟨-, hlog⟩ | ⟨-, hlog⟩ <;> rw [hlog] <;> exact Nat.zero_le _
  · rw [hiterations]
    exact le_max_left _ _
  · intro hbefore
    rcases hphase with ⟨hphase, -⟩ | ⟨hover, -⟩
    · rw [hphase] at hbefore
      exact hbefore.elim
    · exact absurd hbefore (not_beforeFlush_of_over hover)

theorem paid_start (options : DrainOptions) (now : ℚ) :
    Paid now (opening options now) (start options now) := by
  obtain ⟨hlocals, hclock, hphase⟩ := start_cases options now
  have hran : (start options now).ran = 0 := by
    rw [ran, hlocals.cycleJustRan]
    rfl
  have hload : load [.pass] 0 = 0 := by simp [load, passes, flushes]
  rcases hphase with ⟨hphase, hlog⟩ | ⟨hover, hlog⟩
  · refine paid_of_within (by rw [hphase]; rfl) ?_
    have hstarted : opening options now = [.pass] ++ [Event.started .isSyncing] := hlog
    rw [hstarted, load_other (by simp) (by simp), hran, hload, hclock, sub_self]
  · refine paid_of_over ?_ hover
    rw [hlog, hload, hclock, sub_self]

theorem spaced_start (options : DrainOptions) (now : ℚ) :
    Spaced (opening options now) (start options now) := by
  obtain ⟨hlocals, hclock, hphase⟩ := start_cases options now
  have hran : (start options now).cycleJustRan = false := hlocals.cycleJustRan
  have hpaced : Paced [.pass] := by
    refine Blocks.Each.snoc Blocks.each_nil ?_
    intro a b hlast
    have heq := hlast.eq
    simp at heq
  rcases hphase with ⟨hphase, hlog⟩ | ⟨hover, hlog⟩
  · have hstarted : Paced ([Event.pass] ++ [Event.started .isSyncing]) :=
      Paced.snoc hpaced (by simp)
    rw [hlog]
    refine ⟨hstarted, [], [.started .isSyncing], ⟨rfl, by simp⟩, ?_⟩
    rw [hphase]
    intro h
    rw [hran] at h
    cases h
  · rw [hlog]
    refine ⟨hpaced, [], [], Blocks.last_opened [], ?_⟩
    rw [place_of_over hover]
    trivial

/-- In every run of `runDrain`, for all options and whatever the native operations and
the timers do. From its deadline on, a wait in progress has a timer that is due,
any timer that fires settles the drain, and when it is not waiting it settles by
itself. It never starts more flushes than `maxIterations` rounded up. Its passes
are at most one more than two for each flush and one for each `DRAIN_IDLE_WAIT_MS`
that have gone by, and each pass that has ended was spared. -/
theorem drain_terminates (h : Traced options now d log) :
    d.deadlineAt = now + finiteOr options.timeoutMs DRAIN_DEFAULT_TIMEOUT_MS ∧
    (d.deadlineAt ≤ d.clock →
      (∀ work since, d.phase = .awaiting work since → (d.step .deadlineTimer).isSome = true) ∧
      (∀ l d', l = .deadlineTimer ∨ l = .sleepTimer → d.step l = some d' → d'.SettlesSoon) ∧
      ((∀ work since, d.phase ≠ .awaiting work since) → d.SettlesSoon)) ∧
    (flushes log : ℤ) ≤
      max 0 ⌈finiteOr options.maxIterations DRAIN_DEFAULT_MAX_ITERATIONS⌉ ∧
    passes log ≤ 2 * flushes log + ⌊(d.clock - now) / DRAIN_IDLE_WAIT_MS⌋₊ + 1 ∧
    Paced log := by
  refine ⟨?_, fun hle => ⟨?_, ?_, ?_⟩, ?_, ?_, ?_⟩
  · refine h.induction (I := fun d _ =>
      d.deadlineAt = now + finiteOr options.timeoutMs DRAIN_DEFAULT_TIMEOUT_MS) ?_ ?_
    · exact (start_cases options now).1.deadlineAt
    · intro d log events d' _ hd hmove
      exact (deadlineAt_move hmove).trans hd
  · intro work since hphase
    exact deadlineTimer_due hle hphase
  · intro l d' hl hs
    exact settlesSoon_of_timer hl hle hs
  · intro hphase
    exact settlesSoon_of_unwaited hle hphase
  · have hbudget : Budget options d log :=
      h.induction (budget_start options now) fun _ hd hmove => hd.move hmove
    have hstarted : (flushes log : ℤ) ≤ d.iterations := by exact_mod_cast hbudget.started
    rw [← hbudget.maxIterations]
    exact hstarted.trans hbudget.iterations
  · have hpaid : Paid now log d :=
      h.induction (I := fun d log => Paid now log d) (paid_start options now)
        fun _ hd hmove => hd.move hmove
    exact hpaid.passes_le
  · have hspaced : Spaced log d :=
      h.induction (I := fun d log => Spaced log d) (spaced_start options now)
        fun _ hd hmove => hd.move hmove
    exact hspaced.paced

/-- The device is online and one item waits. The flush has not come back when the
deadline comes. -/
def lateFlush : List Label :=
  [.answer (.isSyncing false), .run, .answer (.queueSize 1), .run,
    .answer (.connectionStatus .CONNECTED), .run, .tick 1000]

theorem drain_terminates_in_lateFlush :
    ∃ d log d', Traced { timeoutMs := some (.fin 1000) } 0 d log ∧
      d.step .deadlineTimer = some d' ∧ d'.SettlesSoon ∧ flushes log = 1 ∧ passes log ≤ 7 := by
  obtain ⟨p, hrun, hle, hflushes, hclock, d', hs⟩ :
      ∃ p ∈ StepSystem.exec (StepSystem.recorded step observed)
          (start { timeoutMs := some (.fin 1000) } 0, opening { timeoutMs := some (.fin 1000) } 0)
          lateFlush,
        p.1.deadlineAt ≤ p.1.clock ∧ flushes p.2 = 1 ∧ p.1.clock = 1000 ∧
          ∃ d', d' ∈ p.1.step .deadlineTimer := by
    obtain ⟨p, hrun, hle, hflushes, hclock, hdue⟩ :
        ∃ p ∈ StepSystem.exec (StepSystem.recorded step observed)
            (start { timeoutMs := some (.fin 1000) } 0,
              opening { timeoutMs := some (.fin 1000) } 0) lateFlush,
          p.1.deadlineAt ≤ p.1.clock ∧ flushes p.2 = 1 ∧ p.1.clock = 1000 ∧
            (p.1.step .deadlineTimer).isSome = true := by
      decide +kernel
    exact ⟨p, hrun, hle, hflushes, hclock, Option.isSome_iff_exists.mp hdue⟩
  have htraced : Traced { timeoutMs := some (.fin 1000) } 0 p.1 p.2 := ⟨lateFlush, hrun⟩
  obtain ⟨-, hdeadline, -, hpasses, -⟩ := drain_terminates htraced
  refine ⟨p.1, p.2, d', htraced, hs, (hdeadline hle).2.1 _ _ (.inl rfl) hs, hflushes, ?_⟩
  have hfloor : ⌊(p.1.clock - 0) / DRAIN_IDLE_WAIT_MS⌋₊ = 4 := by
    rw [hclock, DRAIN_IDLE_WAIT_MS, Nat.floor_eq_iff (by norm_num)]
    norm_num
  rw [hflushes, hfloor] at hpasses
  exact hpasses

end Drain

end SyncProvider.Js
