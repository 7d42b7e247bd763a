import SyncProvider.Js.DrainCancel
import SyncProvider.Js.DrainModule

/-!
# JS: what a drain leaves behind

At most one drain is past the lock check, and when it settles it has released the
lock, cleared its timers and taken its waiters back. What it waited for may settle
later: that reaches no other drain.

A drain that is cancelled starts nothing any more and settles, by turns of its own
code alone.

Results:
1. `lock_released` : the lock, the waiters and the timers are released.
2. `cancelled_drain_settles` : a cancelled drain settles.
-/

namespace SyncProvider.Js

namespace DrainModule

variable {m m' : DrainModule} {i : Nat}

/-! ## 1. The lock -/

theorem running_of_call {call : Call} (h : m.calls[i]? = some call) :
    m.running i = call.running := by
  rw [running, h]

theorem Idle.not_running (h : m.Idle) (i : Nat) : m.running i = false := by
  cases hcall : m.calls[i]? with
  | none => rw [running, hcall]
  | some call =>
    rw [running_of_call hcall]
    exact h.settled call (List.mem_of_getElem? hcall)

theorem Running.running {d : Drain} {r : Nat} (h : m.Running i d r) : m.running i = true := by
  rw [running_of_call h.call]
  exact h.active

theorem Running.eq_of_running {d : Drain} {r j : Nat} (h : m.Running i d r)
    (hj : m.running j = true) : j = i := by
  by_contra hne
  cases hcall : m.calls[j]? with
  | none =>
    rw [DrainModule.running, hcall] at hj
    cases hj
  | some call =>
    rw [running_of_call hcall, h.others j call hne hcall] at hj
    cases hj

/-- What the module is like while this call is past the lock check. -/
theorem Inv.of_running (h : m.Inv) (hi : m.running i = true) : ∃ d r, m.Running i d r := by
  cases h with
  | idle h =>
    rw [h.not_running i] at hi
    cases hi
  | running h =>
    obtain rfl := h.eq_of_running hi
    exact ⟨_, _, h⟩

/-- What the module is like while no call is. -/
theorem Inv.idle_of_not_running (h : m.Inv) (hall : ∀ i, m.running i = false) : m.Idle := by
  cases h with
  | idle h => exact h
  | running h =>
    have hi := h.running
    rw [hall] at hi
    cases hi

/-- A wait that has not settled is one of the call past the lock check. -/
theorem Inv.settled_of_not_running (h : m.Inv) {r : Nat} {race : Race}
    (hrace : m.races[r]? = some race) (hcall : m.running race.call = false) :
    race.promise.isSome = true := by
  cases h with
  | idle h => exact (h.quiet race (List.mem_of_getElem? hrace)).promise
  | running h =>
    cases hpromise : race.promise with
    | some p => rfl
    | none =>
      obtain ⟨rfl, hphase, -, -⟩ := h.of_pending hrace hpromise
      obtain ⟨-, race', hrace', hi, -⟩ := h.awaits _ _ hphase
      obtain rfl := Option.some.inj (hrace.symm.trans hrace')
      rw [hi, h.running] at hcall
      cases hcall

/-- What a wait was for settles after it. -/
theorem Inv.settleWork_of_settled (h : m.Inv) {r : Nat} {race : Race}
    {settlement : Settlement Value} (hrace : m.races[r]? = some race)
    (hpromise : race.promise.isSome = true)
    (hs : m.step (.settleWork r settlement) = some m') : m' = m.doneWork r := by
  simp only [DrainModule.step, hrace] at hs
  split at hs <;> cases hs
  have hget : (m.doneWork r).races[r]? = some { race with workDone := true } := by
    rw [doneWork, getElem?_modifyRace, hrace, Option.map_some, if_pos rfl]
  cases h with
  | idle h =>
    have hdone : (m.doneWork r).Idle := h.modifyRace harmless_doneWork r
    have hwaiter : r ∉ (m.doneWork r).state.cancelWaiters := by
      rw [hdone.state]
      exact List.not_mem_nil
    have hdeadline := (h.quiet race (List.mem_of_getElem? hrace)).deadlineTimer
    exact settle_of_settled hget hpromise hdeadline hwaiter settlement
  | running h =>
    have hdone := h.modifyRace harmless_doneWork r
    obtain ⟨hdeadline, hwaiter⟩ := hdone.of_settled hget hpromise
    exact settle_of_settled hget hpromise hdeadline hwaiter settlement

/-- Whatever calls of `runDrain` and of `cancelActiveDrain` come in, and however and
whenever the native promises settle: at most one call is past the lock check, and
the others made meanwhile are refused and change nothing. When none is, the lock,
the flag, the waiters and the timers are released. What a wait was for may settle
after the wait has, as it always does after the call has settled: this changes no
call, no waiter, no timer and no flag. -/
theorem lock_released {ls : List Label} {now : ℚ}
    (hrun : StepSystem.exec step (initial now) ls = some m) :
    (∀ i j, m.running i = true → m.running j = true → i = j) ∧
    (∀ i options, m.running i = true →
      m.step (.runDrain options) = some { m with calls := m.calls ++ [.alreadyActive] }) ∧
    ((∀ i, m.running i = false) → m.state = ⟨false, false, []⟩ ∧
      ∀ race ∈ m.races, race.deadlineTimer = none ∧ race.sleepTimer = none) ∧
    (∀ (r : Nat) (race : Race), m.races[r]? = some race → m.running race.call = false →
      race.promise.isSome = true) ∧
    ∀ (r : Nat) (race : Race) settlement m', m.races[r]? = some race → race.promise.isSome = true →
      m.step (.settleWork r settlement) = some m' →
      m' = { m with races := m.races.modify r fun race => { race with workDone := true } } := by
  have hinv : m.Inv := inv_of_exec hrun
  refine ⟨?_, ?_, ?_, ?_, ?_⟩
  · intro i j hi hj
    obtain ⟨d, r, h⟩ := hinv.of_running hi
    exact (h.eq_of_running hj).symm
  · intro i options hi
    obtain ⟨d, r, h⟩ := hinv.of_running hi
    rw [step, runDrain, if_pos h.locked]
  · intro hall
    have hidle := hinv.idle_of_not_running hall
    refine ⟨hidle.state, fun race hrace => ?_⟩
    have hquiet := hidle.quiet race hrace
    exact ⟨hquiet.deadlineTimer, hquiet.sleepTimer⟩
  · intro r race hrace hcall
    exact hinv.settled_of_not_running hrace hcall
  · intro r race settlement m' hrace hpromise hs
    exact hinv.settleWork_of_settled hrace hpromise hs

/-- A drain is cancelled while it reads `isSyncing`, after a second call was refused.
The next drain is waiting when the first read resolves. -/
def abandonedRead : List Label :=
  [.runDrain {}, .runDrain {}, .cancel, .run 0, .runDrain {}]

theorem lock_released_after_abandonedRead :
    ∃ m m', StepSystem.exec step (initial 0) abandonedRead = some m ∧ m.running 2 = true ∧
      m.step (.settleWork 0 (.value (.isSyncing true))) = some m' ∧
      m'.calls = m.calls ∧ m'.state = m.state := by
  obtain ⟨m, hrun, race, hrace, hpromise, m', hs, hrunning⟩ :
      ∃ m ∈ StepSystem.exec step (initial 0) abandonedRead, ∃ race ∈ m.races[0]?,
        race.promise.isSome = true ∧
        ∃ _m' ∈ m.step (.settleWork 0 (.value (.isSyncing true))), m.running 2 = true := by
    decide +kernel
  have hsame := (lock_released hrun).2.2.2.2 0 race _ m' hrace hpromise hs
  refine ⟨m, m', hrun, hrunning, hs, ?_, ?_⟩
  · rw [hsame]
  · rw [hsame]

/-! ## 2. A drain that is cancelled -/

/-- What the call has started: the work of its waits. -/
def works (m : DrainModule) (i : Nat) : List Work :=
  m.races.filterMap fun race => if race.call = i then some race.work else none

theorem filterMap_modify {α β : Type} {f : α → α} {g : α → Option β} (h : ∀ a, g (f a) = g a)
    (l : List α) (n : Nat) : (l.modify n f).filterMap g = l.filterMap g := by
  induction l generalizing n with
  | nil => rw [List.modify_nil]
  | cons a l ih =>
    cases n with
    | zero => rw [List.modify_zero_cons, List.filterMap_cons, h, ← List.filterMap_cons]
    | succ n => rw [List.modify_succ_cons, List.filterMap_cons, List.filterMap_cons, ih]

theorem works_modifyRace {f : Race → Race} (hf : Harmless f) (m : DrainModule) (r i : Nat) :
    (m.modifyRace r f).works i = m.works i := by
  refine filterMap_modify ?_ m.races r
  intro race
  rw [hf.call, hf.work]

theorem works_settle (m : DrainModule) (r : Nat) (settlement : Settlement Value) (i : Nat) :
    (m.settle r settlement).works i = m.works i := by
  rw [works, races_settle]
  exact filterMap_modify (f := Race.settle settlement) (fun _ => rfl) m.races r

theorem works_wake (ws : List Nat) (m : DrainModule) (i : Nat) :
    (ws.foldl wake m).works i = m.works i := by
  induction ws generalizing m with
  | nil => rfl
  | cons r ws ih =>
    rw [List.foldl_cons, ih, wake]
    split
    · exact works_settle m r _ i
    · rfl

theorem works_leave_of_ne {j : Nat} (hj : j ≠ i) (d : Drain) :
    (m.leave j d).works i = m.works i := by
  unfold leave
  split
  · simp [works, hj]
  · rfl
  · rfl
  · rfl

theorem works_leave_of_unwaited {d : Drain} (hd : ∀ work since, d.phase ≠ .awaiting work since)
    (j : Nat) : (m.leave j d).works i = m.works i := by
  unfold leave
  split
  · rename_i hphase
    exact absurd hphase (hd _ _)
  · rfl
  · rfl
  · rfl

/-- What a step starts for the call `i`, its own turns aside. -/
theorem works_step {l : Label} (hi : i < m.calls.length) (hl : l ≠ .run i)
    (hs : m.step l = some m') : m'.works i = m.works i := by
  cases l with
  | runDrain options =>
    cases hs
    unfold runDrain
    split
    · rfl
    · exact works_leave_of_ne (Nat.ne_of_gt hi) _
  | cancel =>
    cases hs
    unfold cancelActiveDrain
    split
    · exact works_wake _ _ i
    · rfl
  | tick now =>
    simp only [step, Option.ite_none_right_eq_some] at hs
    obtain ⟨-, hs⟩ := hs
    cases hs
    rfl
  | settleWork s settlement =>
    simp only [step] at hs
    split at hs
    · split at hs <;> cases hs
      rw [works_settle]
      exact works_modifyRace harmless_doneWork m s i
    · cases hs
  | deadlineTimer s =>
    simp only [step] at hs
    split at hs
    · split at hs
      · split at hs <;> cases hs
        exact works_settle m s _ i
      · cases hs
    · cases hs
  | sleepTimer s =>
    simp only [step] at hs
    split at hs
    · split at hs
      · split at hs <;> cases hs
        rw [works_settle]
        exact (works_modifyRace harmless_doneWork (m.clearSleepTimer s) s i).trans
          (works_modifyRace harmless_clearSleepTimer m s i)
      · cases hs
    · cases hs
  | run j =>
    have hj : j ≠ i := by
      rintro rfl
      exact hl rfl
    simp only [step, turn] at hs
    split at hs
    · rename_i d r hcall
      obtain ⟨d', hrun, rfl⟩ := Option.map_eq_some_iff.mp hs
      refine (works_leave_of_ne hj d').trans ?_
      split
      · exact works_modifyRace harmless_clearSleepTimer m r i
      · rfl
    · cases hs

/-- A turn that begins no wait starts nothing. -/
theorem works_turn {d : Drain} {r : Nat} (hcall : m.calls[i]? = some (.entered d r))
    (hrun : ∀ d', (m.seen d).run = some d' → ∀ work since, d'.phase ≠ .awaiting work since)
    (hs : m.turn i = some m') : m'.works i = m.works i := by
  simp only [turn, hcall] at hs
  obtain ⟨d', hd', rfl⟩ := Option.map_eq_some_iff.mp hs
  refine (works_leave_of_unwaited (hrun d' hd') i).trans ?_
  split
  · exact works_modifyRace harmless_clearSleepTimer m r i
  · rfl

/-- The call has settled, or it has at most `n` turns left and none of them begins a
wait. -/
inductive Ending (m : DrainModule) (i : Nat) (n : Nat) : Prop where
  | settled {d : Drain} {r : Nat} (hcall : m.calls[i]? = some (.entered d r))
    (hsettled : d.active = false)
  | windsUp {d : Drain} {r : Nat} (h : m.Running i d r) (hwinds : (m.seen d).WindsUp)
    (hle : (m.seen d).turnsLeft ≤ n)

/-- What a step leaves of the turns of a call that ends. -/
structure Ends (m m' : DrainModule) (i n : Nat) (l : Label) : Prop where
  works : m'.works i = m.works i
  ending : ∃ n', m'.Ending i n' ∧ n' + (if l = .run i then 1 else 0) ≤ n

theorem settled_step {l : Label} {d : Drain} {r : Nat} (hinv : m.Inv)
    (hcall : m.calls[i]? = some (.entered d r)) (hsettled : d.active = false)
    (hs : m.step l = some m') : l ≠ .run i ∧ m'.calls[i]? = some (.entered d r) := by
  constructor
  · rintro rfl
    change m.turn i = some m' at hs
    rw [turn_of_settled hcall hsettled] at hs
    cases hs
  · cases hinv with
    | idle h =>
      rcases h.step hs with ⟨-, hcalls⟩ | ⟨options, -, henters⟩
      · rw [hcalls]
        exact hcall
      · have hlt : i < m.calls.length := (List.getElem?_eq_some_iff.mp hcall).1
        rw [henters.others i (Nat.ne_of_lt hlt)]
        exact hcall
    | @running j d₀ r₀ h =>
      have hne : i ≠ j := by
        rintro rfl
        cases hcall.symm.trans h.call
        rw [h.active] at hsettled
        cases hsettled
      rcases (h.step hs).others i hne with hsame | ⟨hnone, -⟩
      · rw [hsame]
        exact hcall
      · rw [hcall] at hnone
        cases hnone

theorem Ending.step {n : Nat} {l : Label} (hinv : m.Inv) (h : m.Ending i n)
    (hs : m.step l = some m') : Ends m m' i n l := by
  cases h with
  | @settled d r hcall hsettled =>
    obtain ⟨hl, hcall'⟩ := settled_step hinv hcall hsettled hs
    have hlt : i < m.calls.length := (List.getElem?_eq_some_iff.mp hcall).1
    refine ⟨works_step hlt hl hs, n, .settled hcall' hsettled, ?_⟩
    rw [if_neg hl, Nat.add_zero]
  | @windsUp d r h hwinds hle =>
    have hlt : i < m.calls.length := (List.getElem?_eq_some_iff.mp h.call).1
    by_cases hl : l = .run i
    · subst hl
      refine ⟨works_turn h.call (fun d' hrun => (hwinds.stopping.run hrun).unwaited) hs, ?_⟩
      rw [if_pos rfl]
      have hcloser {d' : Drain} (hsees : Sees i (m.seen d) (.run i) d') :
          (m.seen d).Closer d' := by
        cases hsees with
        | run hrun => exact hwinds.stopping.run hrun
        | beside hl => exact absurd rfl hl
        | nothing hl => exact absurd rfl hl
      obtain ⟨d', r', ⟨hrunning, hsees⟩ | ⟨-, hcall, hsettled, hsees⟩⟩ := (h.step hs).self
      · have hc := hcloser hsees
        exact ⟨_, .windsUp hrunning hc.toWindsUp le_rfl,
          (Nat.succ_le_of_lt hc.turnsLeft).trans hle⟩
      · have hc := hcloser hsees
        exact ⟨_, .settled hcall hsettled, (Nat.succ_le_of_lt hc.turnsLeft).trans hle⟩
    · refine ⟨works_step hlt hl hs, n, ?_, by rw [if_neg hl, Nat.add_zero]⟩
      have hsame {d' : Drain} (hsees : Sees i (m.seen d) l d') :
          d'.WindsUp ∧ d'.turnsLeft = (m.seen d).turnsLeft := by
        cases hsees with
        | run hrun => exact absurd rfl hl
        | nothing _ => exact ⟨hwinds, rfl⟩
        | beside _ hk hstep =>
          rcases hwinds.step_cases hstep with ⟨rfl, -⟩ | ⟨-, hphase, htimer, -⟩
          · exact absurd rfl hk
          · refine ⟨hwinds.step hstep, ?_⟩
            rw [Drain.turnsLeft, Drain.turnsLeft, hphase, htimer]
      obtain ⟨d', r', ⟨hrunning, hsees⟩ | ⟨-, hcall, hsettled, -⟩⟩ := (h.step hs).self
      · obtain ⟨hwinds', hturns⟩ := hsame hsees
        exact .windsUp hrunning hwinds' (hturns.trans_le hle)
      · exact .settled hcall hsettled

/-- What a run leaves of a call that ends. -/
theorem Ending.run {n : Nat} {ls : List Label} (hinv : m.Inv) (h : m.Ending i n)
    (hrun : StepSystem.exec DrainModule.step m ls = some m') :
    m'.works i = m.works i ∧ ls.count (.run i) ≤ n ∧
      (m'.running i = true → (m'.step (.run i)).isSome = true) := by
  induction ls generalizing m n with
  | nil =>
    cases hrun
    refine ⟨rfl, Nat.zero_le n, fun hrunning => ?_⟩
    cases h with
    | settled hcall hsettled =>
      rw [running_of_call hcall] at hrunning
      cases hsettled.symm.trans hrunning
    | windsUp h hwinds hle =>
      obtain ⟨d', hd'⟩ := Option.isSome_iff_exists.mp (hwinds.run_isSome h.active)
      simp only [DrainModule.step, turn, h.call, hd', Option.map_some, Option.isSome_some]
  | cons l ls ih =>
    obtain ⟨m₁, hm₁, hrest⟩ := StepSystem.exec_cons_eq_some.mp hrun
    obtain ⟨hworks, n', hending, hle⟩ := h.step hinv hm₁
    obtain ⟨hlater, hcount, hdue⟩ := ih (hinv.step hm₁) hending hrest
    refine ⟨hlater.trans hworks, ?_, hdue⟩
    rw [List.count_cons]
    simp only [beq_iff_eq]
    omega

/-- Its turns alone settle it. -/
theorem Ending.settles {n : Nat} (hinv : m.Inv) (h : m.Ending i n) :
    ∃ k m', k ≤ n ∧ StepSystem.exec DrainModule.step m (List.replicate k (.run i)) = some m' ∧
      m'.running i = false := by
  induction n using Nat.strong_induction_on generalizing m with
  | _ n ih =>
    cases hrunning : m.running i with
    | false => exact ⟨0, m, Nat.zero_le n, rfl, hrunning⟩
    | true =>
      have hrest : StepSystem.exec DrainModule.step m [] = some m := rfl
      have hdue := (h.run hinv hrest).2.2 hrunning
      obtain ⟨m₁, hm₁⟩ := Option.isSome_iff_exists.mp hdue
      obtain ⟨-, n', hending, hle⟩ := h.step hinv hm₁
      rw [if_pos rfl] at hle
      obtain ⟨k, m', hk, hrun, hsettled⟩ := ih n' hle (hinv.step hm₁) hending
      refine ⟨k + 1, m', (Nat.succ_le_succ hk).trans hle, ?_, hsettled⟩
      rw [List.replicate_succ]
      exact StepSystem.exec_cons_eq_some.mpr ⟨m₁, hm₁, hrun⟩

theorem ending_of_cancel (hinv : m.Inv) (hi : m.running i = true)
    (hs : m.step .cancel = some m') : m'.Ending i 5 ∧ m'.works i = m.works i := by
  obtain ⟨d, r, h⟩ := hinv.of_running hi
  have hlt : i < m.calls.length := (List.getElem?_eq_some_iff.mp h.call).1
  obtain ⟨-, d', hrunning, hstep⟩ := h.cancelled hs
  have hunwinding := Drain.unwinding_cancel hstep
  exact ⟨.windsUp hrunning hunwinding.windsUp (Drain.turnsLeft_le_five _),
    works_step hlt (by simp) hs⟩

/-- Whenever `cancelActiveDrain` is called while the call `i` is past the lock check,
then whatever happens next: the call starts nothing any more, a turn of its code is
due until it has settled, and it settles within five of them. These turns need no
timer and no native promise. -/
theorem cancelled_drain_settles {ls : List Label} {now : ℚ} {m₁ : DrainModule}
    (hrun : StepSystem.exec step (initial now) ls = some m) (hactive : m.running i = true)
    (hcancel : m.step .cancel = some m₁) :
    (∀ ls' m₂, StepSystem.exec step m₁ ls' = some m₂ →
      m₂.works i = m.works i ∧ ls'.count (.run i) ≤ 5 ∧
        (m₂.running i = true → (m₂.step (.run i)).isSome = true)) ∧
    ∃ k m₂, k ≤ 5 ∧ StepSystem.exec step m₁ (List.replicate k (.run i)) = some m₂ ∧
      m₂.running i = false := by
  have hinv : m.Inv := inv_of_exec hrun
  have hinv₁ : m₁.Inv := hinv.step hcancel
  obtain ⟨hending, hworks⟩ := ending_of_cancel hinv hactive hcancel
  refine ⟨fun ls' m₂ hrest => ?_, hending.settles hinv₁⟩
  obtain ⟨hlater, hturns⟩ := hending.run hinv₁ hrest
  exact ⟨hlater.trans hworks, hturns⟩

/-- A cycle is running, and the drain sleeps. -/
def sleepingRun : List Label :=
  [.runDrain {}, .settleWork 0 (.value (.isSyncing true)), .run 0]

theorem cancelled_drain_settles_asleep :
    ∃ m m₁ k m₂, StepSystem.exec step (initial 0) sleepingRun = some m ∧
      m.step .cancel = some m₁ ∧ k ≤ 5 ∧
      StepSystem.exec step m₁ (List.replicate k (.run 0)) = some m₂ ∧ m₂.running 0 = false ∧
      m₂.works 0 = [.isSyncing, .sleep DRAIN_IDLE_WAIT_MS] := by
  obtain ⟨m, hrun, hactive, hworks, m₁, hcancel⟩ :
      ∃ m ∈ StepSystem.exec step (initial 0) sleepingRun, m.running 0 = true ∧
        m.works 0 = [.isSyncing, .sleep DRAIN_IDLE_WAIT_MS] ∧ ∃ m₁, m.step .cancel = some m₁ := by
    obtain ⟨m, hrun, hactive, hworks⟩ :
        ∃ m ∈ StepSystem.exec step (initial 0) sleepingRun, m.running 0 = true ∧
          m.works 0 = [.isSyncing, .sleep DRAIN_IDLE_WAIT_MS] := by
      decide +kernel
    exact ⟨m, hrun, hactive, hworks, _, rfl⟩
  obtain ⟨hlater, k, m₂, hk, hturns, hsettled⟩ := cancelled_drain_settles hrun hactive hcancel
  exact ⟨m, m₁, k, m₂, hrun, hcancel, hk, hturns, hsettled,
    (hlater _ m₂ hturns).1.trans hworks⟩

end DrainModule

end SyncProvider.Js
