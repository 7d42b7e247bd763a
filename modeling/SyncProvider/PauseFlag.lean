import SyncProvider.Android.PauseFlag
import SyncProvider.Ios.PauseFlag

/-!
# The pause flag on both platforms

The two engines write the flag to memory and to disk in opposite orders, and leave the
retry timer to the call that comes last. On both of them the calls overlap freely.

Results:
1. `pause_flags_agree` : when memory, disk and the timer agree in the end.
2. `overlapping_calls_disagree` : calls that overtake one another.
-/

namespace SyncProvider

/-- Over any run of the calls, from a state in which memory, disk and the timer agree to
one in which all calls have finished, when no step leaves a flag or the timer undone. -/
theorem pause_flags_agree (s s' : Android.Lifecycle) (ls : List Android.Lifecycle.Label)
    (t t' : Ios.Lifecycle) (ms : List Ios.Lifecycle.Label) :
    (s.Agrees →
      StepSystem.Meets Android.Lifecycle.step Android.Lifecycle.OfCalls s ls →
      StepSystem.Meets Android.Lifecycle.step Android.Lifecycle.Keeps s ls →
      StepSystem.exec Android.Lifecycle.step s ls = some s' →
      (∀ k ∈ s'.tasks, k.isDone = true) → s'.Agrees) ∧
    ((∀ k ∈ t.tasks, k.isDone = true) → t.Agrees →
      (t.shared.recovering = true → t.shared.attachedHybrids = 0) →
      (∀ m ∈ ms, Ios.Lifecycle.OfCalls m) →
      StepSystem.Meets Ios.Lifecycle.step Ios.Lifecycle.Keeps t ms →
      StepSystem.exec Ios.Lifecycle.step t ms = some t' →
      (∀ k ∈ t'.tasks, k.isDone = true) → t'.Agrees) :=
  ⟨Android.Lifecycle.agrees_of_meets, Ios.Lifecycle.agrees_of_meets⟩

/-- `resume` overlaps `pause` and has the last word. -/
theorem pause_flags_agree_settled :
    (∃ s', StepSystem.exec Android.Lifecycle.step Android.Lifecycle.armedLifecycle
        Android.Lifecycle.settledRun = some s' ∧ s'.Agrees) ∧
    ∃ s', StepSystem.exec Ios.Lifecycle.step Ios.Lifecycle.armedLifecycle
        Ios.Lifecycle.settledRun = some s' ∧ s'.Agrees := by
  obtain ⟨s', hrun, hfinished⟩ : ∃ s', StepSystem.exec Android.Lifecycle.step
      Android.Lifecycle.armedLifecycle Android.Lifecycle.settledRun = some s' ∧
    s'.finished = true := ⟨_, rfl, rfl⟩
  obtain ⟨t', hrun', hfinished'⟩ : ∃ t', StepSystem.exec Ios.Lifecycle.step
      Ios.Lifecycle.armedLifecycle Ios.Lifecycle.settledRun = some t' ∧
    t'.finished = true := ⟨_, rfl, rfl⟩
  obtain ⟨handroid, hios⟩ := pause_flags_agree _ s' _ _ t' _
  refine ⟨⟨s', hrun, ?_⟩, t', hrun', ?_⟩
  · exact handroid Android.Lifecycle.agrees_armedLifecycle
      Android.Lifecycle.ofCalls_settledRun Android.Lifecycle.keeps_settledRun hrun
      (List.all_eq_true.mp hfinished)
  · exact hios (fun k hk => absurd hk List.not_mem_nil)
      Ios.Lifecycle.agrees_armedLifecycle (fun h => absurd h Bool.false_ne_true)
      Ios.Lifecycle.ofCalls_settledRun Ios.Lifecycle.keeps_settledRun hrun'
      (List.all_eq_true.mp hfinished')

/-- From engines that run with the timer armed. With `resume` between the two writes of
`pause` the flags differ. With `resume` behind them both are off, and `pause` cancels the
timer that `resume` has armed. -/
theorem overlapping_calls_disagree :
    (StepSystem.exec Android.Lifecycle.step Android.Lifecycle.armedLifecycle
        Android.Lifecycle.splitRun).map Android.Lifecycle.outcome =
      some (true, false, true, none) ∧
    (StepSystem.exec Android.Lifecycle.step Android.Lifecycle.armedLifecycle
        Android.Lifecycle.disarmedRun).map Android.Lifecycle.outcome =
      some (true, false, false, none) ∧
    (StepSystem.exec Ios.Lifecycle.step Ios.Lifecycle.armedLifecycle
        Ios.Lifecycle.splitRun).map Ios.Lifecycle.outcome =
      some (true, true, false, none) ∧
    (StepSystem.exec Ios.Lifecycle.step Ios.Lifecycle.armedLifecycle
        Ios.Lifecycle.disarmedRun).map Ios.Lifecycle.outcome =
      some (true, false, false, none) :=
  ⟨rfl, rfl, rfl, rfl⟩

end SyncProvider
