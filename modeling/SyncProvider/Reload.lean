import SyncProvider.Android.Reload
import SyncProvider.Ios.Reload

/-!
# A reload on both platforms

A reload attaches the new side of the bridge while the old one detaches. On both platforms
the detach that takes the count to zero cleans up in steps of their own, so the attach can
come in between.

Results:
1. `reload_spares_engine` : when the live engine keeps its watch and its timer.
2. `late_cleanup_disarms` : a detach that cleans up once the attach has finished.
-/

namespace SyncProvider

/-- Over any run from the launch of the process to a state with an engine attached (and, on
Android, no call in progress), when no detach is still to read the field where the first
attach stores its watch, and none is still to cancel the timer where it is re-armed on
behalf of that attach. -/
theorem reload_spares_engine (s s' : Android.Lifecycle) (ls : List Android.Lifecycle.Label)
    (t t' : Ios.Lifecycle) (ms : List Ios.Lifecycle.Label) :
    (s.Launch →
      StepSystem.Meets (StepSystem.ghost Android.Lifecycle.step Android.Lifecycle.observe)
        Android.Lifecycle.Spares (s, none) ls →
      StepSystem.exec Android.Lifecycle.step s ls = some s' →
      (∀ k ∈ s'.tasks, k.isDone = true) → 0 < s'.shared.attachedEngines →
      ∃ u stage, StepSystem.exec (StepSystem.ghost Android.Lifecycle.step
          Android.Lifecycle.observe) (s, none) ls = some (s', some (u, stage)) ∧
        s'.shared.watches u = true ∧ stage ≠ .disarmed) ∧
    (t.shared.attachedHybrids = 0 →
      StepSystem.Meets (StepSystem.ghost Ios.Lifecycle.step Ios.Lifecycle.observe)
        Ios.Lifecycle.Spares (t, none) ms →
      StepSystem.exec Ios.Lifecycle.step t ms = some t' → 0 < t'.shared.attachedHybrids →
      ∃ u stage, StepSystem.exec (StepSystem.ghost Ios.Lifecycle.step Ios.Lifecycle.observe)
          (t, none) ms = some (t', some (u, stage)) ∧ stage ≠ .disarmed) :=
  ⟨Android.Lifecycle.engine_spared_of_meets, Ios.Lifecycle.hybrid_spared_of_meets⟩

/-- The attach runs between the steps of the detach and is spared. -/
theorem reload_spares_engine_overlapping :
    (∃ s', StepSystem.exec Android.Lifecycle.step Android.Lifecycle.launched
        Android.Lifecycle.sparingRun = some s' ∧
      ∃ u stage, StepSystem.exec (StepSystem.ghost Android.Lifecycle.step
          Android.Lifecycle.observe) (Android.Lifecycle.launched, none)
          Android.Lifecycle.sparingRun = some (s', some (u, stage)) ∧
        s'.shared.watches u = true ∧ stage ≠ .disarmed) ∧
    ∃ s', StepSystem.exec Ios.Lifecycle.step Ios.Lifecycle.launched
        Ios.Lifecycle.sparingRun = some s' ∧
      ∃ u stage, StepSystem.exec (StepSystem.ghost Ios.Lifecycle.step Ios.Lifecycle.observe)
          (Ios.Lifecycle.launched, none) Ios.Lifecycle.sparingRun =
          some (s', some (u, stage)) ∧ stage ≠ .disarmed := by
  obtain ⟨s', hrun, hfinished, hlive⟩ : ∃ s', StepSystem.exec Android.Lifecycle.step
      Android.Lifecycle.launched Android.Lifecycle.sparingRun = some s' ∧
    s'.finished = true ∧ s'.shared.attachedEngines = 1 := ⟨_, rfl, rfl, rfl⟩
  obtain ⟨t', hrun', hlive'⟩ : ∃ t', StepSystem.exec Ios.Lifecycle.step
      Ios.Lifecycle.launched Ios.Lifecycle.sparingRun = some t' ∧
    t'.shared.attachedHybrids = 1 := ⟨_, rfl, rfl⟩
  obtain ⟨handroid, hios⟩ := reload_spares_engine _ s' _ _ t' _
  refine ⟨⟨s', hrun, ?_⟩, t', hrun', ?_⟩
  · exact handroid Android.Lifecycle.launch_launched Android.Lifecycle.spares_sparingRun hrun
      (List.all_eq_true.mp hfinished) (hlive ▸ Int.one_pos)
  · exact hios rfl Ios.Lifecycle.spares_sparingRun hrun' (hlive' ▸ Nat.one_pos)

/-- The engine of the reload is attached, all calls have finished, and a detach has disarmed
the timer that was re-armed for it. On Android its watch is cancelled as well. -/
theorem late_cleanup_disarms :
    (StepSystem.exec (StepSystem.ghost Android.Lifecycle.step Android.Lifecycle.observe)
        (Android.Lifecycle.launched, none) Android.Lifecycle.disarmingRun).map
        Android.Lifecycle.reloaded =
      some (true, 1, some (3, .disarmed), false, none) ∧
    (StepSystem.exec (StepSystem.ghost Ios.Lifecycle.step Ios.Lifecycle.observe)
        (Ios.Lifecycle.launched, none) Ios.Lifecycle.disarmingRun).map
        Ios.Lifecycle.reloaded =
      some (true, 1, some (3, .disarmed), none) :=
  ⟨rfl, rfl⟩

end SyncProvider
