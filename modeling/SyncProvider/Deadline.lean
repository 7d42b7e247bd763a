import SyncProvider.Android.Deadline
import SyncProvider.Ios.Deadline

/-!
# The cooldown of an item on both platforms

Result: `cooldown_holds` : a request never goes out before the deadline in force.

The deadline in force is the one of the last outcome. With a clock that goes
back an outcome can record a deadline before an earlier one
(`outcome_lowers_deadline`).
-/

namespace SyncProvider

/-- Over every run of the iOS engine with its launches and of the Android process
with its deaths: the requests are the attempts of the history, no attempt comes
from a selection that read a clock before the deadline in force, only the
outcome of an item lowers its deadline, and as long as no outcome is recorded
before the clock of its selection every earlier deadline holds as well. -/
theorem cooldown_holds (scheme : String → Option String)
    (accepts : Android.HttpRequest → Bool) :
    Cooldown.Guards (Ios.Clocked.step scheme) Ios.Clocked.events Ios.Clocked.queue
        Ios.Clocked.sent Ios.Clocked.Ordered Ios.Clocked.Boot ∧
      Cooldown.Guards (Android.Engine.live accepts) (Android.Engine.cooldownEvents accepts)
        Android.Engine.queue Android.Engine.sent Android.Engine.Ordered Android.Engine.Boot :=
  ⟨Ios.Clocked.guards scheme, Android.Engine.guards accepts⟩

section Sample

open Ios

/-- Flush call `t` fetches the one item at `fetchMs`, and records a 503 at
`writeMs`. -/
def unavailableRun (t : Nat) (fetchMs writeMs : Int) : List Label :=
  [.flush t none fetchMs, .cycle t (.fetch fetchMs), .cycle t .next,
    .cycle t (.markInFlight fetchMs), .cycle t .prepare, .cycle t .send,
    .cycle t (.answer (some 503) none), .cycle t (.settle 0), .cycle t (.write writeMs),
    .cycle t .next, .cycle t (.summarize writeMs), .cycle t .finish]

/-- Two failed attempts and a third one. The clock goes back during the second. -/
def clockBackRun : List Label :=
  .enqueue [SyncQueueStorage.sampleItem "A"] :: unavailableRun 0 2000 9000 ++
    unavailableRun 1 10000 3000 ++ unavailableRun 2 5000 6000

/-- The third request goes out before the deadline of the first one. -/
theorem outcome_lowers_deadline :
    ∃ s log, Clocked.Boot ⟨Engine.firstLaunch, fun _ => 0⟩ ∧
      StepSystem.exec (StepSystem.recorded (Clocked.step Engine.https) Clocked.events)
        (⟨Engine.firstLaunch, fun _ => 0⟩, []) clockBackRun = some (s, log) ∧
      ¬ Cooldown.RespectsAll log := by
  have htrace : (StepSystem.exec (StepSystem.recorded (Clocked.step Engine.https) Clocked.events)
      (⟨Engine.firstLaunch, fun _ => 0⟩, []) clockBackRun).map (·.2) =
        some ([.started "A" 2000, .recorded "A" (some 10000), .started "A" 10000,
          .recorded "A" (some 5000)] ++ .started "A" 5000 :: [.recorded "A" (some 10000)]) := by
    decide +kernel
  obtain ⟨⟨s, log⟩, hrun, hlog⟩ := Option.map_eq_some_iff.mp htrace
  refine ⟨s, log, ⟨Engine.firstLaunch_boot, rfl⟩, hrun, fun hall => ?_⟩
  have hearly : (10000 : Int) ≤ 5000 :=
    hall _ _ "A" 5000 hlog 10000 (by decide)
  exact absurd hearly (by decide)

end Sample

end SyncProvider
