import SyncProvider.Ios.Ledger

/-!
# iOS: a pause ends at the next item

`flush` and the head of the dispatch loop look at the flag. An item the loop has taken up
goes on, past every `await` up to its request, whatever the flag says. So a pause that lands
while a cycle runs lets at most this one request out.

Results:
1. `Cycle.step_paused` : what a step of a cycle sends while the engine is paused.
2. `paused_finishes_one` : what a run sends from a pause on.
-/

namespace SyncProvider.Ios

open StepSystem (exec)

/-- The item the loop has taken up, while its request is to come. -/
def Cycle.takenUp (c : Cycle) : Option StoredSyncItem :=
  match c.phase with
  | .claiming item _ | .claimed item _ _ | .prepared item _ _ _ _ => some item
  | _ => none

/-- The pause stays. A process that starts paused has read the flag back. -/
def Label.staysPaused : Label → Bool
  | .setPaused paused | .kill _ paused => paused
  | _ => true

/-! ## 1. One step -/

namespace Cycle

variable {scheme : String → Option String} {config : DispatcherConfig} {w w' : World}
  {c c' : Cycle} {ev : CycleEvent}

theorem active_of_takenUp {item : StoredSyncItem} (h : c.takenUp = some item) :
    c.active = true := by
  unfold takenUp at h
  unfold active
  cases hphase : c.phase with
  | finishing | finished =>
    rw [hphase] at h
    cases h
  | _ => rfl

theorem takenUp_writeFailure (w : World) (c : Cycle) (item : StoredSyncItem)
    (rest : List StoredSyncItem) (record : FailureRecord) (nowMs : Int) :
    (writeFailure w c item rest record nowMs).2.takenUp = none := by
  unfold writeFailure
  cases record.write <;> rfl

/-- Nothing is taken up, and what was taken up is kept, let go, or sent. -/
theorem step_paused (h : c.step scheme config true w ev = some (w', c')) :
    w'.requests = w.requests ∧ (c'.takenUp = c.takenUp ∨ c'.takenUp = none) ∨
      ∃ item request, c.takenUp = some item ∧ c'.takenUp = none ∧
        w'.requests = w.requests ++ [(item.id, request)] := by
  cases step_cases h with
  | take hphase hpaused => cases hpaused
  | @send item before rest sentWith request hphase =>
    exact .inr ⟨item, request, by simp only [takenUp, hphase], rfl, rfl⟩
  | markInFlight hphase | prepare hphase =>
    refine .inl ⟨rfl, .inl ?_⟩
    simp only [takenUp, hphase]
  | @record item rest record nowMs hphase =>
    exact .inl ⟨(writeFailure_spec w c item rest record nowMs).2.2.1,
      .inr (takenUp_writeFailure ..)⟩
  | fetchNone | fetch | leave | rejectUrl | sendFails | answer | succeed | failItem | remove
  | summarize | fail | finish => exact .inl ⟨rfl, .inr rfl⟩

end Cycle

/-! ## 2. A run from a pause on -/

namespace Engine

variable {scheme : String → Option String} {e e' m m' : Engine} {l : Label}

/-- A cycle of `e` has taken the item up. -/
def TakenUp (e : Engine) (item : StoredSyncItem) : Prop :=
  ∃ t c, e.flushes t = some c ∧ c.takenUp = some item

/-- Since the pause in `e`, nothing was sent and nothing new taken up, or the one item that was
taken up then is sent. -/
def Winding (e m : Engine) : Prop :=
  m.world.requests = e.world.requests ∧ (∀ item, m.TakenUp item → e.TakenUp item) ∨
    ∃ item request, e.TakenUp item ∧
      m.world.requests = e.world.requests ++ [(item.id, request)] ∧ ∀ x, ¬m.TakenUp x

/-- A step that takes nothing up and sends nothing. -/
theorem Winding.keep (h : Winding e m) (hrequests : m'.world.requests = m.world.requests)
    (htaken : ∀ item, m'.TakenUp item → m.TakenUp item) : Winding e m' := by
  rcases h with ⟨hnone, hmine⟩ | ⟨item, request, hitem, hone, hmine⟩
  · exact .inl ⟨hrequests.trans hnone, fun item hitem => hmine item (htaken item hitem)⟩
  · exact .inr ⟨item, request, hitem, hrequests.trans hone, fun x hx => hmine x (htaken x hx)⟩

theorem Winding.step (hO : OneCycle m) (hpaused : m.paused = true) (hW : Winding e m)
    (hl : l.staysPaused = true) (h : m.step scheme l = some m') :
    m'.paused = true ∧ Winding e m' := by
  have hsame {m' : Engine} (hflushes : m'.flushes = m.flushes) :
      ∀ item, m'.TakenUp item → m.TakenUp item := by
    rintro item ⟨t, c, hc, hitem⟩
    exact ⟨t, c, hflushes ▸ hc, hitem⟩
  cases l with
  | enqueue items =>
    obtain ⟨store, -, -, rfl⟩ := Engine.step_enqueue h
    exact ⟨hpaused, hW.keep rfl (hsame rfl)⟩
  | remove call | updateConfig config =>
    cases h
    exact ⟨hpaused, hW.keep rfl (hsame rfl)⟩
  | setPaused paused =>
    cases h
    exact ⟨hl, hW.keep rfl (hsame rfl)⟩
  | flush t recovered nowMs =>
    obtain ⟨-, h⟩ := Option.ite_none_right_eq_some.mp h
    cases h
    rw [flush, if_pos hpaused]
    exact ⟨hpaused, hW⟩
  | cycle t ev =>
    obtain ⟨c, hc, h⟩ := Option.bind_eq_some_iff.mp h
    obtain ⟨⟨w, c'⟩, hstep, rfl⟩ := Option.map_eq_some_iff.mp h
    rw [hpaused] at hstep
    refine ⟨hpaused, ?_⟩
    rcases Cycle.step_paused hstep with ⟨hrequests, htaken⟩ | ⟨item, request, htaken, hlet, hsent⟩
    · refine hW.keep hrequests ?_
      rintro item ⟨u, d, hd, hitem⟩
      rcases flushes_setCycle hd with ⟨rfl, rfl⟩ | ⟨-, hd⟩
      · rcases htaken with hkept | hnone
        · exact ⟨u, c, hc, hkept ▸ hitem⟩
        · rw [hnone] at hitem
          cases hitem
      · exact ⟨u, d, hd, hitem⟩
    · rcases hW with ⟨hnone, hmine⟩ | ⟨x, r, -, -, hmine⟩
      · refine .inr ⟨item, request, hmine item ⟨t, c, hc, htaken⟩, ?_, ?_⟩
        · rw [← hnone]
          exact hsent
        · rintro x ⟨u, d, hd, hx⟩
          rcases flushes_setCycle hd with ⟨rfl, rfl⟩ | ⟨hu, hd⟩
          · rw [hlet] at hx
            cases hx
          · -- the cycle that sends is the active one
            have hended := hO.ended hu hc hd (Cycle.active_of_takenUp hx)
            rw [Cycle.active_of_takenUp htaken] at hended
            cases hended
      · exact absurd ⟨t, c, hc, htaken⟩ (hmine item)
  | recover =>
    obtain ⟨-, h⟩ := Option.ite_none_right_eq_some.mp h
    cases h
    exact ⟨hpaused, hW.keep rfl (hsame rfl)⟩
  | kill config paused =>
    cases h
    refine ⟨hl, hW.keep rfl ?_⟩
    rintro item ⟨t, c, ⟨⟩, -⟩

/-- From a pause on, until it is lifted: whatever is enqueued, configured, flushed, woken or killed,
at most one more request starts, and it is the one of the item the loop had taken up when the
pause landed. -/
theorem paused_finishes_one {ls : List Label} (hreach : Reachable scheme e)
    (hpaused : e.paused = true) (hls : ∀ l ∈ ls, l.staysPaused = true)
    (hrun : exec (step scheme) e ls = some e') :
    e'.world.requests = e.world.requests ∨
      ∃ t c item request, e.flushes t = some c ∧ c.takenUp = some item ∧
        e'.world.requests = e.world.requests ++ [(item.id, request)] := by
  have hone : OneCycle e := hreach.invariant Boot.oneCycle OneCycle.step
  have hend : OneCycle e' ∧ e'.paused = true ∧ Winding e e' := by
    refine StepSystem.exec_invariant_of_meets (C := fun _ l => l.staysPaused = true)
      (I := fun m => OneCycle m ∧ m.paused = true ∧ Winding e m) ?_
      ⟨hone, hpaused, .inl ⟨rfl, fun item hitem => hitem⟩⟩ (StepSystem.meets_of_forall hls) hrun
    rintro m l m' ⟨hO, hp, hW⟩ hl h
    exact ⟨hO.step h, hW.step hO hp hl h⟩
  rcases hend.2.2 with ⟨hnone, -⟩ | ⟨item, request, ⟨t, c, hc, hitem⟩, hsent, -⟩
  · exact .inl hnone
  · exact .inr ⟨t, c, item, request, hc, hitem, hsent⟩

section Sample

/-- Two items are fetched, the first one is taken up, and the pause lands. -/
def pauseRun : List Label :=
  fetchRun [SyncQueueStorage.sampleItem "A", SyncQueueStorage.sampleItem "B"] ++
    [.cycle 0 .next, .setPaused true]

/-- The cycle goes on, and looks for its next item. -/
def windDownRun : List Label :=
  [.cycle 0 (.markInFlight 2001), .cycle 0 .prepare, .cycle 0 .send] ++ answerRun 200 ++
    [.cycle 0 .next]

/-- The first item goes out, the second one stays. -/
theorem paused_finishes_one_of_two :
    ∃ e e', exec (step https) firstLaunch pauseRun = some e ∧
      exec (step https) e windDownRun = some e' ∧ e'.world.requests.map (·.1) = ["A"] ∧
      (e'.world.requests = e.world.requests ∨
        ∃ t c item request, e.flushes t = some c ∧ c.takenUp = some item ∧
          e'.world.requests = e.world.requests ++ [(item.id, request)]) := by
  have hls : ∀ l ∈ windDownRun, l.staysPaused = true := by decide
  have hreach : Reachable https _ := ⟨firstLaunch, pauseRun, firstLaunch_boot, rfl⟩
  exact ⟨_, _, rfl, rfl, rfl, paused_finishes_one hreach rfl hls rfl⟩

end Sample

end Engine

end SyncProvider.Ios
