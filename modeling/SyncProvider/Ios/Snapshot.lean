import SyncProvider.Ios.Bracket

/-!
# iOS: a request and the configuration it was sent with

`runCycle` captures the configuration before it dispatches an item, so an
`updateConfig` that lands while the request is out should not reach the record
of that request. One read escapes: `recordFailureOutcome` asks the retry policy
in force, not the captured one.

Results:
1. `step_withConfig` : which steps do not look at the configuration.
2. `Alike` : a run and the run without its updates, up to the policy in force.
3. `record_keeps_captured_iff` : what is recorded for a request is what the run
   without the updates records, exactly when it was delivered or the two
   policies agree on its failure.
4. `updateConfig_changes_record` : a run in which they disagree.
-/

namespace SyncProvider.Ios

/-- The label replaces the configuration. -/
def Label.isUpdateConfig : Label → Bool
  | .updateConfig _ => true
  | _ => false

/-- The dispatch of flush call `t` goes on: its outcome is not taken up, and the process lives. -/
def Label.Awaits (t : Nat) (l : Label) : Prop :=
  l.isKill = false ∧ ∀ sample, l ≠ .cycle t (.settle sample)

namespace Cycle

/-- The request of the item is about to go out, or out, or answered, with the configuration
captured for it. -/
def Dispatches (item : StoredSyncItem) (rest : List StoredSyncItem) (sentWith : DispatcherConfig)
    (c : Cycle) : Prop :=
  (∃ before request, c.phase = .prepared item before rest sentWith request) ∨
    c.phase = .onWire item rest sentWith ∨ ∃ outcome, c.phase = .answered item rest sentWith outcome

variable {scheme : String → Option String} {config : DispatcherConfig} {paused : Bool}
  {w w' : World} {c c' : Cycle} {item : StoredSyncItem} {rest : List StoredSyncItem}
  {sentWith : DispatcherConfig}

theorem Dispatches.active (h : c.Dispatches item rest sentWith) : c.active = true := by
  obtain ⟨before, request, h⟩ | h | ⟨outcome, h⟩ := h <;> simp [Cycle.active, h]

/-- The capture is what was in force at `prepare`. -/
theorem dispatches_of_prepare (h : c.step scheme config paused w .prepare = some (w', c')) :
    ∃ item rest, c'.Dispatches item rest config := by
  cases step_cases h with
  | prepare hphase hurl => exact ⟨_, _, .inl ⟨_, _, rfl⟩⟩
  | rejectUrl hphase hurl => exact ⟨_, _, .inr (.inr ⟨_, rfl⟩)⟩

/-- Up to the answer a dispatch steps alike under every configuration. -/
theorem Dispatches.step {ev : CycleEvent} (hD : c.Dispatches item rest sentWith)
    (hev : ∀ sample, ev ≠ .settle sample) (h : c.step scheme config paused w ev = some (w', c'))
    (config' : DispatcherConfig) :
    c.step scheme config' paused w ev = some (w', c') ∧ c'.Dispatches item rest sentWith := by
  obtain ⟨startedAt, total, attempted, succeededIds, failedIds, firstError, phase⟩ := c
  obtain ⟨before, request, hphase⟩ | hphase | ⟨outcome, hphase⟩ := hD
  · cases hphase
    cases ev with
    | send =>
      cases h
      exact ⟨rfl, .inr (.inl rfl)⟩
    | sendFails error =>
      cases h
      exact ⟨rfl, .inr (.inr ⟨_, rfl⟩)⟩
    | _ => cases h
  · cases hphase
    cases ev with
    | answer statusCode error =>
      cases h
      exact ⟨rfl, .inr (.inr ⟨_, rfl⟩)⟩
    | _ => cases h
  · cases hphase
    cases ev with
    | settle sample => exact absurd rfl (hev sample)
    | _ => cases h

/-- A dispatch whose outcome can be taken up has been answered. -/
theorem Dispatches.answered {sample : ℚ} (hD : c.Dispatches item rest sentWith)
    (h : c.step scheme config paused w (.settle sample) = some (w', c')) :
    ∃ outcome, c.phase = .answered item rest sentWith outcome := by
  obtain ⟨before, request, hphase⟩ | hphase | hanswered := hD
  · simp [Cycle.step, hphase] at h
  · simp [Cycle.step, hphase] at h
  · exact hanswered

/-- A cycle that is over does not look at the configuration. -/
theorem step_of_ended {ev : CycleEvent} (hc : c.active = false)
    (h : c.step scheme config paused w ev = some (w', c')) (config' : DispatcherConfig) :
    c.step scheme config' paused w ev = some (w', c') := by
  obtain ⟨startedAt, total, attempted, succeededIds, failedIds, firstError, phase⟩ := c
  cases phase with
  | finishing notBefore => cases ev <;> exact h
  | finished => cases ev <;> exact h
  | _ => cases hc

/-- How the cycle goes on once the outcome of the item is there. -/
def settled (c : Cycle) (config sentWith : DispatcherConfig) (item : StoredSyncItem)
    (rest : List StoredSyncItem) (outcome : ItemDispatchOutcome) (sample : ℚ) : Cycle :=
  if outcome.succeeded then
    { c with
      succeededIds := c.succeededIds ++ [item.id]
      phase := .removing item rest outcome.statusCode }
  else
    { c with
      phase := .recording item rest (recordFailureOutcome config sentWith item outcome sample) }

theorem step_settle {outcome : ItemDispatchOutcome} {sample : ℚ}
    (hphase : c.phase = .answered item rest sentWith outcome) :
    c.step scheme config paused w (.settle sample) =
      some (w.emit c.progressEvent, c.settled config sentWith item rest outcome sample) := by
  simp only [Cycle.step, hphase, settled]
  split <;> rfl

/-- The cycle goes on alike when the item was delivered, or when the policies agree. -/
theorem settled_eq_iff {config' : DispatcherConfig} {outcome : ItemDispatchOutcome} {sample : ℚ} :
    c.settled config sentWith item rest outcome sample =
      c.settled config' sentWith item rest outcome sample ↔
      outcome.succeeded = true ∨
        AgreeOnFailure config.retryPolicy config'.retryPolicy sentWith item outcome sample := by
  unfold settled
  cases outcome.succeeded with
  | true => simp
  | false => simp [recordFailureOutcome_eq_iff]

/-- Of the configuration in force only the retry policy counts. -/
theorem settled_congr {config' : DispatcherConfig}
    (h : config'.retryPolicy = config.retryPolicy) (outcome : ItemDispatchOutcome) (sample : ℚ) :
    c.settled config' sentWith item rest outcome sample =
      c.settled config sentWith item rest outcome sample := by
  simp only [settled, recordFailureOutcome, h]

end Cycle

namespace Engine

/-! ## 1. Steps that do not look at the configuration -/

/-- The same process under another configuration. -/
def withConfig (e : Engine) (config : DispatcherConfig) : Engine := { e with config := config }

section Steps

variable {scheme : String → Option String} {e e' : Engine} {l : Label} {t : Nat} {c : Cycle}
  {item : StoredSyncItem} {rest : List StoredSyncItem} {sentWith : DispatcherConfig}

/-- A call of `flush` during a cycle can restore the headers, and nothing else. -/
theorem flush_of_running (h : e.world.isCycleRunning = true) (u : Nat)
    (recovered : Option StringMap) (nowMs : Int) :
    ∃ config, config.retryPolicy = e.config.retryPolicy ∧
      e.flush u recovered nowMs = e.withConfig config := by
  obtain ⟨config, hpolicy, heq | ⟨hidle, -⟩⟩ := e.flush_cases u recovered nowMs
  · exact ⟨config, hpolicy, heq⟩
  · rw [h] at hidle
    cases hidle

/-- While a dispatch goes on, every step but a replacement is the same step under another
configuration, whose policy stays. -/
theorem step_withConfig (hO : OneCycle e) (hc : e.flushes t = some c)
    (hD : c.Dispatches item rest sentWith) (hl : l.Awaits t) (hu : l.isUpdateConfig = false)
    (h : e.step scheme l = some e') (config : DispatcherConfig) :
    ∃ config', config'.retryPolicy = config.retryPolicy ∧
      (e.withConfig config).step scheme l = some (e'.withConfig config') := by
  cases l with
  | enqueue items =>
    simp only [step, Option.ite_none_right_eq_some, Option.map_eq_some_iff] at h
    obtain ⟨hnew, store, hins, rfl⟩ := h
    refine ⟨config, rfl, ?_⟩
    simp only [step, withConfig, if_pos hnew, hins]
    rfl
  | remove call | setPaused paused =>
    cases h
    exact ⟨config, rfl, rfl⟩
  | updateConfig config => cases hu
  | flush u recovered nowMs =>
    simp only [step, Option.ite_none_right_eq_some] at h
    obtain ⟨hnone, h⟩ := h
    cases h
    have hrunning : e.world.isCycleRunning = true := hO.running t c hc hD.active
    obtain ⟨config₁, -, h₁⟩ := flush_of_running hrunning u recovered nowMs
    obtain ⟨config', hpolicy, h'⟩ :=
      flush_of_running (e := e.withConfig config) hrunning u recovered nowMs
    refine ⟨config', hpolicy, ?_⟩
    rw [h₁]
    simp only [step, if_pos (show ((e.withConfig config).flushes u).isNone = true from hnone), h']
    rfl
  | cycle u ev =>
    refine ⟨config, rfl, ?_⟩
    obtain ⟨d, hd, h⟩ := Option.bind_eq_some_iff.mp h
    obtain ⟨⟨w, d'⟩, hstep, rfl⟩ := Option.map_eq_some_iff.mp h
    have hsame : d.step scheme config e.paused e.world ev = some (w, d') := by
      by_cases hut : u = t
      · subst hut
        obtain rfl : c = d := Option.some.inj (hc.symm.trans hd)
        have hev (sample : ℚ) : ev ≠ .settle sample := fun heq => hl.2 sample (by rw [heq])
        exact (hD.step hev hstep config).1
      · exact Cycle.step_of_ended (hO.ended (Ne.symm hut) hd hc hD.active) hstep config
    simp only [step, withConfig, hd, Option.bind_some, hsame]
    rfl
  | recover =>
    simp only [step, Option.ite_none_right_eq_some] at h
    obtain ⟨hrecovering, h⟩ := h
    cases h
    exact ⟨config, rfl, if_pos hrecovering⟩
  | kill config paused => cases hl.1

/-- A dispatch goes on until its outcome is taken up. -/
theorem dispatches_step (hc : e.flushes t = some c) (hD : c.Dispatches item rest sentWith)
    (hl : l.Awaits t) (h : e.step scheme l = some e') :
    ∃ c', e'.flushes t = some c' ∧ c'.Dispatches item rest sentWith := by
  by_cases hown : ∃ ev, l = .cycle t ev
  · obtain ⟨ev, rfl⟩ := hown
    obtain ⟨d, d', hcycle⟩ := step_cycle h
    obtain rfl : c = d := Option.some.inj (hc.symm.trans hcycle.before)
    have hev (sample : ℚ) : ev ≠ .settle sample := fun heq => hl.2 sample (by rw [heq])
    refine ⟨d', ?_, (hD.step hev hcycle.step e.config).2⟩
    rw [hcycle.flushes, Function.update_self]
  · exact ⟨c, flushes_of_other h (fun ev heq => hown ⟨ev, heq⟩) hl.1 hc, hD⟩

end Steps

/-! ## 2. A request without the replacements -/

/-- A process `e` with a dispatch under way, and the same process `f` under the retry policy
that the dispatch was sent with. -/
structure Alike (t : Nat) (item : StoredSyncItem) (rest : List StoredSyncItem)
    (sentWith : DispatcherConfig) (e f : Engine) : Prop where
  one : OneCycle e
  dispatch : ∃ c, e.flushes t = some c ∧ c.Dispatches item rest sentWith
  config : ∃ config, config.retryPolicy = sentWith.retryPolicy ∧ f = e.withConfig config

namespace Alike

variable {scheme : String → Option String} {e e' f : Engine} {l : Label} {t : Nat}
  {item : StoredSyncItem} {rest : List StoredSyncItem} {sentWith : DispatcherConfig}

theorem step (hA : Alike t item rest sentWith e f) (hl : l.Awaits t)
    (hu : (!l.isUpdateConfig) = true) (h : e.step scheme l = some e') :
    ∃ f', f.step scheme l = some f' ∧ Alike t item rest sentWith e' f' := by
  obtain ⟨hO, ⟨c, hc, hD⟩, config, hpolicy, rfl⟩ := hA
  obtain ⟨config', hconfig', hstep⟩ := step_withConfig hO hc hD hl (by simpa using hu) h config
  exact ⟨_, hstep, hO.step h, dispatches_step hc hD hl h, config', hconfig'.trans hpolicy, rfl⟩

/-- A replacement of the configuration changes nothing else. -/
theorem step_updateConfig (hA : Alike t item rest sentWith e f)
    (hu : (!l.isUpdateConfig) = false) (h : e.step scheme l = some e') :
    Alike t item rest sentWith e' f := by
  obtain ⟨hO, hD, config, hpolicy, rfl⟩ := hA
  cases l with
  | updateConfig config₁ =>
    cases h
    exact ⟨⟨hO.running, hO.unique⟩, hD, config, hpolicy, rfl⟩
  | _ => cases hu

theorem exec {ls : List Label} (hA : Alike t item rest sentWith e f) (hls : ∀ l ∈ ls, l.Awaits t)
    (h : StepSystem.exec (Engine.step scheme) e ls = some e') :
    ∃ f', StepSystem.exec (Engine.step scheme) f (ls.filter fun l => !l.isUpdateConfig) =
        some f' ∧ Alike t item rest sentWith e' f' :=
  StepSystem.exec_erase (fun hA hl hu h => hA.step hl hu h)
    (fun hA _ hu h => hA.step_updateConfig hu h) hA (StepSystem.meets_of_forall hls) h

/-- The outcome is taken up in both, by what is in force and by what was captured. -/
theorem settle {sample : ℚ} (hA : Alike t item rest sentWith e f)
    (h : e.step scheme (.cycle t (.settle sample)) = some e') :
    ∃ c outcome f', e.flushes t = some c ∧ c.phase = .answered item rest sentWith outcome ∧
      f.step scheme (.cycle t (.settle sample)) = some f' ∧ f'.world = e'.world ∧
      e'.flushes t = some (c.settled e.config sentWith item rest outcome sample) ∧
      f'.flushes t = some (c.settled sentWith sentWith item rest outcome sample) := by
  obtain ⟨-, ⟨c, hc, hD⟩, config, hpolicy, rfl⟩ := hA
  obtain ⟨d, d', hcycle⟩ := step_cycle h
  obtain rfl : c = d := Option.some.inj (hc.symm.trans hcycle.before)
  obtain ⟨outcome, hphase⟩ := hD.answered hcycle.step
  have hlive := hcycle.step
  rw [Cycle.step_settle hphase] at hlive
  obtain ⟨hworld, rfl⟩ := Prod.mk.inj (Option.some.inj hlive)
  have hfree : c.step scheme config e.paused e.world (.settle sample) =
      some (e.world.emit c.progressEvent,
        c.settled config sentWith item rest outcome sample) := Cycle.step_settle hphase
  rw [Cycle.settled_congr hpolicy, hworld] at hfree
  refine ⟨c, outcome, { (e.withConfig config).setCycle t
    (c.settled sentWith sentWith item rest outcome sample) with world := e'.world },
    hc, hphase, ?_, rfl, ?_, Function.update_self ..⟩
  · simp only [Engine.step, withConfig, hc, Option.bind_some, hfree]
    rfl
  · rw [hcycle.flushes, Function.update_self]

end Alike

/-- A dispatch that starts in `e₀` and is settled from `e₂`, with any calls in between. The
same calls without the replacements of the configuration lead to the same world, and the
outcome is taken up under what was in force at the start. The cycle goes on as it does there
exactly when the item was delivered, or when the policy in force by now and the captured one
agree on the failure. -/
theorem record_keeps_captured_iff {scheme : String → Option String} {e₀ e₁ e₂ e₃ : Engine}
    {t : Nat} {ls : List Label} {sample : ℚ} (h : Reachable scheme e₀)
    (hprepare : e₀.step scheme (.cycle t .prepare) = some e₁) (hls : ∀ l ∈ ls, l.Awaits t)
    (hrun : StepSystem.exec (step scheme) e₁ ls = some e₂)
    (hsettle : e₂.step scheme (.cycle t (.settle sample)) = some e₃) :
    ∃ c item rest outcome f,
      e₂.flushes t = some c ∧ c.phase = .answered item rest e₀.config outcome ∧
      StepSystem.exec (step scheme) e₁
        ((ls.filter fun l => !l.isUpdateConfig) ++ [Label.cycle t (.settle sample)]) = some f ∧
      f.world = e₃.world ∧
      f.flushes t = some (c.settled e₀.config e₀.config item rest outcome sample) ∧
      (e₃.flushes t = f.flushes t ↔ outcome.succeeded = true ∨
        AgreeOnFailure e₂.config.retryPolicy e₀.config.retryPolicy e₀.config item outcome
          sample) := by
  obtain ⟨c₀, c₁, hcycle⟩ := step_cycle hprepare
  obtain ⟨item, rest, hD₁⟩ := Cycle.dispatches_of_prepare hcycle.step
  have hc₁ : e₁.flushes t = some c₁ := by rw [hcycle.flushes, Function.update_self]
  have hO₁ : OneCycle e₁ := (h.invariant Boot.oneCycle OneCycle.step).step hprepare
  have hA : Alike t item rest e₀.config e₁ e₁ :=
    ⟨hO₁, ⟨c₁, hc₁, hD₁⟩, e₁.config, by rw [hcycle.config], rfl⟩
  obtain ⟨f₂, hf₂, hA₂⟩ := hA.exec hls hrun
  obtain ⟨c, outcome, f, hc, hphase, hf, hworld, hlive, hcaptured⟩ := hA₂.settle hsettle
  refine ⟨c, item, rest, outcome, f, hc, hphase,
    StepSystem.exec_append_eq_some.mpr ⟨f₂, hf₂, StepSystem.exec_cons_eq_some.mpr ⟨f, hf, rfl⟩⟩,
    hworld, hcaptured, ?_⟩
  rw [hlive, hcaptured, Option.some.injEq]
  exact Cycle.settled_eq_iff

section Sample

/-- The sample configuration with these retryable codes. -/
def listing (codes : List Int) : DispatcherConfig :=
  { sampleConfig with retryPolicy := { samplePolicy with retryOnStatusCodes := codes } }

/-- A cycle has claimed the only item. -/
def claimedRun : List Label :=
  fetchRun [SyncQueueStorage.sampleItem "A"] ++ [.cycle 0 .next, .cycle 0 (.markInFlight 2001)]

/-- The request goes out, the configuration is replaced, and the answer is a 503. -/
def replacedRun (codes : List Int) : List Label :=
  [.cycle 0 .send, .updateConfig (listing codes), .cycle 0 (.answer (some 503) none)]

/-- The outcome is taken up and written. -/
def recordRun : List Label := [.cycle 0 (.settle 0), .cycle 0 (.write 2100)]

/-- The status and the error code of each row. -/
def rowStatuses (e : Engine) : List (ItemStatus × Option SyncErrorCode) :=
  e.world.store.rows.map fun r => (r.status, r.lastErrorCode)

/-! ## 3. A replacement that reaches the record -/

/-- The replacement no longer lists 503. The row fails, and without the replacement it waits
for a retry. -/
theorem updateConfig_changes_record :
    ∃ e₁ e f, Reachable https e₁ ∧
      (e₁.flushes 0).map (·.phase) = some (.prepared (sampleStored "A" 0) (some 0) []
        sampleConfig (buildRequest sampleConfig (sampleStored "A" 0))) ∧
      StepSystem.exec (step https) e₁ (replacedRun [500] ++ recordRun) = some e ∧
      StepSystem.exec (step https) e₁
          ((replacedRun [500] ++ recordRun).filter fun l => !l.isUpdateConfig) = some f ∧
      rowStatuses e = [(.FAILED, some .SERVER_ERROR)] ∧
      rowStatuses f = [(.PENDING, some .SERVER_ERROR)] :=
  ⟨_, _, _, ⟨_, claimedRun ++ [.cycle 0 .prepare], firstLaunch_boot, rfl⟩, rfl, rfl, rfl,
    by decide, by decide⟩

/-- A replacement that still lists 503 changes nothing. -/
theorem updateConfig_keeps_record :
    ∃ e₀ e₁ e₂ e₃ f, StepSystem.exec (step https) firstLaunch claimedRun = some e₀ ∧
      e₀.step https (.cycle 0 .prepare) = some e₁ ∧
      StepSystem.exec (step https) e₁ (replacedRun [503]) = some e₂ ∧
      e₂.step https (.cycle 0 (.settle 0)) = some e₃ ∧
      StepSystem.exec (step https) e₁ (((replacedRun [503]).filter fun l => !l.isUpdateConfig) ++
        [Label.cycle 0 (.settle 0)]) = some f ∧
      e₃.flushes 0 = f.flushes 0 := by
  obtain ⟨e₀, e₁, e₂, e₃, he₀, he₁, he₂, he₃, hpolicy₀, hpolicy₂, hphase₂⟩ : ∃ e₀ e₁ e₂ e₃,
      StepSystem.exec (step https) firstLaunch claimedRun = some e₀ ∧
      e₀.step https (.cycle 0 .prepare) = some e₁ ∧
      StepSystem.exec (step https) e₁ (replacedRun [503]) = some e₂ ∧
      e₂.step https (.cycle 0 (.settle 0)) = some e₃ ∧
      e₀.config = sampleConfig ∧ e₂.config = listing [503] ∧
      (e₂.flushes 0).map (·.phase) = some (.answered (sampleStored "A" 0) [] sampleConfig
        (classifyResponse "A" (some 503) none)) :=
    ⟨_, _, _, _, rfl, rfl, rfl, rfl, rfl, rfl, rfl⟩
  have hawaits : ∀ l ∈ replacedRun [503], l.Awaits 0 := by
    simp [replacedRun, Label.Awaits, Label.isKill]
  obtain ⟨c, item, rest, outcome, f, hc, hphase, hf, -, -, hiff⟩ :=
    record_keeps_captured_iff ⟨_, _, firstLaunch_boot, he₀⟩ he₁ hawaits he₂ he₃
  refine ⟨e₀, e₁, e₂, e₃, f, he₀, he₁, he₂, he₃, hf, hiff.mpr (.inr ?_)⟩
  rw [hc, Option.map_some, hphase, hpolicy₀, Option.some.injEq] at hphase₂
  cases hphase₂
  rw [hpolicy₀, hpolicy₂]
  exact .inl ⟨by decide, by decide, .inr ⟨by decide, by decide, rfl⟩⟩

end Sample

end Engine

end SyncProvider.Ios
