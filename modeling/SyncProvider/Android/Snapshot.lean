import SyncProvider.Android.Dispatcher

/-!
# Android: a cycle and the configuration it started with

`runCycle` gets its options and its credential policy as arguments, so a
`configureSync` that lands while it runs should not reach it. One read escapes:
`runOnce` asks the options in force, not those of its cycle, whether a status
code is retryable.

Results:
1. `classifyStatus_eq_iff` : for which status codes two policies classify alike.
2. `step_withSettings` : which steps do not look at the configuration.
3. `cycle_ignores_configure_iff` : a cycle runs as if nothing had been
   configured when the policies agree on every status code that comes back, and
   each disagreement changes how the item is settled.
4. `configure_changes_outcome` : a run in which they disagree.
-/

namespace SyncProvider.Android

/-! ## 1. Two policies and one status code -/

/-- The policies treat the status code alike: it is not looked up, or both
look it up with the same result. -/
def AgreeOn (p q : RetryPolicy) (code : Int) : Prop :=
  200 ≤ code ∧ code ≤ 299 ∨ code = 401 ∨ code = 403 ∨
    RetryPolicyEvaluator.shouldRetryStatus code p = RetryPolicyEvaluator.shouldRetryStatus code q

instance (p q : RetryPolicy) (code : Int) : Decidable (AgreeOn p q code) := by
  unfold AgreeOn
  infer_instance

/-- A looked-up status code is a server error, retryable as the policy says. -/
theorem classifyStatus_of_lookup {code : Int} (policy : RetryPolicy)
    (hok : ¬ (200 ≤ code ∧ code ≤ 299)) (hauth : ¬ (code = 401 ∨ code = 403)) :
    classifyStatus code policy = .failure ⟨.SERVER_ERROR, "HTTP " ++ toString code, some code,
      RetryPolicyEvaluator.shouldRetryStatus code policy⟩ := by
  simp only [classifyStatus, if_neg hok, if_neg hauth]
  cases RetryPolicyEvaluator.shouldRetryStatus (some code) policy <;> simp

theorem classifyStatus_eq_iff {p q : RetryPolicy} {code : Int} :
    classifyStatus code p = classifyStatus code q ↔ AgreeOn p q code := by
  unfold AgreeOn
  by_cases hok : 200 ≤ code ∧ code ≤ 299
  · simp [classifyStatus, hok]
  by_cases hauth : code = 401 ∨ code = 403
  · have : code = 401 ∨ code = 403 ∨ RetryPolicyEvaluator.shouldRetryStatus code p =
        RetryPolicyEvaluator.shouldRetryStatus code q := by tauto
    simp [classifyStatus, hok, hauth, this]
  · rw [classifyStatus_of_lookup p hok hauth, classifyStatus_of_lookup q hok hauth]
    simp only [AttemptResult.failure.injEq, AttemptFailure.mk.injEq, true_and]
    tauto

/-- Two server errors that differ in being retryable are settled differently,
whether or not there is budget left. -/
theorem settle_ne_of_retryable (options : SyncOptions) (credentials : CredentialPolicy)
    (entity : SyncItemEntity) (startedAt finishedAt : Int) (sample : ℚ) (message : String)
    (code : Option Int) :
    settle options credentials entity startedAt finishedAt sample
        (.failure ⟨.SERVER_ERROR, message, code, true⟩) ≠
      settle options credentials entity startedAt finishedAt sample
        (.failure ⟨.SERVER_ERROR, message, code, false⟩) := by
  cases hbudget : RetryPolicyEvaluator.hasBudget (wrap32 (entity.attempts + 1)) options.retryPolicy
  · simp [settle, hbudget, failTerminally]
  · simp [settle, hbudget, failTerminally, reschedule]

/-- Two policies settle an answer alike exactly when they agree on its code. -/
theorem settle_classifyStatus_eq_iff {p q : RetryPolicy} {code : Int} (options : SyncOptions)
    (credentials : CredentialPolicy) (entity : SyncItemEntity) (startedAt finishedAt : Int)
    (sample : ℚ) :
    settle options credentials entity startedAt finishedAt sample (classifyStatus code p) =
      settle options credentials entity startedAt finishedAt sample (classifyStatus code q) ↔
      AgreeOn p q code := by
  refine ⟨fun h => ?_, fun h => by rw [classifyStatus_eq_iff.mpr h]⟩
  by_contra hne
  have hok : ¬ (200 ≤ code ∧ code ≤ 299) := fun hok => hne (.inl hok)
  have hauth : ¬ (code = 401 ∨ code = 403) := fun hauth => hne (.inr (by tauto))
  have hlookup : RetryPolicyEvaluator.shouldRetryStatus code p ≠
      RetryPolicyEvaluator.shouldRetryStatus code q := fun hl => hne (.inr (.inr (.inr hl)))
  rw [classifyStatus_of_lookup p hok hauth, classifyStatus_of_lookup q hok hauth] at h
  cases hp : RetryPolicyEvaluator.shouldRetryStatus (some code) p <;>
    cases hq : RetryPolicyEvaluator.shouldRetryStatus (some code) q <;>
    rw [hp, hq] at hlookup h
  · exact hlookup rfl
  · exact settle_ne_of_retryable _ _ _ _ _ _ _ _ h.symm
  · exact settle_ne_of_retryable _ _ _ _ _ _ _ _ h
  · exact hlookup rfl

/-! ## 2. Which steps look at the configuration -/

/-- A cycle looks at the live options only when a response comes back. -/
theorem Cycle.step_congr {accepts : HttpRequest → Bool} {live live' : SyncOptions}
    {cancelled : Bool} {w : World} {c : Cycle} {ev : CycleEvent}
    (h : ∀ i code, ev = .dispatch i (.respond (.response code)) →
      AgreeOn live.retryPolicy live'.retryPolicy code) :
    c.step accepts live cancelled w ev = c.step accepts live' cancelled w ev := by
  obtain ⟨options, credentials, startedAt, phase⟩ := c
  cases ev with
  | dispatch i ev =>
    have hstep (d : Dispatch) : d.step accepts live options credentials w ev =
        d.step accepts live' options credentials w ev := by
      obtain ⟨entity, state⟩ := d
      cases ev with
      | respond r =>
        have hr : classify live.retryPolicy (requestTimeout options) r =
            classify live'.retryPolicy (requestTimeout options) r := by
          cases r with
          | response code => exact classifyStatus_eq_iff.mpr (h i code rfl)
          | _ => rfl
        cases state with
        | requesting startedAt => simp only [Dispatch.step, hr]
        | _ => rfl
      | _ => cases state <;> rfl
    cases phase with
    | dispatching probing dispatches => simp only [Cycle.step, hstep]
    | _ => rfl
  | _ =>
    cases phase with
    | dispatching probing dispatches => cases probing <;> rfl
    | _ => rfl

/-- The label replaces the configuration. -/
def Label.isConfigure : Label → Bool
  | .configure _ _ => true
  | _ => false

namespace Engine

/-- The same process under another configuration. -/
def withSettings (e : Engine) (options : SyncOptions) (credentials : CredentialPolicy) : Engine :=
  { e with options := options, credentials := credentials }

/-- `policy` and the live policy agree on the status code that comes back. -/
def AgreesAt (policy : RetryPolicy) (e : Engine) : Label → Prop
  | .cycle _ (.dispatch _ (.respond (.response code))) => AgreeOn e.options.retryPolicy policy code
  | _ => True

/-- A step during a cycle, when the policies agree at it, is the same step
under the other configuration. -/
theorem step_withSettings {accepts : HttpRequest → Bool} {e e' : Engine} {t : Nat} {l : Label}
    {options : SyncOptions} {credentials : CredentialPolicy} (hE : Exclusive e)
    (ht : (e.calls t).inRunCycle = true) (hagree : AgreesAt options.retryPolicy e l)
    (hl : l.isConfigure = false) (h : e.step accepts l = some e') :
    (e.withSettings options credentials).step accepts l =
      some (e'.withSettings options credentials) := by
  -- a caller that reads the configuration holds the mutex, which `t` has
  have only {u : Nat} (hu : (e.calls u).holdsMutex = true) : (e.calls u).inRunCycle = true := by
    have htm : (e.calls t).holdsMutex = true := by
      revert ht
      unfold Call.inRunCycle Call.holdsMutex
      cases (e.calls t).state <;> simp
    rwa [hE.eq hu htm]
  cases l with
  | enqueue items =>
    simp only [step, Option.ite_none_right_eq_some, Option.map_eq_some_iff] at h
    obtain ⟨hnew, table, hins, rfl⟩ := h
    simp only [step, withSettings, if_pos hnew, hins]
    rfl
  | remove call =>
    cases h
    rfl
  | configure o c => cases hl
  | setPaused paused =>
    cases h
    rfl
  | call u op =>
    simp only [step] at h
    split at h <;> cases h
    rename_i hs
    simp only [step, withSettings, hs]
    rfl
  | cancel u =>
    cases h
    rfl
  | giveUp u =>
    simp only [step, Option.ite_none_right_eq_some] at h
    obtain ⟨hcancelled, h⟩ := h
    split at h <;> cases h
    all_goals
      rename_i hs
      simp only [step, withSettings, hs, if_pos hcancelled]
      rfl
  | lock u =>
    simp only [step] at h
    split at h <;> cases h
    rename_i hs hfree
    simp only [step, withSettings, hs, hfree]
    rfl
  | checkPaused u =>
    simp only [step] at h
    split at h <;> cases h
    rename_i hs
    simp only [step, withSettings, hs]
    rfl
  | readCredentials u =>
    simp only [step] at h
    split at h
    case h_2 => cases h
    case h_1 hs =>
      have := @only u (by simp [Call.holdsMutex, hs])
      simp [Call.inRunCycle, hs] at this
  | begin u now =>
    simp only [step] at h
    split at h
    case h_2 => cases h
    case h_1 hs =>
      have := @only u (by simp [Call.holdsMutex, hs])
      simp [Call.inRunCycle, hs] at this
  | reset u =>
    simp only [step] at h
    split at h <;> cases h
    rename_i hs
    simp only [step, withSettings, hs]
    rfl
  | cycle u ev =>
    simp only [step] at h
    split at h
    case h_2 => cases h
    case h_1 c hs =>
      obtain ⟨⟨w, c'⟩, hc, rfl⟩ := Option.map_eq_some_iff.mp h
      have hcongr : c.step accepts e.options (e.calls u).cancelled e.world ev =
          c.step accepts options (e.calls u).cancelled e.world ev := by
        refine Cycle.step_congr ?_
        rintro i code rfl
        exact hagree
      simp only [step, withSettings, hs, ← hcongr, hc]
      rfl
  | unlock u =>
    simp only [step] at h
    split at h
    · rename_i hs
      cases h
      simp only [step, withSettings, hs]
      rfl
    · rename_i hs
      split at h <;> cases h
      rename_i hfin
      simp only [step, withSettings, hs, if_pos hfin]
      rfl
    · cases h

/-! ## 3. A cycle without the replacements -/

/-- Only its own `unlock` ends a cycle. -/
theorem inRunCycle_step {accepts : HttpRequest → Bool} {e e' : Engine} {t : Nat} {l : Label}
    (ht : (e.calls t).inRunCycle = true) (hl : l ≠ .unlock t) (h : e.step accepts l = some e') :
    (e'.calls t).inRunCycle = true := by
  have other {u : Nat} {call : Call} (hcall : u = t → call.inRunCycle = true) :
      (Function.update e.calls u call t).inRunCycle = true := by
    by_cases hu : u = t
    · subst hu
      rw [Function.update_self]
      exact hcall rfl
    · rw [Function.update_of_ne fun h => hu h.symm]
      exact ht
  -- a caller in any other state than a cycle is not `t`
  have ne {u : Nat} {p : Prop} (hs : (e.calls u).inRunCycle = false) (hu : u = t) : p := by
    rw [hu, ht] at hs
    cases hs
  cases l with
  | enqueue items =>
    obtain ⟨table, -, -, rfl⟩ := Engine.step_enqueue h
    exact ht
  | remove call =>
    cases h
    exact ht
  | configure options credentials =>
    cases h
    exact ht
  | setPaused paused =>
    cases h
    exact ht
  | cancel u =>
    cases h
    exact other fun hu => by subst hu; exact ht
  | cycle u ev =>
    simp only [step] at h
    split at h
    case h_2 => cases h
    case h_1 c hs =>
      obtain ⟨-, -, rfl⟩ := Option.map_eq_some_iff.mp h
      exact other fun _ => rfl
  | unlock u =>
    have hu : u ≠ t := fun hu => hl (by rw [hu])
    simp only [step] at h
    split at h
    · cases h
      exact other fun h => absurd h hu
    · split at h <;> cases h
      exact other fun h => absurd h hu
    · cases h
  | giveUp u =>
    simp only [step, Option.ite_none_right_eq_some] at h
    obtain ⟨-, h⟩ := h
    split at h <;> cases h
    all_goals
      rename_i hs
      exact other fun hu => ne (by simp [Call.inRunCycle, hs]) hu
  | call u op | lock u | checkPaused u | readCredentials u | begin u now | reset u =>
    simp only [step] at h
    split at h <;> cases h
    exact other fun hu => ne (by simp [Call.inRunCycle, ‹(e.calls u).state = _›]) hu

/-- The cycle of caller `t` goes on, and if a response comes back its status
code is one the policies agree on. -/
def Undisturbed (t : Nat) (policy : RetryPolicy) (e : Engine) (l : Label) : Prop :=
  l ≠ .unlock t ∧ AgreesAt policy e l

/-- A cycle under configuration replacements is the same cycle without them
(the same requests, writes, delays, outcomes and events) when at each response
the live policy and the policy of the cycle agree on the status code. Where
they disagree, the item is settled differently. -/
theorem cycle_ignores_configure_iff {accepts : HttpRequest → Bool} :
    (∀ {e e' : Engine} {t : Nat} {c : Cycle} {ls : List Label}, Reachable accepts e →
      (e.calls t).state = .cycle c → e.options = c.options →
      StepSystem.Meets (step accepts) (Undisturbed t c.options.retryPolicy) e ls →
      StepSystem.exec (step accepts) e ls = some e' →
      ∃ f, StepSystem.exec (step accepts) e (ls.filter fun l => !l.isConfigure) = some f ∧
        f.world = e'.world ∧ f.calls = e'.calls) ∧
    ∀ (live options : SyncOptions) (credentials : CredentialPolicy) (entity : SyncItemEntity)
      (startedAt finishedAt : Int) (sample : ℚ) (code : Int),
      settle options credentials entity startedAt finishedAt sample
          (classifyStatus code live.retryPolicy) =
        settle options credentials entity startedAt finishedAt sample
          (classifyStatus code options.retryPolicy) ↔
      AgreeOn live.retryPolicy options.retryPolicy code := by
  refine ⟨?_, fun live options credentials entity startedAt finishedAt sample code =>
    settle_classifyStatus_eq_iff options credentials entity startedAt finishedAt sample⟩
  intro e e' t c ls h hc hopts hmeets hrun
  -- the two runs agree up to the configuration, and `t` stays in its cycle
  let R (x y : Engine) : Prop := (Exclusive x ∧ (x.calls t).inRunCycle = true) ∧
    y = x.withSettings c.options e.credentials
  have hstart : R e e := by
    refine ⟨⟨h.inv.exclusive, by simp [Call.inRunCycle, hc]⟩, ?_⟩
    rw [← hopts]
    rfl
  have hkeep : ∀ {x y l x'}, R x y → Undisturbed t c.options.retryPolicy x l →
      (!l.isConfigure) = true → x.step accepts l = some x' →
      ∃ y', y.step accepts l = some y' ∧ R x' y' := by
    rintro x y l x' ⟨⟨hE, ht⟩, rfl⟩ ⟨hl, hagree⟩ hl' hstep
    exact ⟨_, step_withSettings hE ht hagree (by simpa using hl') hstep,
      ⟨hE.step hstep, inRunCycle_step ht hl hstep⟩, rfl⟩
  have hdrop : ∀ {x y l x'}, R x y → Undisturbed t c.options.retryPolicy x l →
      (!l.isConfigure) = false → x.step accepts l = some x' → R x' y := by
    rintro x y l x' ⟨⟨hE, ht⟩, rfl⟩ - hl hstep
    cases l with
    | configure options credentials =>
      cases hstep
      exact ⟨⟨hE, ht⟩, rfl⟩
    | _ => cases hl
  obtain ⟨f, hf, -, rfl⟩ := StepSystem.exec_erase hkeep hdrop hstart hmeets hrun
  exact ⟨_, hf, rfl, rfl⟩

section Sample

/-- The sample options without 503 among the retryable codes. -/
def strictOptions : SyncOptions :=
  { sampleOptions with
    retryPolicy := { sampleOptions.retryPolicy with retryOnStatusCodes := [.fin 500] } }

/-- One row is out, with the options of its cycle in force. -/
def requestRun : List Label :=
  claimRun [SyncQueueStorage.sampleItem "A"] ++
    [.cycle 0 (.dispatch 0 (.start 2001)), .cycle 0 (.dispatch 0 .send)]

/-- The answer comes back and the cycle ends. -/
def answerRun (code : Int) : List Label :=
  [.cycle 0 (.dispatch 0 (.respond (.response code))), .cycle 0 (.dispatch 0 (.settle 2100 0)),
    .cycle 0 (.dispatch 0 .emit), .cycle 0 .join, .cycle 0 (.record 2200)]

/-- The status and the error code of each row. -/
def rowStatuses (e : Engine) : List (ItemStatus × Option SyncErrorCode) :=
  e.world.table.rows.map fun r => (r.status, r.lastErrorCode)

/-! ## 4. A replacement that reaches the cycle -/

/-- A 503 comes back. With the options of its cycle the row waits for a retry.
After a replacement that no longer lists 503 it has failed. -/
theorem configure_changes_outcome :
    ∃ e e' f, StepSystem.exec (step fun _ => true) (coldStart .TRUSTED) requestRun = some e ∧
      e.options = sampleOptions ∧
      StepSystem.exec (step fun _ => true) e
        (.configure strictOptions .TRUSTED :: answerRun 503) = some e' ∧
      StepSystem.exec (step fun _ => true) e (answerRun 503) = some f ∧
      rowStatuses e' = [(.FAILED, some .SERVER_ERROR)] ∧
      rowStatuses f = [(.PENDING, some .SERVER_ERROR)] :=
  ⟨_, _, _, rfl, rfl, rfl, rfl, by decide, by decide⟩

/-- The same replacement leaves a delivered row alone. -/
theorem configure_ignored_on_success :
    ∃ e e' f, StepSystem.exec (step fun _ => true) (coldStart .TRUSTED) requestRun = some e ∧
      StepSystem.exec (step fun _ => true) e
        (.configure strictOptions .TRUSTED :: answerRun 200) = some e' ∧
      StepSystem.exec (step fun _ => true) e
        ((.configure strictOptions .TRUSTED :: answerRun 200).filter fun l => !l.isConfigure) =
          some f ∧
      f.world = e'.world := by
  obtain ⟨e, e', c, he, hc, hopts, he'⟩ : ∃ e e' c,
      StepSystem.exec (step fun _ => true) (coldStart .TRUSTED) requestRun = some e ∧
      (e.calls 0).state = .cycle c ∧ e.options = c.options ∧
      StepSystem.exec (step fun _ => true) e
        (.configure strictOptions .TRUSTED :: answerRun 200) = some e' :=
    ⟨_, _, _, rfl, rfl, rfl, rfl⟩
  -- the only response carries a 200, which neither policy looks up
  have hmeets : StepSystem.Meets (step fun _ => true) (Undisturbed 0 c.options.retryPolicy) e
      (.configure strictOptions .TRUSTED :: answerRun 200) := by
    refine ⟨⟨by decide, trivial⟩, fun _ _ => ⟨⟨by decide, .inl (by decide)⟩, fun _ _ => ?_⟩⟩
    refine ⟨⟨by decide, trivial⟩, fun _ _ => ⟨⟨by decide, trivial⟩, fun _ _ => ?_⟩⟩
    exact ⟨⟨by decide, trivial⟩, fun _ _ => ⟨⟨by decide, trivial⟩, fun _ _ => trivial⟩⟩
  obtain ⟨f, hf, hworld, -⟩ := (@cycle_ignores_configure_iff fun _ => true).1
    ⟨_, _, coldStart_boot .TRUSTED, he⟩ hc hopts hmeets he'
  exact ⟨e, e', f, he, he', hf, hworld⟩

end Sample

end Engine

end SyncProvider.Android
