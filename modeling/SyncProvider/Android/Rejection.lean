import SyncProvider.Android.Attempts
import SyncProvider.Android.Bracket

/-!
# Android: a stored credential is rejected

A cycle on default headers restored from disk sends the first row of its batch
alone. If the credential is rejected, the rest is released. But the rest goes
out at once as well when the first row tested no credential: its budget was
spent, its request could not be built, or it never reached the server.

Results:
1. `Dispatch.watched_step` : what is known about a claimed row after each step of
   its dispatch.
2. `Watch.cycle_step` : and about the batch after each step of the cycle.
3. `rejected_once_iff` : when a cycle on a stored credential is rejected once.
-/

namespace SyncProvider.Android

/-! ## What a cycle does to its batch -/

inductive Sight where
  | claimed (rows : List SyncItemEntity)
  | started (row : SyncItemEntity)
  /-- The request of the row went out. -/
  | sent (row : SyncItemEntity)
  /-- It was answered 401 or 403. -/
  | rejected (row : SyncItemEntity)
  deriving DecidableEq

def claimedRows (log : List Sight) : List SyncItemEntity :=
  log.flatMap fun
    | .claimed rows => rows
    | _ => []

def rejections (log : List Sight) : List SyncItemEntity :=
  log.filterMap fun
    | .rejected row => some row
    | _ => none

@[simp] theorem claimedRows_append (log log' : List Sight) :
    claimedRows (log ++ log') = claimedRows log ++ claimedRows log' :=
  List.flatMap_append

@[simp] theorem rejections_append (log log' : List Sight) :
    rejections (log ++ log') = rejections log ++ rejections log' :=
  List.filterMap_append

theorem mem_rejections {log : List Sight} {row : SyncItemEntity} :
    row ∈ rejections log ↔ .rejected row ∈ log := by
  simp only [rejections, List.mem_filterMap]
  constructor
  · rintro ⟨sight, hsight, heq⟩
    cases sight <;> cases heq
    exact hsight
  · exact fun h => ⟨_, h, rfl⟩

def CallResult.isRejection : CallResult → Bool
  | .response code => code == 401 || code == 403
  | _ => false

/-- The row has attempts left, and the HTTP client takes its request. -/
def Sendable (accepts : HttpRequest → Bool) (options : SyncOptions) (row : SyncItemEntity) : Prop :=
  row.attempts < RetryPolicyEvaluator.attemptBudget options.retryPolicy ∧
    (buildRequest accepts row options.defaultHeaders).isSome = true

instance decidableSendable (accepts : HttpRequest → Bool) (options : SyncOptions)
    (row : SyncItemEntity) : Decidable (Sendable accepts options row) :=
  inferInstanceAs (Decidable (row.attempts < RetryPolicyEvaluator.attemptBudget
    options.retryPolicy ∧ (buildRequest accepts row options.defaultHeaders).isSome = true))

/-- What a step of a dispatch shows. -/
def Dispatch.sights (accepts : HttpRequest → Bool) (options : SyncOptions) (d : Dispatch)
    (ev : DispatchEvent) : List Sight :=
  match ev, d.state with
  | .start _, .queued => [.started d.entity]
  | .send, .started _ =>
    if (buildRequest accepts d.entity options.defaultHeaders).isSome then [.sent d.entity] else []
  | .respond r, .requesting _ => if r.isRejection then [.rejected d.entity] else []
  | _, _ => []

def Cycle.sights (accepts : HttpRequest → Bool) (w : World) (c : Cycle) (ev : CycleEvent) :
    List Sight :=
  match ev with
  | .claim => [.claimed (SyncItemDao.claimPending c.startedAt (batchSize c.options) w.table).2]
  | .dispatch i dev =>
    match c.dispatches[i]? with
    | some d => d.sights accepts c.options dev
    | none => []
  | _ => []

/-- What the step shows for the cycle of caller `t`. -/
def Engine.sights (accepts : HttpRequest → Bool) (t : Nat) (e : Engine) : Label → List Sight
  | .cycle u ev =>
    if u = t then
      match (e.calls t).state with
      | .cycle c => c.sights accepts e.world ev
      | _ => []
    else []
  | _ => []

/-! ## 1. A claimed row and its dispatch -/

theorem classify_unauthorized_iff {policy : RetryPolicy} {timeoutMs : Int} {r : CallResult} :
    (∃ f, classify policy timeoutMs r = .failure f ∧ f.code = .UNAUTHORIZED) ↔
      r.isRejection = true := by
  cases r with
  | response code =>
    simp only [classify, classifyStatus, CallResult.isRejection]
    split
    · rename_i hok
      simp only [reduceCtorEq, false_and, exists_false, Bool.or_eq_true, beq_iff_eq, false_iff]
      omega
    · split
      · rename_i hrejected
        simp [hrejected]
      · rename_i hrejected
        rw [Bool.or_eq_true, beq_iff_eq, beq_iff_eq]
        refine ⟨?_, fun h => absurd h hrejected⟩
        rintro ⟨f, hf, hcode⟩
        split at hf
        · cases hf
          cases hcode
        · split at hf <;> cases hf <;> cases hcode
  | socketTimeout message | ioException message | otherException message className | timedOut
  | thrown message className => simp [classify, CallResult.isRejection]

def ItemOutcome.isCredentialRejected : ItemOutcome → Bool
  | .credentialRejected _ _ => true
  | _ => false

theorem settle_isCredentialRejected_iff {options : SyncOptions} {entity : SyncItemEntity}
    {startedAt finishedAt : Int} {sample : ℚ} {result : AttemptResult} :
    (settle options .PERSISTED entity startedAt finishedAt sample
        result).outcome.isCredentialRejected = true ↔
      ∃ f, result = .failure f ∧ f.code = .UNAUTHORIZED := by
  cases result with
  | success statusCode => simp [settle, succeed, ItemOutcome.isCredentialRejected]
  | failure f =>
    simp only [settle, true_and, AttemptResult.failure.injEq, exists_eq_left']
    split
    · rename_i hcode
      simp [holdForCredentialRenewal, ItemOutcome.isCredentialRejected, hcode]
    · rename_i hcode
      simp only [hcode, iff_false, Bool.not_eq_true]
      split <;> rfl

/-- The row fails for good. -/
def FailsIn (t : SyncItems) (row : SyncItemEntity) : Prop :=
  ∀ r ∈ t.rows, r.id = row.id → r.status = .FAILED

/-- What is known about a claimed row, by the state of its dispatch. -/
def Dispatch.Watched (accepts : HttpRequest → Bool) (options : SyncOptions) (w : World)
    (log : List Sight) (d : Dispatch) : Prop :=
  match d.state with
  | .queued =>
    .started d.entity ∉ log ∧ .sent d.entity ∉ log ∧ .rejected d.entity ∉ log ∧
      { d.entity with status := .IN_FLIGHT } ∈ w.table.rows
  | .started _ => .started d.entity ∈ log ∧ .sent d.entity ∉ log ∧ .rejected d.entity ∉ log
  | .requesting _ =>
    .started d.entity ∈ log ∧ .sent d.entity ∈ log ∧ .rejected d.entity ∉ log ∧
      Sendable accepts options d.entity
  | .attempted _ result =>
    .started d.entity ∈ log ∧
      (.sent d.entity ∈ log ∧ Sendable accepts options d.entity ∧
          (.rejected d.entity ∈ log ↔ ∃ f, result = .failure f ∧ f.code = .UNAUTHORIZED) ∨
        .sent d.entity ∉ log ∧ .rejected d.entity ∉ log ∧ ¬ Sendable accepts options d.entity ∧
          result = buildFailure d.entity)
  | .settled _ outcome | .done outcome =>
    .started d.entity ∈ log ∧
      (.sent d.entity ∈ log ∧ Sendable accepts options d.entity ∧
          (.rejected d.entity ∈ log ↔ outcome.isCredentialRejected = true) ∨
        .sent d.entity ∉ log ∧ .rejected d.entity ∉ log ∧ ¬ Sendable accepts options d.entity ∧
          outcome.isCredentialRejected = false ∧ FailsIn w.table d.entity)

theorem failsIn_markFailed {t : SyncItems} {row : SyncItemEntity} {attempts lastAttemptAt : Int}
    {code : SyncErrorCode} :
    FailsIn ((StoreWrite.markFailed row.id attempts lastAttemptAt code).run t) row := by
  intro r hr hid
  obtain ⟨r₀, -, rfl⟩ := SyncItemDao.mem_updateStatus.mp hr
  split
  · rfl
  · rename_i hne
    rw [if_neg hne] at hid
    exact absurd (by simpa using hid) hne

namespace Dispatch

variable {accepts : HttpRequest → Bool} {live options : SyncOptions} {w w' : World}
  {d d' : Dispatch} {ev : DispatchEvent} {log log' : List Sight}

/-- Steps that concern other rows. -/
theorem Watched.frame (hW : d.Watched accepts options w log)
    (hstarted : .started d.entity ∉ log') (hsent : .sent d.entity ∉ log')
    (hrejected : .rejected d.entity ∉ log')
    (hflight : { d.entity with status := .IN_FLIGHT } ∈ w.table.rows →
      { d.entity with status := .IN_FLIGHT } ∈ w'.table.rows)
    (hfails : FailsIn w.table d.entity → FailsIn w'.table d.entity) :
    d.Watched accepts options w' (log ++ log') := by
  unfold Watched at hW ⊢
  split <;> rename_i hstate <;> rw [hstate] at hW
  · obtain ⟨h₁, h₂, h₃, h₄⟩ := hW
    exact ⟨by simp [h₁, hstarted], by simp [h₂, hsent], by simp [h₃, hrejected], hflight h₄⟩
  · obtain ⟨h₁, h₂, h₃⟩ := hW
    exact ⟨by simp [h₁], by simp [h₂, hsent], by simp [h₃, hrejected]⟩
  · obtain ⟨h₁, h₂, h₃, h₄⟩ := hW
    exact ⟨by simp [h₁], by simp [h₂], by simp [h₃, hrejected], h₄⟩
  · obtain ⟨h₁, ⟨h₂, h₃, h₄⟩ | ⟨h₂, h₃, h₄⟩⟩ := hW
    · exact ⟨by simp [h₁], .inl ⟨by simp [h₂], h₃, by simpa [hrejected] using h₄⟩⟩
    · exact ⟨by simp [h₁], .inr ⟨by simp [h₂, hsent], by simp [h₃, hrejected], h₄⟩⟩
  all_goals
    obtain ⟨h₁, ⟨h₂, h₃, h₄⟩ | ⟨h₂, h₃, h₄, h₅, h₆⟩⟩ := hW
    · exact ⟨by simp [h₁], .inl ⟨by simp [h₂], h₃, by simpa [hrejected] using h₄⟩⟩
    · exact ⟨by simp [h₁],
        .inr ⟨by simp [h₂, hsent], by simp [h₃, hrejected], h₄, h₅, hfails h₆⟩⟩

theorem watched_step (hW : d.Watched accepts options w log) (hev : ∀ message, ev ≠ .crash message)
    (h : d.step accepts live options .PERSISTED w ev = some (w', d')) :
    d'.Watched accepts options w' (log ++ d.sights accepts options ev) := by
  cases step_moves h with
  | start =>
    obtain ⟨-, h₂, h₃, -⟩ := hW
    exact ⟨by simp [sights], by simpa [sights] using h₂, by simpa [sights] using h₃⟩
  | @refuse entity startedAt hspent =>
    obtain ⟨h₁, h₂, h₃⟩ := hW
    refine ⟨by simpa [sights] using h₁, .inr ⟨by simpa [sights] using h₂,
      by simpa [sights] using h₃, fun hsendable => ?_, rfl, failsIn_markFailed⟩⟩
    have hlt : entity.attempts < RetryPolicyEvaluator.attemptBudget options.retryPolicy :=
      hsendable.1
    simp [budgetSpent] at hspent
    omega
  | @unbuilt entity startedAt hbudget hbuild =>
    obtain ⟨h₁, h₂, h₃⟩ := hW
    have hsights : sights accepts options ⟨entity, .started startedAt⟩ .send = [] := by
      simp [sights, hbuild]
    rw [hsights, List.append_nil]
    exact ⟨h₁, .inr ⟨h₂, h₃, fun hsendable => by simp [Sendable, hbuild] at hsendable, rfl⟩⟩
  | @send entity startedAt request hbudget hbuild =>
    obtain ⟨h₁, h₂, h₃⟩ := hW
    have hlt : entity.attempts < RetryPolicyEvaluator.attemptBudget options.retryPolicy := by
      simpa [budgetSpent] using hbudget
    have hsights : sights accepts options ⟨entity, .started startedAt⟩ .send =
        [.sent entity] := by
      simp [sights, hbuild]
    rw [hsights]
    exact ⟨by simp [h₁], by simp, by simp [h₃], hlt, by simp [hbuild]⟩
  | @respond entity startedAt r =>
    obtain ⟨h₁, h₂, h₃, h₄⟩ := hW
    refine ⟨by simp [h₁], .inl ⟨by simp [h₂], h₄, ?_⟩⟩
    rw [classify_unauthorized_iff]
    show _ ∈ log ++ (if r.isRejection = true then [.rejected entity] else []) ↔ _
    split
    · rename_i hr
      simp [hr]
    · rename_i hr
      simpa [hr] using h₃
  | @settle entity =>
    obtain ⟨h₁, ⟨h₂, h₃, h₄⟩ | ⟨h₂, h₃, h₄, hresult⟩⟩ := hW
    · refine ⟨by simp [h₁], .inl ⟨by simp [h₂], h₃, ?_⟩⟩
      rw [settle_isCredentialRejected_iff]
      simpa [sights] using h₄
    · change _ = buildFailure entity at hresult
      subst hresult
      exact ⟨by simp [h₁], .inr ⟨by simpa [sights] using h₂, by simpa [sights] using h₃, h₄,
        rfl, failsIn_markFailed⟩⟩
  | emit =>
    show Watched accepts options _ (log ++ []) _
    rw [List.append_nil]
    exact hW
  | crash => exact absurd rfl (hev _)

theorem mem_sights {sight : Sight} (h : sight ∈ d.sights accepts options ev) :
    sight = .started d.entity ∨ sight = .sent d.entity ∨
      sight = .rejected d.entity ∧ ∃ startedAt, d.state = .requesting startedAt := by
  unfold sights at h
  split at h
  · exact .inl (List.mem_singleton.mp h)
  · split at h
    · exact .inr (.inl (List.mem_singleton.mp h))
    · cases h
  · rename_i startedAt hstate
    split at h
    · exact .inr (.inr ⟨List.mem_singleton.mp h, startedAt, hstate⟩)
    · cases h
  · cases h

/-- The dispatch of another row sees nothing of a step. -/
theorem Watched.other {x : Dispatch} (hW : x.Watched accepts options w log)
    (hne : x.entity.id ≠ d.entity.id)
    (h : d.step accepts live options .PERSISTED w ev = some (w', d')) :
    x.Watched accepts options w' (log ++ d.sights accepts options ev) := by
  obtain ⟨-, hkept, hold⟩ := step_frame h
  have hentity : x.entity ≠ d.entity := fun heq => hne (by rw [heq])
  refine hW.frame (fun hmem => ?_) (fun hmem => ?_) (fun hmem => ?_)
    (fun hflight => hkept _ hflight hne) fun hfails r hr hid => ?_
  · rcases mem_sights hmem with heq | heq | ⟨heq, -⟩ <;> simp [hentity] at heq
  · rcases mem_sights hmem with heq | heq | ⟨heq, -⟩ <;> simp [hentity] at heq
  · rcases mem_sights hmem with heq | heq | ⟨heq, -⟩ <;> simp [hentity] at heq
  · exact hfails r (hold r hr (hid ▸ hne)) hid

end Dispatch

/-! ## 2. The batch -/

/-- What became of a claimed row. One whose dispatch never started has one of
the `statuses`. -/
inductive Fate (accepts : HttpRequest → Bool) (options : SyncOptions)
    (statuses : ItemStatus → Prop) (w : World) (log : List Sight) (row : SyncItemEntity) :
    Prop where
  | sent (hsent : .sent row ∈ log) (hsendable : Sendable accepts options row)
  | failed (hstarted : .started row ∈ log) (hsent : .sent row ∉ log)
      (hsendable : ¬ Sendable accepts options row) (hfails : FailsIn w.table row)
  | waits (hstarted : .started row ∉ log) (hsent : .sent row ∉ log) (status : ItemStatus)
      (hstatus : statuses status) (hrow : { row with status := status } ∈ w.table.rows)

/-- The statuses of a row on its way back to the queue. -/
def Returning (status : ItemStatus) : Prop := status = .IN_FLIGHT ∨ status = .PENDING

/-- Nothing is dispatched any more. -/
structure Over (accepts : HttpRequest → Bool) (options : SyncOptions)
    (statuses : ItemStatus → Prop) (w : World) (log : List Sight) : Prop where
  fate : ∀ row ∈ claimedRows log, Fate accepts options statuses w log row
  once : ∀ probe, (claimedRows log).head? = some probe → probe ∈ rejections log →
    rejections log = [probe]

/-- The probe goes first, and then it has not been rejected. -/
def Leads (probing : Bool) (ds : List Dispatch) : Prop :=
  if probing then ∀ d ∈ ds.tail, d.state = .queued
  else ∀ probe, ds.head? = some probe →
    ∃ outcome, probe.state = .done outcome ∧ outcome.isCredentialRejected = false

/-- What is known about the batch, by the phase of the cycle. -/
def Cycle.Stage (accepts : HttpRequest → Bool) (w : World) (c : Cycle) (log : List Sight) : Prop :=
  match c.phase with
  | .starting | .claiming => log = []
  | .claimed rows =>
    claimedRows log = rows ∧ rejections log = [] ∧
      ∀ row ∈ rows, (Dispatch.queue row).Watched accepts c.options w log
  | .dispatching probing ds =>
    claimedRows log = ds.map (·.entity) ∧ (∀ d ∈ ds, d.Watched accepts c.options w log) ∧
      Leads probing ds
  | .releasing _ => Over accepts c.options Returning w log
  | .aborting cause _ _ => cause = .cancelled ∧ Over accepts c.options Returning w log
  | _ => Over accepts c.options (· = .PENDING) w log

structure Watch (accepts : HttpRequest → Bool) (w : World) (c : Cycle) (log : List Sight) :
    Prop where
  persisted : c.credentials = .PERSISTED
  issued : ∀ row ∈ claimedRows log, row.id ∈ w.issued
  rejected_claimed : ∀ row ∈ rejections log, row ∈ claimedRows log
  nodup : (rejections log).Nodup
  stage : c.Stage accepts w log

namespace Over

variable {accepts : HttpRequest → Bool} {options : SyncOptions} {statuses : ItemStatus → Prop}
  {w w' : World} {log : List Sight}

theorem nil : Over accepts options statuses w [] :=
  ⟨fun row hrow => (by cases hrow), fun probe hprobe => (by cases hprobe)⟩

/-- The rows stay, and none comes back from `FAILED`. -/
theorem congr (hO : Over accepts options statuses w log)
    (hkept : ∀ r ∈ w.table.rows, r ∈ w'.table.rows)
    (hfails : ∀ row ∈ claimedRows log, FailsIn w.table row → FailsIn w'.table row) :
    Over accepts options statuses w' log := by
  refine ⟨fun row hrow => ?_, hO.once⟩
  cases hO.fate row hrow with
  | sent hsent hsendable => exact .sent hsent hsendable
  | failed hstarted hsent hsendable h => exact .failed hstarted hsent hsendable (hfails row hrow h)
  | waits hstarted hsent status hstatus h => exact .waits hstarted hsent status hstatus (hkept _ h)

theorem of_table (hO : Over accepts options statuses w log) (htable : w'.table = w.table) :
    Over accepts options statuses w' log :=
  hO.congr (fun _ hr => htable ▸ hr) fun _ _ hfails => htable ▸ hfails

/-- The rows that never started go back to the queue. -/
theorem reset (hO : Over accepts options statuses w log)
    (hstatuses : ∀ status, statuses status → Returning status) :
    Over accepts options (· = .PENDING) w.resetInFlight log := by
  refine ⟨fun row hrow => ?_, hO.once⟩
  cases hO.fate row hrow with
  | sent hsent hsendable => exact .sent hsent hsendable
  | failed hstarted hsent hsendable h =>
    refine .failed hstarted hsent hsendable fun r hr hid => ?_
    obtain ⟨r₀, hr₀, heq, hfailed⟩ := SyncItemDao.resetInFlight_cases hr
    exact hfailed (h r₀ hr₀ (by rw [← hid, heq]))
  | waits hstarted hsent status hstatus h =>
    exact .waits hstarted hsent .PENDING rfl
      (SyncItemDao.mem_resetInFlight (hstatuses status hstatus) h)

theorem returning (hO : Over accepts options (· = .PENDING) w log) :
    Over accepts options Returning w log := by
  refine ⟨fun row hrow => ?_, hO.once⟩
  cases hO.fate row hrow with
  | sent hsent hsendable => exact .sent hsent hsendable
  | failed hstarted hsent hsendable h => exact .failed hstarted hsent hsendable h
  | waits hstarted hsent status hstatus h =>
    exact .waits hstarted hsent status (.inr hstatus) h

end Over

/-- A dispatch at rest has settled the fate of its row. -/
theorem Dispatch.Watched.fate {accepts : HttpRequest → Bool} {options : SyncOptions} {w : World}
    {log : List Sight} {d : Dispatch} {statuses : ItemStatus → Prop}
    (hW : d.Watched accepts options w log) (hrest : d.atRest = true)
    (hqueued : d.state = .queued → statuses .IN_FLIGHT) :
    Fate accepts options statuses w log d.entity := by
  unfold atRest at hrest
  unfold Watched at hW
  split at hrest
  · rename_i hstate
    rw [hstate] at hW
    obtain ⟨h₁, h₂, -, h₃⟩ := hW
    exact .waits h₁ h₂ .IN_FLIGHT (hqueued hstate) h₃
  · rename_i outcome hstate
    rw [hstate] at hW
    obtain ⟨h₁, ⟨h₂, h₃, -⟩ | ⟨h₂, -, h₃, -, h₄⟩⟩ := hW
    · exact .sent h₂ h₃
    · exact .failed h₁ h₂ h₃ h₄
  · cases hrest

/-- While the probe runs only the probe moves, and a finished probe is at rest. -/
theorem Leads.set {accepts : HttpRequest → Bool} {live options : SyncOptions} {cancelled : Bool}
    {w w' : World} {probing : Bool} {ds : List Dispatch} {i : Nat} {dev : DispatchEvent}
    {d d' : Dispatch} (hL : Leads probing ds)
    (hstart : dev.isStart = true → Cycle.mayStart probing cancelled i = true) (hi : ds[i]? = some d)
    (h : d.step accepts live options .PERSISTED w dev = some (w', d')) :
    Leads probing (ds.set i d') := by
  unfold Leads at hL ⊢
  cases ds with
  | nil => cases hi
  | cons x xs =>
    cases i with
    | zero =>
      cases hi
      cases probing with
      | true => exact hL
      | false =>
        obtain ⟨outcome, hdone, -⟩ := hL d rfl
        exact absurd hdone (Dispatch.not_done h outcome)
    | succ i =>
      cases probing with
      | true =>
        have hqueued : d.state = .queued := hL d (List.mem_of_getElem? hi)
        have := hstart (Dispatch.start_of_queued h hqueued)
        simp [Cycle.mayStart] at this
      | false => exact hL

/-- A list without repetition whose elements are all `x` is empty or `[x]`. -/
theorem eq_singleton_of_nodup {α : Type} {xs : List α} {x : α} (hn : xs.Nodup)
    (hall : ∀ y ∈ xs, y = x) (hx : x ∈ xs) : xs = [x] := by
  cases xs with
  | nil => cases hx
  | cons y ys =>
    obtain rfl := hall y List.mem_cons_self
    obtain ⟨hy, -⟩ := List.nodup_cons.mp hn
    cases ys with
    | nil => rfl
    | cons z zs =>
      rw [hall z (List.mem_cons_of_mem _ List.mem_cons_self)] at hy
      exact absurd List.mem_cons_self hy

namespace Watch

variable {accepts : HttpRequest → Bool} {live : SyncOptions} {cancelled : Bool} {w w' : World}
  {c c' : Cycle} {ev : CycleEvent} {log : List Sight}

/-- Rows of other items come and go. -/
theorem beside (hW : Watch accepts w c log) (hkept : ∀ r ∈ w.table.rows, r ∈ w'.table.rows)
    (hfails : ∀ row, row.id ∈ w.issued → FailsIn w.table row → FailsIn w'.table row)
    (hissued : w.issued ⊆ w'.issued) : Watch accepts w' c log := by
  refine ⟨hW.persisted, fun row hrow => hissued (hW.issued row hrow), hW.rejected_claimed, hW.nodup,
    ?_⟩
  have hstage := hW.stage
  have hover {statuses : ItemStatus → Prop} (hO : Over accepts c.options statuses w log) :
      Over accepts c.options statuses w' log :=
    hO.congr hkept fun row hrow => hfails row (hW.issued row hrow)
  have hwatch {d : Dispatch} (hd : d.entity ∈ claimedRows log)
      (hdW : d.Watched accepts c.options w log) : d.Watched accepts c.options w' log := by
    have hframe : d.Watched accepts c.options w' (log ++ []) :=
      hdW.frame (by simp) (by simp) (by simp) (hkept _) (hfails _ (hW.issued _ hd))
    rwa [List.append_nil] at hframe
  unfold Cycle.Stage at hstage ⊢
  cases hphase : c.phase with
  | starting | claiming =>
    rw [hphase] at hstage
    exact hstage
  | claimed rows =>
    rw [hphase] at hstage
    obtain ⟨hclaimed, hnone, hwatched⟩ := hstage
    exact ⟨hclaimed, hnone, fun row hrow => hwatch (hclaimed ▸ hrow) (hwatched row hrow)⟩
  | dispatching probing ds =>
    rw [hphase] at hstage
    obtain ⟨hclaimed, hwatched, hleads⟩ := hstage
    refine ⟨hclaimed, fun d hd => hwatch ?_ (hwatched d hd), hleads⟩
    rw [hclaimed]
    exact List.mem_map.mpr ⟨d, hd, rfl⟩
  | aborting cause terminalEventSent notBefore =>
    rw [hphase] at hstage
    exact ⟨hstage.1, hover hstage.2⟩
  | releasing first | recording outcomes | recorded result notBefore | reporting result notBefore
  | reported notBefore | failing cause notBefore | finishing notBefore | finished =>
    rw [hphase] at hstage
    exact hover hstage

/-- A step that shows nothing. -/
theorem move (hW : Watch accepts w c log) {phase : CyclePhase} (hissued : w'.issued = w.issued)
    (hstage : Cycle.Stage accepts w' { c with phase := phase } log) :
    Watch accepts w' { c with phase := phase } log :=
  ⟨hW.persisted, fun row hrow => hissued ▸ hW.issued row hrow, hW.rejected_claimed, hW.nodup,
    hstage⟩

/-- The dispatch of one row. -/
theorem dispatch_step (hW : Watch accepts w c log) (hN : c.ids.Nodup) {probing : Bool}
    {ds : List Dispatch} {i : Nat} {dev : DispatchEvent} {d d' : Dispatch}
    (hphase : c.phase = .dispatching probing ds)
    (hstart : dev.isStart = true → Cycle.mayStart probing cancelled i = true) (hi : ds[i]? = some d)
    (hev : ∀ message, dev ≠ .crash message) (hissued : w'.issued = w.issued)
    (hstep : d.step accepts live c.options .PERSISTED w dev = some (w', d')) :
    Watch accepts w' { c with phase := .dispatching probing (ds.set i d') }
      (log ++ d.sights accepts c.options dev) := by
  have hstage := hW.stage
  rw [Cycle.Stage, hphase] at hstage
  obtain ⟨hclaimed, hwatched, hleads⟩ := hstage
  have hmem : d ∈ ds := List.mem_of_getElem? hi
  have hd := hwatched d hmem
  have hids : (ds.map (·.entity.id)).Nodup := by
    rwa [Cycle.ids, Cycle.dispatches_of_phase hphase] at hN
  have hentity : d'.entity = d.entity := (Dispatch.step_frame hstep).1
  have hentities := Cycle.map_entity_set hi hentity
  have hnone : claimedRows (d.sights accepts c.options dev) = [] := by
    refine List.flatMap_eq_nil_iff.mpr fun sight hsight => ?_
    rcases Dispatch.mem_sights hsight with rfl | rfl | ⟨rfl, -⟩ <;> rfl
  have hrows : claimedRows (log ++ d.sights accepts c.options dev) = claimedRows log := by
    rw [claimedRows_append, hnone, List.append_nil]
  -- only the row of this dispatch can be rejected now, and it has not been before
  have hnew {row : SyncItemEntity} (hrow : row ∈ rejections (d.sights accepts c.options dev)) :
      row = d.entity ∧ d.entity ∉ rejections log := by
    rcases Dispatch.mem_sights (mem_rejections.mp hrow) with heq | heq | ⟨heq, startedAt, hstate⟩
    · cases heq
    · cases heq
    · cases heq
      refine ⟨rfl, fun hin => ?_⟩
      rw [Dispatch.Watched, hstate] at hd
      exact hd.2.2.1 (mem_rejections.mp hin)
  refine ⟨hW.persisted, fun row hrow => ?_, fun row hrow => ?_, ?_, ?_⟩
  · rw [hrows] at hrow
    rw [hissued]
    exact hW.issued row hrow
  · rw [hrows]
    rw [rejections_append, List.mem_append] at hrow
    rcases hrow with hrow | hrow
    · exact hW.rejected_claimed row hrow
    · rw [(hnew hrow).1, hclaimed]
      exact List.mem_map.mpr ⟨d, hmem, rfl⟩
  · rw [rejections_append]
    refine List.nodup_append.mpr ⟨hW.nodup, ?_, fun x hx y hy heq => ?_⟩
    · unfold Dispatch.sights
      split
      · exact List.nodup_nil
      · split <;> exact List.nodup_nil
      · split
        · exact List.nodup_singleton _
        · exact List.nodup_nil
      · exact List.nodup_nil
    · obtain ⟨rfl, hfresh⟩ := hnew hy
      exact hfresh (heq ▸ hx)
  · refine ⟨?_, fun x hx => ?_, ?_⟩
    · rw [hrows, hclaimed, hentities]
    · rcases Cycle.mem_set_cases hids hi hx with rfl | ⟨hx, hne⟩
      · exact Dispatch.watched_step hd hev hstep
      · exact (hwatched x hx).other hne hstep
    · exact hleads.set hstart hi hstep

/-- The claim: every row is in flight, and nothing is dispatched. -/
theorem claim (hW : Watch accepts w c log) (hphase : c.phase = .claiming)
    (hissued : ∀ id ∈ w.table.keys, id ∈ w.issued) :
    Watch accepts
      { w with
        table := (SyncItemDao.claimPending c.startedAt (Cycle.batchSize c.options) w.table).1 }
      { c with
        phase :=
          .claimed (SyncItemDao.claimPending c.startedAt (Cycle.batchSize c.options) w.table).2 }
      (log ++ c.sights accepts w .claim) := by
  have hstage := hW.stage
  rw [Cycle.Stage, hphase] at hstage
  subst hstage
  generalize hclaim : SyncItemDao.claimPending c.startedAt (Cycle.batchSize c.options) w.table =
    claimed
  obtain ⟨table, rows⟩ := claimed
  have hsights : [] ++ c.sights accepts w .claim = [.claimed rows] := by
    rw [List.nil_append, Cycle.sights, hclaim]
  have hrows : claimedRows [.claimed rows] = rows := by simp [claimedRows]
  rw [hsights]
  refine ⟨hW.persisted, fun row hrow => ?_, by simp [rejections], by simp [rejections],
    hrows, rfl, fun row hrow => ⟨by simp [Dispatch.queue], by simp [Dispatch.queue],
      by simp [Dispatch.queue], ?_⟩⟩
  · rw [hrows] at hrow
    refine hissued row.id (KeyedTable.key_mem_keys (r := row) ?_)
    have hselected : row ∈ (SyncItemDao.claimPending c.startedAt (Cycle.batchSize c.options)
        w.table).2 := by
      rw [hclaim]
      exact hrow
    exact (SyncItemDao.selectClaimable_subset hselected).1
  · have hflight : { row with status := .IN_FLIGHT } ∈
        (SyncItemDao.claimPending c.startedAt (Cycle.batchSize c.options) w.table).1.rows :=
      SyncItemDao.mem_claimPending (by rw [hclaim]; exact hrow)
    rw [hclaim] at hflight
    exact hflight

theorem sights_eq_nil (hclaim : ev ≠ .claim) (hdispatch : ∀ i dev, ev ≠ .dispatch i dev) :
    c.sights accepts w ev = [] := by
  unfold Cycle.sights
  split
  · exact absurd rfl hclaim
  · exact absurd rfl (hdispatch _ _)
  · rfl

/-- All dispatches are at rest, and the probe has not been rejected or the only
one that was. -/
theorem over_of_rest {probing : Bool} {ds : List Dispatch} {statuses : ItemStatus → Prop}
    (hW : Watch accepts w c log) (hphase : c.phase = .dispatching probing ds)
    (hrest : ∀ d ∈ ds, d.atRest = true)
    (hqueued : ∀ d ∈ ds, d.state = .queued → statuses .IN_FLIGHT) :
    Over accepts c.options statuses w log := by
  have hstage := hW.stage
  rw [Cycle.Stage, hphase] at hstage
  obtain ⟨hclaimed, hwatched, hleads⟩ := hstage
  refine ⟨fun row hrow => ?_, fun probe hprobe hrejected => ?_⟩
  · rw [hclaimed] at hrow
    obtain ⟨d, hd, rfl⟩ := List.mem_map.mp hrow
    exact (hwatched d hd).fate (hrest d hd) (hqueued d hd)
  · refine eq_singleton_of_nodup hW.nodup (fun row hrow => ?_) hrejected
    rw [hclaimed] at hprobe
    cases ds with
    | nil => cases hprobe
    | cons d ds =>
      cases hprobe
      cases probing with
      | true =>
        -- the rest is queued, so none of it was rejected
        have hin := hW.rejected_claimed row hrow
        rw [hclaimed, List.map_cons, List.mem_cons] at hin
        rcases hin with rfl | hin
        · rfl
        · obtain ⟨x, hx, rfl⟩ := List.mem_map.mp hin
          have hxW := hwatched x (List.mem_cons_of_mem _ hx)
          rw [Dispatch.Watched, show x.state = .queued from hleads x hx] at hxW
          exact absurd (mem_rejections.mp hrow) hxW.2.2.1
      | false =>
        obtain ⟨outcome, hdone, hpassed⟩ := hleads d rfl
        have hdW := hwatched d List.mem_cons_self
        rw [Dispatch.Watched, hdone] at hdW
        rcases hdW.2 with ⟨-, -, hiff⟩ | ⟨-, hnone, -⟩
        · rw [hiff.mp (mem_rejections.mp hrejected)] at hpassed
          cases hpassed
        · exact absurd (mem_rejections.mp hrejected) hnone

/-- The suspended call is cancelled. -/
theorem thrown (hW : Watch accepts w c log) {phase : CyclePhase}
    (h : Cycle.thrown .cancelled c.phase = some phase) :
    Cycle.Stage accepts w { c with phase := phase } log := by
  have hstage := hW.stage
  unfold Cycle.Stage at hstage
  have hnil (hlog : log = []) : Over accepts c.options Returning w log := hlog ▸ .nil
  cases Cycle.thrown_spec h with
  | starting hphase | claiming hphase =>
    rw [hphase] at hstage
    exact ⟨rfl, hnil hstage⟩
  | claimed hphase =>
    rw [hphase] at hstage
    obtain ⟨hclaimed, hnone, hwatched⟩ := hstage
    refine ⟨rfl, fun row hrow => ?_, fun probe _ hrejected => ?_⟩
    · exact (hwatched row (hclaimed ▸ hrow)).fate rfl fun _ => .inl rfl
    · rw [hnone] at hrejected
      cases hrejected
  | dispatching hphase hrest =>
    exact ⟨rfl, hW.over_of_rest hphase hrest fun _ _ _ => .inl rfl⟩
  | releasing hphase =>
    rw [hphase] at hstage
    exact ⟨rfl, hstage⟩
  | recording hphase | recorded hphase | reporting hphase | reported hphase =>
    rw [hphase] at hstage
    exact ⟨rfl, Over.returning hstage⟩

theorem cycle_step (hW : Watch accepts w c log) (hN : c.ids.Nodup)
    (hissued : ∀ id ∈ w.table.keys, id ∈ w.issued) (hraise : ∀ code, ev ≠ .raise code)
    (hcrash : ∀ i message, ev ≠ .dispatch i (.crash message))
    (h : c.step accepts live cancelled w ev = some (w', c')) :
    Watch accepts w' c' (log ++ c.sights accepts w ev) := by
  have hspec := Cycle.step_spec h
  obtain ⟨phase, rfl, hmoves⟩ := Cycle.step_moves h
  have hstage := hW.stage
  unfold Cycle.Stage at hstage
  -- a step outside the dispatches shows nothing
  have quiet (hclaim : ev ≠ .claim) (hdispatch : ∀ i dev, ev ≠ .dispatch i dev)
      (hstage : Cycle.Stage accepts w' { c with phase := phase } log) :
      Watch accepts w' { c with phase := phase } (log ++ c.sights accepts w ev) := by
    rw [sights_eq_nil hclaim hdispatch, List.append_nil]
    exact hW.move hspec.issued hstage
  cases hmoves with
  | claim hphase => exact hW.claim hphase hissued
  | @dispatch probing ds i dev d d' w' hphase hstart hi hstep =>
    rw [hW.persisted] at hstep
    have hsights : c.sights accepts w (.dispatch i dev) = d.sights accepts c.options dev := by
      simp only [Cycle.sights, Cycle.dispatches_of_phase hphase, hi]
    rw [hsights]
    exact hW.dispatch_step hN hphase hstart hi
      (fun message heq => hcrash i message (by rw [heq])) hspec.issued hstep
  | emitStarted hphase =>
    rw [hphase] at hstage
    exact quiet (by simp) (by simp) hstage
  | resumeEmpty hphase =>
    rw [hphase] at hstage
    obtain ⟨hclaimed, -, -⟩ := hstage
    refine quiet (by simp) (by simp) ⟨fun row hrow => ?_, fun probe hprobe => ?_⟩
    · rw [hclaimed] at hrow
      cases hrow
    · rw [hclaimed] at hprobe
      cases hprobe
  | @resumeClaimed rows hphase hsome =>
    rw [hphase] at hstage
    obtain ⟨hclaimed, -, hwatched⟩ := hstage
    have hprobes : (c.credentials == .PERSISTED) = true := by simp [hW.persisted]
    rw [hprobes] at quiet ⊢
    refine quiet (by simp) (by simp) ⟨?_, fun d hd => ?_, fun d hd => ?_⟩
    · rw [hclaimed, List.map_map]
      exact (List.map_id rows).symm
    · obtain ⟨row, hrow, rfl⟩ := List.mem_map.mp hd
      exact hwatched row hrow
    · obtain ⟨row, -, rfl⟩ := List.mem_map.mp (List.mem_of_mem_tail hd)
      rfl
  | @probeRejected ds id nextRetryAt hphase hhead =>
    obtain ⟨-, -, hleads⟩ := hphase ▸ hstage
    refine quiet (by simp) (by simp) (hW.over_of_rest hphase (fun d hd => ?_) fun _ _ _ => .inl rfl)
    cases ds with
    | nil => cases hd
    | cons x xs =>
      rcases List.mem_cons.mp hd with rfl | hd
      · exact Dispatch.atRest_of_outcome hhead
      · simp [Dispatch.atRest, show d.state = .queued from hleads d hd]
  | @probePassed ds outcome hphase hhead hpassed =>
    rw [hphase] at hstage
    obtain ⟨hclaimed, hwatched, -⟩ := hstage
    refine quiet (by simp) (by simp) ⟨hclaimed, hwatched, fun probe hprobe => ?_⟩
    rw [hprobe] at hhead
    refine ⟨outcome, Dispatch.done_of_outcome hhead, ?_⟩
    cases outcome with
    | credentialRejected id nextRetryAt => exact absurd rfl (hpassed id nextRetryAt)
    | _ => rfl
  | release hphase =>
    rw [hphase] at hstage
    exact quiet (by simp) (by simp) (hstage.reset fun _ => id)
  | @join ds outcomes hphase hlive houtcomes =>
    have hdone : ∀ d ∈ ds, ∃ outcome, d.state = .done outcome := fun d hd => by
      obtain ⟨outcome, houtcome⟩ := Dispatch.outcome_of_mapM houtcomes hd
      exact ⟨outcome, Dispatch.done_of_outcome houtcome⟩
    refine quiet (by simp) (by simp)
      (hW.over_of_rest hphase (fun d hd => ?_) fun d hd hqueued => ?_)
    · obtain ⟨outcome, hd⟩ := hdone d hd
      simp [Dispatch.atRest, hd]
    · obtain ⟨outcome, hd⟩ := hdone d hd
      rw [hqueued] at hd
      cases hd
  | record hphase | resumeRecorded hphase | emitTerminal hphase | resumeReported hphase
  | emitFailed hphase | finish hphase =>
    rw [hphase] at hstage
    exact quiet (by simp) (by simp) (Over.of_table hstage rfl)
  | throw hcancelled hthrown => exact quiet (by simp) (by simp) (hW.thrown hthrown)
  | raise hstorage hthrown => exact absurd rfl (hraise _)
  | abort hphase | abortReported hphase =>
    rw [hphase] at hstage
    obtain ⟨rfl, hover⟩ := hstage
    rw [if_pos rfl] at quiet ⊢
    exact quiet (by simp) (by simp) ((hover.reset fun _ => id).of_table rfl)

end Watch

/-! ## 3. One rejection -/

namespace Engine

variable {accepts : HttpRequest → Bool} {e e' : Engine} {t : Nat} {l : Label}

/-- Nothing is removed, the storage and the event bus work for the cycle of caller
`t`, and the caller does not return before its cycle is over. -/
def Steady (t : Nat) : Label → Prop
  | .remove _ => False
  | .cycle u (.raise _) | .cycle u (.dispatch _ (.crash _)) | .unlock u => u ≠ t
  | _ => True

instance decidableSteady (t : Nat) : (l : Label) → Decidable (Steady t l)
  | .remove _ => isFalse id
  | .cycle u (.raise _) | .cycle u (.dispatch _ (.crash _)) | .unlock u =>
    inferInstanceAs (Decidable (u ≠ t))
  | .enqueue _ | .configure _ _ | .setPaused _ | .call _ _ | .cancel _ | .giveUp _ | .lock _
  | .checkPaused _ | .readCredentials _ | .begin _ _ | .reset _ | .cycle _ .emitStarted
  | .cycle _ .claim | .cycle _ .resume | .cycle _ .probed | .cycle _ .release | .cycle _ .join
  | .cycle _ (.record _) | .cycle _ .emitTerminal | .cycle _ .throw | .cycle _ .abort
  | .cycle _ .emitFailed | .cycle _ .finish | .cycle _ (.dispatch _ (.start _))
  | .cycle _ (.dispatch _ .refuse) | .cycle _ (.dispatch _ .send)
  | .cycle _ (.dispatch _ (.respond _)) | .cycle _ (.dispatch _ (.settle _ _))
  | .cycle _ (.dispatch _ .emit) => isTrue trivial

/-- The cycle of caller `t` on these options, with what it showed. -/
structure Watched (accepts : HttpRequest → Bool) (t : Nat) (options : SyncOptions)
    (p : Engine × List Sight) : Prop where
  inv : Inv p.1
  cycle : ∃ c, (p.1.calls t).state = .cycle c ∧ c.options = options ∧ Watch accepts p.1.world c p.2

/-- Beside a cycle no row is lost, and the new ones are as they were enqueued. -/
theorem rows_steady {c : Cycle} (hE : Exclusive e) (hc : (e.calls t).state = .cycle c)
    (hl : Steady t l) (hother : ∀ u ev, l ≠ .cycle u ev) (h : e.step accepts l = some e') :
    ∃ items : List SyncQueueStorage.NewItem,
      e'.world.table.rows = e.world.table.rows ++ items.map SyncQueueStorage.NewItem.entity ∧
        ∀ item ∈ items, item.id ∉ e.world.issued := by
  have same {f : Engine} (hf : f.world.table = e.world.table) :
      ∃ items : List SyncQueueStorage.NewItem,
        f.world.table.rows = e.world.table.rows ++ items.map SyncQueueStorage.NewItem.entity ∧
          ∀ item ∈ items, item.id ∉ e.world.issued :=
    ⟨[], by rw [hf]; exact (List.append_nil _).symm, fun item hitem => by cases hitem⟩
  cases l with
  | enqueue items =>
    obtain ⟨table, hnew, hrows, rfl⟩ := Engine.step_enqueue h
    refine ⟨items, hrows, fun item hitem => ?_⟩
    exact hnew item hitem
  | remove call => cases hl
  | configure options credentials | setPaused paused | cancel u =>
    cases h
    exact same rfl
  | call u op | lock u | checkPaused u | readCredentials u | begin u now =>
    simp only [step] at h
    split at h <;> cases h
    exact same rfl
  | giveUp u =>
    simp only [step, Option.ite_none_right_eq_some] at h
    obtain ⟨-, h⟩ := h
    split at h <;> cases h
    all_goals exact same rfl
  | reset u =>
    -- the reset takes the mutex that the cycle holds
    simp only [step] at h
    split at h
    · rename_i hs
      have hut : u = t :=
        hE.eq (by simp [Call.holdsMutex, hs]) (by simp [Call.holdsMutex, hc])
      rw [hut, hc] at hs
      cases hs
    · cases h
  | cycle u ev => exact absurd rfl (hother u ev)
  | unlock u =>
    simp only [step] at h
    split at h
    · cases h
      exact same rfl
    · split at h <;> cases h
      exact same rfl
    · cases h

theorem rows_kept {c : Cycle} (hE : Exclusive e) (hc : (e.calls t).state = .cycle c)
    (hl : Steady t l) (hother : ∀ u ev, l ≠ .cycle u ev) (h : e.step accepts l = some e') :
    ∀ r ∈ e.world.table.rows, r ∈ e'.world.table.rows := by
  obtain ⟨items, hrows, -⟩ := rows_steady hE hc hl hother h
  intro r hr
  rw [hrows]
  exact List.mem_append_left _ hr

/-- Rows of other items come and go. -/
theorem failsIn_of_rows {row : SyncItemEntity} (hissued : row.id ∈ e.world.issued)
    (hrows : ∀ r ∈ e'.world.table.rows, r ∈ e.world.table.rows ∨ r.id ∉ e.world.issued)
    (h : FailsIn e.world.table row) : FailsIn e'.world.table row := by
  intro r hr hid
  rcases hrows r hr with hr | hnew
  · exact h r hr hid
  · exact absurd (hid ▸ hissued) hnew

theorem Watched.step {options : SyncOptions} {p p' : Engine × List Sight}
    (hW : Watched accepts t options p) (hl : Steady t l)
    (h : StepSystem.recorded (Engine.step accepts) (sights accepts t) p l = some p') :
    Watched accepts t options p' := by
  obtain ⟨e, log⟩ := p
  obtain ⟨e', log'⟩ := p'
  obtain ⟨hstep, rfl⟩ := StepSystem.recorded_eq_some.mp h
  obtain ⟨hI, c, hc, hoptions, hlog⟩ := hW
  have hstep : e.step accepts l = some e' := hstep
  have hI : Inv e := hI
  have hc : (e.calls t).state = .cycle c := hc
  have hI' : Inv e' := hI.step hstep
  by_cases hcycle : ∃ ev, l = .cycle t ev
  · obtain ⟨ev, rfl⟩ := hcycle
    obtain ⟨d, w, d', hd, hcstep, rfl⟩ := step_cycle hstep
    obtain rfl := cycle_unique hc hd
    have hN := hI.nodup_ids hc
    have hsights : sights accepts t e (.cycle t ev) = c.sights accepts e.world ev := by
      simp only [sights, if_true, hc]
    show Watched accepts t options (_, log ++ sights accepts t e (.cycle t ev))
    rw [hsights]
    have hd' : d'.options = c.options := by
      obtain ⟨phase, rfl, -⟩ := Cycle.step_moves hcstep
      rfl
    refine ⟨hI', d', state_setState e t _, hd'.trans hoptions, ?_⟩
    refine hlog.cycle_step hN hI.keys_issued ?_ ?_ hcstep
    · rintro code rfl
      exact hl rfl
    · rintro i message rfl
      exact hl rfl
  · have hl' : ∀ ev, l ≠ .cycle t ev := fun ev heq => hcycle ⟨ev, heq⟩
    have hu : l ≠ .unlock t := by
      rintro rfl
      exact hl rfl
    have hbeside := step_beside hI.exclusive hc hl' hu hstep
    have hsights : sights accepts t e l = [] := by
      unfold sights
      split
      · exact absurd rfl (hbeside.label _ _)
      · rfl
    show Watched accepts t options (e', log ++ sights accepts t e l)
    rw [hsights, List.append_nil]
    refine ⟨hI', c, hbeside.state, hoptions, ?_⟩
    exact hlog.beside (rows_kept hI.exclusive hc hl hbeside.label hstep)
      (fun row hrow => failsIn_of_rows hrow hbeside.rows) (outbox_step hstep).issued_mono

/-- For every cycle on a stored credential, in any process, beside any other
calls, for every batch, every HTTP client and every server, from its start to its
end: it is rejected at most once and every claimed row that was not sent waits as
before, exactly when every row whose dispatch started had attempts left and a
request that could be built, and the request of the first row of the batch was
rejected or at most one of the others was. -/
theorem rejected_once_iff {e₀ e e₁ e₂ : Engine} {ls₀ ls : List Label} {now : Int} {c : Cycle}
    {log : List Sight} (h : Boot e₀) (h₀ : StepSystem.exec (step accepts) e₀ ls₀ = some e)
    (hadmitted : (e.calls t).state = .admitted .PERSISTED)
    (hbegin : e.step accepts (.begin t now) = some e₁) (hsteady : ∀ l ∈ ls, Steady t l)
    (hrun : StepSystem.exec (StepSystem.recorded (step accepts) (sights accepts t)) (e₁, []) ls =
      some (e₂, log))
    (hc : (e₂.calls t).state = .cycle c) (hfinished : c.phase = .finished) :
    ((rejections log).length ≤ 1 ∧
      ∀ row ∈ claimedRows log, .sent row ∉ log →
        ∃ r ∈ e₂.world.table.rows, r.id = row.id ∧ r.status = .PENDING ∧
          r.attempts = row.attempts ∧ r.nextRetryAt = row.nextRetryAt ∧
          r.lastErrorCode = row.lastErrorCode) ↔
    (∀ row ∈ claimedRows log, .started row ∈ log → Sendable accepts e.options row) ∧
      ((∃ probe, (claimedRows log).head? = some probe ∧ .rejected probe ∈ log) ∨
        ((rejections log).filter fun row => row ∈ (claimedRows log).tail).length ≤ 1) := by
  have hI₁ : Inv e₁ :=
    (StepSystem.exec_invariant (fun hI hs => hI.step hs) h.inv h₀).step hbegin
  have hstart : Watched accepts t e.options (e₁, []) := by
    simp only [step, hadmitted] at hbegin
    cases hbegin
    exact ⟨hI₁, _, state_setState e t _, rfl, rfl, fun row hrow => (by cases hrow),
      fun row hrow => (by cases hrow), List.nodup_nil, rfl⟩
  have hend : Watched accepts t e.options (e₂, log) :=
    StepSystem.exec_invariant_of_meets (C := fun _ l => Steady t l)
      (fun hW hl hs => hW.step hl hs) hstart (StepSystem.meets_of_forall hsteady) hrun
  obtain ⟨-, d, hd, hoptions, hwatch⟩ := hend
  obtain rfl := cycle_unique hc hd
  have hstage := hwatch.stage
  rw [Cycle.Stage, hfinished, hoptions] at hstage
  have hover : Over accepts e.options (· = .PENDING) e₂.world log := hstage
  constructor
  · rintro ⟨honce, hunsent⟩
    refine ⟨fun row hrow hstarted => ?_, .inr ((List.length_filter_le _ _).trans honce)⟩
    cases hover.fate row hrow with
    | sent hsent hsendable => exact hsendable
    | failed _ hsent _ hfails =>
      -- a row that cannot be sent has failed for good
      obtain ⟨r, hr, hid, hstatus, -⟩ := hunsent row hrow hsent
      rw [hfails r hr hid] at hstatus
      cases hstatus
    | waits hnever => exact absurd hstarted hnever
  · rintro ⟨hsendable, hprobe⟩
    refine ⟨?_, fun row hrow hsent => ?_⟩
    · by_cases hrejected : ∃ probe, (claimedRows log).head? = some probe ∧ .rejected probe ∈ log
      · obtain ⟨probe, hhead, hin⟩ := hrejected
        rw [hover.once probe hhead (mem_rejections.mpr hin)]
        exact le_rfl
      · have hrest := hprobe.resolve_left hrejected
        rwa [List.filter_eq_self.mpr fun row hrow => ?_] at hrest
        have hin := hwatch.rejected_claimed row hrow
        cases hrows : claimedRows log with
        | nil =>
          rw [hrows] at hin
          cases hin
        | cons x xs =>
          rw [hrows, List.mem_cons] at hin
          rcases hin with rfl | hin
          · exact absurd ⟨row, by rw [hrows]; rfl, mem_rejections.mp hrow⟩ hrejected
          · exact decide_eq_true hin
    · cases hover.fate row hrow with
      | sent hwas => exact absurd hwas hsent
      | failed hstarted _ hnot => exact absurd (hsendable row hrow hstarted) hnot
      | waits _ _ status hstatus hr =>
        subst hstatus
        exact ⟨_, hr, rfl, rfl, rfl, rfl, rfl⟩

section Sample

/-- The items are enqueued, and caller 0 gets up to the start of its cycle. -/
def admitRun (items : List SyncQueueStorage.NewItem) : List Label :=
  [.enqueue items, .call 0 .flush, .lock 0, .checkPaused 0, .readCredentials 0]

/-- The cycle claims its batch. -/
def batchRun : List Label := [.cycle 0 .emitStarted, .cycle 0 .claim, .cycle 0 .resume]

/-- The dispatch at position `i`, whose request ends in `r`. -/
def exchangeRun (i : Nat) (r : CallResult) : List Label :=
  [.cycle 0 (.dispatch i (.start 2001)), .cycle 0 (.dispatch i .send),
    .cycle 0 (.dispatch i (.respond r)), .cycle 0 (.dispatch i (.settle 2100 0)),
    .cycle 0 (.dispatch i .emit)]

/-- The cycle reports its outcomes. -/
def reportRun : List Label :=
  [.cycle 0 (.record 2200), .cycle 0 .resume, .cycle 0 .emitTerminal, .cycle 0 .resume,
    .cycle 0 .finish]

/-- The probe is rejected, and the rest of the batch released. -/
def rejectedProbeRun : List Label :=
  batchRun ++ exchangeRun 0 (.response 401) ++ [.cycle 0 .probed, .cycle 0 .release] ++ reportRun

/-- The probe times out, and the rest of the batch is rejected. -/
def lostProbeRun : List Label :=
  batchRun ++ exchangeRun 0 .timedOut ++ [.cycle 0 .probed] ++ exchangeRun 1 (.response 401) ++
    exchangeRun 2 (.response 401) ++ [.cycle 0 .join] ++ reportRun

/-- The cycle of caller 0 is over. -/
def isFinished (e : Engine) : Bool :=
  match (e.calls 0).state with
  | .cycle c => c.phase == .finished
  | _ => false

theorem exists_finished {e : Engine} (h : e.isFinished = true) :
    ∃ c, (e.calls 0).state = .cycle c ∧ c.phase = .finished := by
  unfold isFinished at h
  split at h
  · rename_i c hc
    exact ⟨c, hc, by simpa using h⟩
  · cases h

/-- One request goes out, and the second row waits as before. -/
theorem rejected_once_iff_of_rejected_probe :
    ∃ e e₁ e₂ log, StepSystem.exec (step fun _ => true) (coldStart .PERSISTED)
        (admitRun [SyncQueueStorage.sampleItem "A", SyncQueueStorage.sampleItem "B"]) = some e ∧
      e.step (fun _ => true) (.begin 0 2000) = some e₁ ∧
      StepSystem.exec (StepSystem.recorded (step fun _ => true) (sights (fun _ => true) 0))
        (e₁, []) rejectedProbeRun = some (e₂, log) ∧
      (claimedRows log).map (·.id) = ["A", "B"] ∧ (rejections log).length ≤ 1 ∧
      ∀ row ∈ claimedRows log, .sent row ∉ log →
        ∃ r ∈ e₂.world.table.rows, r.id = row.id ∧ r.status = .PENDING ∧
          r.attempts = row.attempts ∧ r.nextRetryAt = row.nextRetryAt ∧
          r.lastErrorCode = row.lastErrorCode := by
  obtain ⟨e, e₁, he, he₁, hadmitted, htrace⟩ : ∃ e e₁,
      StepSystem.exec (step fun _ => true) (coldStart .PERSISTED)
        (admitRun [SyncQueueStorage.sampleItem "A", SyncQueueStorage.sampleItem "B"]) = some e ∧
      e.step (fun _ => true) (.begin 0 2000) = some e₁ ∧
      (e.calls 0).state = .admitted .PERSISTED ∧
      (StepSystem.exec (StepSystem.recorded (step fun _ => true) (sights (fun _ => true) 0))
        (e₁, []) rejectedProbeRun).map (fun p => (p.1.isFinished,
          (claimedRows p.2).map (·.id), (rejections p.2).map (·.id),
          decide (∀ row ∈ claimedRows p.2, .started row ∈ p.2 →
            Sendable (fun _ => true) e.options row),
          decide (rejections p.2 = (claimedRows p.2).take 1))) =
        some (true, ["A", "B"], ["A"], true, true) :=
    ⟨_, _, rfl, rfl, rfl, by decide +kernel⟩
  obtain ⟨⟨e₂, log⟩, hrun, hseen⟩ := Option.map_eq_some_iff.mp htrace
  simp only [Prod.mk.injEq, decide_eq_true_eq] at hseen
  obtain ⟨hfinished, hclaimed, hrejected, hsendable, hprobe⟩ := hseen
  obtain ⟨c, hc, hphase⟩ := exists_finished hfinished
  refine ⟨e, e₁, e₂, log, he, he₁, hrun, hclaimed, ?_⟩
  refine (rejected_once_iff (coldStart_boot .PERSISTED) he hadmitted he₁ (by decide) hrun hc
    hphase).mpr ⟨hsendable, .inl ?_⟩
  cases hrows : claimedRows log with
  | nil =>
    rw [hrows] at hclaimed
    cases hclaimed
  | cons x xs =>
    rw [hrows] at hprobe
    exact ⟨x, rfl, mem_rejections.mp (hprobe ▸ List.mem_cons_self)⟩

/-- The first request is lost, and two more are rejected after it. -/
theorem lost_probe_floods :
    ∃ e e₁ e₂ log c, StepSystem.exec (step fun _ => true) (coldStart .PERSISTED)
        (admitRun [SyncQueueStorage.sampleItem "A", SyncQueueStorage.sampleItem "B",
          SyncQueueStorage.sampleItem "C"]) = some e ∧
      (e.calls 0).state = .admitted .PERSISTED ∧
      e.step (fun _ => true) (.begin 0 2000) = some e₁ ∧
      StepSystem.exec (StepSystem.recorded (step fun _ => true) (sights (fun _ => true) 0))
        (e₁, []) lostProbeRun = some (e₂, log) ∧
      (e₂.calls 0).state = .cycle c ∧ c.phase = .finished ∧
      (rejections log).map (·.id) = ["B", "C"] := by
  obtain ⟨e, e₁, he, he₁, hadmitted, htrace⟩ : ∃ e e₁,
      StepSystem.exec (step fun _ => true) (coldStart .PERSISTED)
        (admitRun [SyncQueueStorage.sampleItem "A", SyncQueueStorage.sampleItem "B",
          SyncQueueStorage.sampleItem "C"]) = some e ∧
      e.step (fun _ => true) (.begin 0 2000) = some e₁ ∧
      (e.calls 0).state = .admitted .PERSISTED ∧
      (StepSystem.exec (StepSystem.recorded (step fun _ => true) (sights (fun _ => true) 0))
        (e₁, []) lostProbeRun).map (fun p => (p.1.isFinished, (rejections p.2).map (·.id))) =
        some (true, ["B", "C"]) :=
    ⟨_, _, rfl, rfl, rfl, by decide +kernel⟩
  obtain ⟨⟨e₂, log⟩, hrun, hseen⟩ := Option.map_eq_some_iff.mp htrace
  simp only [Prod.mk.injEq] at hseen
  obtain ⟨c, hc, hphase⟩ := exists_finished hseen.1
  exact ⟨e, e₁, e₂, log, c, he, hadmitted, he₁, hrun, hc, hphase, hseen.2⟩

end Sample

end Engine

end SyncProvider.Android
