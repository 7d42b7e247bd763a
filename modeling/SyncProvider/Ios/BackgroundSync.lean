import SyncProvider.Lib.Clearing
import SyncProvider.Lib.Double
import SyncProvider.Lib.TaskPool

/-!
# iOS: turning background sync off

`BackgroundSyncManager` with its two task requests. A handler checks the flags and
submits under one lock. `enable(foregroundOnly: true)` publishes its flag under that
lock before it cancels, so a handler either submits before the cancel or sees the flag.
`disable` cancels first: a handler can submit between its cancel and its flag.

Results:
1. `advance_turn` : what a step of a call or a handler does to the requests.
2. `Inv.step` : who submits holds the lock, and background work is allowed.
3. `not_submits_of_off` : a handler that checks the flags after they are published
   submits nothing.
4. `off_sticks_iff` : nothing is pending in the end exactly when no handler submits
   between the cancel of a `disable` and its flag, unless it is cancelled again.
5. `submits_behind_disable` : a handler between the cancel and the flag.
-/

namespace SyncProvider.Ios

/-! ## The model -/

structure BackgroundSyncOptionsValue where
  minimumIntervalMs : Double
  requiresCharging : Option Bool
  requiresUnmeteredNetwork : Option Bool
  requiresDeviceIdle : Option Bool
  foregroundOnly : Option Bool
  taskIdentifier : Option String
  deriving DecidableEq

/-- Options that opt out of OS-driven background sync. -/
abbrev ForegroundOptions := { options : BackgroundSyncOptionsValue //
  options.foregroundOnly = some true }

/-- The two task identifiers. -/
inductive TaskIdentifier where
  | background | processing
  deriving DecidableEq

structure BGTaskRequest where
  /-- Seconds from the submission on, `none` for as soon as possible. -/
  earliestBegin : Option Double
  requiresExternalPower : Bool
  requiresNetworkConnectivity : Bool
  deriving DecidableEq

/-- The request of `scheduleAppRefresh`. -/
def appRefreshRequest (options : BackgroundSyncOptionsValue) : BGTaskRequest :=
  let interval := options.minimumIntervalMs.mul (.fin (1 / 1000))
  { earliestBegin := some (if (Double.fin 60).lt interval || interval.isNaN then interval
      else .fin 60)
    requiresExternalPower := false
    requiresNetworkConnectivity := false }

/-- The request of `scheduleProcessing`. -/
def processingRequest (options : BackgroundSyncOptionsValue) : BGTaskRequest where
  earliestBegin := none
  requiresExternalPower := options.requiresCharging.getD false
  requiresNetworkConnectivity := true

/-- Where a call or a handler stands. -/
inductive BackgroundTask where
  /-- `disable` is about to cancel the app refresh. -/
  | disable
  /-- `disable` is about to cancel the processing request. -/
  | disableProcessing
  /-- `disable` is about to clear `enabled`. -/
  | disableFlag
  /-- `disable` is about to save. -/
  | disableSave (options : Option BackgroundSyncOptionsValue)
  /-- `enable(foregroundOnly: true)` is about to publish. -/
  | enable (options : ForegroundOptions)
  | enableHook (options : ForegroundOptions)
  | enableSave (options : ForegroundOptions)
  | enableCancel
  | enableCancelProcessing
  /-- A fired task is about to take the lock. -/
  | handler (kind : TaskIdentifier)
  /-- It holds the lock, the flags are checked next. -/
  | check (kind : TaskIdentifier)
  /-- The app refresh is submitted next. -/
  | submitRefresh (options : BackgroundSyncOptionsValue)
  /-- The processing request is submitted next. -/
  | submitProcessing (options : BackgroundSyncOptionsValue)
  | unlock (shouldRun : Bool)
  /-- The call has returned, the handler has finished its chain step. -/
  | done
  deriving DecidableEq

namespace BackgroundTask

/-- The call is still to cancel this request. -/
def Owes (k : BackgroundTask) (id : TaskIdentifier) : Prop :=
  match k with
  | .disable | .enable _ | .enableHook _ | .enableSave _ | .enableCancel => True
  | .disableProcessing | .enableCancelProcessing => id = .processing
  | _ => False

/-- The call of `disable` has cancelled this request, and is yet to clear `enabled`. -/
def Exposes (k : BackgroundTask) (id : TaskIdentifier) : Prop :=
  match k with
  | .disableProcessing => id = .background
  | .disableFlag => True
  | _ => False

/-- The call is yet to publish its flag. -/
def Unpublished : BackgroundTask → Prop
  | .disable | .disableProcessing | .disableFlag | .enable _ => True
  | _ => False

/-- It is still to cancel each request, or has cancelled it already. -/
theorem Unpublished.owes_or_exposes {k : BackgroundTask} (h : k.Unpublished)
    (id : TaskIdentifier) : k.Owes id ∨ k.Exposes id := by
  cases k with
  | disable | enable => exact .inl trivial
  | disableProcessing =>
    cases id with
    | background => exact .inr rfl
    | processing => exact .inl rfl
  | disableFlag => exact .inr trivial
  | _ => exact absurd h not_false

/-- `enable(foregroundOnly: true)` is yet to publish its flag. -/
def Enables (k : BackgroundTask) : Prop := ∃ options, k = .enable options

/-- The handler is about to submit this request. -/
def Submits (k : BackgroundTask) (id : TaskIdentifier) : Prop :=
  match k with
  | .submitRefresh _ => id = .background
  | .submitProcessing _ => id = .processing
  | _ => False

def locked : BackgroundTask → Bool
  | .check _ | .submitRefresh _ | .submitProcessing _ | .unlock _ => true
  | _ => false

instance (k : BackgroundTask) (id : TaskIdentifier) : Decidable (k.Owes id) :=
  match k with
  | .disable | .enable _ | .enableHook _ | .enableSave _ | .enableCancel =>
    inferInstanceAs (Decidable True)
  | .disableProcessing | .enableCancelProcessing => inferInstanceAs (Decidable (id = .processing))
  | .disableFlag | .disableSave _ | .handler _ | .check _ | .submitRefresh _
  | .submitProcessing _ | .unlock _ | .done => inferInstanceAs (Decidable False)

end BackgroundTask

structure BackgroundSyncManager where
  enabled : Bool
  lastOptions : Option BackgroundSyncOptionsValue
  /-- `dispatcher.hooks.foregroundOnly`. -/
  foregroundOnly : Bool
  /-- What `store.save` wrote last. -/
  saved : Option BackgroundSyncOptionsValue × Bool
  /-- The task that holds `lock`. -/
  lock : Option Nat
  pending : TaskIdentifier → Option BGTaskRequest
  tasks : List BackgroundTask

namespace BackgroundSyncManager

/-- A task goes on. The scheduler accepts what it submits, or throws. -/
structure Label where
  task : Nat
  accepted : Bool
  deriving DecidableEq

def cancel (s : BackgroundSyncManager) (id : TaskIdentifier) : BackgroundSyncManager :=
  { s with pending := Function.update s.pending id none }

def submit (s : BackgroundSyncManager) (id : TaskIdentifier) (request : BGTaskRequest)
    (accepted : Bool) : BackgroundSyncManager :=
  if accepted then { s with pending := Function.update s.pending id (some request) } else s

/-- What `continueChain` lets through. -/
def chainOptions (s : BackgroundSyncManager) : Option BackgroundSyncOptionsValue :=
  if s.enabled then s.lastOptions.filter fun options => options.foregroundOnly != some true
  else none

/-- One step of task `u`. -/
def advance (s : BackgroundSyncManager) (u : Nat) (accepted : Bool) :
    BackgroundTask → Option (BackgroundSyncManager × BackgroundTask)
  | .disable => some (s.cancel .background, .disableProcessing)
  | .disableProcessing => some (s.cancel .processing, .disableFlag)
  | .disableFlag =>
    if s.lock = none then some ({ s with enabled := false }, .disableSave s.lastOptions) else none
  | .disableSave options => some ({ s with saved := (options, false) }, .done)
  | .enable options =>
    if s.lock = none then
      some ({ s with enabled := true, lastOptions := some options.1 }, .enableHook options)
    else none
  | .enableHook options =>
    some ({ s with foregroundOnly := options.1.foregroundOnly == some true }, .enableSave options)
  | .enableSave options => some ({ s with saved := (some options.1, true) }, .enableCancel)
  | .enableCancel => some (s.cancel .background, .enableCancelProcessing)
  | .enableCancelProcessing => some (s.cancel .processing, .done)
  | .handler kind => if s.lock = none then some ({ s with lock := some u }, .check kind) else none
  | .check kind =>
    match s.chainOptions with
    | none => some (s, .unlock false)
    | some options =>
      some (s, match kind with
        | .background => .submitRefresh options
        | .processing => .submitProcessing options)
  | .submitRefresh options =>
    some (s.submit .background (appRefreshRequest options) accepted, .submitProcessing options)
  | .submitProcessing options =>
    some (s.submit .processing (processingRequest options) accepted, .unlock true)
  | .unlock _ => some ({ s with lock := none }, .done)
  | .done => none

def step (s : BackgroundSyncManager) (l : Label) : Option BackgroundSyncManager :=
  s.tasks[l.task]?.bind fun k => (s.advance l.task l.accepted k).map fun (s', k') =>
    { s' with tasks := s.tasks.set l.task k' }

/-- Calls of `disable` and `enable(foregroundOnly: true)`, one at least, and fired tasks,
on whatever the flags and the requests are. -/
structure Start (s : BackgroundSyncManager) : Prop where
  lock : s.lock = none
  tasks : ∀ k ∈ s.tasks, k = .disable ∨ (∃ options, k = .enable options) ∨ ∃ kind, k = .handler kind
  call : ∃ k ∈ s.tasks, k = .disable ∨ ∃ options, k = .enable options

def Pending (s : BackgroundSyncManager) (id : TaskIdentifier) : Prop := s.pending id ≠ none

/-- A call under way is still to cancel this request. -/
def Owed : BackgroundSyncManager → TaskIdentifier → Prop :=
  Clearing.OwedBy tasks BackgroundTask.Owes

/-- This step makes the request pending. -/
def Submits : BackgroundSyncManager → Label → TaskIdentifier → Prop :=
  Clearing.PutBy tasks Label.task fun l k id => l.accepted = true ∧ k.Submits id

/-- A `disable` stands between its cancel of this request and its flag. -/
def Exposed (s : BackgroundSyncManager) (id : TaskIdentifier) : Prop :=
  ∃ k ∈ s.tasks, k.Exposes id

/-- Between the cancel of a `disable` and its flag, a request is submitted only if another
call is still to cancel it. -/
def Covered (s : BackgroundSyncManager) (l : Label) : Prop :=
  ∀ id, s.Submits l id → s.Exposed id → s.Owed id

/-! ## 1. What a step does to the requests -/

variable {s s' : BackgroundSyncManager} {u : Nat} {accepted : Bool} {k k' : BackgroundTask}
  {id : TaskIdentifier} {l : Label}

theorem pending_cancel {x : TaskIdentifier} :
    (s.cancel x).Pending id ↔ s.Pending id ∧ id ≠ x := by
  unfold Pending cancel
  by_cases hid : id = x
  · subst hid
    simp
  · simp [hid]

theorem pending_submit {x : TaskIdentifier} {request : BGTaskRequest} :
    (s.submit x request accepted).Pending id ↔ s.Pending id ∨ accepted = true ∧ id = x := by
  unfold Pending submit
  cases accepted with
  | false => simp
  | true =>
    by_cases hid : id = x
    · subst hid
      simp
    · simp [hid]

/-- A submission of the request `x`. -/
theorem turn_submit {x : TaskIdentifier} {request : BGTaskRequest}
    (hsubmits : ∀ id, k.Submits id ↔ id = x) (howes : ∀ id, ¬ k.Owes id)
    (howes' : ∀ id, ¬ k'.Owes id) :
    Clearing.StrictTurn s.Pending (s.submit x request accepted).Pending
      (fun id => accepted = true ∧ k.Submits id) k.Owes k'.Owes := by
  refine .put (fun id => ?_) howes howes'
  rw [pending_submit, hsubmits]

/-- What a task does to the requests, and what it owes then. -/
theorem advance_turn (h : s.advance u accepted k = some (s', k')) :
    Clearing.StrictTurn s.Pending s'.Pending (fun id => accepted = true ∧ k.Submits id)
      k.Owes k'.Owes := by
  cases k with
  | disable | enableCancel =>
    cases h
    refine .take (fun _ => pending_cancel) (by simp [BackgroundTask.Submits]) trivial fun id => ?_
    cases id <;> simp [BackgroundTask.Owes]
  | disableProcessing | enableCancelProcessing =>
    cases h
    refine .take (fun _ => pending_cancel) (by simp [BackgroundTask.Submits]) rfl fun id => ?_
    cases id <;> simp [BackgroundTask.Owes]
  | disableFlag | enable | handler =>
    simp only [advance, Option.ite_none_right_eq_some] at h
    obtain ⟨-, h⟩ := h
    cases h
    exact .idle (fun _ => Iff.rfl) (by simp [BackgroundTask.Submits]) fun _ => Iff.rfl
  | disableSave | enableHook | enableSave | unlock =>
    cases h
    exact .idle (fun _ => Iff.rfl) (by simp [BackgroundTask.Submits]) fun _ => Iff.rfl
  | check kind =>
    simp only [advance] at h
    split at h
    · cases h
      exact .idle (fun _ => Iff.rfl) (by simp [BackgroundTask.Submits]) fun _ => Iff.rfl
    · cases h
      refine .idle (fun _ => Iff.rfl) (by simp [BackgroundTask.Submits]) fun id => ?_
      cases kind <;> exact Iff.rfl
  | submitRefresh | submitProcessing =>
    cases h
    exact turn_submit (fun _ => Iff.rfl) (fun _ => not_false) fun _ => not_false
  | done => cases h

/-- A step is one of a task. -/
theorem step_advance (h : s.step l = some s') :
    ∃ k m k', s.tasks[l.task]? = some k ∧ s.advance l.task l.accepted k = some (m, k') ∧
      s' = { m with tasks := s.tasks.set l.task k' } := by
  simp only [step, Option.bind_eq_some_iff, Option.map_eq_some_iff] at h
  obtain ⟨k, hk, ⟨m, k'⟩, hadvance, rfl⟩ := h
  exact ⟨k, m, k', hk, hadvance, rfl⟩

theorem rules : Clearing.StrictRules step Pending Owed Submits :=
  Clearing.strictRules_of_turns fun h => by
    obtain ⟨k, m, k', hk, hadvance, rfl⟩ := step_advance h
    have hturn := advance_turn hadvance
    exact ⟨k, k', hk, rfl, hturn⟩

/-! ## 2. Who submits -/

/-- A task that holds the lock is its holder, and one that submits was let through. -/
structure Inv (s : BackgroundSyncManager) : Prop where
  lock : ∀ u k, s.tasks[u]? = some k → k.locked = true → s.lock = some u
  allowed : ∀ k ∈ s.tasks, ∀ id, k.Submits id → s.chainOptions ≠ none

theorem Start.inv (h : Start s) : Inv s where
  lock u k hk hlocked := by
    rcases h.tasks k (List.mem_of_getElem? hk) with rfl | ⟨_, rfl⟩ | ⟨_, rfl⟩ <;> cases hlocked
  allowed k hk id hsubmits := by
    rcases h.tasks k hk with rfl | ⟨_, rfl⟩ | ⟨_, rfl⟩ <;> cases hsubmits

theorem locked_of_submits (h : k.Submits id) : k.locked = true := by
  cases k <;> first | rfl | cases h

/-- The flags change only while nobody holds the lock, and then background work is off. -/
theorem flags_cases (h : s.advance u accepted k = some (s', k')) :
    s'.chainOptions = s.chainOptions ∨ s.lock = none ∧ s'.chainOptions = none := by
  cases k with
  | disableFlag =>
    simp only [advance, Option.ite_none_right_eq_some] at h
    obtain ⟨hlock, h⟩ := h
    cases h
    exact .inr ⟨hlock, rfl⟩
  | enable options =>
    simp only [advance, Option.ite_none_right_eq_some] at h
    obtain ⟨hlock, h⟩ := h
    cases h
    exact .inr ⟨hlock, by simp [chainOptions, options.2]⟩
  | submitRefresh | submitProcessing =>
    cases h
    left
    unfold submit
    split <;> rfl
  | handler =>
    simp only [advance, Option.ite_none_right_eq_some] at h
    obtain ⟨-, h⟩ := h
    cases h
    exact .inl rfl
  | check =>
    simp only [advance] at h
    split at h <;> cases h <;> exact .inl rfl
  | disable | disableProcessing | disableSave | enableHook | enableSave | enableCancel
  | enableCancelProcessing | unlock =>
    cases h
    exact .inl rfl
  | done => cases h

/-- The lock is taken by who finds it free, and let go by its holder. -/
theorem lock_cases (h : s.advance u accepted k = some (s', k')) :
    s'.lock = s.lock ∧ (k'.locked = true → k.locked = true) ∨ s.lock = none ∧ s'.lock = some u ∨
      k.locked = true ∧ k'.locked = false := by
  cases k with
  | handler =>
    simp only [advance, Option.ite_none_right_eq_some] at h
    obtain ⟨hlock, h⟩ := h
    cases h
    exact .inr (.inl ⟨hlock, rfl⟩)
  | unlock =>
    cases h
    exact .inr (.inr ⟨rfl, rfl⟩)
  | check =>
    refine .inl ⟨?_, fun _ => rfl⟩
    simp only [advance] at h
    split at h <;> cases h <;> rfl
  | submitRefresh | submitProcessing =>
    cases h
    refine .inl ⟨?_, fun _ => rfl⟩
    unfold submit
    split <;> rfl
  | disableFlag | enable =>
    simp only [advance, Option.ite_none_right_eq_some] at h
    obtain ⟨-, h⟩ := h
    cases h
    exact .inl ⟨rfl, id⟩
  | disable | disableProcessing | disableSave | enableHook | enableSave | enableCancel
  | enableCancelProcessing =>
    cases h
    exact .inl ⟨rfl, id⟩
  | done => cases h

/-- A handler submits once the check has let it through. -/
theorem submits_cases (h : s.advance u accepted k = some (s', k')) (hsubmits : k'.Submits id) :
    k.locked = true ∧ (s.chainOptions ≠ none ∨ ∃ x, k.Submits x) := by
  cases k with
  | check kind =>
    simp only [advance] at h
    split at h
    · cases h
      cases hsubmits
    · rename_i options hoptions
      exact ⟨rfl, .inl (by rw [hoptions]; exact Option.some_ne_none options)⟩
  | submitRefresh => exact ⟨rfl, .inr ⟨_, rfl⟩⟩
  | disableFlag | enable | handler =>
    simp only [advance, Option.ite_none_right_eq_some] at h
    obtain ⟨-, h⟩ := h
    cases h
    cases hsubmits
  | disable | disableProcessing | disableSave | enableHook | enableSave | enableCancel
  | enableCancelProcessing | submitProcessing | unlock =>
    cases h
    cases hsubmits
  | done => cases h

theorem Inv.step (hI : Inv s) (h : s.step l = some s') : Inv s' := by
  obtain ⟨k, m, k', hk, hadvance, rfl⟩ := step_advance h
  have hmem : k ∈ s.tasks := List.mem_of_getElem? hk
  -- the flags stay while a task holds the lock
  have flags {v : Nat} (hv : s.lock = some v) : m.chainOptions = s.chainOptions := by
    rcases flags_cases hadvance with hsame | ⟨hfree, -⟩
    · exact hsame
    · rw [hv] at hfree
      cases hfree
  refine ⟨fun v x hx hlocked => ?_, fun x hx id hsubmits => ?_⟩
  · rcases lock_cases hadvance with ⟨hsame, hbefore⟩ | ⟨hfree, htaken⟩ | ⟨hheld, hreleased⟩
    · rcases TaskPool.of_getElem?_set hx with hx | ⟨rfl, rfl⟩
      · exact hsame.trans (hI.lock v x hx hlocked)
      · exact hsame.trans (hI.lock _ k hk (hbefore hlocked))
    · rcases TaskPool.of_getElem?_set hx with hx | ⟨rfl, rfl⟩
      · rw [hI.lock v x hx hlocked] at hfree
        cases hfree
      · exact htaken
    · have huv : some l.task = some v := by
        rcases TaskPool.of_getElem?_set hx with hx | ⟨rfl, rfl⟩
        · exact (hI.lock _ k hk hheld).symm.trans (hI.lock v x hx hlocked)
        · rfl
      obtain rfl := Option.some.inj huv
      obtain ⟨hu, -⟩ := List.getElem?_eq_some_iff.mp hk
      rw [List.getElem?_set_self hu] at hx
      cases hx
      rw [hreleased] at hlocked
      cases hlocked
  · change m.chainOptions ≠ none
    rcases List.mem_or_eq_of_mem_set hx with hx | rfl
    · obtain ⟨v, hv⟩ := List.mem_iff_getElem?.mp hx
      rw [flags (hI.lock v x hv (locked_of_submits hsubmits))]
      exact hI.allowed x hx id hsubmits
    · obtain ⟨hheld, hlet⟩ := submits_cases hadvance hsubmits
      rw [flags (hI.lock _ k hk hheld)]
      rcases hlet with hlet | ⟨y, hy⟩
      · exact hlet
      · exact hI.allowed k hmem y hy

/-! ## 3. Once the flags are published -/

/-- Background work that is off stays off: none of the calls turns it on. -/
theorem off_step (hoff : s.chainOptions = none) (h : s.step l = some s') :
    s'.chainOptions = none := by
  obtain ⟨k, m, k', hk, hadvance, rfl⟩ := step_advance h
  rcases flags_cases hadvance with hsame | ⟨-, hnone⟩
  · exact hsame.trans hoff
  · exact hnone

/-- From then on nobody submits: the check and the submission share the lock. -/
theorem not_submits_of_off (hI : Inv s) (hoff : s.chainOptions = none) : ¬ s.Submits l id := by
  rintro ⟨k, hk, -, hsubmits⟩
  exact hI.allowed k (List.mem_of_getElem? hk) id hsubmits hoff

/-- A call with the property `P` is under way, or background work is off. -/
def Closing (P : BackgroundTask → Prop) (s : BackgroundSyncManager) : Prop :=
  (∃ k ∈ s.tasks, P k) ∨ s.chainOptions = none

theorem Closing.step {P : BackgroundTask → Prop}
    (hP : ∀ {s s' u accepted k k'}, advance s u accepted k = some (s', k') → P k →
      P k' ∨ s'.chainOptions = none)
    (hC : Closing P s) (h : s.step l = some s') : Closing P s' := by
  rcases hC with hcall | hoff
  · obtain ⟨k, m, k', hk, hadvance, rfl⟩ := step_advance h
    rcases TaskPool.self_or_other hk hcall with hself | hother
    · rcases hP hadvance hself with hkeep | hoff
      · exact .inl ⟨k', TaskPool.mem_set_self hk, hkeep⟩
      · exact .inr hoff
    · have hkept : ∃ x ∈ s.tasks.set l.task k' ++ [], P x := hother.exists_step hk
      rw [List.append_nil] at hkept
      exact .inl hkept
  · exact .inr (off_step hoff h)

theorem unpublished_advance (h : s.advance u accepted k = some (s', k')) (hk : k.Unpublished) :
    k'.Unpublished ∨ s'.chainOptions = none := by
  cases k with
  | disable | disableProcessing =>
    cases h
    exact .inl trivial
  | disableFlag =>
    simp only [advance, Option.ite_none_right_eq_some] at h
    obtain ⟨-, h⟩ := h
    cases h
    exact .inr rfl
  | enable options =>
    simp only [advance, Option.ite_none_right_eq_some] at h
    obtain ⟨-, h⟩ := h
    cases h
    exact .inr (by simp [chainOptions, options.2])
  | _ => exact absurd hk not_false

theorem enables_advance (h : s.advance u accepted k = some (s', k'))
    (hk : k.Enables) : k'.Enables ∨ s'.chainOptions = none := by
  obtain ⟨options, rfl⟩ := hk
  simp only [advance, Option.ite_none_right_eq_some] at h
  obtain ⟨-, h⟩ := h
  cases h
  exact .inr (by simp [chainOptions, options.2])

/-! ## 4. When nothing is pending in the end -/

/-- Where a call is under way until background work is off, a request is owed unless it
is exposed. -/
theorem covered_iff (hI : Inv s) (hC : Closing BackgroundTask.Unpublished s) :
    (∀ id, s.Submits l id → s.Owed id) ↔ s.Covered l := by
  refine ⟨fun h id hsubmits _ => h id hsubmits, fun h id hsubmits => ?_⟩
  rcases hC with ⟨k, hk, hunpublished⟩ | hoff
  · rcases hunpublished.owes_or_exposes id with howes | hexposes
    · exact ⟨k, hk, howes⟩
    · exact h id hsubmits ⟨k, hk, hexposes⟩
  · exact absurd hsubmits (not_submits_of_off hI hoff)

/-- A handler that is let through comes before the cancels of `enable(foregroundOnly: true)`. -/
theorem covered_of_enables (hI : Inv s) (hC : Closing BackgroundTask.Enables s) (l : Label) :
    s.Covered l := by
  intro id hsubmits _
  rcases hC with ⟨_, hmem, options, rfl⟩ | hoff
  · exact ⟨_, hmem, trivial⟩
  · exact absurd hsubmits (not_submits_of_off hI hoff)

/-- In any run in which all calls have returned and all handlers have finished their
chain step, nothing is pending exactly when no handler submitted a request between the
cancel of a `disable` and its flag, unless another call was still to cancel it. With a
call of `enable(foregroundOnly: true)` nothing is ever pending. -/
theorem off_sticks_iff {ls : List Label} (hstart : Start s)
    (hrun : StepSystem.exec step s ls = some s') (hdone : ∀ k ∈ s'.tasks, k = .done) :
    ((∀ id, s'.pending id = none) ↔ StepSystem.Meets step Covered s ls) ∧
      ((∃ options, BackgroundTask.enable options ∈ s.tasks) → ∀ id, s'.pending id = none) := by
  have howed (id : TaskIdentifier) : s.Owed id := by
    obtain ⟨k, hk, rfl | ⟨options, rfl⟩⟩ := hstart.call
    · exact ⟨_, hk, trivial⟩
    · exact ⟨_, hk, trivial⟩
  have hnone (id : TaskIdentifier) : ¬ s'.Owed id := by
    rintro ⟨k, hk, howes⟩
    obtain rfl := hdone k hk
    cases howes
  have hclosing : Closing BackgroundTask.Unpublished s := by
    obtain ⟨k, hk, rfl | ⟨options, rfl⟩⟩ := hstart.call
    · exact .inl ⟨_, hk, trivial⟩
    · exact .inl ⟨_, hk, trivial⟩
  have hcovered : StepSystem.Meets step (fun s l => ∀ id, s.Submits l id → s.Owed id) s ls ↔
      StepSystem.Meets step Covered s ls :=
    StepSystem.meets_congr (D := fun _ _ => True)
      (I := fun s => Inv s ∧ Closing BackgroundTask.Unpublished s)
      (fun hI _ hs => ⟨hI.1.step hs, hI.2.step unpublished_advance hs⟩)
      (fun hI => covered_iff hI.1 hI.2) ⟨hstart.inv, hclosing⟩
      (StepSystem.meets_of_forall fun _ _ => trivial)
  have hiff : (∀ id, s'.pending id = none) ↔ StepSystem.Meets step Covered s ls :=
    calc (∀ id, s'.pending id = none)
      _ ↔ ∀ id, ¬ s'.Pending id := forall_congr' fun id => not_not.symm
      _ ↔ StepSystem.Meets step (fun s l => ∀ id, s.Submits l id → s.Owed id) s ls :=
        Clearing.down_iff_meets rules howed hrun hnone
      _ ↔ StepSystem.Meets step Covered s ls := hcovered
  refine ⟨hiff, fun ⟨options, hmem⟩ => hiff.mpr ?_⟩
  exact StepSystem.meets_of_invariant
    (I := fun s => Inv s ∧ Closing BackgroundTask.Enables s)
    (fun hI hs => ⟨hI.1.step hs, hI.2.step enables_advance hs⟩)
    (fun hI => covered_of_enables hI.1 hI.2) ⟨hstart.inv, .inl ⟨_, hmem, options, rfl⟩⟩

section Sample

def sampleBackgroundOptions (foregroundOnly : Bool) : BackgroundSyncOptionsValue where
  minimumIntervalMs := .fin 900000
  requiresCharging := none
  requiresUnmeteredNetwork := none
  requiresDeviceIdle := none
  foregroundOnly := some foregroundOnly
  taskIdentifier := none

/-- Background sync is on, and both requests are pending. -/
def sampleManager (tasks : List BackgroundTask) : BackgroundSyncManager where
  enabled := true
  lastOptions := some (sampleBackgroundOptions false)
  foregroundOnly := false
  saved := (some (sampleBackgroundOptions false), true)
  lock := none
  pending
    | .background => some (appRefreshRequest (sampleBackgroundOptions false))
    | .processing => some (processingRequest (sampleBackgroundOptions false))
  tasks := tasks

/-- Task `u` makes `n` steps. -/
def steps (u n : Nat) : List Label := List.replicate n ⟨u, true⟩

theorem start_sampleManager {call : BackgroundTask}
    (hcall : call = .disable ∨ ∃ options, call = .enable options) (kind : TaskIdentifier) :
    Start (sampleManager [call, .handler kind]) where
  lock := rfl
  tasks := by
    simp only [sampleManager, List.forall_mem_cons, List.not_mem_nil, false_implies, implies_true,
      and_true]
    exact ⟨hcall.imp_right .inl, .inr (.inr ⟨kind, rfl⟩)⟩
  call := ⟨call, List.mem_cons_self, hcall⟩

/-- A refresh handler holds the lock while `enable(foregroundOnly: true)` wants to publish,
so its requests are cancelled. -/
theorem off_sticks_after_enable :
    ∃ s s', StepSystem.exec step s (steps 1 5 ++ steps 0 5) = some s' ∧
      s.pending .background ≠ none ∧ ∀ id, s'.pending id = none := by
  have hstart : Start (sampleManager
      [.enable ⟨sampleBackgroundOptions true, rfl⟩, .handler .background]) :=
    start_sampleManager (.inr ⟨_, rfl⟩) .background
  obtain ⟨s', hrun, hdone⟩ : ∃ s', StepSystem.exec step (sampleManager
      [.enable ⟨sampleBackgroundOptions true, rfl⟩, .handler .background])
        (steps 1 5 ++ steps 0 5) = some s' ∧ ∀ k ∈ s'.tasks, k = .done :=
    ⟨_, rfl, by decide⟩
  exact ⟨_, s', hrun, by simp [sampleManager],
    (off_sticks_iff hstart hrun hdone).2 ⟨_, List.mem_cons_self⟩⟩

/-! ## 5. A handler between the cancel and the flag -/

/-- `disable` cancels both requests. Before it clears `enabled`, a refresh handler checks
it and submits both again. -/
theorem submits_behind_disable :
    ∃ s', Start (sampleManager [.disable, .handler .background]) ∧
      StepSystem.exec step (sampleManager [.disable, .handler .background])
        (steps 0 2 ++ steps 1 5 ++ steps 0 2) = some s' ∧ (∀ k ∈ s'.tasks, k = .done) ∧
      s'.enabled = false ∧ s'.pending .background ≠ none ∧ s'.pending .processing ≠ none :=
  ⟨_, start_sampleManager (.inl rfl) .background, rfl, by decide, rfl, by decide, by decide⟩

end Sample

end BackgroundSyncManager

end SyncProvider.Ios
