import SyncProvider.Lib.Clearing
import SyncProvider.Lib.Double
import SyncProvider.Lib.Reads

/-!
# Android: turning background sync off

`BackgroundSyncManager` with its two unique works. `disable` and
`enable(foregroundOnly = true)` publish their flag before they cancel. The others read
the flags one at a time and enqueue later, so a caller that has read them before the flag
was published can enqueue after the cancel. `maybeReschedulePeriodic` even writes the
flags back.

Results:
1. `advance_turn` : what a step of a caller does to the works.
2. `not_enqueues_of_heeds` : a caller that has read the published flags only enqueues
   nothing.
3. `nothing_enqueued_iff` : nothing is enqueued in the end exactly when every other
   caller enqueued before the last cancel.
4. `stale_flags_enqueue` : callers with stale flags.
-/

namespace SyncProvider.Android

/-! ## The model -/

structure BackgroundSyncOptions where
  minimumIntervalMs : Double
  requiresCharging : Option Bool
  requiresUnmeteredNetwork : Option Bool
  requiresDeviceIdle : Option Bool
  foregroundOnly : Option Bool
  taskIdentifier : Option String
  deriving DecidableEq

/-- Options that opt out of OS-scheduled work. -/
abbrev ForegroundOptions := { options : BackgroundSyncOptions //
  options.foregroundOnly = some true }

/-- The preferences, `none` for a key that is not there. -/
structure BackgroundPrefs where
  enabled : Bool
  intervalMs : Option Int
  requiresCharging : Bool
  requiresUnmetered : Bool
  requiresIdle : Option Bool
  foregroundOnly : Bool
  taskId : Option String
  deriving DecidableEq

inductive NetworkType where
  | CONNECTED | UNMETERED
  deriving DecidableEq

structure Constraints where
  requiredNetworkType : NetworkType
  requiresCharging : Bool
  requiresDeviceIdle : Bool
  deriving DecidableEq

inductive UniqueWork where
  | UNIQUE_PERIODIC | UNIQUE_ONE_TIME
  deriving DecidableEq

inductive WorkRequest where
  | periodic (intervalMs : Int) (constraints : Constraints)
  | oneTime (initialDelayMs : Int) (constraints : Constraints)
  deriving DecidableEq

def MIN_INTERVAL_MS : Int := 15 * 60 * 1000

def defaultConstraints : Constraints where
  requiredNetworkType := .CONNECTED
  requiresCharging := false
  requiresDeviceIdle := false

def buildConstraints (options : BackgroundSyncOptions) : Constraints where
  requiredNetworkType :=
    if options.requiresUnmeteredNetwork = some true then .UNMETERED else .CONNECTED
  requiresCharging := options.requiresCharging == some true
  requiresDeviceIdle := options.requiresDeviceIdle == some true

/-- The request of `enable`. -/
def periodicRequest (options : BackgroundSyncOptions) : WorkRequest :=
  .periodic (max options.minimumIntervalMs.toInt64 MIN_INTERVAL_MS) (buildConstraints options)

/-- The edit of `persist`, which is applied as a whole. -/
def BackgroundPrefs.persist (options : BackgroundSyncOptions) (p : BackgroundPrefs) :
    BackgroundPrefs :=
  { p with
    intervalMs := some options.minimumIntervalMs.toInt64
    requiresCharging := options.requiresCharging == some true
    requiresUnmetered := options.requiresUnmeteredNetwork == some true
    requiresIdle := options.requiresDeviceIdle
    foregroundOnly := options.foregroundOnly == some true
    taskId := options.taskIdentifier }

namespace BackgroundPrefs

def isEnabled : Reads BackgroundPrefs Bool := .read (·.enabled)

def isForegroundOnly : Reads BackgroundPrefs Bool := .read (·.foregroundOnly)

/-- Every key is read by itself. -/
def lastOptions : Reads BackgroundPrefs (Option BackgroundSyncOptions) := do
  if !(← .read fun p => p.intervalMs.isSome) then return none
  let intervalMs ← .read fun p => p.intervalMs.getD MIN_INTERVAL_MS
  let requiresCharging ← .read (·.requiresCharging)
  let requiresUnmetered ← .read (·.requiresUnmetered)
  let idle ← .read fun p => p.requiresIdle.isSome
  let requiresIdle ← if idle then .read fun p => some (p.requiresIdle.getD false) else pure none
  let foregroundOnly ← .read (·.foregroundOnly)
  let taskId ← .read (·.taskId)
  return some {
    minimumIntervalMs := .ofInt intervalMs
    requiresCharging := some requiresCharging
    requiresUnmeteredNetwork := some requiresUnmetered
    requiresDeviceIdle := requiresIdle
    foregroundOnly := some foregroundOnly
    taskIdentifier := taskId }

/-- `scheduleOneTimeFlush` up to the enqueue: the constraints of the kick, unless it
returns early. -/
def kickConstraints : Reads BackgroundPrefs (Option Constraints) := do
  if !(← isEnabled) then return none
  if ← isForegroundOnly then return none
  let options ← lastOptions
  return some ((options.map buildConstraints).getD defaultConstraints)

/-- `maybeReschedulePeriodic` up to its call of `enable`. -/
def rescheduleOptions : Reads BackgroundPrefs (Option BackgroundSyncOptions) := do
  if !(← isEnabled) then return none
  match ← lastOptions with
  | none => return none
  | some options => return if options.foregroundOnly = some true then none else some options

end BackgroundPrefs

/-- Where a caller stands. -/
inductive BackgroundTask where
  /-- `disable` is about to clear `KEY_ENABLED`. -/
  | disable
  /-- `enable(foregroundOnly = true)` is about to persist. -/
  | enable (options : ForegroundOptions)
  /-- It is about to set `KEY_ENABLED`. -/
  | enableFlag
  /-- Either of them is about to cancel the periodic work. -/
  | cancelPeriodic
  | cancelOneTime
  /-- `scheduleOneTimeFlush` reads, and enqueues when it has read. -/
  | scheduleOneTimeFlush (initialDelayMs : Int)
    (reads : Reads BackgroundPrefs (Option Constraints))
  /-- `maybeReschedulePeriodic` reads, and enqueues when it has read. -/
  | maybeReschedulePeriodic (reads : Reads BackgroundPrefs (Option BackgroundSyncOptions))
  /-- `enable` has registered the periodic work and is about to persist. -/
  | rePersist (options : BackgroundSyncOptions)
  | reEnable
  | done

/-- What has become of the flags that the calls publish. -/
inductive Publication where
  /-- No call has published yet. -/
  | notYet
  | published
  /-- `maybeReschedulePeriodic` has written flags of its own since. -/
  | overwritten
  deriving DecidableEq

/-- Who has read what: `early u` when caller `u` has read flags that were not published. -/
structure ReadLog where
  flags : Publication
  early : Nat → Bool

/-- Nobody has read or published anything. -/
def ReadLog.empty : ReadLog where
  flags := .notYet
  early := fun _ => false

/-- Caller `u` goes on from `k`. -/
def ReadLog.observe (g : ReadLog) (u : Nat) : BackgroundTask → ReadLog
  | .disable | .enable _ =>
    { g with flags := if g.flags = .notYet then .published else g.flags }
  | .rePersist _ | .reEnable => { g with flags := .overwritten }
  | .scheduleOneTimeFlush _ (.get _) | .maybeReschedulePeriodic (.get _) =>
    { g with early := Function.update g.early u (g.early u || g.flags != .published) }
  | _ => g

namespace BackgroundTask

def isDone : BackgroundTask → Bool
  | .done => true
  | _ => false

/-- The call is still to cancel this work. -/
def Owes (k : BackgroundTask) (work : UniqueWork) : Prop :=
  match k with
  | .disable | .enable _ | .enableFlag | .cancelPeriodic => True
  | .cancelOneTime => work = .UNIQUE_ONE_TIME
  | _ => False

/-- The caller is about to enqueue this work. -/
def Enqueues (k : BackgroundTask) (work : UniqueWork) : Prop :=
  match k with
  | .scheduleOneTimeFlush _ (.done (some _)) => work = .UNIQUE_ONE_TIME
  | .maybeReschedulePeriodic (.done (some _)) => work = .UNIQUE_PERIODIC
  | _ => False

theorem not_owes_of_isDone {k : BackgroundTask} {work : UniqueWork} (h : k.isDone = true) :
    ¬ k.Owes work := by
  cases k with
  | done => exact not_false
  | _ => cases h

end BackgroundTask

structure BackgroundSyncManager where
  prefs : BackgroundPrefs
  work : UniqueWork → Option WorkRequest
  tasks : List BackgroundTask

namespace BackgroundSyncManager

/-- A caller goes on. WorkManager accepts what it enqueues, or throws. -/
structure Label where
  task : Nat
  accepted : Bool
  deriving DecidableEq

def cancelUniqueWork (s : BackgroundSyncManager) (work : UniqueWork) : BackgroundSyncManager :=
  { s with work := Function.update s.work work none }

/-- Both policies replace what is there. -/
def enqueue (s : BackgroundSyncManager) (work : UniqueWork) (request : WorkRequest) :
    BackgroundSyncManager :=
  { s with work := Function.update s.work work (some request) }

/-- One step of a caller. -/
def advance (s : BackgroundSyncManager) (accepted : Bool) :
    BackgroundTask → Option (BackgroundSyncManager × BackgroundTask)
  | .disable => some ({ s with prefs := { s.prefs with enabled := false } }, .cancelPeriodic)
  | .enable options => some ({ s with prefs := s.prefs.persist options.1 }, .enableFlag)
  | .enableFlag => some ({ s with prefs := { s.prefs with enabled := true } }, .cancelPeriodic)
  | .cancelPeriodic => some (s.cancelUniqueWork .UNIQUE_PERIODIC, .cancelOneTime)
  | .cancelOneTime => some (s.cancelUniqueWork .UNIQUE_ONE_TIME, .done)
  | .scheduleOneTimeFlush delay (.get next) => some (s, .scheduleOneTimeFlush delay (next s.prefs))
  | .scheduleOneTimeFlush _ (.done none) => some (s, .done)
  | .scheduleOneTimeFlush delay (.done (some constraints)) =>
    -- a failure is only logged
    some (if accepted then s.enqueue .UNIQUE_ONE_TIME (.oneTime (max delay 0) constraints) else s,
      .done)
  | .maybeReschedulePeriodic (.get next) => some (s, .maybeReschedulePeriodic (next s.prefs))
  | .maybeReschedulePeriodic (.done none) => some (s, .done)
  | .maybeReschedulePeriodic (.done (some options)) =>
    if accepted then
      some (s.enqueue .UNIQUE_PERIODIC (periodicRequest options), .rePersist options)
    else some (s, .done)
  | .rePersist options => some ({ s with prefs := s.prefs.persist options }, .reEnable)
  | .reEnable => some ({ s with prefs := { s.prefs with enabled := true } }, .done)
  | .done => none

def step (s : BackgroundSyncManager) (l : Label) : Option BackgroundSyncManager :=
  s.tasks[l.task]?.bind fun k => (s.advance l.accepted k).map fun (s', k') =>
    { s' with tasks := s.tasks.set l.task k' }

/-- Calls of `disable` and `enable(foregroundOnly = true)`, one at least, ends of cycles and
runs of `RecoveryWorker`, on whatever the preferences and the works are. -/
structure Start (s : BackgroundSyncManager) : Prop where
  tasks : ∀ k ∈ s.tasks, k = .disable ∨ (∃ options, k = .enable options) ∨
    (∃ delay, k = .scheduleOneTimeFlush delay BackgroundPrefs.kickConstraints) ∨
    k = .maybeReschedulePeriodic BackgroundPrefs.rescheduleOptions
  call : ∃ k ∈ s.tasks, k = .disable ∨ ∃ options, k = .enable options

def Enqueued (s : BackgroundSyncManager) (work : UniqueWork) : Prop := s.work work ≠ none

/-- A call under way is still to cancel this work. -/
def Owed : BackgroundSyncManager → UniqueWork → Prop := Clearing.OwedBy tasks BackgroundTask.Owes

/-- This step enqueues the work. -/
def Enqueues : BackgroundSyncManager → Label → UniqueWork → Prop :=
  Clearing.PutBy tasks Label.task fun l k work => l.accepted = true ∧ k.Enqueues work

/-- What a step adds to the log of the reads. -/
def observe (s : BackgroundSyncManager) (l : Label) (g : ReadLog) : ReadLog :=
  match s.tasks[l.task]? with
  | some k => g.observe l.task k
  | none => g

/-- A caller that has read flags that were not published enqueues a work only while a
call is still to cancel it. -/
def Covered (p : BackgroundSyncManager × ReadLog) (l : Label) : Prop :=
  ∀ work, p.1.Enqueues l work → p.2.early l.task = true → p.1.Owed work

/-! ## 1. What a step does to the works -/

variable {s s' : BackgroundSyncManager} {accepted : Bool} {k k' : BackgroundTask}
  {work : UniqueWork} {l : Label}

theorem enqueued_cancelUniqueWork {x : UniqueWork} :
    (s.cancelUniqueWork x).Enqueued work ↔ s.Enqueued work ∧ work ≠ x := by
  unfold Enqueued cancelUniqueWork
  by_cases hwork : work = x
  · subst hwork
    simp
  · simp [hwork]

theorem enqueued_enqueue {x : UniqueWork} {request : WorkRequest} :
    (s.enqueue x request).Enqueued work ↔ s.Enqueued work ∨ work = x := by
  unfold Enqueued enqueue
  by_cases hwork : work = x
  · subst hwork
    simp
  · simp [hwork]

/-- What a caller does to the works, and what it owes then. -/
theorem advance_turn (h : s.advance accepted k = some (s', k')) :
    Clearing.StrictTurn s.Enqueued s'.Enqueued (fun work => accepted = true ∧ k.Enqueues work)
      k.Owes k'.Owes := by
  cases k with
  | disable | enable | enableFlag | rePersist | reEnable =>
    cases h
    exact .idle (fun _ => Iff.rfl) (by simp [BackgroundTask.Enqueues]) fun _ => Iff.rfl
  | cancelPeriodic =>
    cases h
    refine .take (fun _ => enqueued_cancelUniqueWork) (by simp [BackgroundTask.Enqueues]) trivial
      fun work => ?_
    cases work <;> simp [BackgroundTask.Owes]
  | cancelOneTime =>
    cases h
    refine .take (fun _ => enqueued_cancelUniqueWork) (by simp [BackgroundTask.Enqueues]) rfl
      fun work => ?_
    cases work <;> simp [BackgroundTask.Owes]
  | scheduleOneTimeFlush delay reads =>
    rcases reads with (_ | constraints) | next
    · cases h
      exact .idle (fun _ => Iff.rfl) (by simp [BackgroundTask.Enqueues]) fun _ => Iff.rfl
    · cases h
      refine .put (fun work => ?_) (fun _ => not_false) fun _ => not_false
      cases accepted with
      | false => simp
      | true => simpa [BackgroundTask.Enqueues] using enqueued_enqueue
    · cases h
      exact .idle (fun _ => Iff.rfl) (by simp [BackgroundTask.Enqueues]) fun _ => Iff.rfl
  | maybeReschedulePeriodic reads =>
    rcases reads with (_ | options) | next
    · cases h
      exact .idle (fun _ => Iff.rfl) (by simp [BackgroundTask.Enqueues]) fun _ => Iff.rfl
    · cases accepted with
      | false =>
        cases h
        exact .idle (fun _ => Iff.rfl) (by simp) fun _ => Iff.rfl
      | true =>
        cases h
        refine .put (fun work => ?_) (fun _ => not_false) fun _ => not_false
        simpa [BackgroundTask.Enqueues] using enqueued_enqueue
    · cases h
      exact .idle (fun _ => Iff.rfl) (by simp [BackgroundTask.Enqueues]) fun _ => Iff.rfl
  | done => cases h

/-- A step is one of a caller. -/
theorem step_advance (h : s.step l = some s') :
    ∃ k m k', s.tasks[l.task]? = some k ∧ s.advance l.accepted k = some (m, k') ∧
      s' = { m with tasks := s.tasks.set l.task k' } := by
  simp only [step, Option.bind_eq_some_iff, Option.map_eq_some_iff] at h
  obtain ⟨k, hk, ⟨m, k'⟩, hadvance, rfl⟩ := h
  exact ⟨k, m, k', hk, hadvance, rfl⟩

theorem rules : Clearing.StrictRules step Enqueued Owed Enqueues :=
  Clearing.strictRules_of_turns fun h => by
    obtain ⟨k, m, k', hk, hadvance, rfl⟩ := step_advance h
    have hturn := advance_turn hadvance
    exact ⟨k, k', hk, rfl, hturn⟩

/-! ## 2. Callers that read the published flags -/

end BackgroundSyncManager

namespace BackgroundPrefs

/-- The flags keep work off the scheduler. -/
def Off (p : BackgroundPrefs) : Prop := p.enabled = false ∨ p.foregroundOnly = true

/-- Under `foregroundOnly`, what is left of the reads refuses. -/
def Refuses {α : Type} : Reads BackgroundPrefs (Option α) → Prop :=
  Reads.Ends (·.foregroundOnly = true) (· = none)

/-- The first read finds the feature off, or it is `foregroundOnly` and the rest refuses. -/
def Checks {α : Type} (program : Reads BackgroundPrefs (Option α)) : Prop :=
  (∀ result, program ≠ .done result) ∧ ∀ p : BackgroundPrefs, p.Off →
    program.access p = .done none ∨ p.foregroundOnly = true ∧ Refuses (program.access p)

theorem ends_lastOptions : lastOptions.Ends (·.foregroundOnly = true) fun options? =>
    ∀ options, options? = some options → options.foregroundOnly = some true := by
  refine Reads.ends_read_bind fun known => ?_
  split
  · rintro options ⟨⟩
  refine Reads.ends_read_bind fun intervalMs => Reads.ends_read_bind fun requiresCharging =>
    Reads.ends_read_bind fun requiresUnmetered => Reads.ends_read_bind fun idle => ?_
  dsimp only
  split
  · refine Reads.ends_read_bind fun requiresIdle => ?_
    rintro p hp q - options ⟨⟩
    exact congrArg some hp
  · rintro p hp q - options ⟨⟩
    exact congrArg some hp

theorem checks_kickConstraints : Checks kickConstraints := by
  refine ⟨by rintro result ⟨⟩, fun p hoff => ?_⟩
  change (if (!p.enabled) = true then pure none else _) = _ ∨
    _ ∧ Refuses (if (!p.enabled) = true then pure none else _)
  cases henabled : p.enabled with
  | false => exact .inl rfl
  | true =>
    refine .inr ⟨hoff.resolve_left (by simp [henabled]), fun q hq => ?_⟩
    change Refuses (if q.foregroundOnly = true then pure none else _)
    rw [if_pos hq]
    rfl

theorem checks_rescheduleOptions : Checks rescheduleOptions := by
  refine ⟨by rintro result ⟨⟩, fun p hoff => ?_⟩
  change (if (!p.enabled) = true then pure none else _) = _ ∨
    _ ∧ Refuses (if (!p.enabled) = true then pure none else _)
  cases henabled : p.enabled with
  | false => exact .inl rfl
  | true =>
    refine .inr ⟨hoff.resolve_left (by simp [henabled]), ?_⟩
    refine ends_lastOptions.bind fun options? hoptions => ?_
    cases options? with
    | none => rfl
    | some options => exact if_pos (hoptions options rfl)

/-- Where the caller of a program stands that has read published flags only. -/
structure Heeds {α : Type} (flags : Publication) (p : BackgroundPrefs)
    (program reads : Reads BackgroundPrefs (Option α)) : Prop where
  notYet : flags = .notYet → reads = program
  published : flags = .published →
    reads = program ∨ reads = .done none ∨ p.foregroundOnly = true ∧ Refuses reads
  refuses : ∀ a, reads ≠ .done (some a)

section Heeds

variable {α : Type} {flags flags' : Publication} {p p' : BackgroundPrefs}
  {program reads : Reads BackgroundPrefs (Option α)}

theorem Refuses.not_some (h : Refuses reads) (a : α) : reads ≠ .done (some a) := by
  rintro rfl
  cases h

/-- Nothing has been read. -/
theorem Checks.heeds (hprogram : Checks program) : Heeds flags p program program where
  notYet _ := rfl
  published _ := .inl rfl
  refuses a := hprogram.1 (some a)

/-- One more read of published flags. -/
theorem Heeds.read {next : BackgroundPrefs → Reads BackgroundPrefs (Option α)}
    (hprogram : Checks program) (hoff : p.Off) (h : Heeds .published p program (.get next)) :
    Heeds .published p program (next p) := by
  have hnext : next p = .done none ∨ p.foregroundOnly = true ∧ Refuses (next p) := by
    rcases h.published rfl with hstart | hnone | ⟨hforeground, hrefuses⟩
    · have hfirst := hprogram.2 p hoff
      rw [← hstart] at hfirst
      exact hfirst
    · cases hnone
    · exact .inr ⟨hforeground, hrefuses p hforeground⟩
  refine ⟨by rintro ⟨⟩, fun _ => .inr hnext, fun a ha => ?_⟩
  rcases hnext with hnone | ⟨-, hrefuses⟩
  · rw [ha] at hnone
    cases hnone
  · exact hrefuses.not_some a ha

/-- What another step makes of the flags: they are overwritten, published, or left so
that `foregroundOnly` stays. -/
def Turned (flags : Publication) (p : BackgroundPrefs) (flags' : Publication)
    (p' : BackgroundPrefs) : Prop :=
  flags' = .overwritten ∨ flags = .notYet ∧ flags' = .published ∨
    flags' = flags ∧ (p.foregroundOnly = true → p'.foregroundOnly = true)

theorem Turned.refl : Turned flags p flags p := .inr (.inr ⟨rfl, id⟩)

theorem Heeds.turned (h : Heeds flags p program reads) (hturn : Turned flags p flags' p') :
    Heeds flags' p' program reads := by
  rcases hturn with rfl | ⟨rfl, rfl⟩ | ⟨rfl, hkeep⟩
  · exact ⟨by rintro ⟨⟩, by rintro ⟨⟩, h.refuses⟩
  · exact ⟨by rintro ⟨⟩, fun _ => .inl (h.notYet rfl), h.refuses⟩
  · exact ⟨h.notYet, fun hpublished => (h.published hpublished).imp_right
      (Or.imp_right (And.imp_left hkeep)), h.refuses⟩

end Heeds

end BackgroundPrefs

namespace BackgroundTask

/-- The caller has read published flags only. -/
def Heeds (k : BackgroundTask) (flags : Publication) (p : BackgroundPrefs) : Prop :=
  match k with
  | .scheduleOneTimeFlush _ reads =>
    BackgroundPrefs.Heeds flags p BackgroundPrefs.kickConstraints reads
  | .maybeReschedulePeriodic reads =>
    BackgroundPrefs.Heeds flags p BackgroundPrefs.rescheduleOptions reads
  | _ => True

theorem Heeds.turned {k : BackgroundTask} {flags flags' : Publication} {p p' : BackgroundPrefs}
    (h : k.Heeds flags p) (hturn : BackgroundPrefs.Turned flags p flags' p') :
    k.Heeds flags' p' := by
  cases k with
  | scheduleOneTimeFlush | maybeReschedulePeriodic => exact BackgroundPrefs.Heeds.turned h hturn
  | _ => trivial

/-- Such a caller enqueues nothing. -/
theorem not_enqueues_of_heeds {k : BackgroundTask} {flags : Publication} {p : BackgroundPrefs}
    {work : UniqueWork} (h : k.Heeds flags p) : ¬ k.Enqueues work := by
  intro henqueues
  unfold Enqueues at henqueues
  split at henqueues
  · exact h.refuses _ rfl
  · exact h.refuses _ rfl
  · exact henqueues

end BackgroundTask

namespace BackgroundSyncManager

/-- The flags that are published keep work off, and callers that have read no others
heed them. -/
structure Heeded (p : BackgroundSyncManager × ReadLog) : Prop where
  off : p.2.flags = .published → p.1.prefs.Off
  enableFlag : .enableFlag ∈ p.1.tasks → p.2.flags ≠ .notYet ∧
    (p.2.flags = .published → p.1.prefs.foregroundOnly = true)
  callers : ∀ u k, p.1.tasks[u]? = some k → p.2.early u = false → k.Heeds p.2.flags p.1.prefs

theorem Start.heeded (h : Start s) : Heeded (s, .empty) where
  off := by rintro ⟨⟩
  enableFlag hmem := by
    rcases h.tasks _ hmem with h | ⟨_, h⟩ | ⟨_, h⟩ | h <;> cases h
  callers u k hk _ := by
    rcases h.tasks k (List.mem_of_getElem? hk) with rfl | ⟨_, rfl⟩ | ⟨_, rfl⟩ | rfl
    · trivial
    · trivial
    · exact BackgroundPrefs.checks_kickConstraints.heeds
    · exact BackgroundPrefs.checks_rescheduleOptions.heeds

/-- What a step of caller `u` does to the flags, and where it leaves the caller. -/
structure FlagTurn (s : BackgroundSyncManager) (g : ReadLog) (u : Nat) (k : BackgroundTask)
    (s' : BackgroundSyncManager) (k' : BackgroundTask) : Prop where
  turned : BackgroundPrefs.Turned g.flags s.prefs (g.observe u k).flags s'.prefs
  off : (g.observe u k).flags = .published → s'.prefs.Off
  enableFlag : k' = .enableFlag → (g.observe u k).flags ≠ .notYet ∧
    s'.prefs.foregroundOnly = true
  heeds : (g.observe u k).early u = false → k'.Heeds (g.observe u k).flags s'.prefs
  early : ∀ v ≠ u, (g.observe u k).early v = g.early v

variable {g : ReadLog} {u : Nat}

/-- A step that neither reads nor writes the flags. -/
theorem FlagTurn.idle (hobserve : g.observe u k = g) (hprefs : s'.prefs = s.prefs)
    (hoff : g.flags = .published → s.prefs.Off) (hk' : k' ≠ .enableFlag)
    (hheeds : k'.Heeds g.flags s.prefs) : FlagTurn s g u k s' k' := by
  refine ⟨?_, ?_, fun h => absurd h hk', fun _ => ?_, fun _ _ => by rw [hobserve]⟩
  · rw [hobserve, hprefs]
    exact .refl
  · rw [hobserve, hprefs]
    exact hoff
  · rw [hobserve, hprefs]
    exact hheeds

/-- A step that reads: the caller goes on without a look at flags that are not published. -/
theorem FlagTurn.read (hobserve : g.observe u k =
      { g with early := Function.update g.early u (g.early u || g.flags != .published) })
    (hoff : g.flags = .published → s.prefs.Off) (hk' : k' ≠ .enableFlag)
    (hheeds : g.early u = false → g.flags = .published → k'.Heeds .published s.prefs) :
    FlagTurn s g u k s k' := by
  refine ⟨?_, ?_, fun h => absurd h hk', fun hearly => ?_, fun v hv => ?_⟩
  · rw [hobserve]
    exact .refl
  · rw [hobserve]
    exact hoff
  · rw [hobserve] at hearly ⊢
    obtain ⟨hearly, hflags⟩ : g.early u = false ∧ g.flags = .published := by simpa using hearly
    dsimp only
    rw [hflags]
    exact hheeds hearly hflags
  · rw [hobserve]
    exact Function.update_of_ne hv ..

theorem advance_flags (hoff : g.flags = .published → s.prefs.Off)
    (henable : k = .enableFlag → g.flags ≠ .notYet ∧
      (g.flags = .published → s.prefs.foregroundOnly = true))
    (hheeds : g.early u = false → k.Heeds g.flags s.prefs)
    (h : s.advance accepted k = some (s', k')) : FlagTurn s g u k s' k' := by
  cases k with
  | disable =>
    cases h
    refine ⟨?_, fun _ => .inl rfl, by rintro ⟨⟩, fun _ => trivial, fun _ _ => rfl⟩
    by_cases hflags : g.flags = .notYet
    · exact .inr (.inl ⟨hflags, if_pos hflags⟩)
    · exact .inr (.inr ⟨if_neg hflags, id⟩)
  | enable options =>
    cases h
    have hforeground : (s.prefs.persist options.1).foregroundOnly = true :=
      beq_iff_eq.mpr options.2
    refine ⟨?_, fun _ => .inr hforeground, fun _ => ⟨?_, hforeground⟩, fun _ => trivial,
      fun _ _ => rfl⟩
    · by_cases hflags : g.flags = .notYet
      · exact .inr (.inl ⟨hflags, if_pos hflags⟩)
      · exact .inr (.inr ⟨if_neg hflags, fun _ => hforeground⟩)
    · simp only [ReadLog.observe]
      split
      · simp
      · assumption
  | enableFlag =>
    cases h
    exact ⟨.refl, fun hflags => .inr ((henable rfl).2 hflags), by rintro ⟨⟩, fun _ => trivial,
      fun _ _ => rfl⟩
  | cancelPeriodic | cancelOneTime =>
    cases h
    exact .idle rfl rfl hoff (by simp) trivial
  | scheduleOneTimeFlush delay reads =>
    rcases reads with (_ | constraints) | next
    · cases h
      exact .idle rfl rfl hoff (by simp) trivial
    · cases h
      refine .idle rfl ?_ hoff (by simp) trivial
      cases accepted <;> rfl
    · cases h
      refine .read rfl hoff (by simp) fun hearly hflags => ?_
      have hstands := hheeds hearly
      rw [hflags] at hstands
      exact BackgroundPrefs.Heeds.read BackgroundPrefs.checks_kickConstraints (hoff hflags)
        hstands
  | maybeReschedulePeriodic reads =>
    rcases reads with (_ | options) | next
    · cases h
      exact .idle rfl rfl hoff (by simp) trivial
    · cases accepted <;> cases h <;> exact .idle rfl rfl hoff (by simp) trivial
    · cases h
      refine .read rfl hoff (by simp) fun hearly hflags => ?_
      have hstands := hheeds hearly
      rw [hflags] at hstands
      exact BackgroundPrefs.Heeds.read BackgroundPrefs.checks_rescheduleOptions (hoff hflags)
        hstands
  | rePersist | reEnable =>
    cases h
    exact ⟨.inl rfl, by rintro ⟨⟩, by rintro ⟨⟩, fun _ => trivial, fun _ _ => rfl⟩
  | done => cases h

theorem Heeded.step {p p' : BackgroundSyncManager × ReadLog} (hH : Heeded p)
    (h : StepSystem.ghost step observe p l = some p') : Heeded p' := by
  obtain ⟨s, g⟩ := p
  obtain ⟨s', g'⟩ := p'
  obtain ⟨hstep, hobserve⟩ : s.step l = some s' ∧ g' = s.observe l g :=
    StepSystem.ghost_eq_some.mp h
  obtain ⟨k, m, k', hk, hadvance, rfl⟩ := step_advance hstep
  have hg' : g' = g.observe l.task k := by
    rw [hobserve, observe, hk]
  subst hg'
  have hturn : FlagTurn s g l.task k m k' := advance_flags hH.off
    (fun hflag => hH.enableFlag (hflag ▸ List.mem_of_getElem? hk))
    (hH.callers l.task k hk) hadvance
  refine ⟨hturn.off, fun hmem => ?_, fun v x hx hearly => ?_⟩
  · rcases List.mem_or_eq_of_mem_set hmem with hmem | hself
    · obtain ⟨hyet, hforeground⟩ := hH.enableFlag hmem
      rcases hturn.turned with hover | ⟨hnot, -⟩ | ⟨hsame, hkeep⟩
      · exact ⟨by rw [hover]; simp, fun hflags => by rw [hover] at hflags; cases hflags⟩
      · exact absurd hnot hyet
      · exact ⟨hsame ▸ hyet, fun hflags => hkeep (hforeground (hsame ▸ hflags))⟩
    · obtain ⟨hyet, hforeground⟩ := hturn.enableFlag hself.symm
      exact ⟨hyet, fun _ => hforeground⟩
  · by_cases hv : v = l.task
    · subst hv
      obtain ⟨hu, -⟩ := List.getElem?_eq_some_iff.mp hk
      rw [List.getElem?_set_self hu] at hx
      cases hx
      exact hturn.heeds hearly
    · rw [List.getElem?_set_ne (Ne.symm hv)] at hx
      exact (hH.callers v x hx ((hturn.early v hv).symm.trans hearly)).turned hturn.turned

/-! ## 3. When nothing is enqueued in the end -/

/-- Who has read published flags only needs no cancel. -/
theorem covered_iff {p : BackgroundSyncManager × ReadLog} (hH : Heeded p) :
    (∀ work, p.1.Enqueues l work → p.1.Owed work) ↔ Covered p l := by
  refine ⟨fun h work henqueues _ => h work henqueues, fun h work henqueues => ?_⟩
  cases hearly : p.2.early l.task with
  | true => exact h work henqueues hearly
  | false =>
    obtain ⟨k, hk, -, hput⟩ := henqueues
    exact absurd hput (BackgroundTask.not_enqueues_of_heeds (hH.callers _ k hk hearly))

/-- In any run in which everybody has finished, neither work is enqueued exactly when
every caller that had read flags that were not published enqueued while a call was still
to cancel that work. -/
theorem nothing_enqueued_iff {ls : List Label} (hstart : Start s)
    (hrun : StepSystem.exec step s ls = some s') (hdone : ∀ k ∈ s'.tasks, k.isDone = true) :
    (∀ work, s'.work work = none) ↔
      StepSystem.Meets (StepSystem.ghost step observe) Covered (s, .empty) ls := by
  have howed (work : UniqueWork) : s.Owed work := by
    obtain ⟨k, hk, rfl | ⟨options, rfl⟩⟩ := hstart.call
    · exact ⟨_, hk, trivial⟩
    · exact ⟨_, hk, trivial⟩
  have hnone (work : UniqueWork) : ¬ s'.Owed work := by
    rintro ⟨k, hk, howes⟩
    exact BackgroundTask.not_owes_of_isDone (hdone k hk) howes
  calc (∀ work, s'.work work = none)
    _ ↔ ∀ work, ¬ s'.Enqueued work := forall_congr' fun work => not_not.symm
    _ ↔ StepSystem.Meets step (fun s l => ∀ work, s.Enqueues l work → s.Owed work) s ls :=
      Clearing.down_iff_meets rules howed hrun hnone
    _ ↔ StepSystem.Meets (StepSystem.ghost step observe)
        (fun p l => ∀ work, p.1.Enqueues l work → p.1.Owed work) (s, .empty) ls :=
      (StepSystem.meets_ghost_iff observe ReadLog.empty).symm
    _ ↔ StepSystem.Meets (StepSystem.ghost step observe) Covered (s, .empty) ls :=
      StepSystem.meets_congr (D := fun _ _ => True) (fun hI _ hs => hI.step hs) covered_iff
        hstart.heeded (StepSystem.meets_of_forall fun _ _ => trivial)

section Sample

def sampleBackgroundOptions (foregroundOnly : Bool) : BackgroundSyncOptions where
  minimumIntervalMs := .fin 900000
  requiresCharging := none
  requiresUnmeteredNetwork := none
  requiresDeviceIdle := none
  foregroundOnly := some foregroundOnly
  taskIdentifier := none

/-- Background sync is on, and the periodic work is registered. -/
def sampleManager (tasks : List BackgroundTask) : BackgroundSyncManager where
  prefs :=
    { enabled := true
      intervalMs := some MIN_INTERVAL_MS
      requiresCharging := false
      requiresUnmetered := false
      requiresIdle := none
      foregroundOnly := false
      taskId := none }
  work
    | .UNIQUE_PERIODIC => some (periodicRequest (sampleBackgroundOptions false))
    | .UNIQUE_ONE_TIME => none
  tasks := tasks

/-- A call, the end of a cycle, and `RecoveryWorker`. -/
def sampleTasks (call : BackgroundTask) : List BackgroundTask :=
  [call, .scheduleOneTimeFlush 1000 BackgroundPrefs.kickConstraints,
    .maybeReschedulePeriodic BackgroundPrefs.rescheduleOptions]

theorem start_sampleManager {call : BackgroundTask}
    (hcall : call = .disable ∨ ∃ options, call = .enable options) :
    Start (sampleManager (sampleTasks call)) where
  tasks := by
    simp only [sampleManager, sampleTasks, List.forall_mem_cons, List.not_mem_nil, false_implies,
      implies_true, and_true]
    exact ⟨hcall.imp_right .inl, .inr (.inr (.inl ⟨1000, rfl⟩)), .inr (.inr (.inr trivial))⟩
  call := ⟨call, List.mem_cons_self, hcall⟩

/-- Task `u` makes `n` steps. -/
def steps (u n : Nat) : List Label := List.replicate n ⟨u, true⟩

def finished (s : BackgroundSyncManager) : Bool := s.tasks.all BackgroundTask.isDone

def enqueuedWorks (s : BackgroundSyncManager) : List UniqueWork :=
  [.UNIQUE_PERIODIC, .UNIQUE_ONE_TIME].filter fun work => (s.work work).isSome

/-- Everybody else is done before `disable` begins. -/
def earlyRun : List Label := steps 1 10 ++ steps 2 11 ++ steps 0 3

theorem nothing_enqueued_when_early :
    ∃ s', StepSystem.exec step (sampleManager (sampleTasks .disable)) earlyRun = some s' ∧
      StepSystem.Meets (StepSystem.ghost step observe) Covered
        (sampleManager (sampleTasks .disable), .empty) earlyRun := by
  have hstart := start_sampleManager (.inl rfl)
  obtain ⟨s', hrun, hfinished, hnone⟩ :
      ∃ s', StepSystem.exec step (sampleManager (sampleTasks .disable)) earlyRun = some s' ∧
        s'.finished = true ∧ s'.enqueuedWorks = [] := ⟨_, rfl, rfl, rfl⟩
  refine ⟨s', hrun, (nothing_enqueued_iff hstart hrun (List.all_eq_true.mp hfinished)).mp ?_⟩
  intro work
  have hall := List.filter_eq_nil_iff.mp hnone work (by cases work <;> simp)
  simpa using hall

/-! ## 4. Callers with stale flags -/

/-- The others have read the flags before the call publishes its own, and go on once it
has returned. -/
def staleRun (n : Nat) : List Label :=
  steps 1 9 ++ steps 2 8 ++ steps 0 n ++ steps 1 1 ++ steps 2 3

/-- Both works are enqueued again behind `disable`, and its flag is overwritten. Behind
`enable(foregroundOnly = true)` the opt-out is overwritten. -/
theorem stale_flags_enqueue :
    (StepSystem.exec step (sampleManager (sampleTasks .disable)) (staleRun 3)).map (fun s =>
        (s.finished, s.enqueuedWorks, s.prefs.enabled)) =
      some (true, [.UNIQUE_PERIODIC, .UNIQUE_ONE_TIME], true) ∧
    (StepSystem.exec step (sampleManager (sampleTasks
        (.enable ⟨sampleBackgroundOptions true, rfl⟩))) (staleRun 4)).map (fun s =>
          (s.finished, s.enqueuedWorks, s.prefs.foregroundOnly)) =
      some (true, [.UNIQUE_PERIODIC, .UNIQUE_ONE_TIME], false) := by
  constructor <;> rfl

end Sample

end BackgroundSyncManager

end SyncProvider.Android
