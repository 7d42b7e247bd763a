import SyncProvider.Js.Hooks

/-!
# JS: `SyncProvider`

A run of the effect is a chain of four calls, and goes on behind its cleanup. The cleanup
gives back what the chain has come to. Whether background sync is to be disabled stands in
a ref that all runs share.

The native calls succeed, and take effect in the order in which they are issued. Nothing
waits for `disableBackgroundSync` and `removeSyncEventListener`. What the listener does is
left out: it only sets `config`.

Results:
1. `base_sound` : what every run keeps.
2. `kept_sound` : what the runs keep whose cleanups find the chain at its end.
3. `gives_back_iff` : when an unmounted provider has given everything back.
4. `unmount_before_enabled_leaks` : one that has not.
-/

namespace SyncProvider.Js.Provider

variable {ω β : Type}

/-! ## The model -/

/-- The props, and what `isNativeModuleAvailable` says. -/
structure Props (ω β : Type) where
  options : ω
  backgroundSync : Option β
  nativeAvailable : Bool
  deriving DecidableEq

/-- The call that the async function waits for. -/
inductive Stage (ω : Type) where
  | configureSync
  /-- With the config that was read. -/
  | getSyncConfig (next : ω)
  | enableBackgroundSync
  /-- With the id of the listener. -/
  | addSyncEventListener (id : String)
  | finished
  deriving DecidableEq

structure Run (ω β : Type) where
  backgroundSync : Option β
  stage : Stage ω
  subscriptionId : Option String
  deriving DecidableEq

/-- The engine, with the state and the refs of the component. -/
structure Shared (ω β : Type) where
  engineConfig : ω
  /-- The options that background sync is enabled with. -/
  background : Option β
  listeners : Hooks.Listeners
  config : Option ω
  cancelledRef : Bool
  ownsBackgroundRef : Bool
  deriving DecidableEq

/-- `addSyncEventListener` is called, and the engine registers the listener. -/
def addSyncEventListener (id : String) (run : Run ω β) (shared : Shared ω β) :
    Option (Run ω β × Shared ω β) :=
  if id ∈ shared.listeners.registered then none
  else some ({ run with stage := .addSyncEventListener id },
    { shared with listeners.registered := shared.listeners.registered ++ [id] })

/-- The call that the chain waits for completes, and the chain goes on to the next one. `id`
is new, for a listener that is registered then. -/
def complete (id : String) (run : Run ω β) (shared : Shared ω β) :
    Option (Run ω β × Shared ω β) :=
  match run.stage with
  | .configureSync => some ({ run with stage := .getSyncConfig shared.engineConfig }, shared)
  | .getSyncConfig next =>
    let shared := if shared.cancelledRef then shared else { shared with config := some next }
    match run.backgroundSync with
    | some options =>
      some ({ run with stage := .enableBackgroundSync },
        { shared with background := some options })
    | none => addSyncEventListener id run shared
  | .enableBackgroundSync => addSyncEventListener id run { shared with ownsBackgroundRef := true }
  | .addSyncEventListener id =>
    some ({ run with stage := .finished, subscriptionId := some id }, shared)
  | .finished => none

/-- `configureSync` is called. -/
def setup (props : Props ω β) (shared : Shared ω β) : Shared ω β × Option (Run ω β) :=
  if props.nativeAvailable then
    ({ shared with cancelledRef := false, engineConfig := props.options },
      some ⟨props.backgroundSync, .configureSync, none⟩)
  else ({ shared with cancelledRef := false }, none)

def cleanup (run : Run ω β) (shared : Shared ω β) : Run ω β × Shared ω β :=
  let shared := { shared with
    cancelledRef := true
    listeners.removals := shared.listeners.removals ++ run.subscriptionId.toList }
  if shared.ownsBackgroundRef then
    (run, { shared with ownsBackgroundRef := false, background := none })
  else (run, shared)

abbrev Providing (ω β : Type) := Effects.Effect (Props ω β) (Run ω β) (Shared ω β) String

def effect : Providing ω β where
  setup := setup
  advance := complete
  cleanup := cleanup

abbrev Component (ω β : Type) := Effects.Component (Run ω β) (Shared ω β)

/-- `setup` and `cleanup` are the mounts, the changes of a prop and the unmounts. -/
abbrev Label (ω β : Type) := Effects.Label (Props ω β) String

def step : Component ω β → Label ω β → Option (Component ω β) := Effects.step effect

def initial (engineConfig : ω) : Component ω β :=
  Effects.initial ⟨engineConfig, none, ⟨[], []⟩, none, false, false⟩

/-! ## What is claimed -/

/-- Background sync is not left enabled, and no listener is left. -/
def GivenBack (s : Component ω β) : Prop :=
  s.shared.background = none ∧ ∀ id ∈ s.shared.listeners.registered,
    id ∈ s.shared.listeners.removals

/-- The chain has enabled what its prop asks for. -/
def Stage.isPastEnabling : Stage ω → Bool
  | .configureSync | .getSyncConfig _ | .enableBackgroundSync => false
  | .addSyncEventListener _ | .finished => true

/-- Background sync is as the prop says, once the calls for it have completed. -/
def Enabled (s : Component ω β) : Prop :=
  ∀ (k : Nat) (run : Run ω β), s.current = some k → s.runs[k]? = some run →
    run.stage.isPastEnabling = true → s.shared.background = run.backgroundSync

/-- No chain waits for a call. -/
def Settled (s : Component ω β) : Prop := ∀ run ∈ s.runs, run.stage = .finished

/-- A cleanup finds the chain of its run at its end. -/
def EndsFinished (s : Component ω β) : Label ω β → Prop
  | .cleanup => ∀ k ∈ s.current, ∀ run ∈ s.runs[k]?, run.stage = .finished
  | _ => True

instance [DecidableEq ω] (s : Component ω β) (l : Label ω β) : Decidable (EndsFinished s l) :=
  match l with
  | .cleanup =>
    inferInstanceAs (Decidable (∀ k ∈ s.current, ∀ run ∈ s.runs[k]?, run.stage = .finished))
  | .setup _ | .advance _ _ => .isTrue trivial

/-! ## 1. What every run keeps -/

variable {run run' other : Run ω β} {shared shared' : Shared ω β} {b : Bool} {id : String}

/-- The listener of a run. -/
def Run.listener (run : Run ω β) : Option String :=
  match run.stage with
  | .addSyncEventListener id => some id
  | .configureSync | .getSyncConfig _ | .enableBackgroundSync | .finished => run.subscriptionId

/-- Only ids of the engine are removed. -/
def RemovesKnown (_ : Bool) (shared : Shared ω β) : Prop :=
  shared.listeners.removals ⊆ shared.listeners.registered

structure Base (_ : Bool) (run : Run ω β) (shared : Shared ω β) : Prop where
  known : ∀ id, run.listener = some id → id ∈ shared.listeners.registered
  unfinished : run.stage ≠ .finished → run.subscriptionId = none
  finished : run.stage = .finished → ∃ id, run.subscriptionId = some id

/-- No two runs have the same listener. -/
def Apart (run other : Run ω β) : Prop := ∀ id, run.listener = some id → other.listener ≠ some id

/-- What the completion of a call does. -/
inductive Completes (run : Run ω β) (shared : Shared ω β) : Run ω β → Shared ω β → Prop where
  | configured (hstage : run.stage = .configureSync) :
    Completes run shared { run with stage := .getSyncConfig shared.engineConfig } shared
  | enables {next : ω} {options : β} {config : Option ω} (hstage : run.stage = .getSyncConfig next)
    (hsync : run.backgroundSync = some options) :
    Completes run shared { run with stage := .enableBackgroundSync }
      { shared with config := config, background := some options }
  | subscribes {next : ω} {config : Option ω} {id : String}
    (hstage : run.stage = .getSyncConfig next) (hsync : run.backgroundSync = none)
    (hfresh : id ∉ shared.listeners.registered) :
    Completes run shared { run with stage := .addSyncEventListener id }
      { shared with
        config := config
        listeners.registered := shared.listeners.registered ++ [id] }
  | owns {id : String} (hstage : run.stage = .enableBackgroundSync)
    (hfresh : id ∉ shared.listeners.registered) :
    Completes run shared { run with stage := .addSyncEventListener id }
      { shared with
        ownsBackgroundRef := true
        listeners.registered := shared.listeners.registered ++ [id] }
  | finishes {id : String} (hstage : run.stage = .addSyncEventListener id) :
    Completes run shared { run with stage := .finished, subscriptionId := some id } shared

theorem completes_of_complete (h : complete id run shared = some (run', shared')) :
    Completes run shared run' shared' := by
  simp only [complete] at h
  split at h
  · rename_i hstage
    cases h
    exact .configured hstage
  · rename_i next hstage
    have hshared : (if shared.cancelledRef then shared else { shared with config := some next }) =
        { shared with config := if shared.cancelledRef then shared.config else some next } := by
      split <;> rfl
    rw [hshared] at h
    split at h
    · rename_i options hsync
      cases h
      exact .enables hstage hsync
    · rename_i hsync
      simp only [addSyncEventListener] at h
      split at h <;> cases h
      exact .subscribes hstage hsync ‹_›
  · rename_i hstage
    simp only [addSyncEventListener] at h
    split at h <;> cases h
    exact .owns hstage ‹_›
  · rename_i hstage
    cases h
    exact .finishes hstage
  · cases h

theorem Base.subscriptionId (h : Base b run shared) (hid : run.subscriptionId = some id) :
    run.stage = .finished ∧ run.listener = some id := by
  have hstage : run.stage = .finished := by
    by_contra hne
    rw [h.unfinished hne] at hid
    cases hid
  exact ⟨hstage, by rw [Run.listener, hstage, hid]⟩

/-- A chain registers at most one listener, and removes none. -/
theorem Completes.listeners (h : Completes run shared run' shared')
    (hbase : Base b run shared) :
    (run'.listener = run.listener ∧ shared'.listeners = shared.listeners) ∨
      ∃ id, run.listener = none ∧ run'.listener = some id ∧ id ∉ shared.listeners.registered ∧
        shared'.listeners.registered = shared.listeners.registered ++ [id] ∧
        shared'.listeners.removals = shared.listeners.removals := by
  cases h with
  | configured hstage =>
    refine .inl ⟨?_, rfl⟩
    rw [Run.listener, Run.listener, hstage]
  | enables hstage =>
    refine .inl ⟨?_, rfl⟩
    rw [Run.listener, Run.listener, hstage]
  | subscribes hstage _ hfresh =>
    refine .inr ⟨_, ?_, rfl, hfresh, rfl, rfl⟩
    rw [Run.listener, hstage]
    exact hbase.unfinished fun heq => by rw [hstage] at heq; cases heq
  | owns hstage hfresh =>
    refine .inr ⟨_, ?_, rfl, hfresh, rfl, rfl⟩
    rw [Run.listener, hstage]
    exact hbase.unfinished fun heq => by rw [hstage] at heq; cases heq
  | finishes hstage =>
    refine .inl ⟨?_, rfl⟩
    rw [Run.listener, Run.listener, hstage]

theorem Completes.stage (h : Completes run shared run' shared') : run.stage ≠ .finished := by
  intro hfinished
  cases h with
  | configured hstage | enables hstage | subscribes hstage | owns hstage | finishes hstage =>
    rw [hfinished] at hstage
    cases hstage

theorem Completes.subscriptionId (h : Completes run shared run' shared') :
    (run'.stage ≠ .finished → run'.subscriptionId = run.subscriptionId) ∧
      (run'.stage = .finished → ∃ id, run'.subscriptionId = some id) := by
  cases h with
  | configured | enables | subscribes | owns =>
    exact ⟨fun _ => rfl, fun hfinished => by cases hfinished⟩
  | finishes => exact ⟨fun hne => absurd rfl hne, fun _ => ⟨_, rfl⟩⟩

theorem Completes.base (h : Completes run shared run' shared') (hbase : Base b run shared) :
    Base b run' shared' where
  known id hid := by
    rcases h.listeners hbase with ⟨hsame, hlisteners⟩ | ⟨id', -, hnew, -, hregistered, -⟩
    · rw [hlisteners]
      exact hbase.known id (hsame ▸ hid)
    · rw [hregistered]
      cases hnew.symm.trans hid
      exact List.mem_append_right _ List.mem_cons_self
  unfinished hne := (h.subscriptionId.1 hne).trans (hbase.unfinished h.stage)
  finished := h.subscriptionId.2

/-- What another run finds of its listener when this one completes a call. -/
theorem Completes.frame (h : Completes run shared run' shared') (hbase : Base b run shared)
    {b' : Bool} (hother : Base b' other shared) (hapart : Apart run other) :
    Base b' other shared' ∧ Apart run' other := by
  rcases h.listeners hbase with ⟨hsame, hlisteners⟩ | ⟨id, -, hnew, hfresh, hregistered, -⟩
  · refine ⟨⟨fun id hid => ?_, hother.unfinished, hother.finished⟩, fun id hid => ?_⟩
    · rw [hlisteners]
      exact hother.known id hid
    · exact hapart id (hsame ▸ hid)
  · refine ⟨⟨fun id' hid' => ?_, hother.unfinished, hother.finished⟩, fun id' hid' hid'' => ?_⟩
    · rw [hregistered]
      exact List.mem_append_left _ (hother.known id' hid')
    · cases hnew.symm.trans hid'
      exact hfresh (hother.known id hid'')

theorem Completes.removesKnown (h : Completes run shared run' shared') (hbase : Base b run shared)
    (hG : RemovesKnown b shared) (b' : Bool) : RemovesKnown b' shared' := by
  rcases h.listeners hbase with ⟨-, hlisteners⟩ | ⟨id, -, -, -, hregistered, hremovals⟩
  · rw [RemovesKnown, hlisteners]
    exact hG
  · rw [RemovesKnown, hregistered, hremovals]
    exact List.Subset.trans hG (List.subset_append_left _ _)

/-- What a cleanup does. -/
theorem cleanup_eq (h : cleanup run shared = (run', shared')) :
    run' = run ∧ shared'.listeners.registered = shared.listeners.registered ∧
      shared'.listeners.removals = shared.listeners.removals ++ run.subscriptionId.toList ∧
      shared'.ownsBackgroundRef = false ∧
      shared'.background = if shared.ownsBackgroundRef then none else shared.background := by
  simp only [cleanup] at h
  split at h <;> cases h
  · rename_i howns
    exact ⟨rfl, rfl, rfl, rfl, (if_pos howns).symm⟩
  · rename_i howns
    exact ⟨rfl, rfl, rfl, Bool.eq_false_iff.mpr howns, (if_neg howns).symm⟩

/-- What a setup does. -/
theorem setup_eq {props : Props ω β} {new : Option (Run ω β)}
    (h : setup props shared = (shared', new)) :
    shared'.listeners = shared.listeners ∧ shared'.background = shared.background ∧
      shared'.ownsBackgroundRef = shared.ownsBackgroundRef ∧
      ∀ run ∈ new, run = ⟨props.backgroundSync, .configureSync, none⟩ := by
  simp only [setup] at h
  split at h <;> cases h
  · exact ⟨rfl, rfl, rfl, fun run hrun => (Option.some.inj hrun).symm⟩
  · exact ⟨rfl, rfl, rfl, fun run hrun => by cases hrun⟩

theorem base_sound :
    Effects.Sound (effect : Providing ω β) (fun _ _ _ => True) RemovesKnown Base Apart where
  symm run other h := fun id hother hrun => h id hrun hother
  setup props shared shared' new hG h := by
    obtain ⟨hlisteners, -, -, hnew⟩ := setup_eq h
    refine ⟨?_, fun other hother => ⟨fun id hid => ?_, hother.unfinished, hother.finished⟩,
      fun run hrun => ?_⟩
    · rw [RemovesKnown, hlisteners]
      exact hG
    · rw [hlisteners]
      exact hother.known id hid
    · obtain rfl := hnew run hrun
      refine ⟨⟨fun id hid => ?_, fun _ => rfl, fun hfinished => ?_⟩, fun other _ id _ hid => ?_⟩
      · cases hid
      · cases hfinished
      · cases hid
  advance id b c run run' shared shared' _ hG hP _ h := by
    have hcompletes := completes_of_complete h
    refine ⟨hcompletes.removesKnown hP hG c, hcompletes.base hP, fun b' other _ hother hapart => ?_⟩
    exact hcompletes.frame hP hother hapart
  cleanup run run' shared shared' hG hP _ h := by
    obtain ⟨rfl, hregistered, hremovals, -, -⟩ := cleanup_eq h
    have hknown {b : Bool} {r : Run ω β} (hr : Base b r shared) : Base false r shared' :=
      ⟨fun id hid => hregistered ▸ hr.known id hid, hr.unfinished, hr.finished⟩
    refine ⟨?_, hknown hP, fun other hother hapart => ⟨hknown hother, hapart⟩⟩
    rw [RemovesKnown, hregistered, hremovals]
    intro id hid
    rcases List.mem_append.mp hid with hid | hid
    · exact hG hid
    · exact hP.known id (hP.subscriptionId (Option.mem_toList.mp hid)).2

/-! ## 2. Chains that come to their end -/

/-- What the chain has enabled, and what the ref says of it. -/
def Reached (run : Run ω β) (shared : Shared ω β) : Prop :=
  match run.stage with
  | .configureSync | .getSyncConfig _ =>
    shared.background = none ∧ shared.ownsBackgroundRef = false
  | .enableBackgroundSync =>
    run.backgroundSync.isSome = true ∧ shared.background = run.backgroundSync ∧
      shared.ownsBackgroundRef = false
  | .addSyncEventListener _ | .finished =>
    shared.background = run.backgroundSync ∧
      shared.ownsBackgroundRef = run.backgroundSync.isSome

theorem Reached.background (h : Reached run shared) (hpast : run.stage.isPastEnabling = true) :
    shared.background = run.backgroundSync := by
  unfold Reached at h
  cases hstage : run.stage with
  | configureSync | getSyncConfig | enableBackgroundSync =>
    rw [hstage] at hpast
    cases hpast
  | addSyncEventListener | finished =>
    rw [hstage] at h
    exact h.1

/-- Behind a cleanup nothing is enabled. -/
def Idle (b : Bool) (shared : Shared ω β) : Prop :=
  RemovesKnown b shared ∧
    (b = false → shared.background = none ∧ shared.ownsBackgroundRef = false)

structure Kept (b : Bool) (run : Run ω β) (shared : Shared ω β) : Prop extends
    Base b run shared where
  reached : b = true → Reached run shared
  holds : b = true → ∀ id, run.listener = some id → id ∉ shared.listeners.removals
  returned : b = false → run.stage = .finished ∧
    ∀ id, run.listener = some id → id ∈ shared.listeners.removals

/-- A cleanup is to find the chain at its end. -/
def Finished (_ : Bool) (o : Option String) (run : Run ω β) : Prop :=
  o = none → run.stage = .finished

theorem Completes.reached (h : Completes run shared run' shared') (hreached : Reached run shared) :
    Reached run' shared' := by
  unfold Reached at hreached ⊢
  cases h with
  | configured hstage =>
    rw [hstage] at hreached
    exact hreached
  | enables hstage hsync =>
    rw [hstage] at hreached
    exact ⟨by rw [hsync]; rfl, hsync.symm, hreached.2⟩
  | subscribes hstage hsync =>
    rw [hstage] at hreached
    exact ⟨hreached.1.trans hsync.symm, by rw [hsync]; exact hreached.2⟩
  | owns hstage =>
    rw [hstage] at hreached
    exact ⟨hreached.2.1, hreached.1.symm⟩
  | finishes hstage =>
    rw [hstage] at hreached
    exact hreached

theorem Completes.holds (h : Completes run shared run' shared') (hbase : Base b run shared)
    (hG : RemovesKnown b shared)
    (hholds : ∀ id, run.listener = some id → id ∉ shared.listeners.removals) :
    ∀ id, run'.listener = some id → id ∉ shared'.listeners.removals := by
  intro id hid
  rcases h.listeners hbase with ⟨hsame, hlisteners⟩ | ⟨id', -, hnew, hfresh, -, hremovals⟩
  · rw [hlisteners]
    exact hholds id (hsame ▸ hid)
  · rw [hremovals]
    cases hnew.symm.trans hid
    exact fun hmem => hfresh (hG hmem)

theorem Completes.removals (h : Completes run shared run' shared') (hbase : Base b run shared) :
    shared'.listeners.removals = shared.listeners.removals := by
  rcases h.listeners hbase with ⟨-, hlisteners⟩ | ⟨id, -, -, -, -, hremovals⟩
  · rw [hlisteners]
  · exact hremovals

theorem kept_sound :
    Effects.Sound (effect : Providing ω β) Finished Idle Kept Apart where
  symm run other h := fun id hother hrun => h id hrun hother
  setup props shared shared' new hG h := by
    obtain ⟨hG', hframe, hnew⟩ := base_sound.setup props shared shared' new hG.1 h
    obtain ⟨hlisteners, hbackground, howns, hrun⟩ := setup_eq h
    obtain ⟨hnone, hnot⟩ := hG.2 rfl
    have hidle : shared'.background = none ∧ shared'.ownsBackgroundRef = false :=
      ⟨hbackground.trans hnone, howns.trans hnot⟩
    refine ⟨⟨hG', fun _ => hidle⟩, fun other hother => ?_, fun run hmem => ?_⟩
    · refine ⟨hframe other hother.toBase, fun hfalse => ?_, fun hfalse => ?_, fun _ => ?_⟩
      · cases hfalse
      · cases hfalse
      · rw [hlisteners]
        exact hother.returned rfl
    · obtain ⟨hbase, hapart⟩ := hnew run hmem
      obtain rfl := hrun run hmem
      refine ⟨⟨hbase, fun _ => hidle, fun _ id hid => ?_, fun hfalse => ?_⟩,
        fun other hother => hapart other hother.toBase⟩
      · cases hid
      · cases hfalse
  advance id b c run run' shared shared' hc hG hP _ h := by
    have hcompletes := completes_of_complete h
    obtain ⟨hG', hbase, hframe⟩ :=
      base_sound.advance id b c run run' shared shared' hc hG.1 hP.toBase trivial h
    obtain rfl : b = true := by
      by_contra hb
      exact hcompletes.stage (hP.returned (Bool.eq_false_iff.mpr hb)).1
    obtain rfl := hc rfl
    refine ⟨⟨hG', fun hfalse => ?_⟩, ⟨hbase, fun _ => ?_, fun _ => ?_, fun hfalse => ?_⟩,
      fun b' other hb hother hapart => ?_⟩
    · cases hfalse
    · exact hcompletes.reached (hP.reached rfl)
    · exact hcompletes.holds hP.toBase hG.1 (hP.holds rfl)
    · cases hfalse
    · obtain rfl := hb rfl
      obtain ⟨hbase', hapart'⟩ := hframe false other hb hother.toBase hapart
      refine ⟨⟨hbase', fun hfalse => ?_, fun hfalse => ?_, fun _ => ?_⟩, hapart'⟩
      · cases hfalse
      · cases hfalse
      · rw [hcompletes.removals hP.toBase]
        exact hother.returned rfl
  cleanup run run' shared shared' hG hP hC h := by
    obtain ⟨hG', hbase, hframe⟩ :=
      base_sound.cleanup run run' shared shared' hG.1 hP.toBase trivial h
    obtain ⟨rfl, hregistered, hremovals, howns, hbackground⟩ := cleanup_eq h
    have hfinished : run'.stage = .finished := hC rfl
    have hreached := hP.reached rfl
    rw [Reached, hfinished] at hreached
    refine ⟨⟨hG', fun _ => ⟨?_, howns⟩⟩, ⟨hbase, fun hfalse => ?_, fun hfalse => ?_, fun _ => ?_⟩,
      fun other hother hapart => ⟨⟨(hframe other hother.toBase hapart).1, fun hfalse => ?_,
        fun hfalse => ?_, fun _ => ?_⟩, hapart⟩⟩
    · rw [hbackground, hreached.2, hreached.1]
      cases run'.backgroundSync <;> rfl
    · cases hfalse
    · cases hfalse
    · refine ⟨hfinished, fun id hid => ?_⟩
      rw [Run.listener, hfinished] at hid
      rw [hremovals]
      exact List.mem_append_right _ (Option.mem_toList.mpr hid)
    · cases hfalse
    · cases hfalse
    · refine ⟨(hother.returned rfl).1, fun id hid => ?_⟩
      rw [hremovals]
      exact List.mem_append_left _ ((hother.returned rfl).2 id hid)

/-! ## 3. What is given back -/

/-- The listener of the chain, if it comes to one, has not been removed. -/
def Leaked (run : Run ω β) (shared : Shared ω β) : Prop :=
  ∀ id, run.listener = some id → id ∉ shared.listeners.removals

theorem losing :
    Effects.Losing (effect : Providing ω β) Finished RemovesKnown Base Kept Apart Leaked where
  advance a b run run' shared shared' _ hC _ := absurd (fun heq => by cases heq) hC
  cleanup run run' shared shared' hP hC h := by
    obtain ⟨rfl, -, hremovals, -, -⟩ := cleanup_eq h
    have hunfinished : run'.stage ≠ .finished := fun hfinished => hC fun _ => hfinished
    intro id hid
    rw [hremovals, hP.unfinished hunfinished]
    show id ∉ shared.listeners.removals ++ []
    rw [List.append_nil]
    exact hP.holds rfl id hid
  setup props shared shared' new lost h hL := by
    obtain ⟨hlisteners, -⟩ := setup_eq h
    rw [Leaked, hlisteners]
    exact hL
  own id c run run' shared shared' hG hP hL h :=
    (completes_of_complete h).holds hP hG hL
  other id b run run' shared shared' lost hP _ _ hL h := by
    rw [Leaked, (completes_of_complete h).removals hP]
    exact hL
  cleanupOther run run' shared shared' lost hP _ hapart hL h := by
    obtain ⟨rfl, -, hremovals, -, -⟩ := cleanup_eq h
    intro id hid hmem
    rw [hremovals] at hmem
    rcases List.mem_append.mp hmem with hmem | hmem
    · exact hL id hid hmem
    · exact hapart id (hP.subscriptionId (Option.mem_toList.mp hmem)).2 hid

theorem grants_listeners :
    Effects.Grants (effect : Providing ω β) Base (fun run id => run.listener = some id)
      (fun shared id => id ∈ shared.listeners.registered) where
  setup props shared shared' new id h hid := by
    obtain ⟨hlisteners, -⟩ := setup_eq h
    rwa [hlisteners] at hid
  advance id b run run' shared shared' x hP h := by
    rcases (completes_of_complete h).listeners hP with ⟨hsame, hlisteners⟩ |
      ⟨id', hnone, hnew, -, hregistered, -⟩
    · refine ⟨fun hx => hsame.trans hx, fun hx => ?_⟩
      rw [hlisteners] at hx
      exact .inl hx
    · refine ⟨fun hx => ?_, fun hx => ?_⟩
      · cases hnone.symm.trans hx
      · rw [hregistered] at hx
        refine (List.mem_append.mp hx).imp (fun hmem => hmem) fun hmem => ?_
        rw [List.mem_singleton.mp hmem, hnew]
  cleanup run run' shared shared' x _ h := by
    obtain ⟨rfl, hregistered, -⟩ := cleanup_eq h
    exact ⟨fun hx => hx, fun hx => .inl (hregistered ▸ hx)⟩

theorem idle_initial (engineConfig : ω) :
    Idle false (initial engineConfig : Component ω β).shared :=
  ⟨List.Subset.refl [], fun _ => ⟨rfl, rfl⟩⟩

/-- Every listener is one of a chain. -/
theorem owned_of_exec {engineConfig : ω} {ls : List (Label ω β)} {s : Component ω β}
    (h : StepSystem.exec step (initial engineConfig) ls = some s) :
    Effects.Owned (fun run id => run.listener = some id)
      (fun shared id => id ∈ shared.listeners.registered) s :=
  (Effects.owned_of_exec base_sound grants_listeners (idle_initial engineConfig).1
    (fun _ => List.not_mem_nil) h).2

theorem allowed_iff_endsFinished (s : Component ω β) (l : Label ω β) :
    Effects.Allowed Finished s l ↔ EndsFinished s l := by
  cases l with
  | setup => exact Iff.rfl
  | advance k id => exact ⟨fun _ => trivial, fun _ run _ heq => by cases heq⟩
  | cleanup =>
    constructor
    · intro h k hk run hrun
      exact h k run hk hrun rfl
    · intro h k run hk hrun _
      exact h k hk run hrun

theorem meets_endsFinished_iff {s : Component ω β} {ls : List (Label ω β)} :
    StepSystem.Meets step (Effects.Allowed Finished) s ls ↔
      StepSystem.Meets step EndsFinished s ls :=
  ⟨.mono fun s l => (allowed_iff_endsFinished s l).mp,
    .mono fun s l => (allowed_iff_endsFinished s l).mpr⟩

/-- A provider that is unmounted has given everything back, once its calls have completed, in
the runs in which every cleanup finds the chain of its run at its end, and in no other. While
it is mounted in such a run, background sync is as the prop says. -/
theorem gives_back_iff (engineConfig : ω) (ls : List (Label ω β)) (s : Component ω β)
    (hrun : StepSystem.exec step (initial engineConfig) ls = some s) :
    (StepSystem.Meets step EndsFinished (initial engineConfig) ls → Enabled s) ∧
      (Settled s → s.current = none →
        (GivenBack s ↔ StepSystem.Meets step EndsFinished (initial engineConfig) ls)) := by
  have hidle : Idle false (initial engineConfig : Component ω β).shared :=
    idle_initial engineConfig
  have howned := owned_of_exec hrun
  refine ⟨fun hmeets => ?_, fun hsettled hnone => ?_⟩
  · have hinv : Effects.Inv Idle Kept Apart s := by
      refine StepSystem.exec_invariant_of_meets (fun h hC hs => ?_) (Effects.inv_initial hidle)
        (meets_endsFinished_iff.mpr hmeets) hrun
      exact h.step kept_sound hC hs
    intro k run hk hget hpast
    have hkept := hinv.each k run hget
    rw [hk, beq_self_eq_true] at hkept
    exact (hkept.reached rfl).background hpast
  · rw [← meets_endsFinished_iff]
    refine Effects.last_iff_allowed base_sound kept_sound losing hidle.1 hidle hrun
      (fun hinv => ?_) ?_
    · refine ⟨?_, fun id hid => ?_⟩
      · refine (hinv.shared.2 ?_).1
        rw [hnone]
        rfl
      · obtain ⟨k, run, hget, hlistener⟩ := howned id hid
        have hkept := hinv.each k run hget
        rw [hnone] at hkept
        exact (hkept.returned rfl).2 id hlistener
    · rintro hbase ⟨k, run, hget, -, hleaked⟩ hback
      have hP := hbase.each k run hget
      obtain ⟨id, hid⟩ := hP.finished (hsettled run (List.mem_of_getElem? hget))
      have hlistener := (hP.subscriptionId hid).2
      exact hleaked id hlistener (hback.2 id (hP.known id hlistener))

/-- A provider changes the interval, and is unmounted behind the last chain. -/
theorem gives_back_of_two :
    let mounted : List (Label String Nat) := [.setup ⟨"a", some 15, true⟩, .advance 0 "",
      .advance 0 "", .advance 0 "first", .advance 0 "", .cleanup, .setup ⟨"a", some 30, true⟩,
      .advance 1 "", .advance 1 "", .advance 1 "second", .advance 1 ""]
    (∃ s, StepSystem.exec step (initial "") mounted = some s ∧ Enabled s ∧
      s.shared.background = some 30) ∧
    ∃ s, StepSystem.exec step (initial "") (mounted ++ [.cleanup]) = some s ∧ GivenBack s := by
  intro mounted
  have hrun : StepSystem.exec step (initial "") mounted =
      some ⟨[⟨some 15, .finished, some "first"⟩, ⟨some 30, .finished, some "second"⟩], some 1,
        ⟨"a", some 30, ⟨["first", "second"], ["first"]⟩, some "a", false, true⟩⟩ := by decide
  have hrun' : StepSystem.exec step (initial "") (mounted ++ [.cleanup]) =
      some ⟨[⟨some 15, .finished, some "first"⟩, ⟨some 30, .finished, some "second"⟩], none,
        ⟨"a", none, ⟨["first", "second"], ["first", "second"]⟩, some "a", true, false⟩⟩ := by
    decide
  refine ⟨⟨_, hrun, (gives_back_iff _ _ _ hrun).1 (by decide), rfl⟩, ⟨_, hrun', ?_⟩⟩
  refine ((gives_back_iff _ _ _ hrun').2 ?_ rfl).mpr (by decide)
  unfold Settled
  decide

/-- The provider is unmounted while `enableBackgroundSync` is under way. Its chain goes on, and
what it enables and registers stays. -/
theorem unmount_before_enabled_leaks :
    ∃ s, StepSystem.exec step (initial "")
      [.setup ⟨"a", some 15, true⟩, .advance 0 "", .advance 0 "", .cleanup, .advance 0 "first",
        .advance 0 ""] = some s ∧ Settled s ∧ s.current = none ∧
      s.shared.background = some 15 ∧ s.shared.listeners = ⟨["first"], []⟩ ∧ ¬ GivenBack s := by
  refine ⟨⟨[⟨some 15, .finished, some "first"⟩], none,
    ⟨"a", some 15, ⟨["first"], []⟩, some "a", true, true⟩⟩, by decide, ?_, rfl, rfl, rfl, ?_⟩
  · unfold Settled
    decide
  · intro hback
    cases hback.1

end SyncProvider.Js.Provider
