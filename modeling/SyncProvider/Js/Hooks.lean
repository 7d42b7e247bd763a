import SyncProvider.Lib.Effects

/-!
# JS: the listeners of the hooks

`useSyncQueue`, `useAutoSync`, `useSyncSnapshot` and `useSyncEvents` register a listener in
an effect, and remove it in the cleanup. The id to remove is known when the async function
goes on from its `await`, which may be behind the cleanup. Only `useSyncEvents` asks for
that.

Results:
1. `base_sound` : what every run keeps.
2. `listeners_removed_iff` : when each listener is removed, and exactly once.
3. `cleanup_before_id_leaks` : a listener that stays.
-/

namespace SyncProvider.Js.Hooks

/-! ## The model -/

/-- The promise of `addSyncEventListener`. -/
inductive Registration where
  | pending
  | fulfilled (id : String)
  | rejected
  deriving DecidableEq

def Registration.isFulfilled : Registration → Bool
  | .fulfilled _ => true
  | .pending | .rejected => false

/-- A run of the effect that has got past its guards. -/
structure Run where
  registration : Registration
  /-- The async function has gone on from its `await`. -/
  resumed : Bool
  subscriptionId : Option String
  cancelled : Bool
  deriving DecidableEq

/-- The ids that the engine has given to the hook, and the calls of
`removeSyncEventListener`. -/
structure Listeners where
  registered : List String
  removals : List String
  deriving DecidableEq

/-- What the guards of the effects read. -/
structure Inputs where
  enabled : Option Bool
  nativeAvailable : Bool
  deriving DecidableEq

/-- What sets the hooks apart. A run is left with the ids that it removes. -/
structure Hook where
  subscribes : Inputs → Bool
  /-- What stands behind the `try` around the `await`. -/
  afterAwait : Run → Run × List String
  cleanup : Run → Run × List String

/-- The body that three of the hooks share. -/
def subscribing (guard : Inputs → Bool) : Hook where
  subscribes := guard
  afterAwait run := (run, [])
  cleanup run := ({ run with cancelled := true }, run.subscriptionId.toList)

def useSyncQueue : Hook := subscribing fun inputs => inputs.nativeAvailable

def useAutoSync : Hook :=
  subscribing fun inputs => inputs.enabled.getD false && inputs.nativeAvailable

def useSyncSnapshot : Hook := subscribing fun inputs => inputs.nativeAvailable

/-- `subscriptionId = null`, and its listener is removed. -/
def takeSubscription (run : Run) : Run × List String :=
  ({ run with subscriptionId := none }, run.subscriptionId.toList)

def useSyncEvents : Hook where
  subscribes inputs := inputs.enabled.getD true && inputs.nativeAvailable
  afterAwait run := if run.cancelled then takeSubscription run else (run, [])
  cleanup run := takeSubscription { run with cancelled := true }

inductive Action where
  /-- The engine registers the listener. Its ids are random UUIDs. -/
  | fulfill (id : String)
  | reject
  | resume
  deriving DecidableEq

/-- `subscriptionId = await …`, when the promise is not pending. -/
def assign (run : Run) : Run :=
  match run.registration with
  | .fulfilled id => { run with resumed := true, subscriptionId := some id }
  | .pending | .rejected => { run with resumed := true }

def remove (listeners : Listeners) (p : Run × List String) : Run × Listeners :=
  (p.1, { listeners with removals := listeners.removals ++ p.2 })

def advance (hook : Hook) (a : Action) (run : Run) (listeners : Listeners) :
    Option (Run × Listeners) :=
  match a with
  | .fulfill id =>
    if run.registration = .pending ∧ id ∉ listeners.registered then
      some ({ run with registration := .fulfilled id },
        { listeners with registered := listeners.registered ++ [id] })
    else none
  | .reject =>
    if run.registration = .pending then some ({ run with registration := .rejected }, listeners)
    else none
  | .resume =>
    if run.registration ≠ .pending ∧ run.resumed = false then
      some (remove listeners (hook.afterAwait (assign run)))
    else none

def effect (hook : Hook) : Effects.Effect Inputs Run Listeners Action where
  setup inputs listeners :=
    (listeners, if hook.subscribes inputs then some ⟨.pending, false, none, false⟩ else none)
  advance := advance hook
  cleanup run listeners := remove listeners (hook.cleanup run)

abbrev Component := Effects.Component Run Listeners

abbrev Label := Effects.Label Inputs Action

def step (hook : Hook) : Component → Label → Option Component := Effects.step (effect hook)

def initial : Component := Effects.initial ⟨[], []⟩

/-! ## What is claimed -/

/-- Each listener of a run whose cleanup has run is removed exactly once, and behind the
last cleanup all are removed. -/
def Returned (s : Component) : Prop :=
  (∀ (k : Nat) (run : Run) (id : String), s.runs[k]? = some run → s.current ≠ some k →
    run.registration = .fulfilled id → s.shared.removals.count id = 1) ∧
  (s.current = none → ∀ id ∈ s.shared.registered, id ∈ s.shared.removals)

/-- Every promise has settled, and its async function has gone on. -/
def Settled (s : Component) : Prop := ∀ run ∈ s.runs, run.resumed = true

/-- An async function that goes on with an id finds the cleanup of its run still to come. -/
def InTime (s : Component) : Label → Prop
  | .advance k .resume =>
    ∀ run ∈ s.runs[k]?, run.registration.isFulfilled = true → s.current = some k
  | _ => True

instance (s : Component) (l : Label) : Decidable (InTime s l) :=
  match l with
  | .advance k .resume => inferInstanceAs (Decidable (∀ run ∈ s.runs[k]?, _ → s.current = some k))
  | .setup _ | .advance _ (.fulfill _) | .advance _ .reject | .cleanup => .isTrue trivial

/-! ## 1. What every run keeps -/

variable {hook : Hook} {run run' other : Run} {listeners listeners' : Listeners} {b : Bool}
  {id : String}

/-- A step of a run that removes at most its own subscription. -/
structure Releases (run : Run) (p : Run × List String) : Prop where
  registration : p.1.registration = run.registration
  resumed : p.1.resumed = run.resumed
  subscriptionId : ∀ id, p.1.subscriptionId = some id → run.subscriptionId = some id
  removed : ∀ id ∈ p.2, run.subscriptionId = some id

structure Tidy (hook : Hook) : Prop where
  afterAwait : ∀ run, Releases run (hook.afterAwait run)
  cleanup : ∀ run, Releases run (hook.cleanup run)

theorem releases_nothing (run : Run) : Releases run (run, []) :=
  ⟨rfl, rfl, fun _ h => h, fun _ h => absurd h List.not_mem_nil⟩

theorem tidy_subscribing (guard : Inputs → Bool) : Tidy (subscribing guard) where
  afterAwait := releases_nothing
  cleanup _ := ⟨rfl, rfl, fun _ h => h, fun _ h => Option.mem_toList.mp h⟩

theorem releases_takeSubscription (run : Run) : Releases run (takeSubscription run) :=
  ⟨rfl, rfl, fun _ h => (by cases h), fun _ h => Option.mem_toList.mp h⟩

theorem tidy_useSyncEvents : Tidy useSyncEvents where
  afterAwait run := by
    show Releases run (if run.cancelled then takeSubscription run else (run, []))
    split
    · exact releases_takeSubscription run
    · exact releases_nothing run
  cleanup run :=
    ⟨rfl, rfl, fun _ h => (by cases h), fun _ h => Option.mem_toList.mp h⟩

/-- Only ids of the engine are removed. -/
def RemovesKnown (_ : Bool) (listeners : Listeners) : Prop :=
  listeners.removals ⊆ listeners.registered

/-- A run subscribes with the id that the engine has given to it. -/
structure Base (_ : Bool) (run : Run) (listeners : Listeners) : Prop where
  known : ∀ id, run.registration = .fulfilled id → id ∈ listeners.registered
  own : ∀ id, run.subscriptionId = some id → run.registration = .fulfilled id

/-- No two runs have the same id. -/
def Apart (run other : Run) : Prop :=
  ∀ id, run.registration = .fulfilled id → other.registration ≠ .fulfilled id

theorem Apart.symm (h : Apart run other) : Apart other run :=
  fun id hother hrun => h id hrun hother

theorem assign_registration (run : Run) : (assign run).registration = run.registration := by
  unfold assign
  split <;> rfl

theorem assign_resumed (run : Run) : (assign run).resumed = true := by
  unfold assign
  split <;> rfl

theorem assign_cancelled (run : Run) : (assign run).cancelled = run.cancelled := by
  unfold assign
  split <;> rfl

theorem assign_subscriptionId (h : run.registration = .fulfilled id) :
    (assign run).subscriptionId = some id := by
  rw [assign, h]

theorem Base.resumes (h : Base b run listeners) : Base b (assign run) listeners where
  known id hid := h.known id (by rwa [assign_registration] at hid)
  own id hid := by
    rw [assign_registration]
    unfold assign at hid
    split at hid
    · rename_i hfulfilled
      cases hid
      exact hfulfilled
    · exact h.own id hid
    · exact h.own id hid

theorem Base.releases {p : Run × List String} (h : Base b run listeners) (hp : Releases run p)
    (b' : Bool) (removals : List String) :
    Base b' p.1 { listeners with removals := listeners.removals ++ removals } where
  known id hid := h.known id (hp.registration ▸ hid)
  own id hid := hp.registration ▸ h.own id (hp.subscriptionId id hid)

/-- What a run gives up is known. -/
theorem RemovesKnown.remove {p : Run × List String} (h : RemovesKnown true listeners)
    (hbase : Base b run listeners) (hp : Releases run p) (b' : Bool) :
    RemovesKnown b' (remove listeners p).2 := by
  intro id hid
  rcases List.mem_append.mp hid with hid | hid
  · exact h hid
  · exact hbase.known id (hbase.own id (hp.removed id hid))

/-- What `advance` does. -/
theorem advance_cases {a : Action} (h : advance hook a run listeners = some (run', listeners')) :
    (∃ id, a = .fulfill id ∧ run.registration = .pending ∧ id ∉ listeners.registered ∧
      run' = { run with registration := .fulfilled id } ∧
      listeners' = { listeners with registered := listeners.registered ++ [id] }) ∨
    (a = .reject ∧ run.registration = .pending ∧ run' = { run with registration := .rejected } ∧
      listeners' = listeners) ∨
    a = .resume ∧ run.registration ≠ .pending ∧ run.resumed = false ∧
      (run', listeners') = remove listeners (hook.afterAwait (assign run)) := by
  cases a with
  | fulfill id =>
    simp only [advance] at h
    split at h <;> cases h
    rename_i hguard
    exact .inl ⟨id, rfl, hguard.1, hguard.2, rfl, rfl⟩
  | reject =>
    simp only [advance] at h
    split at h <;> cases h
    exact .inr (.inl ⟨rfl, ‹_›, rfl, rfl⟩)
  | resume =>
    simp only [advance] at h
    split at h
    · rename_i hguard
      exact .inr (.inr ⟨rfl, hguard.1, hguard.2, (Option.some.inj h).symm⟩)
    · cases h

theorem Base.registered (h : Base b run listeners) (registered : List String) :
    Base b run { listeners with registered := listeners.registered ++ registered } where
  known id hid := List.mem_append_left _ (h.known id hid)
  own := h.own

theorem Base.fulfilled (h : Base b run listeners) (hpending : run.registration = .pending) :
    Base b { run with registration := .fulfilled id }
      { listeners with registered := listeners.registered ++ [id] } where
  known id' hid' := by
    cases hid'
    exact List.mem_append_right _ List.mem_cons_self
  own id' hid' := by
    have hown := h.own id' hid'
    rw [hpending] at hown
    cases hown

theorem Base.rejected (h : Base b run listeners) (hpending : run.registration = .pending) :
    Base b { run with registration := .rejected } listeners where
  known id' hid' := by cases hid'
  own id' hid' := by
    have hown := h.own id' hid'
    rw [hpending] at hown
    cases hown

theorem base_sound (htidy : Tidy hook) :
    Effects.Sound (effect hook) (fun _ _ _ => True) RemovesKnown Base Apart where
  symm run other h := h.symm
  setup inputs listeners listeners' new hG h := by
    cases h
    refine ⟨hG, fun other h => h, fun run hrun => ?_⟩
    change run ∈ (if hook.subscribes inputs then some ⟨.pending, false, none, false⟩ else none)
      at hrun
    split at hrun <;> cases hrun
    refine ⟨⟨fun id hid => ?_, fun id hid => ?_⟩, fun other _ id _ hid => ?_⟩ <;> cases hid
  advance a b c run run' listeners listeners' _ hG hP _ h := by
    rcases advance_cases h with ⟨id, -, hpending, hfresh, rfl, rfl⟩ | ⟨-, hpending, rfl, rfl⟩ |
      ⟨-, -, -, heq⟩
    · refine ⟨fun id' hid' => List.mem_append_left _ (hG hid'), hP.fulfilled hpending,
        fun b' other _ hother _ => ⟨hother.registered [id], fun id' hid' hid'' => ?_⟩⟩
      cases hid'
      exact hfresh (hother.known _ hid'')
    · refine ⟨hG, hP.rejected hpending, fun b' other _ hother _ => ⟨hother, ?_⟩⟩
      intro id hid
      cases hid
    · have hrel := htidy.afterAwait (assign run)
      cases heq
      refine ⟨RemovesKnown.remove hG hP.resumes hrel c, hP.resumes.releases hrel b _,
        fun b' other _ hother hapart => ⟨⟨hother.known, hother.own⟩, fun id hid => ?_⟩⟩
      refine hapart id ?_
      rw [← assign_registration, ← hrel.registration]
      exact hid
  cleanup run run' listeners listeners' hG hP _ h := by
    have hrel := htidy.cleanup run
    cases h
    refine ⟨RemovesKnown.remove hG hP hrel false, hP.releases hrel false _,
      fun other hother hapart => ⟨⟨hother.known, hother.own⟩, fun id hid => ?_⟩⟩
    exact hapart id (hrel.registration ▸ hid)

/-! ## 2. Each listener is removed once -/

/-- The listener of a run is removed when the cleanup has run and the id is known. -/
structure Kept (b : Bool) (run : Run) (listeners : Listeners) : Prop extends
    Base b run listeners where
  cancelled : run.cancelled = !b
  settled : run.resumed = true → run.registration ≠ .pending
  unresumed : run.resumed = false → run.subscriptionId = none
  holds : ∀ id, run.registration = .fulfilled id → b = true → run.resumed = true →
    run.subscriptionId = some id
  count : ∀ id, run.registration = .fulfilled id →
    listeners.removals.count id = if b = false ∧ run.resumed = true then 1 else 0

/-- What another run removes is not the listener of this one. -/
theorem Kept.frame {p : Run × List String} (h : Kept b other listeners)
    (hbase : ∀ id, run.subscriptionId = some id → run.registration = .fulfilled id)
    (hp : Releases run p) (hapart : Apart run other) : Kept b other (remove listeners p).2 where
  known := h.known
  own := h.own
  cancelled := h.cancelled
  settled := h.settled
  unresumed := h.unresumed
  holds := h.holds
  count id hid := by
    have hnot : id ∉ p.2 := fun hmem => hapart id (hbase id (hp.removed id hmem)) hid
    show (listeners.removals ++ p.2).count id = _
    rw [List.count_append, List.count_eq_zero.mpr hnot, Nat.add_zero]
    exact h.count id hid

theorem Kept.registered (h : Kept b run listeners) (registered : List String) :
    Kept b run { listeners with registered := listeners.registered ++ registered } where
  known := (h.toBase.registered registered).known
  own := h.own
  cancelled := h.cancelled
  settled := h.settled
  unresumed := h.unresumed
  holds := h.holds
  count := h.count

theorem Kept.unresumed_of_pending (h : Kept b run listeners)
    (hpending : run.registration = .pending) : run.resumed = false :=
  Bool.eq_false_iff.mpr fun hresumed => h.settled hresumed hpending

theorem Kept.fulfilled (h : Kept b run listeners) (hG : RemovesKnown b listeners)
    (hpending : run.registration = .pending) (hfresh : id ∉ listeners.registered) :
    Kept b { run with registration := .fulfilled id }
      { listeners with registered := listeners.registered ++ [id] } where
  known := (h.toBase.fulfilled hpending).known
  own := (h.toBase.fulfilled hpending).own
  cancelled := h.cancelled
  settled _ heq := by cases heq
  unresumed := h.unresumed
  holds id' _ _ hresumed := by
    rw [h.unresumed_of_pending hpending] at hresumed
    cases hresumed
  count id' hid' := by
    have hunresumed := h.unresumed_of_pending hpending
    cases hid'
    rw [if_neg (by simp [hunresumed])]
    exact List.count_eq_zero.mpr fun hmem => hfresh (hG hmem)

theorem Kept.rejected (h : Kept b run listeners) (hpending : run.registration = .pending) :
    Kept b { run with registration := .rejected } listeners where
  known := (h.toBase.rejected hpending).known
  own := (h.toBase.rejected hpending).own
  cancelled := h.cancelled
  settled _ heq := by cases heq
  unresumed := h.unresumed
  holds id hid := by cases hid
  count id hid := by cases hid

/-- `hresume` and `hcleanup` are what a hook has to show. -/
theorem kept_sound {C : Bool → Option Action → Run → Prop} (htidy : Tidy hook)
    (hresume : ∀ b run listeners, Kept b run listeners → C b (some .resume) run →
      run.registration ≠ .pending → run.resumed = false →
      Kept b (hook.afterAwait (assign run)).1
        (remove listeners (hook.afterAwait (assign run))).2)
    (hcleanup : ∀ run listeners, Kept true run listeners →
      Kept false (hook.cleanup run).1 (remove listeners (hook.cleanup run)).2) :
    Effects.Sound (effect hook) C RemovesKnown Kept Apart where
  symm run other h := h.symm
  setup inputs listeners listeners' new hG h := by
    obtain ⟨hG', -, hnew⟩ := (base_sound htidy).setup inputs listeners listeners' new hG h
    cases h
    refine ⟨hG', fun other h => h, fun run hrun => ?_⟩
    obtain ⟨hbase, hapart⟩ := hnew run hrun
    change run ∈ (if hook.subscribes inputs then some ⟨.pending, false, none, false⟩ else none)
      at hrun
    split at hrun <;> cases hrun
    refine ⟨⟨hbase, rfl, fun hid => ?_, fun _ => rfl, fun id hid => ?_, fun id hid => ?_⟩,
      fun other hother => hapart other hother.toBase⟩ <;> cases hid
  advance a b c run run' listeners listeners' hc hG hP hC h := by
    obtain ⟨hG', hbase, hother⟩ :=
      (base_sound htidy).advance a b c run run' listeners listeners' hc hG hP.toBase trivial h
    rcases advance_cases h with ⟨id, rfl, hpending, hfresh, rfl, rfl⟩ | ⟨rfl, hpending, rfl, rfl⟩ |
      ⟨rfl, hsettled, hunresumed, heq⟩
    · refine ⟨hG', hP.fulfilled hG hpending hfresh, fun b' other hb h hapart => ?_⟩
      exact ⟨h.registered [id], (hother b' other hb h.toBase hapart).2⟩
    · refine ⟨hG', hP.rejected hpending, fun b' other hb h hapart => ?_⟩
      exact ⟨h, (hother b' other hb h.toBase hapart).2⟩
    · have hrel := htidy.afterAwait (assign run)
      cases heq
      refine ⟨hG', hresume b run listeners hP hC hsettled hunresumed,
        fun b' other hb h hapart => ⟨?_, (hother b' other hb h.toBase hapart).2⟩⟩
      refine h.frame hP.toBase.resumes.own hrel fun id hid => ?_
      rw [assign_registration] at hid
      exact hapart id hid
  cleanup run run' listeners listeners' hG hP hC h := by
    obtain ⟨hG', -, hother⟩ :=
      (base_sound htidy).cleanup run run' listeners listeners' hG hP.toBase trivial h
    cases h
    refine ⟨hG', hcleanup run listeners hP, fun other h hapart => ?_⟩
    exact ⟨h.frame hP.own (htidy.cleanup run) hapart, (hother other h.toBase hapart).2⟩

/-- The run goes on from its `await`, and nothing stands behind it. -/
theorem Kept.resumes (h : Kept b run listeners) (hsettled : run.registration ≠ .pending)
    (hunresumed : run.resumed = false)
    (hcurrent : ∀ id, run.registration = .fulfilled id → b = true) :
    Kept b (assign run) listeners := by
  have hold := h.unresumed hunresumed
  unfold assign
  split
  · rename_i id hid
    obtain rfl := hcurrent id hid
    refine ⟨⟨h.known, fun id' hid' => ?_⟩, h.cancelled, fun _ => hsettled, fun hfalse => ?_,
      fun id' hid' _ _ => ?_, fun id' hid' => ?_⟩
    · cases hid'
      exact hid
    · cases hfalse
    · exact congrArg some (Registration.fulfilled.inj (hid.symm.trans hid'))
    · rw [h.count id' hid', if_neg (by simp), if_neg (by simp)]
  · rename_i hpending
    exact absurd hpending hsettled
  · rename_i hrejected
    have hnone (id : String) : run.registration ≠ .fulfilled id := by
      rw [hrejected]
      exact fun heq => by cases heq
    refine ⟨⟨h.known, h.own⟩, h.cancelled, fun _ => hsettled, fun hfalse => ?_,
      fun id hid => absurd hid (hnone id), fun id hid => absurd hid (hnone id)⟩
    cases hfalse

/-- Of the three hooks, an `await` that ends with an id, behind the cleanup, is lost. -/
def Current (b : Bool) (o : Option Action) (run : Run) : Prop :=
  o = some .resume → ∀ id, run.registration = .fulfilled id → b = true

theorem Kept.removesNothing (h : Kept b run listeners) :
    Kept b run (remove listeners (run, [])).2 := by
  show Kept b run { listeners with removals := listeners.removals ++ [] }
  rw [List.append_nil]
  exact h

/-- The cleanup removes the listener whose id is known. -/
theorem Kept.count_cleanup (h : Kept true run listeners) (hid : run.registration = .fulfilled id) :
    (listeners.removals ++ run.subscriptionId.toList).count id =
      if false = false ∧ run.resumed = true then 1 else 0 := by
  have hcount := h.count id hid
  rw [if_neg (by simp)] at hcount
  rw [List.count_append, hcount, Nat.zero_add, if_congr (and_iff_right rfl) rfl rfl]
  split
  · rename_i hresumed
    rw [h.holds id hid rfl hresumed]
    simp
  · rename_i hunresumed
    rw [h.unresumed (Bool.eq_false_iff.mpr hunresumed)]
    rfl

theorem sound_subscribing (guard : Inputs → Bool) :
    Effects.Sound (effect (subscribing guard)) Current RemovesKnown Kept Apart := by
  refine kept_sound (tidy_subscribing guard) ?_ ?_
  · intro b run listeners h hC hsettled hunresumed
    have hkept := h.resumes hsettled hunresumed (hC rfl)
    exact hkept.removesNothing
  · intro run listeners h
    refine ⟨⟨h.known, h.own⟩, rfl, h.settled, h.unresumed, fun id _ hfalse => ?_,
      fun id hid => ?_⟩
    · cases hfalse
    · exact h.count_cleanup hid

/-- Behind the cleanup the id is removed as soon as it is known. -/
theorem Kept.takes (h : Kept false run listeners) (hsettled : run.registration ≠ .pending)
    (hunresumed : run.resumed = false) :
    Kept false (takeSubscription (assign run)).1
      (remove listeners (takeSubscription (assign run))).2 where
  known id hid := h.toBase.resumes.known id hid
  own id hid := by cases hid
  cancelled := (assign_cancelled run).trans h.cancelled
  settled _ := by
    show (assign run).registration ≠ .pending
    rwa [assign_registration]
  unresumed _ := rfl
  holds id _ hfalse := by cases hfalse
  count id hid := by
    have hfulfilled : run.registration = .fulfilled id := assign_registration run ▸ hid
    have hcount := h.count id hfulfilled
    rw [if_neg (by simp [hunresumed])] at hcount
    show (listeners.removals ++ (assign run).subscriptionId.toList).count id = _
    rw [List.count_append, hcount, assign_subscriptionId hfulfilled,
      if_pos ⟨rfl, assign_resumed run⟩]
    simp

theorem sound_useSyncEvents :
    Effects.Sound (effect useSyncEvents) (fun _ _ _ => True) RemovesKnown Kept Apart := by
  refine kept_sound tidy_useSyncEvents ?_ ?_
  · intro b run listeners h _ hsettled hunresumed
    cases b with
    | true =>
      have hkept := h.resumes hsettled hunresumed fun _ _ => rfl
      have hnot : (assign run).cancelled = false := hkept.cancelled
      show Kept true (if (assign run).cancelled then takeSubscription (assign run)
        else (assign run, [])).1 (remove listeners (if (assign run).cancelled then
          takeSubscription (assign run) else (assign run, []))).2
      rw [hnot]
      exact hkept.removesNothing
    | false =>
      have hcancelled : (assign run).cancelled = true := by
        rw [assign_cancelled]
        exact h.cancelled
      show Kept false (if (assign run).cancelled then takeSubscription (assign run)
        else (assign run, [])).1 (remove listeners (if (assign run).cancelled then
          takeSubscription (assign run) else (assign run, []))).2
      rw [hcancelled]
      exact h.takes hsettled hunresumed
  · intro run listeners h
    refine ⟨⟨h.known, fun id hid => ?_⟩, rfl, h.settled, fun _ => rfl, fun id _ hfalse => ?_,
      fun id hid => ?_⟩
    · cases hid
    · cases hfalse
    · exact h.count_cleanup hid

/-- The id is known, and its listener has not been removed. -/
def Leaked (run : Run) (listeners : Listeners) : Prop :=
  run.resumed = true ∧ ∃ id, run.registration = .fulfilled id ∧ id ∉ listeners.removals

theorem Leaked.frame {p : Run × List String} (h : Leaked other listeners)
    (hbase : ∀ id, run.subscriptionId = some id → run.registration = .fulfilled id)
    (hp : Releases run p) (hapart : Apart run other) : Leaked other (remove listeners p).2 := by
  obtain ⟨hresumed, id, hid, hnot⟩ := h
  refine ⟨hresumed, id, hid, fun hmem => ?_⟩
  rcases List.mem_append.mp hmem with hmem | hmem
  · exact hnot hmem
  · exact hapart id (hbase id (hp.removed id hmem)) hid

theorem losing_subscribing (guard : Inputs → Bool) :
    Effects.Losing (effect (subscribing guard)) Current RemovesKnown Base Kept Apart Leaked where
  advance a b run run' listeners listeners' hP hC h := by
    obtain ⟨rfl, id, hid, hb⟩ :
        a = .resume ∧ ∃ id, run.registration = .fulfilled id ∧ b ≠ true := by
      by_contra hnot
      refine hC fun ha id hid => ?_
      by_contra hb
      exact hnot ⟨Option.some.inj ha, id, hid, hb⟩
    refine ⟨Bool.eq_false_iff.mpr hb, ?_⟩
    change advance (subscribing guard) .resume run listeners = some (run', listeners') at h
    rcases advance_cases h with ⟨id', ha, -⟩ | ⟨ha, -⟩ | ⟨-, -, hunresumed, heq⟩
    · cases ha
    · cases ha
    · have hcount := hP.count id hid
      rw [if_neg (by simp [hunresumed])] at hcount
      cases heq
      refine ⟨assign_resumed run, id, (assign_registration run).trans hid, ?_⟩
      show id ∉ listeners.removals ++ []
      rw [List.append_nil]
      exact List.count_eq_zero.mp hcount
  cleanup run run' listeners listeners' _ hC h := absurd (fun heq => by cases heq) hC
  setup inputs listeners listeners' new lost h hL := by
    cases h
    exact hL
  own a c run run' listeners listeners' _ _ hL h := by
    obtain ⟨hresumed, id, hid, hnot⟩ := hL
    rcases advance_cases h with ⟨id', -, hpending, -⟩ | ⟨-, hpending, -⟩ | ⟨-, -, hunresumed, -⟩
    · rw [hpending] at hid
      cases hid
    · rw [hpending] at hid
      cases hid
    · rw [hunresumed] at hresumed
      cases hresumed
  other a b run run' listeners listeners' lost hP _ hapart hL h := by
    rcases advance_cases h with ⟨id', -, -, -, -, rfl⟩ | ⟨-, -, -, rfl⟩ | ⟨-, -, -, heq⟩
    · exact hL
    · exact hL
    · cases heq
      refine hL.frame hP.resumes.own (releases_nothing _) fun id hid => ?_
      rw [assign_registration] at hid
      exact hapart id hid
  cleanupOther run run' listeners listeners' lost hP _ hapart hL h := by
    cases h
    exact hL.frame hP.own ((tidy_subscribing guard).cleanup run) hapart

theorem grants_listeners (htidy : Tidy hook) :
    Effects.Grants (effect hook) Base (fun run id => run.registration = .fulfilled id)
      (fun listeners id => id ∈ listeners.registered) where
  setup inputs listeners listeners' new id h hid := by
    obtain ⟨rfl, -⟩ := Prod.ext_iff.mp h
    exact hid
  advance a b run run' listeners listeners' id _ h := by
    rcases advance_cases h with ⟨id', -, hpending, -, rfl, rfl⟩ | ⟨-, hpending, rfl, rfl⟩ |
      ⟨-, -, -, heq⟩
    · refine ⟨fun hid => ?_, fun hid => ?_⟩
      · rw [hpending] at hid
        cases hid
      · refine (List.mem_append.mp hid).imp (fun hmem => hmem) fun hmem => ?_
        rw [List.mem_singleton.mp hmem]
    · refine ⟨fun hid => ?_, fun hid => .inl hid⟩
      rw [hpending] at hid
      cases hid
    · cases heq
      refine ⟨fun hid => ?_, fun hid => .inl hid⟩
      rw [(htidy.afterAwait _).registration, assign_registration]
      exact hid
  cleanup run run' listeners listeners' id _ h := by
    cases h
    refine ⟨fun hid => ?_, fun hid => .inl hid⟩
    rw [(htidy.cleanup run).registration]
    exact hid

/-- Every listener is one of a run of the hook. -/
def Owned (s : Component) : Prop :=
  Effects.Owned (fun run id => run.registration = .fulfilled id)
    (fun listeners id => id ∈ listeners.registered) s

theorem owned_of_exec {s : Component} {ls : List Label} (htidy : Tidy hook)
    (h : StepSystem.exec (step hook) initial ls = some s) : Owned s := by
  have hknown : RemovesKnown false ⟨[], []⟩ := List.Subset.refl []
  exact (Effects.owned_of_exec (base_sound htidy) (grants_listeners htidy) hknown
    (fun _ => List.not_mem_nil) h).2

theorem returned_of_inv {s : Component} (h : Effects.Inv RemovesKnown Kept Apart s)
    (howned : Owned s) (hsettled : Settled s) : Returned s := by
  have hcount (k : Nat) (run : Run) (id : String) (hrun : s.runs[k]? = some run)
      (hk : s.current ≠ some k) (hid : run.registration = .fulfilled id) :
      s.shared.removals.count id = 1 := by
    have hkept := h.each k run hrun
    rw [beq_eq_false_iff_ne.mpr hk] at hkept
    rw [hkept.count id hid, if_pos ⟨rfl, hsettled run (List.mem_of_getElem? hrun)⟩]
  refine ⟨hcount, fun hnone id hmem => ?_⟩
  obtain ⟨k, run, hrun, hid⟩ := howned id hmem
  refine List.count_pos_iff.mp ?_
  rw [hcount k run id hrun (by simp [hnone]) hid]
  exact Nat.one_pos

theorem exists_of_isFulfilled {registration : Registration}
    (h : registration.isFulfilled = true) : ∃ id, registration = .fulfilled id := by
  cases registration with
  | fulfilled id => exact ⟨id, rfl⟩
  | pending | rejected => cases h

theorem allowed_iff_inTime (s : Component) (l : Label) :
    Effects.Allowed Current s l ↔ InTime s l := by
  cases l with
  | setup => exact Iff.rfl
  | cleanup => exact ⟨fun _ => trivial, fun _ k run _ _ heq => by cases heq⟩
  | advance k a =>
    cases a with
    | fulfill id => exact ⟨fun _ => trivial, fun _ run _ heq => by cases heq⟩
    | reject => exact ⟨fun _ => trivial, fun _ run _ heq => by cases heq⟩
    | resume =>
      constructor
      · intro h run hrun hfulfilled
        obtain ⟨id, hid⟩ := exists_of_isFulfilled hfulfilled
        exact beq_iff_eq.mp (h run hrun rfl id hid)
      · intro h run hrun _ id hid
        exact beq_iff_eq.mpr (h run hrun (by rw [hid]; rfl))

theorem returned_subscribing_iff {guard : Inputs → Bool} {ls : List Label} {s : Component}
    (hrun : StepSystem.exec (step (subscribing guard)) initial ls = some s)
    (hsettled : Settled s) :
    Returned s ↔ StepSystem.Meets (step (subscribing guard)) InTime initial ls := by
  have hmeets : StepSystem.Meets (step (subscribing guard)) (Effects.Allowed Current) initial ls ↔
      StepSystem.Meets (step (subscribing guard)) InTime initial ls :=
    ⟨.mono fun s l => (allowed_iff_inTime s l).mp, .mono fun s l => (allowed_iff_inTime s l).mpr⟩
  rw [← hmeets]
  have hknown : RemovesKnown false ⟨[], []⟩ := List.Subset.refl []
  refine Effects.last_iff_allowed (base_sound (tidy_subscribing guard)) (sound_subscribing guard)
    (losing_subscribing guard) hknown hknown hrun
    (fun h => returned_of_inv h (owned_of_exec (tidy_subscribing guard) hrun) hsettled) ?_
  rintro - ⟨k, run, hk, hcurrent, -, id, hid, hnot⟩ hreturned
  have hone := hreturned.1 k run id hk hcurrent hid
  rw [List.count_eq_zero.mpr hnot] at hone
  cases hone

/-- `useSyncQueue`, `useAutoSync` and `useSyncSnapshot` give back their listeners in the runs
in which no id comes behind the cleanup, and `useSyncEvents` gives them back in every run. -/
theorem listeners_removed_iff (ls : List Label) :
    (∀ hook ∈ [useSyncQueue, useAutoSync, useSyncSnapshot], ∀ s,
      StepSystem.exec (step hook) initial ls = some s → Settled s →
        (Returned s ↔ StepSystem.Meets (step hook) InTime initial ls)) ∧
      ∀ s, StepSystem.exec (step useSyncEvents) initial ls = some s → Settled s → Returned s := by
  constructor
  · intro hook hhook s hrun hsettled
    simp only [List.mem_cons, List.not_mem_nil, or_false] at hhook
    rcases hhook with rfl | rfl | rfl <;> exact returned_subscribing_iff hrun hsettled
  · intro s hrun hsettled
    have hknown : RemovesKnown false ⟨[], []⟩ := List.Subset.refl []
    have hinv : Effects.Inv RemovesKnown Kept Apart s := by
      refine StepSystem.exec_invariant (fun h hs => ?_) (Effects.inv_initial hknown) hrun
      exact h.step sound_useSyncEvents (Effects.allowed_true _ _) hs
    exact returned_of_inv hinv (owned_of_exec tidy_useSyncEvents hrun) hsettled

/-- A first run is cleaned up with its id, a second one is refused. `useSyncEvents` may be
cleaned up before. -/
theorem listeners_removed_of_two :
    Returned ⟨[⟨.fulfilled "a", true, some "a", true⟩, ⟨.rejected, true, none, true⟩], none,
      ⟨["a"], ["a"]⟩⟩ ∧
    Returned ⟨[⟨.fulfilled "a", true, none, true⟩], none, ⟨["a"], ["a"]⟩⟩ := by
  have hrun : StepSystem.exec (step useSyncQueue) initial
      [.setup ⟨none, true⟩, .advance 0 (.fulfill "a"), .advance 0 .resume, .cleanup,
        .setup ⟨none, true⟩, .advance 1 .reject, .cleanup, .advance 1 .resume] =
        some ⟨[⟨.fulfilled "a", true, some "a", true⟩, ⟨.rejected, true, none, true⟩], none,
          ⟨["a"], ["a"]⟩⟩ := by decide
  have hrun' : StepSystem.exec (step useSyncEvents) initial
      [.setup ⟨none, true⟩, .cleanup, .advance 0 (.fulfill "a"), .advance 0 .resume] =
        some ⟨[⟨.fulfilled "a", true, none, true⟩], none, ⟨["a"], ["a"]⟩⟩ := by decide
  constructor
  · refine (((listeners_removed_iff _).1 useSyncQueue List.mem_cons_self _ hrun ?_).mpr ?_)
    · unfold Settled
      decide
    · decide
  · refine (listeners_removed_iff _).2 _ hrun' ?_
    unfold Settled
    decide

/-- The cleanup finds no id yet, and the listener that comes then stays. -/
def LeaksBehindCleanup (hook : Hook) : Prop :=
  ∃ s, StepSystem.exec (step hook) initial
    [.setup ⟨some true, true⟩, .cleanup, .advance 0 (.fulfill "a"), .advance 0 .resume] = some s ∧
      Settled s ∧ s.current = none ∧ s.shared = ⟨["a"], []⟩ ∧ ¬ Returned s

theorem leaksBehindCleanup {hook : Hook}
    (h : StepSystem.exec (step hook) initial
      [.setup ⟨some true, true⟩, .cleanup, .advance 0 (.fulfill "a"), .advance 0 .resume] =
        some ⟨[⟨.fulfilled "a", true, some "a", true⟩], none, ⟨["a"], []⟩⟩) :
    LeaksBehindCleanup hook := by
  refine ⟨_, h, ?_, rfl, rfl, fun hreturned => ?_⟩
  · unfold Settled
    decide
  · exact absurd (hreturned.2 rfl "a" List.mem_cons_self) List.not_mem_nil

theorem cleanup_before_id_leaks : LeaksBehindCleanup useSyncQueue ∧
    LeaksBehindCleanup useAutoSync ∧ LeaksBehindCleanup useSyncSnapshot :=
  ⟨leaksBehindCleanup (by decide), leaksBehindCleanup (by decide), leaksBehindCleanup (by decide)⟩

end SyncProvider.Js.Hooks
