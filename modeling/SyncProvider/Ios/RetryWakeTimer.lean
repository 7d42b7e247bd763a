import SyncProvider.Lib.Blocks
import SyncProvider.Lib.StepSystem
import Mathlib.Algebra.Group.Nat.Defs
import Mathlib.Data.BitVec

/-!
# iOS: `RetryWakeTimer`

`arm` and `cancel` replace the pending work item under the lock, and cancel it. A work
item whose block has begun cannot be cancelled any more, so it asks under the lock
whether the generation is still its own. `arm` schedules its item behind the lock, and
the queue may run it as late as it likes.

The generation has 64 bits and wraps around.

Results:
1. `Inv.step` : what holds after every step.
2. `fires_latest_arm` : which arms fire, and when the timer is armed.
3. `wrapped_generation_fires` : a cancelled arm that fires.
-/

namespace SyncProvider.Ios

/-! ## The model -/

/-- Where a work item stands. -/
inductive WorkPhase where
  /-- `arm` has left the lock, `schedule` is next. -/
  | created
  | scheduled (due : Int)
  /-- Its block has begun, `disarm` is next. -/
  | begun
  /-- It has disarmed the timer, and `fire` is next. -/
  | disarmed
  | fired
  /-- It began cancelled, or was not the current one. -/
  | dropped
  deriving DecidableEq

namespace WorkPhase

/-- It has not asked under the lock. -/
def isAhead : WorkPhase → Bool
  | .created | .scheduled _ | .begun => true
  | _ => false

/-- It does nothing any more. -/
def isOver : WorkPhase → Bool
  | .fired | .dropped => true
  | _ => false

/-- The queue may take it. -/
def isDue (now : Int) : WorkPhase → Bool
  | .scheduled due => due ≤ now
  | _ => true

end WorkPhase

structure WorkItem where
  token : BitVec 64
  boundedMs : Int
  isCancelled : Bool
  phase : WorkPhase
  deriving DecidableEq

/-- The timer, with the items it has made and the wall clock. -/
structure RetryWakeTimer where
  now : Int
  generation : BitVec 64
  pending : Option Nat
  items : List WorkItem
  deriving DecidableEq

namespace RetryWakeTimer

def initial (now : Int) : RetryWakeTimer where
  now := now
  generation := 0
  pending := none
  items := []

inductive Label where
  /-- The clock is set. -/
  | clock (now : Int)
  /-- `arm`, up to the end of its lock. -/
  | arm (delayMs : Int)
  | schedule (k : Nat)
  /-- The queue takes the item. -/
  | perform (k : Nat)
  | disarm (k : Nat)
  | fire (k : Nat)
  | cancel
  deriving DecidableEq

def isArmed (s : RetryWakeTimer) : Bool := s.pending.isSome

/-- `Int32.max`. -/
def longestMs : Int := 2147483647

/-- `pending?.cancel()`. -/
def cancelPending (s : RetryWakeTimer) : RetryWakeTimer :=
  match s.pending with
  | none => s
  | some k =>
    { s with items := s.items.modify k fun item => { item with isCancelled := true } }

def moveTo (s : RetryWakeTimer) (k : Nat) (phase : WorkPhase) : RetryWakeTimer :=
  { s with items := s.items.modify k fun item => { item with phase := phase } }

def step (s : RetryWakeTimer) : Label → Option RetryWakeTimer
  | .clock now => some { s with now := now }
  | .arm delayMs =>
    let token := s.generation + 1
    let item : WorkItem := ⟨token, max 0 (min delayMs longestMs), false, .created⟩
    some { s.cancelPending with
      generation := token
      pending := some s.items.length
      items := s.cancelPending.items ++ [item] }
  | .schedule k =>
    s.items[k]?.bind fun item =>
      if item.phase = .created then some (s.moveTo k (.scheduled (s.now + item.boundedMs)))
      else none
  | .perform k =>
    s.items[k]?.bind fun item =>
      match item.phase with
      | .scheduled due =>
        if due ≤ s.now then some (s.moveTo k (if item.isCancelled then .dropped else .begun))
        else none
      | _ => none
  | .disarm k =>
    s.items[k]?.bind fun item =>
      if item.phase = .begun then
        if item.token = s.generation then some { s.moveTo k .disarmed with pending := none }
        else some (s.moveTo k .dropped)
      else none
  | .fire k =>
    s.items[k]?.bind fun item =>
      if item.phase = .disarmed then some (s.moveTo k .fired) else none
  | .cancel => some { s.cancelPending with pending := none, generation := s.generation + 1 }

/-! ## What happens -/

inductive Event where
  | armed (k : Nat)
  | cancelled
  /-- The item has passed the check. -/
  | disarmed (k : Nat)
  | fired (k : Nat)
  deriving DecidableEq

def observed (s : RetryWakeTimer) : Label → List Event
  | .arm _ => [.armed s.items.length]
  | .cancel => [.cancelled]
  | .disarm k =>
    match s.items[k]? with
    | some item => if item.token = s.generation then [.disarmed k] else []
    | none => []
  | .fire k => [.fired k]
  | .clock _ | .schedule _ | .perform _ => []

def Event.bumps : Event → Bool
  | .armed _ | .cancelled => true
  | _ => false

/-- How often `arm` and `cancel` have taken the lock. -/
def bumps (log : List Event) : Nat := log.countP Event.bumps

/-- No item asks under the lock when `arm` and `cancel` have taken it 2^64 times since. -/
def InTime (p : RetryWakeTimer × List Event) : Label → Prop
  | .disarm k => ∀ a b, p.2 = a ++ .armed k :: b → bumps b < 2 ^ 64
  | _ => True

/-! ## 1. What holds after every step -/

/-- What has happened since an item was armed fits where it stands. -/
structure Stands (k : Nat) (item : WorkItem) (since : List Event) : Prop where
  ahead : item.phase.isAhead = true → .disarmed k ∉ since
  passed : item.phase = .disarmed ∨ item.phase = .fired →
    ∃ c d, since = c ++ .disarmed k :: d ∧ bumps c = 0
  fired : since.count (.fired k) = if item.phase = .fired then 1 else 0
  dropped : item.phase = .dropped → 0 < bumps since
  cancelled : item.isCancelled = true → 0 < bumps since

/-- The item was armed, and where it stands. -/
def Kept (log : List Event) (k : Nat) (item : WorkItem) : Prop :=
  ∃ a b, Blocks.Last (.armed k) log a b ∧ item.token = BitVec.ofNat 64 (bumps a + 1) ∧
    .fired k ∉ a ∧ Stands k item b

structure Inv (log : List Event) (s : RetryWakeTimer) : Prop where
  generation : s.generation = BitVec.ofNat 64 (bumps log)
  kept : ∀ k item, s.items[k]? = some item → Kept log k item
  fresh : ∀ k, .armed k ∈ log ∨ .fired k ∈ log → k < s.items.length
  armed : ∀ k, s.pending = some k → ∃ item, s.items[k]? = some item ∧
    item.phase.isAhead = true ∧ ∃ a b, log = a ++ .armed k :: b ∧ bumps b = 0
  idle : s.pending = none → ∀ k a b, log = a ++ .armed k :: b → bumps b = 0 → .disarmed k ∈ b

variable {s s' : RetryWakeTimer} {log events : List Event} {k : Nat} {item : WorkItem}

theorem bumps_append (log events : List Event) :
    bumps (log ++ events) = bumps log + bumps events := List.countP_append

theorem bumps_cons_armed (k : Nat) (b : List Event) : bumps (.armed k :: b) = bumps b + 1 :=
  List.countP_cons_of_pos rfl

/-- While nothing has taken the lock since, an item was armed once. -/
theorem last_of_bumps {a b : List Event} (h : log = a ++ .armed k :: b) (hb : bumps b = 0) :
    Blocks.Last (.armed k) log a b := by
  refine ⟨h, fun hmem => ?_⟩
  have hbumps := List.countP_eq_zero.mp hb _ hmem
  exact hbumps rfl

/-- Only one arm is the latest. -/
theorem latest_unique {a a' b b' : List Event} {k' : Nat}
    (heq : a ++ .armed k :: b = a' ++ .armed k' :: b') (hb : bumps b = 0) (hb' : bumps b' = 0) :
    k = k' := by
  have hnot {t c : List Event} {j : Nat} : bumps (t ++ .armed j :: c) ≠ 0 := by
    rw [bumps_append, bumps_cons_armed]
    exact Nat.succ_ne_zero _
  rcases List.append_eq_append_iff.mp heq with ⟨t, -, ht⟩ | ⟨t, -, ht⟩
  · cases t with
    | nil => exact Event.armed.inj (List.cons.inj ht).1
    | cons x t =>
      rw [(List.cons.inj ht).2] at hb
      exact absurd hb hnot
  · cases t with
    | nil => exact (Event.armed.inj (List.cons.inj ht).1).symm
    | cons x t =>
      rw [(List.cons.inj ht).2] at hb'
      exact absurd hb' hnot

theorem getElem?_moveTo (s : RetryWakeTimer) (k : Nat) (phase : WorkPhase) (j : Nat) :
    (s.moveTo k phase).items[j]? =
      s.items[j]?.map fun item => if k = j then { item with phase := phase } else item := by
  rw [moveTo, List.getElem?_modify]
  rfl

theorem length_moveTo (s : RetryWakeTimer) (k : Nat) (phase : WorkPhase) :
    (s.moveTo k phase).items.length = s.items.length := List.length_modify _ _ _

theorem length_cancelPending (s : RetryWakeTimer) :
    s.cancelPending.items.length = s.items.length := by
  unfold cancelPending
  split
  · rfl
  · exact List.length_modify _ _ _

/-- `pending?.cancel()` leaves every item as it was, or cancelled. -/
theorem getElem?_cancelPending {item' : WorkItem}
    (h : s.cancelPending.items[k]? = some item') :
    ∃ item c, s.items[k]? = some item ∧ item' = { item with isCancelled := c } := by
  unfold cancelPending at h
  split at h
  · exact ⟨item', item'.isCancelled, h, rfl⟩
  · rw [List.getElem?_modify] at h
    obtain ⟨item, hitem, rfl⟩ := Option.map_eq_some_iff.mp h
    refine ⟨item, ?_⟩
    split
    · exact ⟨true, hitem, rfl⟩
    · exact ⟨item.isCancelled, hitem, rfl⟩

theorem Stands.append {b : List Event} (h : Stands k item b) (hdisarmed : .disarmed k ∉ events)
    (hfired : .fired k ∉ events) : Stands k item (b ++ events) where
  ahead hahead hmem := by
    rcases List.mem_append.mp hmem with hmem | hmem
    · exact h.ahead hahead hmem
    · exact hdisarmed hmem
  passed hpassed := by
    obtain ⟨c, d, rfl, hc⟩ := h.passed hpassed
    exact ⟨c, d ++ events, by simp, hc⟩
  fired := by rw [List.count_append, h.fired, List.count_eq_zero.mpr hfired, Nat.add_zero]
  dropped hphase := by
    rw [bumps_append]
    exact Nat.add_pos_left (h.dropped hphase) _
  cancelled hcancelled := by
    rw [bumps_append]
    exact Nat.add_pos_left (h.cancelled hcancelled) _

theorem Kept.append (h : Kept log k item) (harmed : .armed k ∉ events)
    (hdisarmed : .disarmed k ∉ events) (hfired : .fired k ∉ events) :
    Kept (log ++ events) k item := by
  obtain ⟨a, b, hlast, htoken, ha, hstands⟩ := h
  exact ⟨a, b ++ events, hlast.append harmed, htoken, ha, hstands.append hdisarmed hfired⟩

/-- An item that another one replaces may be cancelled. -/
theorem Kept.replaced {event : Event} (h : Kept log k item) (hbumps : event.bumps = true)
    (harmed : event ≠ .armed k) (c : Bool) :
    Kept (log ++ [event]) k { item with isCancelled := c } := by
  have hne {event' : Event} (h' : event'.bumps = false) : event' ∉ [event] := by
    rw [List.mem_singleton]
    rintro rfl
    rw [hbumps] at h'
    cases h'
  obtain ⟨a, b, hlast, htoken, ha, hstands⟩ :=
    h.append (by simpa using harmed.symm) (hne rfl) (hne rfl)
  refine ⟨a, b, hlast, htoken, ha, hstands.ahead, hstands.passed, hstands.fired,
    hstands.dropped, fun _ => ?_⟩
  obtain ⟨b', rfl, -⟩ := Blocks.last_snoc_of_ne hlast harmed
  rw [bumps_append]
  exact Nat.add_pos_right _ (by simp [bumps, hbumps])

/-- The item goes on, without having asked under the lock. -/
theorem Kept.moves {phase : WorkPhase} (h : Kept log k item) (hahead : item.phase.isAhead = true)
    (hphase : phase.isAhead = true) : Kept log k { item with phase := phase } := by
  obtain ⟨a, b, hlast, htoken, ha, hstands⟩ := h
  have hne (phase' : WorkPhase) (h' : phase'.isAhead = false) :
      item.phase ≠ phase' ∧ phase ≠ phase' := by
    constructor
    · rintro rfl
      rw [hahead] at h'
      cases h'
    · rintro rfl
      rw [hphase] at h'
      cases h'
  have hfired := hne .fired rfl
  have hdisarmed := hne .disarmed rfl
  have hdropped := hne .dropped rfl
  refine ⟨a, b, hlast, htoken, ha, fun _ => hstands.ahead hahead, ?_, ?_, ?_, hstands.cancelled⟩
  · intro hpassed
    exact absurd hpassed (not_or.mpr ⟨hdisarmed.2, hfired.2⟩)
  · have hcount := hstands.fired
    rw [if_neg hfired.1] at hcount
    rw [hcount, if_neg hfired.2]
  · exact fun h => absurd h hdropped.2

/-- The item is dropped, since another call has taken the lock. -/
theorem Kept.drops (h : Kept log k item) (hahead : item.phase.isAhead = true)
    (hbumps : ∀ a b, Blocks.Last (.armed k) log a b → 0 < bumps b) :
    Kept log k { item with phase := .dropped } := by
  obtain ⟨a, b, hlast, htoken, ha, hstands⟩ := h
  have hfired : item.phase ≠ .fired := by
    intro hphase
    rw [hphase] at hahead
    cases hahead
  refine ⟨a, b, hlast, htoken, ha, ?_, by simp, ?_, fun _ => hbumps a b hlast,
    hstands.cancelled⟩
  · intro h
    cases h
  · have hcount := hstands.fired
    rw [if_neg hfired] at hcount
    rw [hcount]
    rfl

/-- The pending item is the latest. -/
theorem Inv.bumps_of_pending (h : Inv log s) (hpending : s.pending = some k) {a b : List Event}
    (hlast : Blocks.Last (.armed k) log a b) : bumps b = 0 := by
  obtain ⟨-, -, -, a', b', hlog, hb'⟩ := h.armed k hpending
  obtain ⟨-, rfl⟩ := Blocks.last_unique hlast (last_of_bumps hlog hb')
  exact hb'

theorem Inv.moveTo {phase : WorkPhase} (h : Inv log s) (hitem : s.items[k]? = some item)
    (hkept : Kept (log ++ events) k { item with phase := phase })
    (hpending : s.pending = some k → phase.isAhead = true)
    (hevents : ∀ event ∈ events, event = .fired k) : Inv (log ++ events) (s.moveTo k phase) where
  generation := by
    have hnone : bumps events = 0 := by
      refine List.countP_eq_zero.mpr fun event hmem => ?_
      rw [hevents event hmem]
      exact Bool.false_ne_true
    rw [bumps_append, hnone, Nat.add_zero]
    exact h.generation
  kept j item' hitem' := by
    rw [getElem?_moveTo] at hitem'
    obtain ⟨item₀, hitem₀, rfl⟩ := Option.map_eq_some_iff.mp hitem'
    split
    · rename_i hj
      subst hj
      obtain rfl := Option.some.inj (hitem.symm.trans hitem₀)
      exact hkept
    · rename_i hj
      refine (h.kept j item₀ hitem₀).append ?_ ?_ ?_
      · exact fun hmem => by cases hevents _ hmem
      · exact fun hmem => by cases hevents _ hmem
      · exact fun hmem => hj (Event.fired.inj (hevents _ hmem)).symm
  fresh j hj := by
    rw [length_moveTo]
    rcases hj with hj | hj <;> rcases List.mem_append.mp hj with hmem | hmem
    · exact h.fresh j (.inl hmem)
    · cases hevents _ hmem
    · exact h.fresh j (.inr hmem)
    · cases hevents _ hmem
      exact (List.getElem?_eq_some_iff.mp hitem).1
  armed j hj := by
    obtain ⟨item', hitem', hahead, a, b, hlog, hb⟩ := h.armed j hj
    refine ⟨if k = j then { item' with phase := phase } else item', ?_, ?_, a, b ++ events, ?_, ?_⟩
    · rw [getElem?_moveTo, hitem']
      rfl
    · split
      · rename_i heq
        subst heq
        exact hpending hj
      · exact hahead
    · rw [hlog]
      simp
    · rw [bumps_append, hb, Nat.zero_add]
      refine List.countP_eq_zero.mpr fun event hmem => ?_
      rw [hevents event hmem]
      exact Bool.false_ne_true
  idle hnone j a b hlog hb := by
    have harmed : Event.armed j ∉ events := fun hmem => by cases hevents _ hmem
    obtain ⟨b', hlog', rfl⟩ := Blocks.split_append hlog harmed
    rw [bumps_append, Nat.add_eq_zero_iff] at hb
    exact List.mem_append_left _ (h.idle hnone j a b' hlog' hb.1)

/-- Another call has taken the lock. -/
theorem Inv.replaced {event : Event} (h : Inv log s) (hbumps : event.bumps = true)
    (harmed : ∀ k, event = .armed k → s.items.length ≤ k) {item' : WorkItem}
    (hitem : s.cancelPending.items[k]? = some item') : Kept (log ++ [event]) k item' := by
  obtain ⟨item, c, hold, rfl⟩ := getElem?_cancelPending hitem
  refine (h.kept k item hold).replaced hbumps ?_ c
  rintro rfl
  have hlt : k < s.items.length := (List.getElem?_eq_some_iff.mp hold).1
  exact absurd (harmed k rfl) (not_le.mpr hlt)

theorem Inv.arm (h : Inv log s) {delayMs : Int} (hs : s.step (.arm delayMs) = some s') :
    Inv (log ++ [Event.armed s.items.length]) s' := by
  cases hs
  have hgeneration : s.generation + 1 = BitVec.ofNat 64 (bumps log + 1) := by
    rw [h.generation, BitVec.ofNat_add]
    rfl
  have hlatest : ∃ a b, log ++ [Event.armed s.items.length] = a ++ .armed s.items.length :: b ∧
      bumps b = 0 := ⟨log, [], rfl, rfl⟩
  refine ⟨?_, ?_, ?_, ?_, ?_⟩
  · rw [bumps_append]
    exact hgeneration
  · intro k item hitem
    rw [List.getElem?_append] at hitem
    split at hitem
    · exact h.replaced rfl (fun k heq => (Event.armed.inj heq).le) hitem
    · rename_i hlength
      rw [length_cancelPending] at hlength hitem
      obtain ⟨hk, rfl⟩ : k = s.items.length ∧ _ = item := by
        have hlt := (List.getElem?_eq_some_iff.mp hitem).1
        rw [List.length_singleton] at hlt
        have hk : k = s.items.length := by omega
        subst hk
        rw [Nat.sub_self] at hitem
        exact ⟨rfl, Option.some.inj hitem⟩
      subst hk
      refine ⟨log, [], Blocks.last_opened log, hgeneration, ?_, ?_⟩
      · exact fun hmem => absurd (h.fresh _ (.inr hmem)) (lt_irrefl _)
      · exact ⟨fun _ => List.not_mem_nil, by simp, rfl, by simp, by simp⟩
  · intro k hk
    rw [List.length_append, length_cancelPending]
    rcases hk with hk | hk
    · rcases List.mem_append.mp hk with hmem | hmem
      · exact (h.fresh k (.inl hmem)).trans (Nat.lt_succ_self _)
      · cases List.mem_singleton.mp hmem
        exact Nat.lt_succ_self _
    · rcases List.mem_append.mp hk with hmem | hmem
      · exact (h.fresh k (.inr hmem)).trans (Nat.lt_succ_self _)
      · cases List.mem_singleton.mp hmem
  · intro k hk
    cases hk
    refine ⟨⟨s.generation + 1, max 0 (min delayMs longestMs), false, .created⟩, ?_, rfl, hlatest⟩
    rw [List.getElem?_append_right (length_cancelPending s).le, length_cancelPending,
      Nat.sub_self]
    rfl
  · intro hnone
    cases hnone

theorem Inv.cancel (h : Inv log s) (hs : s.step .cancel = some s') :
    Inv (log ++ [Event.cancelled]) s' := by
  cases hs
  refine ⟨?_, ?_, ?_, ?_, ?_⟩
  · rw [bumps_append]
    show s.generation + 1 = BitVec.ofNat 64 (bumps log + 1)
    rw [h.generation, BitVec.ofNat_add]
    rfl
  · intro k item hitem
    exact h.replaced rfl (fun k heq => by cases heq) hitem
  · intro k hk
    show k < s.cancelPending.items.length
    rw [length_cancelPending]
    refine h.fresh k (hk.imp ?_ ?_) <;> intro hmem <;> simpa using hmem
  · intro k hk
    cases hk
  · intro _ k a b hlog hb
    obtain ⟨b', -, rfl⟩ := Blocks.split_append hlog (by simp)
    rw [bumps_append] at hb
    exact absurd (Nat.add_eq_zero_iff.mp hb).2 (Nat.succ_ne_zero 0)

/-- The item that asks in time is the latest, or is dropped. -/
theorem Inv.current_iff (h : Inv log s) {a b : List Event} (hlast : Blocks.Last (.armed k) log a b)
    (htoken : item.token = BitVec.ofNat 64 (bumps a + 1)) (hin : bumps b < 2 ^ 64) :
    item.token = s.generation ↔ bumps b = 0 := by
  have hlog : bumps log = bumps a + (bumps b + 1) := by
    rw [hlast.eq, bumps_append, bumps_cons_armed]
  rw [htoken, h.generation, hlog, ← BitVec.toNat_inj, BitVec.toNat_ofNat, BitVec.toNat_ofNat]
  omega

/-- The latest item is pending until it asks. -/
theorem Inv.pending_of_latest (h : Inv log s) {a b : List Event} (hlog : log = a ++ .armed k :: b)
    (hb : bumps b = 0) (hnot : .disarmed k ∉ b) : s.pending = some k := by
  cases hpending : s.pending with
  | none => exact absurd (h.idle hpending k a b hlog hb) hnot
  | some j =>
    obtain ⟨-, -, -, a', b', hlog', hb'⟩ := h.armed j hpending
    rw [latest_unique (hlog.symm.trans hlog') hb hb']

/-- The item passes the check. -/
theorem Kept.disarms {a b : List Event} (hlast : Blocks.Last (.armed k) log a b)
    (htoken : item.token = BitVec.ofNat 64 (bumps a + 1)) (ha : .fired k ∉ a)
    (hstands : Stands k item b) (hphase : item.phase = .begun) (hb : bumps b = 0) :
    Kept (log ++ [Event.disarmed k]) k { item with phase := .disarmed } := by
  refine ⟨a, b ++ [Event.disarmed k], hlast.append (by simp), htoken, ha, ?_, ?_, ?_, ?_, ?_⟩
  · intro h
    cases h
  · exact fun _ => ⟨b, [], rfl, hb⟩
  · rw [List.count_append, hstands.fired, hphase]
    rfl
  · intro h
    cases h
  · intro hcancelled
    exact absurd hb (hstands.cancelled hcancelled).ne'

theorem Inv.disarmed (h : Inv log s) (hitem : s.items[k]? = some item)
    (hkept : Kept (log ++ [Event.disarmed k]) k { item with phase := .disarmed }) {a b : List Event}
    (hlog : log = a ++ .armed k :: b) (hb : bumps b = 0) :
    Inv (log ++ [Event.disarmed k]) { s.moveTo k .disarmed with pending := none } := by
  refine ⟨?_, ?_, ?_, ?_, ?_⟩
  · rw [bumps_append]
    exact h.generation
  · intro j item' hitem'
    change (s.moveTo k .disarmed).items[j]? = some item' at hitem'
    rw [getElem?_moveTo] at hitem'
    obtain ⟨item₀, hitem₀, rfl⟩ := Option.map_eq_some_iff.mp hitem'
    split
    · rename_i hj
      subst hj
      obtain rfl := Option.some.inj (hitem.symm.trans hitem₀)
      exact hkept
    · rename_i hj
      have hne : Event.disarmed j ∉ [.disarmed k] := by simpa using fun heq => hj heq.symm
      exact (h.kept j item₀ hitem₀).append (by simp) hne (by simp)
  · intro j hj
    show j < (s.moveTo k .disarmed).items.length
    rw [length_moveTo]
    refine h.fresh j (hj.imp ?_ ?_) <;> intro hmem <;> simpa using hmem
  · intro j hj
    cases hj
  · intro _ j a' b' hlog' hb'
    obtain ⟨b'', hlog'', rfl⟩ := Blocks.split_append hlog' (by simp)
    rw [bumps_append, Nat.add_eq_zero_iff] at hb'
    obtain rfl : k = j := latest_unique (hlog.symm.trans hlog'') hb hb'.1
    exact List.mem_append_right _ List.mem_cons_self

theorem Inv.disarm (h : Inv log s) (hin : InTime (s, log) (.disarm k))
    (hs : s.step (.disarm k) = some s') : Inv (log ++ s.observed (.disarm k)) s' := by
  simp only [step, Option.bind_eq_some_iff] at hs
  obtain ⟨item, hitem, hs⟩ := hs
  split at hs
  · rename_i hphase
    have hahead : item.phase.isAhead = true := by
      rw [hphase]
      rfl
    have hkept := h.kept k item hitem
    obtain ⟨a, b, hlast, htoken, ha, hstands⟩ := h.kept k item hitem
    have hcurrent := h.current_iff hlast htoken (hin a b hlast.eq)
    split at hs
    · rename_i htok
      cases hs
      have hb : bumps b = 0 := hcurrent.mp htok
      have hobserved : s.observed (.disarm k) = [.disarmed k] := by
        simp only [observed, hitem]
        rw [if_pos htok]
      rw [hobserved]
      exact h.disarmed hitem (.disarms hlast htoken ha hstands hphase hb) hlast.eq hb
    · rename_i htok
      cases hs
      have hb : 0 < bumps b := Nat.pos_of_ne_zero fun hb => htok (hcurrent.mpr hb)
      have hobserved : s.observed (.disarm k) = [] := by
        simp only [observed, hitem]
        rw [if_neg htok]
      rw [hobserved]
      refine h.moveTo hitem ?_ ?_ (by simp)
      · rw [List.append_nil]
        refine hkept.drops hahead fun a' b' hlast' => ?_
        obtain ⟨-, rfl⟩ := Blocks.last_unique hlast hlast'
        exact hb
      · intro hpending
        exact absurd (h.bumps_of_pending hpending hlast) hb.ne'
  · cases hs

theorem Inv.perform (h : Inv log s) (hs : s.step (.perform k) = some s') : Inv log s' := by
  simp only [step, Option.bind_eq_some_iff] at hs
  obtain ⟨item, hitem, hs⟩ := hs
  split at hs
  · rename_i due hphase
    have hahead : item.phase.isAhead = true := by
      rw [hphase]
      rfl
    have hkept := h.kept k item hitem
    obtain ⟨a, b, hlast, -, -, hstands⟩ := h.kept k item hitem
    rw [← List.append_nil log]
    split at hs
    · cases hs
      cases hcancelled : item.isCancelled with
      | true =>
        have hb : 0 < bumps b := hstands.cancelled hcancelled
        refine h.moveTo hitem ?_ ?_ (by simp)
        · rw [List.append_nil]
          refine hkept.drops hahead fun a' b' hlast' => ?_
          obtain ⟨-, rfl⟩ := Blocks.last_unique hlast hlast'
          exact hb
        · intro hpending
          exact absurd (h.bumps_of_pending hpending hlast) hb.ne'
      | false =>
        refine h.moveTo hitem ?_ (fun _ => rfl) (by simp)
        rw [List.append_nil]
        exact hkept.moves hahead rfl
    · cases hs
  · cases hs

theorem Inv.fire (h : Inv log s) (hs : s.step (.fire k) = some s') :
    Inv (log ++ [Event.fired k]) s' := by
  simp only [step, Option.bind_eq_some_iff] at hs
  obtain ⟨item, hitem, hs⟩ := hs
  split at hs <;> cases hs
  rename_i hphase
  refine h.moveTo hitem ?_ ?_ (by simp)
  · obtain ⟨a, b, hlast, htoken, ha, hstands⟩ := h.kept k item hitem
    refine ⟨a, b ++ [Event.fired k], hlast.append (by simp), htoken, ha, ?_, ?_, ?_, ?_, ?_⟩
    · intro h
      cases h
    · intro _
      obtain ⟨c, d, rfl, hc⟩ := hstands.passed (.inl hphase)
      exact ⟨c, d ++ [Event.fired k], by simp, hc⟩
    · rw [List.count_append, hstands.fired, hphase]
      simp
    · intro h
      cases h
    · intro hcancelled
      rw [bumps_append]
      exact Nat.add_pos_left (hstands.cancelled hcancelled) _
  · intro hpending
    obtain ⟨item', hitem', hahead, -⟩ := h.armed k hpending
    obtain rfl := Option.some.inj (hitem.symm.trans hitem')
    rw [hphase] at hahead
    cases hahead

theorem Inv.step {l : Label} (h : Inv log s) (hin : InTime (s, log) l)
    (hs : s.step l = some s') : Inv (log ++ s.observed l) s' := by
  cases l with
  | clock now =>
    cases hs
    rw [observed, List.append_nil]
    exact ⟨h.generation, h.kept, h.fresh, h.armed, h.idle⟩
  | arm delayMs => exact h.arm hs
  | schedule k =>
    simp only [RetryWakeTimer.step, Option.bind_eq_some_iff] at hs
    obtain ⟨item, hitem, hs⟩ := hs
    split at hs <;> cases hs
    rename_i hphase
    have hahead : item.phase.isAhead = true := by
      rw [hphase]
      rfl
    refine h.moveTo hitem ?_ (fun _ => rfl) (by simp [observed])
    rw [observed, List.append_nil]
    exact (h.kept k item hitem).moves hahead rfl
  | perform k =>
    rw [observed, List.append_nil]
    exact h.perform hs
  | disarm k => exact h.disarm hin hs
  | fire k => exact h.fire hs
  | cancel => exact h.cancel hs

theorem inv_initial (now : Int) : Inv [] (initial now) := by
  refine ⟨rfl, ?_, ?_, ?_, ?_⟩
  · intro k item hitem
    cases hitem
  · intro k hk
    simp at hk
  · intro k hk
    cases hk
  · intro _ k a b hlog
    simp at hlog

/-! ## 2. Which arms fire -/

theorem Kept.count_fired_le (h : Kept log k item) : log.count (.fired k) ≤ 1 := by
  obtain ⟨a, b, hlast, -, ha, hstands⟩ := h
  rw [hlast.eq, List.count_append, List.count_eq_zero.mpr ha, List.count_cons_of_ne (by simp),
    hstands.fired, Nat.zero_add]
  split
  · exact le_rfl
  · exact Nat.zero_le 1

/-- Nothing has taken the lock between the arm and the check. -/
theorem Kept.fired_of_mem (h : Kept log k item) (hmem : .fired k ∈ log) :
    ∃ a b c, log = a ++ .armed k :: b ++ .disarmed k :: c ∧ bumps b = 0 := by
  obtain ⟨a, b, hlast, -, ha, hstands⟩ := h
  have hb : .fired k ∈ b := by
    rw [hlast.eq] at hmem
    rcases List.mem_append.mp hmem with hmem | hmem
    · exact absurd hmem ha
    · exact (List.mem_cons.mp hmem).resolve_left (by simp)
  have hphase : item.phase = .fired := by
    by_contra hphase
    have hcount := hstands.fired
    rw [if_neg hphase] at hcount
    exact List.count_eq_zero.mp hcount hb
  obtain ⟨c, d, rfl, hc⟩ := hstands.passed (.inr hphase)
  exact ⟨a, c, d, by rw [hlast.eq]; simp, hc⟩

/-- An item that is not over has a step of its own, once the queue may take it. -/
theorem step_of_not_over (hitem : s.items[k]? = some item) (hover : item.phase.isOver = false)
    (hdue : item.phase.isDue s.now = true) :
    ∃ l ∈ [Label.schedule k, .perform k, .disarm k, .fire k], (s.step l).isSome = true := by
  cases hphase : item.phase with
  | created => exact ⟨.schedule k, by simp, by simp [RetryWakeTimer.step, hitem, hphase]⟩
  | scheduled due =>
    have hle : due ≤ s.now := by
      rw [hphase] at hdue
      exact of_decide_eq_true hdue
    exact ⟨.perform k, by simp, by simp [RetryWakeTimer.step, hitem, hphase, hle]⟩
  | begun =>
    refine ⟨.disarm k, by simp, ?_⟩
    simp only [RetryWakeTimer.step, hitem, hphase, Option.bind_some, if_pos]
    split <;> rfl
  | disarmed => exact ⟨.fire k, by simp, by simp [RetryWakeTimer.step, hitem, hphase]⟩
  | fired | dropped =>
    rw [hphase] at hover
    cases hover

/-- In every interleaving of `arm` and `cancel` with work items that run as late as they
like, also after they were cancelled too late, but never behind 2^64 calls that have
taken the lock since: each closure runs at most once, and only when nothing has taken
the lock between its arm and the check of its item. The timer is armed exactly while the
last to take the lock was an arm whose item has not passed the check. An item that is
not over can go on, and when all items are over, the closure of the last arm has run if
nothing has taken the lock since. -/
theorem fires_latest_arm {now : Int} {ls : List Label}
    (h : StepSystem.exec (StepSystem.recorded step observed) (initial now, []) ls =
      some (s, log))
    (hin : StepSystem.Meets (StepSystem.recorded step observed) InTime (initial now, []) ls) :
    (∀ k, log.count (.fired k) ≤ 1) ∧
    (∀ k, .fired k ∈ log → ∃ a b c, log = a ++ .armed k :: b ++ .disarmed k :: c ∧ bumps b = 0) ∧
    (s.isArmed = true ↔ ∃ k a b, log = a ++ .armed k :: b ∧ bumps b = 0 ∧ .disarmed k ∉ b) ∧
    (∀ (k : Nat) item, s.items[k]? = some item → item.phase.isOver = false →
      item.phase.isDue s.now = true →
      ∃ l ∈ [Label.schedule k, .perform k, .disarm k, .fire k], (s.step l).isSome = true) ∧
    ((∀ item ∈ s.items, item.phase.isOver = true) →
      ∀ k a b, log = a ++ .armed k :: b → bumps b = 0 → .fired k ∈ log) := by
  have hinv : Inv (s, log).2 (s, log).1 := by
    refine StepSystem.exec_invariant_of_meets (I := fun p => Inv p.2 p.1) ?_ (inv_initial now)
      hin h
    intro p l q hp hl hs
    obtain ⟨hstep, hlog⟩ := StepSystem.recorded_eq_some.mp hs
    rw [hlog]
    exact hp.step hl hstep
  have hitems {k : Nat} (hk : .armed k ∈ log ∨ .fired k ∈ log) :
      ∃ item, s.items[k]? = some item ∧ Kept log k item := by
    have hlt : k < s.items.length := hinv.fresh k hk
    exact ⟨_, List.getElem?_eq_getElem hlt, hinv.kept k _ (List.getElem?_eq_getElem hlt)⟩
  refine ⟨?_, ?_, ?_, ?_, ?_⟩
  · intro k
    by_cases hk : .fired k ∈ log
    · obtain ⟨item, -, hkept⟩ := hitems (.inr hk)
      exact hkept.count_fired_le
    · rw [List.count_eq_zero.mpr hk]
      exact Nat.zero_le 1
  · intro k hk
    obtain ⟨item, -, hkept⟩ := hitems (.inr hk)
    exact hkept.fired_of_mem hk
  · constructor
    · intro harmed
      obtain ⟨k, hpending⟩ := Option.isSome_iff_exists.mp harmed
      obtain ⟨item, hitem, hahead, a, b, hlog, hb⟩ := hinv.armed k hpending
      obtain ⟨a', b', hlast, -, -, hstands⟩ := hinv.kept k item hitem
      obtain ⟨rfl, rfl⟩ := Blocks.last_unique hlast (last_of_bumps hlog hb)
      exact ⟨k, a', b', hlog, hb, hstands.ahead hahead⟩
    · rintro ⟨k, a, b, hlog, hb, hnot⟩
      have hpending : s.pending = some k := hinv.pending_of_latest hlog hb hnot
      rw [isArmed, hpending]
      rfl
  · exact fun k item hitem hover hdue => step_of_not_over hitem hover hdue
  · intro hall k a b hlog hb
    have hmem : Event.armed k ∈ log := by
      rw [hlog]
      exact List.mem_append_right _ List.mem_cons_self
    obtain ⟨item, hitem, a', b', hlast, -, -, hstands⟩ := hitems (.inl hmem)
    obtain ⟨rfl, rfl⟩ := Blocks.last_unique hlast (last_of_bumps hlog hb)
    have hfired : item.phase = .fired := by
      have hover := hall item (List.mem_of_getElem? hitem)
      cases hphase : item.phase with
      | fired => rfl
      | dropped => exact absurd hb (hstands.dropped hphase).ne'
      | created | scheduled | begun | disarmed =>
        rw [hphase] at hover
        cases hover
    have hcount := hstands.fired
    rw [if_pos hfired] at hcount
    rw [hlog]
    have hsince : .fired k ∈ b' := List.count_pos_iff.mp (hcount ▸ Nat.one_pos)
    exact List.mem_append_right _ (List.mem_cons_of_mem _ hsince)

/-- A run of fewer than 2^64 steps is in time. -/
theorem inTime_of_short {ls : List Label} (h : bumps log + ls.length < 2 ^ 64) :
    StepSystem.Meets (StepSystem.recorded step observed) InTime (s, log) ls := by
  induction ls generalizing s log with
  | nil => trivial
  | cons l ls ih =>
    rw [List.length_cons] at h
    refine ⟨?_, ?_⟩
    · cases l with
      | disarm k =>
        intro a b hlog
        have hle : bumps b ≤ bumps log := by
          rw [show log = a ++ .armed k :: b from hlog, bumps_append, bumps_cons_armed]
          omega
        omega
      | clock | arm | schedule | perform | fire | cancel => trivial
    · rintro ⟨s', log'⟩ hs
      obtain ⟨-, hlog⟩ := StepSystem.recorded_eq_some.mp hs
      refine ih ?_
      have hone : bumps (s.observed l) ≤ 1 := by
        refine List.countP_le_length.trans ?_
        cases l with
        | disarm k =>
          rw [observed]
          split
          · split <;> simp
          · simp
        | clock | arm | schedule | perform | fire | cancel => simp [observed]
      rw [show log' = log ++ s.observed l from hlog, bumps_append]
      omega

section Sample

/-- An item that has begun when the second arm comes. The second item fires, the first
does not. -/
def replacedRun : List Label :=
  [.arm 10, .schedule 0, .clock 10, .perform 0, .arm 5, .schedule 1, .disarm 0, .clock 15,
    .perform 1, .disarm 1, .fire 1]

theorem fires_latest_arm_of_two :
    ∃ s log, StepSystem.exec (StepSystem.recorded step observed) (initial 0, []) replacedRun =
        some (s, log) ∧ s.isArmed = false ∧ .fired 0 ∉ log ∧ log.count (.fired 1) ≤ 1 ∧
      .fired 1 ∈ log := by
  obtain ⟨p, hrun, harmed, hnot, hfired⟩ :
      ∃ p ∈ StepSystem.exec (StepSystem.recorded step observed) (initial 0, []) replacedRun,
        p.1.isArmed = false ∧ .fired 0 ∉ p.2 ∧ .fired 1 ∈ p.2 := by
    decide +kernel
  have hin : StepSystem.Meets (StepSystem.recorded step observed) InTime (initial 0, [])
      replacedRun := inTime_of_short (by decide)
  exact ⟨p.1, p.2, hrun, harmed, hnot, (fires_latest_arm hrun hin).1 1, hfired⟩

/-! ## 3. A cancelled arm that fires -/

theorem exec_cancels (n : Nat) {now : Int} {generation : BitVec 64} {items : List WorkItem}
    (log : List Event) :
    StepSystem.exec (StepSystem.recorded step observed) (⟨now, generation, none, items⟩, log)
      (List.replicate n .cancel) =
      some (⟨now, generation + BitVec.ofNat 64 n, none, items⟩,
        log ++ List.replicate n .cancelled) := by
  induction n generalizing generation log with
  | zero => simp
  | succ n ih =>
    rw [List.replicate_succ, StepSystem.exec_cons_eq_some]
    refine ⟨(⟨now, generation + 1, none, items⟩, log ++ [Event.cancelled]), rfl, ?_⟩
    have hgeneration :
        generation + 1 + BitVec.ofNat 64 n = generation + BitVec.ofNat 64 (n + 1) := by
      rw [add_assoc, add_comm 1 (BitVec.ofNat 64 n), BitVec.ofNat_add]
      rfl
    rw [ih, hgeneration, List.replicate_succ, List.append_assoc]
    rfl

/-- The run of an item that has begun when the first of `n + 1` cancels comes. -/
def cancelledRun (n : Nat) : List Label :=
  [Label.arm 0, .schedule 0, .perform 0, .cancel] ++ List.replicate n Label.cancel ++
    [Label.disarm 0, .fire 0]

theorem exec_cancelledRun {n : Nat} (hn : (2 : BitVec 64) + BitVec.ofNat 64 n = 1) :
    ∃ s, StepSystem.exec (StepSystem.recorded step observed) (initial 0, []) (cancelledRun n) =
      some (s, .armed 0 :: .cancelled ::
        (List.replicate n .cancelled ++ [Event.disarmed 0, .fired 0])) := by
  have hstart : StepSystem.exec (StepSystem.recorded step observed) (initial 0, [])
      [.arm 0, .schedule 0, .perform 0, .cancel] =
      some (⟨0, 2, none, [⟨1, 0, true, .begun⟩]⟩, [.armed 0, .cancelled]) := by
    decide +kernel
  have hcancels := @exec_cancels n 0 2 [⟨1, 0, true, .begun⟩] [.armed 0, .cancelled]
  rw [hn] at hcancels
  have hend (log : List Event) : StepSystem.exec (StepSystem.recorded step observed)
      (⟨0, 1, none, [⟨1, 0, true, .begun⟩]⟩, log) [.disarm 0, .fire 0] =
      some (⟨0, 1, none, [⟨1, 0, true, .fired⟩]⟩,
        log ++ [Event.disarmed 0] ++ [Event.fired 0]) := rfl
  have hrun := StepSystem.exec_append_eq_some.mpr
    ⟨_, StepSystem.exec_append_eq_some.mpr ⟨_, hstart, hcancels⟩, hend _⟩
  rw [List.append_assoc _ [Event.disarmed 0]] at hrun
  exact ⟨_, hrun⟩

/-- Behind the last of 2^64 cancels the item finds its own generation again. -/
theorem wrapped_generation_fires :
    ∃ s log, StepSystem.exec (StepSystem.recorded step observed) (initial 0, [])
        (cancelledRun (2 ^ 64 - 1)) = some (s, log) ∧ .fired 0 ∈ log ∧
      ¬ ∃ a b c, log = a ++ .armed 0 :: b ++ .disarmed 0 :: c ∧ bumps b = 0 := by
  have hwraps : (2 : BitVec 64) + BitVec.ofNat 64 (2 ^ 64 - 1) = 1 := by decide
  obtain ⟨s, hrun⟩ := exec_cancelledRun hwraps
  generalize 2 ^ 64 - 1 = n at hrun ⊢
  refine ⟨s, _, hrun, by simp, ?_⟩
  rintro ⟨a, b, c, hlog, hb⟩
  cases a with
  | nil =>
    -- what follows the arm is a cancel
    have htail := (List.cons.inj hlog).2
    cases b with
    | nil => cases (List.cons.inj htail).1
    | cons x b =>
      rw [← (List.cons.inj htail).1] at hb
      exact absurd hb (by simp [bumps, Event.bumps])
  | cons x a =>
    have htail := (List.cons.inj hlog).2
    have hmem : Event.armed 0 ∈ .cancelled :: (List.replicate n .cancelled ++
        [.disarmed 0, .fired 0]) := by
      rw [htail]
      simp
    simp at hmem

end Sample

end RetryWakeTimer

end SyncProvider.Ios
