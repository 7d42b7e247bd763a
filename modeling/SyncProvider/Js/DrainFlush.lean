import SyncProvider.Js.DrainTrace
import SyncProvider.Lib.Blocks

/-!
# JS: what a flush follows, and what is counted

A flush is started at the end of a pass that has read, in this order, that no cycle
is running, a size and a connection. The loop counts an iteration before it asks for
the flush. When a cancel or the deadline comes between the connection and the code
behind it, the flush is not started and has been counted.

Results:
1. `Tallied.move` : the items and the sizes.
2. `Placed.move` : what a flush follows.
3. `Rested.move` : the wait after a flush without progress.
4. `flush_accounted_iff` : when the result of a drain counts its flushes.
5. `stopped_flush_is_counted` : a drain that counts a flush it has not started.
-/

namespace SyncProvider.Js

/-! ## The model -/

/-- The sizes that have been read, in order. -/
def sizes (log : List Event) : List Int :=
  log.filterMap fun
    | .answered (.queueSize size) => some size
    | _ => none

/-- The sum of the decreases from one size to the next. -/
def decreases : List Int → Int
  | previous :: size :: rest => max 0 (previous - size) + decreases (size :: rest)
  | _ => 0

/-- Every flush that has been started has come back. -/
def FlushesBack (log : List Event) : Prop :=
  ∀ a b, log = a ++ .started .flush :: b → .answered .flushed ∈ b

/-- A flush may be started now: the flushes before are back, and the pass that has
begun since then has read that no cycle is running, a size and a connection. -/
def Cleared (log : List Event) : Prop :=
  ∃ before size status, FlushesBack before ∧ 0 < size ∧ status ≠ .DISCONNECTED ∧
    log = before ++ [.pass, .started .isSyncing, .answered (.isSyncing false),
      .started .getQueueSize, .answered (.queueSize size),
      .started .getConnectionStatus, .answered (.connectionStatus status)]

/-- Every flush was cleared. -/
def Disciplined (log : List Event) : Prop :=
  ∀ before after, log = before ++ .started .flush :: after → Cleared before

/-- Between a flush after which the next size shows no decrease and the next flush, a
wait of positive length has come to its end. -/
def RestsWithoutProgress (log : List Event) : Prop :=
  ∀ a b c after size,
    log = a ++ .started .flush :: b ++ .answered (.queueSize size) :: c ++
      .started .flush :: after →
    sizes b = [] → (∀ last ∈ (sizes a).getLast?, last ≤ size) → ∃ ms, 0 < ms ∧ .slept ms ∈ c

/-- The result accounts for the log. -/
structure DrainResult.Accounts (result : DrainResult) (log : List Event) : Prop where
  iterations : result.iterations = flushes log
  itemsDispatched : result.itemsDispatched = decreases (sizes log)
  queueRemaining : result.queueRemaining = (sizes log).getLast?.getD 0

namespace Drain

variable {d d' : Drain} {log events : List Event}

/-- The next turn goes on to a flush. -/
def goesToFlush (d : Drain) : Bool :=
  match d.phase, d.sleepTimer with
  | .settled _ (.value (.connectionStatus status)), none => status ≠ .DISCONNECTED
  | _, _ => false

/-- Every flush was cleared, a flush without progress was followed by a wait, and the
result accounts for the log. -/
structure Accounted (log : List Event) (d : Drain) : Prop where
  disciplined : Disciplined log
  rests : RestsWithoutProgress log
  accounts : ∀ result cause, d.phase = .resolved result cause → result.Accounts log

/-- A turn that goes on to a flush starts it, on a size that is positive. -/
def KeepsCount (d : Drain) : Label → Prop
  | .run => d.goesToFlush = true →
    d.cancelled = false ∧ d.clock < d.deadlineAt ∧ ∀ size ∈ d.lastSize, 0 < size
  | _ => True

instance (d : Drain) (l : Label) : Decidable (d.KeepsCount l) :=
  match l with
  | .run => inferInstanceAs (Decidable (d.goesToFlush = true →
      d.cancelled = false ∧ d.clock < d.deadlineAt ∧ ∀ size ∈ d.lastSize, 0 < size))
  | .tick _ | .answer _ | .fail _ | .sleepTimer | .deadlineTimer | .cancel => .isTrue trivial

/-! ## 1. The items and the sizes -/

/-- The size that the loop has not looked at. -/
def unread (d : Drain) : List Int :=
  match d.phase with
  | .settled _ (.value (.queueSize size)) => [size]
  | _ => []

/-- The counters account for the sizes that the loop has looked at. -/
def Tallied (log : List Event) (d : Drain) : Prop :=
  ∃ read, sizes log = read ++ d.unread ∧ d.itemsDispatched = decreases read ∧
    d.lastSize = read.getLast?

theorem decreases_snoc (read : List Int) (size : Int) :
    decreases (read ++ [size]) =
      decreases read + match read.getLast? with
        | some last => max 0 (last - size)
        | none => 0 := by
  induction read with
  | nil => rfl
  | cons first read ih =>
    cases read with
    | nil => simp [decreases]
    | cons second read =>
      rw [List.cons_append, List.cons_append, decreases, decreases, ← List.cons_append, ih,
        List.getLast?_cons_cons]
      ring

theorem sizes_append (log events : List Event) :
    sizes (log ++ events) = sizes log ++ sizes events :=
  List.filterMap_append

theorem unread_of_over (h : d.phase.Over) : d.unread = [] := by
  unfold unread
  split
  · rename_i hphase
    rw [hphase] at h
    exact h.elim
  · rfl

theorem unread_of_not_unread (h : ¬ d.phase.Unread) : d.unread = [] := by
  unfold unread
  split
  · rename_i hphase
    rw [hphase] at h
    exact absurd trivial h
  · rfl

/-- The loop has looked at the size. -/
theorem Tallied.read {work : Work} {size : Int} (h : Tallied log d)
    (hphase : d.phase = .settled work (.value (.queueSize size))) :
    (d.readSize size).itemsDispatched = decreases (sizes log) ∧
      (d.readSize size).lastSize = (sizes log).getLast? := by
  obtain ⟨read, hsizes, hitems, hlast⟩ := h
  have hunread : d.unread = [size] := by rw [unread, hphase]
  rw [hunread] at hsizes
  rw [hsizes]
  refine ⟨?_, by simp [readSize]⟩
  rw [decreases_snoc, ← hlast, ← hitems]
  unfold readSize removed
  cases d.lastSize with
  | none => simp
  | some last =>
    dsimp only
    split
    · rename_i hpos
      rw [max_eq_right hpos.le]
    · rename_i hneg
      rw [max_eq_left (not_lt.mp hneg), add_zero]

theorem Tallied.other (h : Tallied log d) (hread : d.unread = []) (hunread : d'.unread = [])
    (hsizes : sizes events = []) (hitems : d'.itemsDispatched = d.itemsDispatched)
    (hlast : d'.lastSize = d.lastSize) : Tallied (log ++ events) d' := by
  obtain ⟨read, heq, hi, hl⟩ := h
  refine ⟨read, ?_, hitems.trans hi, hlast.trans hl⟩
  rw [sizes_append, hsizes, hunread, heq, hread, List.append_nil]

/-- The locals of the loop when it asks for something. -/
theorem Tallied.asks {d₀ : Drain} {mark : List Event} {work : Work} (h : Tallied log d)
    (hasks : Asks d mark d₀ work) :
    sizes mark = [] ∧ d₀.itemsDispatched = decreases (sizes log) ∧
      d₀.lastSize = (sizes log).getLast? := by
  have hsame (hread : d.unread = []) : d.itemsDispatched = decreases (sizes log) ∧
      d.lastSize = (sizes log).getLast? := by
    obtain ⟨read, heq, hi, hl⟩ := h
    rw [hread, List.append_nil] at heq
    rw [heq]
    exact ⟨hi, hl⟩
  cases hasks with
  | sized hphase hsized => exact ⟨rfl, h.read hphase⟩
  | busy hphase | size hphase | busyAgain hphase | cooled hphase | offline hphase
  | flush hphase | flushed hphase | slept hphase =>
    exact ⟨rfl, hsame (by rw [unread, hphase])⟩

theorem Tallied.move (h : Tallied log d) (hmove : Move d events d') :
    Tallied (log ++ events) d' := by
  cases hmove with
  | keep hlocals hphase hclock =>
    obtain ⟨read, heq, hi, hl⟩ := h
    have hunread : d'.unread = d.unread := by rw [unread, unread, hphase]
    rw [List.append_nil]
    exact ⟨read, by rw [heq, hunread], hlocals.itemsDispatched.trans hi, hlocals.lastSize.trans hl⟩
  | @answered work since value hphase hanswers =>
    have hread : d.unread = [] := by rw [unread, hphase]
    cases value with
    | queueSize size =>
      obtain ⟨read, heq, hi, hl⟩ := h
      rw [hread, List.append_nil] at heq
      refine ⟨read, ?_, hi, hl⟩
      rw [sizes_append, heq]
      rfl
    | isSyncing | isSyncingAgain | pendingItems | connectionStatus | flushed | slept =>
      exact h.other hread rfl rfl rfl rfl
  | slept hphase hlong => exact h.other (by rw [unread, hphase]) rfl rfl rfl rfl
  | asks hasks hgoes hlocals hphase hclock =>
    obtain ⟨hmark, hi, hl⟩ := h.asks hasks
    refine ⟨sizes log, ?_, hlocals.itemsDispatched.trans hi, hlocals.lastSize.trans hl⟩
    have hunread : d'.unread = [] := by rw [unread, hphase]
    rw [sizes_append, sizes_append, hmark, hunread]
    rfl
  | stops hasks hstopping hlocals hphase hclock =>
    obtain ⟨hmark, hi, hl⟩ := h.asks hasks
    refine ⟨sizes log, ?_, hlocals.itemsDispatched.trans hi, hlocals.lastSize.trans hl⟩
    have hunread : d'.unread = [] := by rw [unread, hphase]
    rw [sizes_append, hmark, hunread]
  | returns hphase hpos => exact h.other (by rw [unread, hphase]) rfl rfl rfl rfl
  | ends hlocals hover hread hresult hclock =>
    exact h.other (unread_of_not_unread hread) (unread_of_over hover) rfl hlocals.itemsDispatched
      hlocals.lastSize
  | maxIterations hphase =>
    obtain ⟨hi, hl⟩ := h.read hphase
    refine ⟨sizes log, ?_, hi, hl⟩
    rw [List.append_nil]
    exact (List.append_nil _).symm

/-- A result is the locals of the loop. -/
def ResultOf (d : Drain) : Prop :=
  ∀ result cause, d.phase = .resolved result cause → result = d.result result.stoppedReason

theorem ResultOf.move (h : d.ResultOf) (hmove : Move d events d') : d'.ResultOf := by
  intro result cause hresolved
  cases hmove with
  | keep hlocals hphase hclock =>
    have hresult := h result cause (hphase.symm.trans hresolved)
    rw [Drain.result, hlocals.iterations, hlocals.itemsDispatched, hlocals.lastSize]
    exact hresult
  | answered | slept | returns => cases hresolved
  | asks _ _ _ hphase | stops _ _ _ hphase => cases hphase.symm.trans hresolved
  | ends hlocals hover hread hresult hclock =>
    have hlocal := hresult result cause hresolved
    rw [Drain.result, hlocals.iterations, hlocals.itemsDispatched, hlocals.lastSize]
    exact hlocal
  | maxIterations hphase =>
    cases hresolved
    rfl

/-! ## 2. What a flush follows -/

theorem not_over_of_awaiting {work : Work} {since : ℚ} (h : d.phase = .awaiting work since) :
    ¬ d.phase.Over := by
  rw [h]
  exact False.elim

theorem Asks.not_over {d₀ : Drain} {mark : List Event} {work : Work} (h : Asks d mark d₀ work) :
    ¬ d.phase.Over := by
  cases h with
  | busy hphase | size hphase | sized hphase | busyAgain hphase | cooled hphase | offline hphase
  | flush hphase | flushed hphase | slept hphase =>
    rw [hphase]
    exact False.elim

theorem Asks.not_awaiting {d₀ : Drain} {mark : List Event} {work work' : Work}
    (h : Asks d mark d₀ work) (since : ℚ) : d.phase ≠ .awaiting work' since := by
  cases h with
  | busy hphase | size hphase | sized hphase | busyAgain hphase | cooled hphase | offline hphase
  | flush hphase | flushed hphase | slept hphase =>
    rw [hphase]
    simp

theorem Asks.flush_notMem {d₀ : Drain} {mark : List Event} {work : Work}
    (h : Asks d mark d₀ work) : .started .flush ∉ mark := by
  cases h <;> simp

theorem Asks.mark_of_flush {d₀ : Drain} {mark : List Event} {work : Work}
    (h : Asks d mark d₀ work) (hflush : work = .flush) : mark = [] := by
  cases h with
  | flushed | slept => cases hflush
  | _ => rfl

/-- What the pass in progress has done so far, on its way to a flush. -/
def trail (d : Drain) : List Event :=
  match d.phase with
  | .awaiting .isSyncing _ => [.pass, .started .isSyncing]
  | .settled .isSyncing (.value value) => [.pass, .started .isSyncing, .answered value]
  | .awaiting .getQueueSize _ =>
    [.pass, .started .isSyncing, .answered (.isSyncing false), .started .getQueueSize]
  | .settled .getQueueSize (.value value) =>
    [.pass, .started .isSyncing, .answered (.isSyncing false), .started .getQueueSize,
      .answered value]
  | .awaiting .getConnectionStatus _ =>
    [.pass, .started .isSyncing, .answered (.isSyncing false), .started .getQueueSize,
      .answered (.queueSize (d.lastSize.getD 0)), .started .getConnectionStatus]
  | .settled .getConnectionStatus (.value value) =>
    [.pass, .started .isSyncing, .answered (.isSyncing false), .started .getQueueSize,
      .answered (.queueSize (d.lastSize.getD 0)), .started .getConnectionStatus, .answered value]
  | .awaiting .flush _ => [.started .flush]
  | _ => []

/-- The log ends in what the pass has done so far, and the flushes before are back. -/
def Placed (log : List Event) (d : Drain) : Prop :=
  ¬ d.phase.Over → ∃ before, log = before ++ d.trail ∧ FlushesBack before

theorem flushesBack_append (h : FlushesBack log) (hevents : .started .flush ∉ events) :
    FlushesBack (log ++ events) := by
  intro a b heq
  obtain ⟨b', hlog, rfl⟩ := Blocks.split_append heq hevents
  exact List.mem_append_left _ (h a b' hlog)

/-- The flush that is awaited comes back. -/
theorem flushesBack_flushed (log : List Event) :
    FlushesBack (log ++ [Event.answered .flushed]) := by
  intro a b heq
  obtain ⟨b', -, rfl⟩ := Blocks.split_append heq (by simp)
  exact List.mem_append_right _ List.mem_cons_self

theorem flush_notMem_trail (hphase : ∀ since, d.phase ≠ .awaiting .flush since) :
    .started .flush ∉ d.trail := by
  unfold trail
  split <;> simp_all

/-- While no flush is awaited they are all back. -/
theorem Placed.back (h : Placed log d) (hover : ¬ d.phase.Over)
    (hphase : ∀ since, d.phase ≠ .awaiting .flush since) : FlushesBack log := by
  obtain ⟨before, hlog, hback⟩ := h hover
  rw [hlog]
  exact flushesBack_append hback (flush_notMem_trail hphase)

/-- The pass goes on. -/
theorem Placed.goes (h : Placed log d) (hover : ¬ d.phase.Over)
    (htrail : d'.trail = d.trail ++ events) : Placed (log ++ events) d' := by
  intro _
  obtain ⟨before, hlog, hback⟩ := h hover
  refine ⟨before, ?_, hback⟩
  rw [hlog, htrail, List.append_assoc]

/-- The events are those of a pass that begins, or the pass is not on its way to a flush. -/
theorem placed_of_back (h : FlushesBack log) (htrail : d'.trail = events) :
    Placed (log ++ events) d' := by
  intro _
  exact ⟨log, by rw [htrail], h⟩

theorem placed_of_over (hover : d.phase.Over) : Placed log d := fun h => absurd hover h

/-- The pass is not on its way to a flush. -/
theorem placed_of_away (h : FlushesBack log) (htrail : d.trail = []) : Placed log d := by
  intro _
  exact ⟨log, by rw [htrail, List.append_nil], h⟩

theorem Placed.answered {work : Work} {since : ℚ} {value : Value} (h : Placed log d)
    (hphase : d.phase = .awaiting work since) (hanswers : value.answers work = true) :
    Placed (log ++ [Event.answered value]) { d with phase := .settled work (.value value) } := by
  have hover : ¬ d.phase.Over := not_over_of_awaiting hphase
  cases work with
  | isSyncing | getQueueSize | getConnectionStatus =>
    exact h.goes hover (by simp [trail, hphase])
  | isSyncingAgain | getPendingItems =>
    have hback : FlushesBack log := h.back hover (by simp [hphase])
    exact placed_of_away (flushesBack_append hback (by simp)) rfl
  | flush =>
    cases value with
    | flushed => exact placed_of_away (flushesBack_flushed log) rfl
    | isSyncing | queueSize | isSyncingAgain | pendingItems | connectionStatus | slept =>
      cases hanswers
  | sleep ms => cases value <;> cases hanswers

theorem Placed.asks {d₀ : Drain} {mark : List Event} {work : Work} {now : ℚ}
    (h : Placed log d) (hasks : Asks d mark d₀ work) (hlocals : Locals d₀ d')
    (hphase : d'.phase = .awaiting work now) :
    Placed (log ++ (mark ++ [Event.started work])) d' := by
  have hback : FlushesBack log := h.back hasks.not_over hasks.not_awaiting
  have haway (hne : work ≠ .flush) (hmark : mark = []) (htrail : d'.trail = []) :
      Placed (log ++ (mark ++ [Event.started work])) d' := by
    rw [hmark]
    exact placed_of_away (flushesBack_append hback (by simpa using hne.symm)) htrail
  have hover := hasks.not_over
  cases hasks with
  | busy | busyAgain | offline | cooled => exact haway (by simp) rfl (by simp [trail, hphase])
  | size hsettled => exact h.goes hover (by simp [trail, hphase, hsettled])
  | sized hsettled hsized =>
    cases hsized with
    | again | pending | rest => exact haway (by simp) rfl (by simp [trail, hphase])
    | fresh | next =>
      have hlast : d'.lastSize = some _ := hlocals.lastSize
      exact h.goes hover (by simp [trail, hphase, hsettled, hlast])
  | flush | flushed | slept => exact placed_of_back hback (by simp [trail, hphase])

theorem Placed.move (h : Placed log d) (hmove : Move d events d') :
    Placed (log ++ events) d' := by
  cases hmove with
  | keep hlocals hphase hclock =>
    intro hover
    rw [hphase] at hover
    obtain ⟨before, hlog, hback⟩ := h hover
    refine ⟨before, ?_, hback⟩
    rw [List.append_nil, hlog, trail, trail, hphase, hlocals.lastSize]
  | answered hphase hanswers => exact h.answered hphase hanswers
  | slept hphase hlong =>
    have hback : FlushesBack log := h.back (not_over_of_awaiting hphase) (by simp [hphase])
    exact placed_of_away (flushesBack_append hback (by simp)) rfl
  | asks hasks hgoes hlocals hphase hclock => exact h.asks hasks hlocals hphase
  | stops hasks hstopping hlocals hphase hclock =>
    refine placed_of_over ?_
    rw [hphase]
    trivial
  | returns hphase hpos =>
    have hback : FlushesBack log := by
      refine h.back ?_ (by simp [hphase])
      rw [hphase]
      exact False.elim
    rw [List.append_nil]
    exact placed_of_away hback rfl
  | ends hlocals hover hread hresult hclock => exact placed_of_over hover
  | maxIterations hphase => exact placed_of_over trivial

/-! ## 3. The wait after a flush without progress -/

/-- A flush without progress has been seen, and no wait has ended since. -/
def Owes (log : List Event) : Prop :=
  ∃ a b c size, log = a ++ .started .flush :: b ++ .answered (.queueSize size) :: c ∧
    sizes b = [] ∧ (∀ last ∈ (sizes a).getLast?, last ≤ size) ∧ ∀ ms, 0 < ms → .slept ms ∉ c

/-- The loop is on its way to a wait of positive length, or in one. -/
def Resting (d : Drain) : Prop :=
  match d.phase with
  | .settled _ (.value (.queueSize size)) => d.cycleJustRan = true ∧ d.removed size ≤ 0
  | .awaiting .isSyncingAgain _ | .settled _ (.value (.isSyncingAgain _)) => True
  | .awaiting .getPendingItems _ | .settled _ (.value (.pendingItems _)) => True
  | .returned _ => True
  | .awaiting (.sleep ms) _ => 0 < ms
  | _ => False

/-- After a flush the loop knows that a cycle has just run, until it reads a size. -/
def Ran (log : List Event) (d : Drain) : Prop :=
  ∀ a b, log = a ++ .started .flush :: b → sizes b = [] →
    d.cycleJustRan = true ∧ ¬ d.phase.Unread

structure Rested (log : List Event) (d : Drain) : Prop where
  rests : RestsWithoutProgress log
  resting : ¬ d.phase.Over → Owes log → d.Resting

theorem Ran.same (h : Ran log d) (hflush : .started .flush ∉ events)
    (hran : d'.cycleJustRan = d.cycleJustRan) (hread : d'.phase.Unread → d.phase.Unread) :
    Ran (log ++ events) d' := by
  intro a b heq hsizes
  obtain ⟨b', hlog, rfl⟩ := Blocks.split_append heq hflush
  rw [sizes_append, List.append_eq_nil_iff] at hsizes
  obtain ⟨hcycle, hunread⟩ := h a b' hlog hsizes.1
  exact ⟨hran.trans hcycle, fun h => hunread (hread h)⟩

/-- While a size is unread there is no flush without a size after it. -/
theorem Ran.unread (h : Ran log d) (hunread : d.phase.Unread) (hflush : .started .flush ∉ events) :
    Ran (log ++ events) d' := by
  intro a b heq hsizes
  obtain ⟨b', hlog, rfl⟩ := Blocks.split_append heq hflush
  rw [sizes_append, List.append_eq_nil_iff] at hsizes
  exact absurd hunread (h a b' hlog hsizes.1).2

theorem Ran.asks {d₀ : Drain} {mark : List Event} {work : Work} (h : Ran log d)
    (hasks : Asks d mark d₀ work) (hlocals : Locals d₀ d') (hread : ¬ d'.phase.Unread)
    (hevents : work ≠ .flush → .started .flush ∉ events) : Ran (log ++ events) d' := by
  cases hasks with
  | busy | size | busyAgain | cooled | offline | flushed | slept =>
    exact h.same (hevents (by simp)) hlocals.cycleJustRan fun h => absurd h hread
  | sized hsettled hsized =>
    refine h.unread ?_ (hevents ?_)
    · rw [hsettled]
      trivial
    · cases hsized <;> simp
  | flush hsettled hstatus => exact fun _ _ _ _ => ⟨hlocals.cycleJustRan, hread⟩

theorem Ran.move (h : Ran log d) (hmove : Move d events d') : Ran (log ++ events) d' := by
  cases hmove with
  | keep hlocals hphase hclock =>
    exact h.same (by simp) hlocals.cycleJustRan (by rw [hphase]; exact id)
  | @answered work since value hphase hanswers =>
    cases value with
    | queueSize size =>
      intro a b heq hsizes
      obtain ⟨b', -, rfl⟩ := Blocks.split_append heq (by simp)
      rw [sizes_append, List.append_eq_nil_iff] at hsizes
      cases hsizes.2
    | isSyncing | isSyncingAgain | pendingItems | connectionStatus | flushed | slept =>
      exact h.same (by simp) rfl False.elim
  | slept hphase hlong => exact h.same (by simp) rfl False.elim
  | asks hasks hgoes hlocals hphase hclock =>
    refine h.asks hasks hlocals ?_ fun hwork => ?_
    · rw [hphase]
      exact False.elim
    · simpa [hasks.flush_notMem] using hwork.symm
  | stops hasks hstopping hlocals hphase hclock =>
    refine h.asks hasks hlocals ?_ fun _ => hasks.flush_notMem
    rw [hphase]
    exact False.elim
  | returns hphase hpos => exact h.same (by simp) rfl False.elim
  | ends hlocals hover hread hresult hclock =>
    refine h.same (by simp) hlocals.cycleJustRan fun hunread => ?_
    unfold Phase.Unread at hunread
    split at hunread
    · rename_i hvalue
      rw [hvalue] at hover
      exact hover.elim
    · exact hunread.elim
  | maxIterations hphase => exact h.same (by simp) rfl False.elim

theorem rests_append (h : RestsWithoutProgress log) (hflush : .started .flush ∉ events) :
    RestsWithoutProgress (log ++ events) := by
  intro a b c after size heq
  obtain ⟨after', hlog, -⟩ := Blocks.split_append heq hflush
  exact h a b c after' size hlog

theorem rests_flush (h : RestsWithoutProgress log) (howes : ¬ Owes log) :
    RestsWithoutProgress (log ++ [Event.started .flush]) := by
  intro a b c after size heq hsizes hlast
  rcases Blocks.split_opened heq with ⟨-, hlog, -⟩ | ⟨after', hlog, -⟩
  · by_contra hwait
    refine howes ⟨a, b, c, size, hlog, hsizes, hlast, ?_⟩
    intro ms hpos hmem
    exact hwait ⟨ms, hpos, hmem⟩
  · exact h a b c after' size hlog hsizes hlast

/-- Only a size makes the loop owe a wait. -/
theorem Owes.of_append (h : Owes (log ++ events)) (hsizes : sizes events = []) : Owes log := by
  obtain ⟨a, b, c, size, heq, hb, hlast, hc⟩ := h
  have hnot : Event.answered (.queueSize size) ∉ events := by
    intro hmem
    have hsize : size ∈ sizes events := List.mem_filterMap.mpr ⟨_, hmem, rfl⟩
    rw [hsizes] at hsize
    cases hsize
  obtain ⟨c', hlog, rfl⟩ := Blocks.split_append heq hnot
  refine ⟨a, b, c', size, hlog, hb, hlast, ?_⟩
  intro ms hpos hmem
  exact hc ms hpos (List.mem_append_left _ hmem)

/-- A wait of positive length is no longer owed once it has ended. -/
theorem not_owes_slept {ms : ℚ} (hpos : 0 < ms) : ¬ Owes (log ++ [Event.slept ms]) := by
  rintro ⟨a, b, c, size, heq, hb, hlast, hc⟩
  obtain ⟨c', -, rfl⟩ := Blocks.split_append heq (by simp)
  exact hc ms hpos (List.mem_append_right _ List.mem_cons_self)

/-- The size that makes the loop owe a wait shows no decrease. -/
theorem resting_of_size {size : Int} {since : ℚ} (hran : Ran log d) (htally : Tallied log d)
    (hrested : Rested log d) (hphase : d.phase = .awaiting .getQueueSize since)
    (howes : Owes (log ++ [Event.answered (.queueSize size)])) :
    d.cycleJustRan = true ∧ d.removed size ≤ 0 := by
  obtain ⟨a, b, c, size', heq, hb, hlast, hc⟩ := howes
  rcases Blocks.split_opened heq with ⟨hsize, hlog, rfl⟩ | ⟨c', hlog, rfl⟩
  · cases hsize
    obtain ⟨read, hsizes, -, hread⟩ := htally
    have hsame : sizes a = read := by
      have hunread : d.unread = [] := by rw [unread, hphase]
      rw [hunread, List.append_nil] at hsizes
      rw [← hsizes, hlog, sizes_append]
      change sizes a = sizes a ++ sizes b
      rw [hb, List.append_nil]
    refine ⟨(hran a b hlog hb).1, ?_⟩
    rw [hsame, ← hread] at hlast
    unfold removed
    cases hcase : d.lastSize with
    | none => exact le_rfl
    | some last => exact sub_nonpos.mpr (hlast last hcase)
  · have howed : Owes log := by
      refine ⟨a, b, c', size', hlog, hb, hlast, ?_⟩
      intro ms hpos hmem
      exact hc ms hpos (List.mem_append_left _ hmem)
    have hover : ¬ d.phase.Over := not_over_of_awaiting hphase
    have hresting : d.Resting := hrested.resting hover howed
    rw [Resting, hphase] at hresting
    exact hresting.elim

/-- What the loop asks for while it owes a wait, or has ended its pass with. -/
theorem Resting.asks {d₀ : Drain} {mark : List Event} {work : Work} {now : ℚ} (h : d.Resting)
    (hasks : Asks d mark d₀ work) (hphase : d'.phase = .awaiting work now) :
    d'.Resting ∧ work ≠ .flush := by
  cases hasks with
  | busy hsettled | size hsettled | offline hsettled | flush hsettled | flushed hsettled
  | slept hsettled =>
    rw [Resting, hsettled] at h
    exact h.elim
  | sized hsettled hsized =>
    rw [Resting, hsettled] at h
    obtain ⟨hcycle, hremoved⟩ := h
    cases hsized with
    | again | pending => exact ⟨by rw [Resting, hphase]; trivial, by simp⟩
    | fresh _ _ hfresh =>
      rw [hcycle] at hfresh
      cases hfresh
    | rest _ _ hprogress | next _ _ _ hprogress => exact absurd hprogress (not_lt.mpr hremoved)
  | busyAgain =>
    refine ⟨?_, by simp⟩
    rw [Resting, hphase]
    exact by norm_num [DRAIN_IDLE_WAIT_MS]
  | cooled _ hpos =>
    refine ⟨?_, by simp⟩
    rw [Resting, hphase]
    exact hpos

theorem Rested.answered {work : Work} {since : ℚ} {value : Value} (hran : Ran log d)
    (htally : Tallied log d) (h : Rested log d) (hphase : d.phase = .awaiting work since)
    (hanswers : value.answers work = true) :
    Rested (log ++ [Event.answered value]) { d with phase := .settled work (.value value) } := by
  refine ⟨rests_append h.rests (by simp), fun _ howes => ?_⟩
  have hover : ¬ d.phase.Over := not_over_of_awaiting hphase
  have hrest (hsizes : sizes [.answered value] = []) : d.Resting :=
    h.resting hover (howes.of_append hsizes)
  cases value with
  | queueSize size =>
    have hwork : work = .getQueueSize := Value.answers_queueSize hanswers
    subst hwork
    have hresting : d.cycleJustRan = true ∧ d.removed size ≤ 0 :=
      resting_of_size hran htally h hphase howes
    exact hresting
  | isSyncingAgain | pendingItems => trivial
  | isSyncing | connectionStatus | flushed | slept =>
    have hresting := hrest rfl
    rw [Resting, hphase] at hresting
    cases work <;> first | exact hresting.elim | cases hanswers

theorem Rested.move (hran : Ran log d) (htally : Tallied log d) (h : Rested log d)
    (hmove : Move d events d') : Rested (log ++ events) d' := by
  cases hmove with
  | keep hlocals hphase hclock =>
    rw [List.append_nil]
    refine ⟨h.rests, fun hover howes => ?_⟩
    rw [hphase] at hover
    have hresting := h.resting hover howes
    unfold Resting removed at hresting ⊢
    rw [hphase, hlocals.cycleJustRan, hlocals.lastSize]
    exact hresting
  | answered hphase hanswers => exact h.answered hran htally hphase hanswers
  | @slept ms since hphase hlong =>
    refine ⟨rests_append h.rests (by simp), fun _ howes => ?_⟩
    have hover : ¬ d.phase.Over := not_over_of_awaiting hphase
    have hresting : d.Resting := h.resting hover (howes.of_append rfl)
    rw [Resting, hphase] at hresting
    have hmax : (0 : ℚ) < MAX_TIMER_DELAY_MS := by norm_num [MAX_TIMER_DELAY_MS]
    exact absurd howes (not_owes_slept ((lt_min hresting hmax).trans_le hlong))
  | @asks d₀ _ mark work hasks hgoes hlocals hphase hclock =>
    have hover : ¬ d.phase.Over := hasks.not_over
    have hsizes : sizes (mark ++ [Event.started work]) = [] := by
      rw [sizes_append, (htally.asks hasks).1]
      rfl
    refine ⟨?_, fun _ howes => ?_⟩
    · by_cases hflush : work = .flush
      · have howes : ¬ Owes log := fun howes =>
          ((h.resting hover howes).asks hasks hphase).2 hflush
        rw [hasks.mark_of_flush hflush, hflush]
        exact rests_flush h.rests howes
      · refine rests_append h.rests ?_
        simpa [hasks.flush_notMem] using fun h => hflush h.symm
    · exact ((h.resting hover (howes.of_append hsizes)).asks hasks hphase).1
  | stops hasks hstopping hlocals hphase hclock =>
    refine ⟨rests_append h.rests hasks.flush_notMem, fun hover => absurd ?_ hover⟩
    rw [hphase]
    trivial
  | returns hphase hpos =>
    refine ⟨rests_append h.rests (by simp), fun _ _ => ?_⟩
    trivial
  | ends hlocals hover hread hresult hclock =>
    exact ⟨rests_append h.rests (by simp), fun h => absurd hover h⟩
  | maxIterations hphase =>
    exact ⟨rests_append h.rests (by simp), fun h => absurd trivial h⟩

/-! ## 4. What is counted -/

/-- What holds in every run, whenever it is stopped. -/
structure Kept (log : List Event) (d : Drain) : Prop where
  sound : d.Sound
  tallied : Tallied log d
  placed : Placed log d
  ran : Ran log d
  rested : Rested log d
  resultOf : d.ResultOf

theorem flush_notMem_opening (options : DrainOptions) (now : ℚ) :
    .started .flush ∉ opening options now := by
  obtain ⟨-, -, ⟨-, hlog⟩ | ⟨-, hlog⟩⟩ := start_cases options now
  · simp [hlog]
  · simp [hlog]

theorem kept_start (options : DrainOptions) (now : ℚ) :
    Kept (opening options now) (start options now) := by
  obtain ⟨hlocals, -, hphase⟩ := start_cases options now
  have hflush := flush_notMem_opening options now
  have hsizes : sizes (opening options now) = [] := by
    rcases hphase with ⟨-, hlog⟩ | ⟨-, hlog⟩ <;> rw [hlog] <;> rfl
  have hunread : (start options now).unread = [] := by
    rcases hphase with ⟨hphase, -⟩ | ⟨hover, -⟩
    · rw [unread, hphase]
    · exact unread_of_over hover
  refine ⟨sound_start options now, ?_, ?_, ?_, ⟨?_, ?_⟩, ?_⟩
  · refine ⟨[], ?_, hlocals.itemsDispatched, hlocals.lastSize⟩
    rw [hsizes, hunread]
    rfl
  · rcases hphase with ⟨hphase, hlog⟩ | ⟨hover, -⟩
    · refine fun _ => ⟨[], ?_, ?_⟩
      · rw [hlog, trail, hphase]
        rfl
      · intro a b hnil
        simp at hnil
    · exact placed_of_over hover
  · intro a b hlog
    exact absurd (hlog ▸ by simp) hflush
  · intro a b c after size hlog
    exact absurd (hlog ▸ by simp) hflush
  · rintro - ⟨a, b, c, size, hlog, -⟩
    exact absurd (hlog ▸ by simp) hflush
  · intro result cause hresolved
    rcases hphase with ⟨hphase, -⟩ | ⟨-, -⟩
    · cases hphase.symm.trans hresolved
    · unfold start raceWithStop at hresolved
      split at hresolved
      · cases hresolved
      · split at hresolved <;> cases hresolved

theorem Kept.move (h : Kept log d) (hmove : Move d events d') (hsound : d'.Sound) :
    Kept (log ++ events) d' where
  sound := hsound
  tallied := h.tallied.move hmove
  placed := h.placed.move hmove
  ran := h.ran.move hmove
  rested := h.rested.move h.ran h.tallied hmove
  resultOf := h.resultOf.move hmove

theorem goesToFlush_iff : d.goesToFlush = true ↔ d.sleepTimer = none ∧
    ∃ work status, d.phase = .settled work (.value (.connectionStatus status)) ∧
      status ≠ .DISCONNECTED := by
  unfold goesToFlush
  constructor
  · intro h
    split at h
    · rename_i work status hphase htimer
      exact ⟨htimer, work, status, hphase, by simpa using h⟩
    · cases h
  · rintro ⟨htimer, work, status, hphase, hstatus⟩
    rw [hphase, htimer]
    simpa using hstatus

/-- What a step does to the count, and to the flushes. -/
inductive FlushTurn (d : Drain) (l : Label) (d' : Drain) : Prop where
  | starts (hl : l = .run) (hgoes : d.goesToFlush = true) (hstopping : ¬ d.Stopping)
    (hiterations : d'.iterations = d.iterations + 1) (hlog : d.observed l = [.started .flush])
  | misses (hl : l = .run) (hgoes : d.goesToFlush = true) (hstopping : d.Stopping)
    (hiterations : d'.iterations = d.iterations + 1) (hlog : d.observed l = [])
    (hover : d'.phase.Over)
  | other (hgoes : l = .run → d.goesToFlush = false) (hiterations : d'.iterations = d.iterations)
    (hlog : .started .flush ∉ d.observed l)

theorem flushTurn_of_goes (hgoes : d.goesToFlush = true) (h : d.step .run = some d') :
    FlushTurn d .run d' := by
  obtain ⟨htimer, work, status, hphase, hstatus⟩ := goesToFlush_iff.mp hgoes
  have hrun : d.step .run = some
      ({ d with iterations := d.iterations + 1, cycleJustRan := true }.raceWithStop .flush) := by
    simp [step, run, hphase, htimer, resume, hstatus]
  have hround : d.comesRound = false := by rw [comesRound, hphase]
  have hobserved : d.observed .run = d'.begun := by
    change d.run = some d' at h
    rw [observed, hround, h]
    rfl
  rw [hrun] at h
  by_cases hstopping : d.Stopping
  · have hsame : SameStops d { d with iterations := d.iterations + 1, cycleJustRan := true } :=
      ⟨rfl, rfl, rfl⟩
    obtain ⟨cause, hrace⟩ := raceWithStop_of_stopping (hstopping.same hsame) .flush
    rw [hrace] at h
    cases h
    exact .misses rfl hgoes hstopping rfl hobserved trivial
  · have hcancelled : ¬ d.cancelled = true := fun h => hstopping (.inl h)
    have hlate : ¬ d.deadlineAt - d.clock ≤ 0 := fun h => hstopping (.inr (sub_nonpos.mp h))
    unfold raceWithStop at h
    rw [if_neg hcancelled, if_neg hlate] at h
    cases h
    exact .starts rfl hgoes hstopping rfl hobserved

/-- Only a turn of the loop moves on from a value. -/
theorem step_of_settled {work : Work} {value : Value} {l : Label}
    (hphase : d.phase = .settled work (.value value)) (h : d.step l = some d') :
    d'.phase = d.phase ∨ (l = .run ∧ d.sleepTimer = none) := by
  cases l with
  | run =>
    simp only [step, run, hphase] at h
    split at h
    · cases h
      exact .inl hphase.symm
    · rename_i hset
      exact .inr ⟨rfl, by simpa using hset⟩
  | tick =>
    simp only [step, Option.ite_none_right_eq_some] at h
    cases h.2
    exact .inl rfl
  | cancel =>
    simp only [step, hphase, Option.ite_none_right_eq_some] at h
    cases h.2
    exact .inl hphase.symm
  | answer | fail | sleepTimer | deadlineTimer =>
    simp only [step, hphase] at h
    cases h

theorem flushTurn_of_not_goes {l : Label} (hsound : d.Sound)
    (hgoes : l = .run → d.goesToFlush = false) (h : d.step l = some d') : FlushTurn d l d' := by
  have hstays {status : ConnectionStatus}
      (hphase : d.phase = .settled .getConnectionStatus (.value (.connectionStatus status)))
      (hstatus : status ≠ .DISCONNECTED) : d'.phase = d.phase := by
    refine (step_of_settled hphase h).resolve_right ?_
    rintro ⟨hl, htimer⟩
    have htrue : d.goesToFlush = true := goesToFlush_iff.mpr ⟨htimer, _, _, hphase, hstatus⟩
    rw [hgoes hl] at htrue
    cases htrue
  generalize hevents : d.observed l = events at *
  have hmove : Move d events d' := hevents ▸ (moves_step hsound h).1
  suffices hkeeps : d'.iterations = d.iterations ∧ .started .flush ∉ events from
    .other hgoes hkeeps.1 (hevents ▸ hkeeps.2)
  cases hmove with
  | keep hlocals | ends hlocals => exact ⟨hlocals.iterations, by simp⟩
  | answered | slept | returns | maxIterations => exact ⟨rfl, by simp⟩
  | asks hasks hgoing hlocals hphase =>
    cases hasks with
    | busy | size | busyAgain | cooled | offline | flushed | slept =>
      exact ⟨hlocals.iterations, by simp⟩
    | sized hsettled hsized =>
      refine ⟨hlocals.iterations, ?_⟩
      cases hsized <;> simp
    | flush hsettled hstatus => cases hphase.symm.trans ((hstays hsettled hstatus).trans hsettled)
  | stops hasks hstopping hlocals hphase =>
    cases hasks with
    | busy | size | busyAgain | cooled | offline | flushed | slept | sized =>
      exact ⟨hlocals.iterations, by simp⟩
    | flush hsettled hstatus => cases hphase.symm.trans ((hstays hsettled hstatus).trans hsettled)

theorem flushTurn {l : Label} (hsound : d.Sound) (h : d.step l = some d') : FlushTurn d l d' := by
  by_cases hrun : l = .run
  · cases hgoes : d.goesToFlush with
    | true =>
      subst hrun
      exact flushTurn_of_goes hgoes h
    | false => exact flushTurn_of_not_goes hsound (fun _ => hgoes) h
  · exact flushTurn_of_not_goes hsound (fun hl => absurd hl hrun) h

/-- Before a flush is started the loop has read a size, which decides whether the
flush is cleared. -/
theorem Kept.cleared_iff (h : Kept log d) (hgoes : d.goesToFlush = true) :
    ∃ size, d.lastSize = some size ∧ (Cleared log ↔ 0 < size) := by
  obtain ⟨-, work, status, hphase, hstatus⟩ := goesToFlush_iff.mp hgoes
  have hwork : work = .getConnectionStatus := by
    have hanswers := answers_of_sound h.sound hphase
    cases work <;> first | rfl | simp [Value.answers] at hanswers
  subst hwork
  have hover : ¬ d.phase.Over := by
    rw [hphase]
    exact False.elim
  obtain ⟨before, hlog, hback⟩ := h.placed hover
  rw [trail, hphase] at hlog
  have hlast : d.lastSize = some (d.lastSize.getD 0) := by
    obtain ⟨read, hsizes, -, hread⟩ := h.tallied
    have hunread : d.unread = [] := by rw [unread, hphase]
    have htrail : sizes log = sizes before ++ [d.lastSize.getD 0] := by
      rw [hlog, sizes_append]
      rfl
    rw [hunread, List.append_nil] at hsizes
    calc d.lastSize = (sizes log).getLast? := by rw [hsizes, hread]
      _ = some (d.lastSize.getD 0) := by rw [htrail, List.getLast?_concat]
  refine ⟨d.lastSize.getD 0, hlast, ?_, ?_⟩
  · rintro ⟨before', size, status', -, hpos, -, hcleared⟩
    have htrails := (List.append_inj' (hlog.symm.trans hcleared) rfl).2
    obtain ⟨hsize, -⟩ : d.lastSize.getD 0 = size ∧ status = status' := by simpa using htrails
    rw [hsize]
    exact hpos
  · intro hpos
    exact ⟨before, d.lastSize.getD 0, status, hback, hpos, hstatus, hlog⟩

theorem disciplined_flush (h : Disciplined log) (hcleared : Cleared log) :
    Disciplined (log ++ [Event.started .flush]) := by
  intro before after heq
  rcases Blocks.split_opened heq with ⟨-, rfl, -⟩ | ⟨after', hlog, -⟩
  · exact hcleared
  · exact h before after' hlog

theorem disciplined_append (h : Disciplined log) (hflush : .started .flush ∉ events) :
    Disciplined (log ++ events) := by
  intro before after heq
  obtain ⟨after', hlog, -⟩ := Blocks.split_append heq hflush
  exact h before after' hlog

theorem disciplined_of_append (h : Disciplined (log ++ events)) : Disciplined log := by
  intro before after hlog
  refine h before (after ++ events) ?_
  rw [hlog, List.append_assoc, List.cons_append]

theorem flushes_append_of_notMem (hflush : .started .flush ∉ events) :
    flushes (log ++ events) = flushes log := by
  have hnone : flushes events = 0 := List.count_eq_zero.mpr hflush
  rw [flushes_append, hnone, add_zero]

theorem flushes_flush (log : List Event) :
    flushes (log ++ [Event.started .flush]) = flushes log + 1 := by
  rw [flushes_append]
  rfl

/-- Every flush is cleared and counted. -/
structure Counted (log : List Event) (d : Drain) : Prop extends Kept log d where
  iterations : d.iterations = flushes log
  disciplined : Disciplined log

/-- A flush has been counted and not started, or was not cleared. -/
structure Miscounted (log : List Event) (d : Drain) : Prop extends Kept log d where
  wrong : (d.phase.Over ∧ d.iterations = flushes log + 1) ∨ ¬ Disciplined log

theorem counted_start (options : DrainOptions) (now : ℚ) :
    Counted (opening options now) (start options now) := by
  have hflush := flush_notMem_opening options now
  refine ⟨kept_start options now, ?_, ?_⟩
  · rw [flushes, List.count_eq_zero.mpr hflush]
    exact (start_cases options now).1.iterations
  · intro before after hlog
    exact absurd (hlog ▸ by simp) hflush

/-- The step of a drain with its log. -/
theorem Kept.step {p q : Drain × List Event} {l : Label} (h : Kept p.2 p.1)
    (hs : StepSystem.recorded Drain.step observed p l = some q) :
    Kept q.2 q.1 ∧ FlushTurn p.1 l q.1 ∧ q.2 = p.2 ++ p.1.observed l := by
  obtain ⟨hstep, hlog⟩ := StepSystem.recorded_eq_some.mp hs
  obtain ⟨hmove, hsound⟩ := moves_step h.sound hstep
  have hkept : Kept q.2 q.1 := by
    rw [hlog]
    exact h.move hmove hsound
  exact ⟨hkept, flushTurn h.sound hstep, hlog⟩

theorem Counted.step {p q : Drain × List Event} {l : Label} (h : Counted p.2 p.1)
    (hkeeps : KeepsCount p.1 l) (hs : StepSystem.recorded Drain.step observed p l = some q) :
    Counted q.2 q.1 := by
  obtain ⟨hkept, hturn, hlog⟩ := h.toKept.step hs
  refine ⟨hkept, ?_, ?_⟩
  · rw [hlog]
    cases hturn with
    | starts hl hgoes hstopping hiterations hevents =>
      rw [hevents, flushes_flush, hiterations, h.iterations]
    | misses hl hgoes hstopping =>
      subst hl
      obtain ⟨hcancelled, hlate, -⟩ := hkeeps hgoes
      rcases hstopping with hstop | hstop
      · rw [hcancelled] at hstop
        cases hstop
      · exact absurd hstop (not_le.mpr hlate)
    | other hgoes hiterations hevents =>
      rw [flushes_append_of_notMem hevents, hiterations, h.iterations]
  · rw [hlog]
    cases hturn with
    | starts hl hgoes hstopping hiterations hevents =>
      subst hl
      obtain ⟨size, hlast, hcleared⟩ := h.toKept.cleared_iff hgoes
      rw [hevents]
      exact disciplined_flush h.disciplined (hcleared.mpr ((hkeeps hgoes).2.2 size hlast))
    | misses hl hgoes hstopping hiterations hevents =>
      rw [hevents, List.append_nil]
      exact h.disciplined
    | other hgoes hiterations hevents => exact disciplined_append h.disciplined hevents

theorem Counted.miscounted {p q : Drain × List Event} {l : Label} (h : Counted p.2 p.1)
    (hkeeps : ¬ KeepsCount p.1 l) (hs : StepSystem.recorded Drain.step observed p l = some q) :
    Miscounted q.2 q.1 := by
  obtain ⟨hkept, hturn, hlog⟩ := h.toKept.step hs
  refine ⟨hkept, ?_⟩
  cases hturn with
  | starts hl hgoes hstopping hiterations hevents =>
    subst hl
    right
    obtain ⟨size, hlast, hcleared⟩ := h.toKept.cleared_iff hgoes
    intro hdisciplined
    rw [hlog, hevents] at hdisciplined
    have hpos : 0 < size := hcleared.mp (hdisciplined p.2 [] rfl)
    refine hkeeps fun _ => ⟨?_, ?_, ?_⟩
    · exact Bool.eq_false_iff.mpr fun hcancelled => hstopping (.inl hcancelled)
    · exact not_le.mp fun hlate => hstopping (.inr hlate)
    · intro last hsome
      rw [hlast] at hsome
      cases hsome
      exact hpos
  | misses hl hgoes hstopping hiterations hevents hover =>
    left
    refine ⟨hover, ?_⟩
    rw [hlog, hevents, List.append_nil, hiterations, h.iterations]
  | other hgoes hiterations hevents =>
    refine absurd ?_ hkeeps
    cases l with
    | run =>
      intro htrue
      rw [hgoes rfl] at htrue
      cases htrue
    | tick | answer | fail | sleepTimer | deadlineTimer | cancel => trivial

theorem over_move (hover : d.phase.Over) (hmove : Move d events d') : d'.phase.Over := by
  cases hmove with
  | keep hlocals hphase =>
    rw [hphase]
    exact hover
  | answered hphase | slept hphase | returns hphase | maxIterations hphase =>
    rw [hphase] at hover
    exact hover.elim
  | asks hasks | stops hasks => exact absurd hover hasks.not_over
  | ends _ hended => exact hended

theorem Miscounted.step {p q : Drain × List Event} {l : Label} (h : Miscounted p.2 p.1)
    (hs : StepSystem.recorded Drain.step observed p l = some q) : Miscounted q.2 q.1 := by
  obtain ⟨hkept, hturn, hlog⟩ := h.toKept.step hs
  refine ⟨hkept, ?_⟩
  rcases h.wrong with ⟨hover, hiterations⟩ | hundisciplined
  · left
    have hstep := (StepSystem.recorded_eq_some.mp hs).1
    refine ⟨over_move hover (moves_step h.sound hstep).1, ?_⟩
    cases hturn with
    | starts hl hgoes | misses hl hgoes =>
      obtain ⟨-, work, status, hphase, -⟩ := goesToFlush_iff.mp hgoes
      rw [hphase] at hover
      exact hover.elim
    | other hgoes hsame hevents =>
      rw [hlog, flushes_append_of_notMem hevents, hsame, hiterations]
  · right
    intro hdisciplined
    rw [hlog] at hdisciplined
    exact hundisciplined (disciplined_of_append hdisciplined)

/-- A result accounts for the items and the sizes in every run. -/
theorem Kept.result (h : Kept log d) {result : DrainResult} {cause : Option StopCause}
    (hphase : d.phase = .resolved result cause) :
    result.iterations = d.iterations ∧ result.itemsDispatched = decreases (sizes log) ∧
      result.queueRemaining = (sizes log).getLast?.getD 0 := by
  obtain ⟨read, hsizes, hitems, hlast⟩ := h.tallied
  have hunread : d.unread = [] := by rw [unread, hphase]
  rw [hunread, List.append_nil] at hsizes
  rw [h.resultOf result cause hphase, hsizes]
  exact ⟨rfl, hitems, congrArg (Option.getD · 0) hlast⟩

theorem Counted.accounted (h : Counted log d) : Accounted log d where
  disciplined := h.disciplined
  rests := h.rested.rests
  accounts result cause hphase := by
    obtain ⟨hiterations, hitems, hremaining⟩ := h.toKept.result hphase
    exact ⟨hiterations.trans h.iterations, hitems, hremaining⟩

theorem Miscounted.not_accounted (h : Miscounted log d) {result : DrainResult}
    {cause : Option StopCause} (hphase : d.phase = .resolved result cause) :
    ¬ Accounted log d := by
  intro haccounted
  rcases h.wrong with ⟨-, hiterations⟩ | hundisciplined
  · have hresult : result.iterations = d.iterations := (h.toKept.result hphase).1
    have hcount := (haccounted.accounts result cause hphase).iterations
    rw [hresult, hiterations] at hcount
    exact absurd hcount (Nat.succ_ne_self _)
  · exact hundisciplined haccounted.disciplined

/-- In every run of `runDrain`, for all options and whatever the native operations and
the timers do: when every turn that goes on to a flush starts it, on a size that is
positive, the log and the result are accounted for. A drain that has resolved is
accounted for in no other run. -/
theorem flush_accounted_iff {options : DrainOptions} {now : ℚ} {ls : List Label}
    (h : StepSystem.exec (StepSystem.recorded step observed)
      (start options now, opening options now) ls = some (d, log)) :
    (StepSystem.Meets step KeepsCount (start options now) ls → Accounted log d) ∧
    ∀ result cause, d.phase = .resolved result cause →
      (Accounted log d ↔ StepSystem.Meets step KeepsCount (start options now) ls) := by
  have hstart := counted_start options now
  refine ⟨fun hmeets => ?_, fun result cause hphase => ?_⟩
  · have hcounted : Counted (d, log).2 (d, log).1 :=
      StepSystem.exec_invariant_of_meets (I := fun p => Counted p.2 p.1)
        (fun hp hkeeps hs => hp.step hkeeps hs) hstart (hmeets.recorded observed _) h
    exact hcounted.accounted
  · refine Iff.trans ?_ (StepSystem.meets_recorded_iff observed (opening options now))
    exact StepSystem.last_iff_meets (I := fun p => Counted p.2 p.1)
      (J := fun p => Miscounted p.2 p.1) (Q := fun p => Accounted p.2 p.1)
      (fun hp hkeeps hs => hp.step hkeeps hs) (fun hp hkeeps hs => hp.miscounted hkeeps hs)
      (fun hp hs => hp.step hs) hstart h Counted.accounted
      fun hlost => hlost.not_accounted hphase

section Sample

/-- The first pass of a drain that is online with one item. -/
def firstPass : List Label :=
  [.answer (.isSyncing false), .run, .answer (.queueSize 1), .run,
    .answer (.connectionStatus .CONNECTED)]

/-- One cycle takes the item. -/
def emptyingRun : List Label :=
  firstPass ++ [.run, .answer .flushed, .run, .answer (.isSyncing false), .run,
    .answer (.queueSize 0), .run, .answer (.isSyncingAgain false), .run]

theorem flush_accounted_when_emptied :
    ∃ d log result, StepSystem.exec (StepSystem.recorded step observed)
        (start {} 0, opening {} 0) emptyingRun = some (d, log) ∧
      d.phase = .resolved result none ∧ Accounted log d ∧ result.itemsDispatched = 1 := by
  obtain ⟨p, hrun, hphase, hmeets⟩ :
      ∃ p ∈ StepSystem.exec (StepSystem.recorded step observed)
          (start {} 0, opening {} 0) emptyingRun,
        p.1.phase = .resolved ⟨1, 1, 0, .EMPTY⟩ none ∧
          StepSystem.Meets step KeepsCount (start {} 0) emptyingRun := by
    decide +kernel
  exact ⟨p.1, p.2, _, hrun, hphase, (flush_accounted_iff hrun).1 hmeets, rfl⟩

/-! ## 5. A flush that is counted and not started -/

/-- The cancel comes when the connection has been read and the loop has not gone on
yet. The result counts one iteration, and no flush has been started. -/
theorem stopped_flush_is_counted :
    ∃ d log result, StepSystem.exec (StepSystem.recorded step observed)
        (start {} 0, opening {} 0) (firstPass ++ [.cancel, .run, .run]) = some (d, log) ∧
      d.phase = .resolved result (some .cancelled) ∧ result.iterations = 1 ∧ flushes log = 0 := by
  obtain ⟨p, hrun, hphase, hflushes⟩ :
      ∃ p ∈ StepSystem.exec (StepSystem.recorded step observed)
          (start {} 0, opening {} 0) (firstPass ++ [.cancel, .run, .run]),
        p.1.phase = .resolved ⟨1, 0, 1, .CANCELLED⟩ (some .cancelled) ∧ flushes p.2 = 0 := by
    decide +kernel
  exact ⟨p.1, p.2, _, hrun, hphase, rfl, hflushes⟩

end Sample

end Drain

end SyncProvider.Js
