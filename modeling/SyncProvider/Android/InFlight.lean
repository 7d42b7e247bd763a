import SyncProvider.Android.Rejection

/-!
# Android: the rows in flight

A claim marks its rows `IN_FLIGHT`, and each outcome takes one of them out
again. Two exits miss a row. A dispatch whose write throws is recorded as a failed
one, so it is reported while its row stays in flight. And when the reset after a
rejected probe throws, the cycle aborts without another one, since only a
cancellation calls for it.

Results:
1. `Dispatch.landed_step` : a written outcome and its row.
2. `Minds.cycle_step` : the rows a cycle has claimed, after each of its steps.
3. `nothing_stranded_of_recovers` : when a cycle that ends leaves no row in flight.
-/

namespace SyncProvider.Android

/-! ## The log of a cycle -/

inductive Deed where
  | claimed (rows : List SyncItemEntity)
  /-- The outcome of this row was written. -/
  | settled (row : SyncItemEntity) (s : Settlement)
  /-- `resetInFlight` ran after a rejected probe. -/
  | released
  | reported (result : SyncResult)
  /-- The reset of `abortCycle` threw. -/
  | unreset
  deriving DecidableEq

/-- The rows claimed so far, as the claim handed them out. -/
def batch (log : List Deed) : List SyncItemEntity :=
  log.flatMap fun
    | .claimed rows => rows
    | _ => []

def claimedIds (log : List Deed) : List String := (batch log).map (·.id)

/-- The results reported so far. -/
def reports (log : List Deed) : List SyncResult :=
  log.filterMap fun
    | .reported result => some result
    | _ => none

@[simp] theorem batch_append (log log' : List Deed) :
    batch (log ++ log') = batch log ++ batch log' :=
  List.flatMap_append

@[simp] theorem claimedIds_append (log log' : List Deed) :
    claimedIds (log ++ log') = claimedIds log ++ claimedIds log' := by
  simp [claimedIds]

@[simp] theorem reports_append (log log' : List Deed) :
    reports (log ++ log') = reports log ++ reports log' :=
  List.filterMap_append

/-- What a step of a dispatch adds to the log. -/
def Dispatch.deeds (options : SyncOptions) (credentials : CredentialPolicy) (d : Dispatch)
    (ev : DispatchEvent) : List Deed :=
  match ev, d.state with
  | .refuse, .started startedAt => [.settled d.entity (Android.refuse d.entity startedAt)]
  | .settle now sample, .attempted startedAt result =>
    [.settled d.entity
      (Android.settle options credentials d.entity startedAt now sample result)]
  | _, _ => []

def Cycle.deeds (w : World) (c : Cycle) (ev : CycleEvent) : List Deed :=
  match ev, c.phase with
  | .claim, _ =>
    [.claimed (SyncItemDao.claimPending c.startedAt (batchSize c.options) w.table).2]
  | .dispatch i dev, .dispatching _ dispatches =>
    match dispatches[i]? with
    | some d => d.deeds c.options c.credentials dev
    | none => []
  | .release, _ => [.released]
  | .record now, .recording outcomes => [.reported (buildResult c.startedAt now outcomes)]
  | _, _ => []

/-- What a step adds to the log of the cycle of caller `t`. -/
def Engine.deeds (t : Nat) (e : Engine) : Label → List Deed
  | .cycle u ev =>
    if u = t then
      match (e.calls t).state with
      | .cycle c => c.deeds e.world ev
      | _ => []
    else []
  | _ => []

/-! ## The reset of `abortCycle` -/

/-- `abortCycle` when its reset throws: the rows stay, and it goes on. -/
def Cycle.abortUnreset (w : World) (c : Cycle) : Option (World × Cycle) :=
  match c.phase with
  | .aborting .cancelled terminalEventSent notBefore =>
    if terminalEventSent then
      some ({ w with syncing := false }, { c with phase := .finishing notBefore })
    else some (w, { c with phase := .failing .cancelled notBefore })
  | _ => none

/-- A step of the process, or the reset of `abortCycle` throws. -/
inductive Act where
  | step (l : Label)
  | abortUnreset (t : Nat)
  deriving DecidableEq

/-- The cycle the caller runs. -/
def Call.cycle? (call : Call) : Option Cycle :=
  match call.state with
  | .cycle c => some c
  | _ => none

namespace Engine

def act (accepts : HttpRequest → Bool) (e : Engine) : Act → Option Engine
  | .step l => e.step accepts l
  | .abortUnreset t =>
    match (e.calls t).state with
    | .cycle c => (c.abortUnreset e.world).map fun (w, c') =>
      { e.setState t (.cycle c') with world := w }
    | _ => none

/-- What it adds to the log of the cycle of caller `t`. -/
def actDeeds (t : Nat) (e : Engine) : Act → List Deed
  | .step l => deeds t e l
  | .abortUnreset u => if u = t then [.unreset] else []

end Engine

/-! ## 1. A row and its outcome -/

/-- The row with this id has such a status, or is gone. -/
def Lies (statuses : ItemStatus → Prop) (id : String) (t : SyncItems) : Prop :=
  ∀ r ∈ t.rows, r.id = id → statuses r.status

instance decidableLies (statuses : ItemStatus → Prop) [DecidablePred statuses] (id : String)
    (t : SyncItems) : Decidable (Lies statuses id t) :=
  inferInstanceAs (Decidable (∀ r ∈ t.rows, r.id = id → statuses r.status))

theorem Lies.mono {statuses statuses' : ItemStatus → Prop} {id : String} {t : SyncItems}
    (h : Lies statuses id t) (himp : ∀ status, statuses status → statuses' status) :
    Lies statuses' id t :=
  fun r hr hid => himp _ (h r hr hid)

theorem Lies.congr {statuses : ItemStatus → Prop} {id : String} {t t' : SyncItems}
    (h : Lies statuses id t) (hrows : ∀ r ∈ t'.rows, r.id = id → r ∈ t.rows) :
    Lies statuses id t' :=
  fun r hr hid => h r (hrows r hr hid) hid

/-- A row that has failed is not in flight. -/
theorem Lies.landed {id : String} {t : SyncItems} (h : Lies (· = .FAILED) id t) :
    Lies (· ≠ .IN_FLIGHT) id t := by
  refine h.mono fun status hfailed => ?_
  rw [hfailed]
  decide

/-- After a reset no row is in flight. -/
theorem lies_resetInFlight (id : String) (t : SyncItems) :
    Lies (· ≠ .IN_FLIGHT) id (SyncItemDao.resetInFlight t) := by
  intro r hr hid
  obtain ⟨r₀, -, rfl⟩ := KeyedTable.mem_updateWhere.mp hr
  split
  · show ItemStatus.PENDING ≠ .IN_FLIGHT
    decide
  · rename_i hstatus
    simpa using hstatus

/-- A reset takes no row out of `FAILED`. -/
theorem Lies.resetInFlight {id : String} {t : SyncItems} (h : Lies (· = .FAILED) id t) :
    Lies (· = .FAILED) id (SyncItemDao.resetInFlight t) := by
  intro r hr hid
  obtain ⟨r₀, hr₀, heq, hfailed⟩ := SyncItemDao.resetInFlight_cases hr
  exact hfailed (h r₀ hr₀ (by rw [← hid, heq]))

/-- What an outcome says about the row with this id is so. -/
structure ItemOutcome.Landed (outcome : ItemOutcome) (id : String) (t : SyncItems) : Prop where
  landed : Lies (· ≠ .IN_FLIGHT) id t
  failed : ∀ itemId code message, outcome = .failed itemId code message →
    itemId = id ∧ Lies (· = .FAILED) id t

/-- The row an update is about has the new status. -/
theorem lies_updateStatus {id : String} {status : ItemStatus} {attempts : Int}
    {lastAttemptAt : Option Int} {lastErrorCode : Option SyncErrorCode} {nextRetryAt : Int}
    {t : SyncItems} :
    Lies (· = status) id
      (SyncItemDao.updateStatus id status attempts lastAttemptAt lastErrorCode nextRetryAt t) := by
  intro r hr hid
  obtain ⟨r₀, -, rfl⟩ := SyncItemDao.mem_updateStatus.mp hr
  split
  · rfl
  · rename_i hne
    rw [if_neg hne] at hid
    exact absurd (by simpa using hid) hne

theorem Exit.landed {entity : SyncItemEntity} {s : Settlement} (h : Exit entity s)
    (t : SyncItems) : s.outcome.Landed entity.id (s.write.run t) := by
  have waits {t : SyncItems} (hlies : Lies (· = .PENDING) entity.id t) :
      Lies (· ≠ .IN_FLIGHT) entity.id t := by
    refine hlies.mono fun status hpending => ?_
    rw [hpending]
    decide
  cases h with
  | refused | failed =>
    refine ⟨Lies.landed lies_updateStatus, fun itemId code message heq => ?_⟩
    cases heq
    exact ⟨rfl, lies_updateStatus⟩
  | held | rescheduled =>
    refine ⟨waits lies_updateStatus, fun itemId code message heq => ?_⟩
    cases heq
  | succeeded =>
    refine ⟨fun r hr hid => ?_, fun itemId code message heq => ?_⟩
    · obtain ⟨-, hne⟩ := KeyedTable.mem_deleteWhere.mp hr
      simp [hid] at hne
    · cases heq

namespace Dispatch

variable {accepts : HttpRequest → Bool} {live options : SyncOptions}
  {credentials : CredentialPolicy} {w w' : World} {d d' : Dispatch} {ev : DispatchEvent}

/-- If the outcome is written, what it says is so. -/
def Landed (t : SyncItems) (d : Dispatch) : Prop :=
  match d.state with
  | .settled _ outcome | .done outcome => outcome.Landed d.entity.id t
  | _ => True

theorem Landed.congr {t t' : SyncItems} (h : d.Landed t)
    (hrows : ∀ r ∈ t'.rows, r.id = d.entity.id → r ∈ t.rows) : d.Landed t' := by
  unfold Landed at h ⊢
  cases hstate : d.state with
  | settled event outcome | done outcome =>
    rw [hstate] at h
    refine ⟨h.landed.congr hrows, fun itemId code message heq => ?_⟩
    obtain ⟨hid, hfailed⟩ := h.failed itemId code message heq
    exact ⟨hid, hfailed.congr hrows⟩
  | queued | started startedAt | requesting startedAt | attempted startedAt result => trivial

theorem landed_step (hL : d.Landed w.table)
    (hcrash : ∀ message, ev = .crash message → Lies (· = .FAILED) d.entity.id w.table)
    (h : d.step accepts live options credentials w ev = some (w', d')) : d'.Landed w'.table := by
  cases step_moves h with
  | start | unbuilt | send | respond => trivial
  | refuse => exact Exit.landed (.refused _) w.table
  | settle => exact (exit_settle ..).landed w.table
  | emit => exact hL
  | @crash entity state message =>
    -- the outcome says that the row has failed, whatever was written
    have hfailed : Lies (· = .FAILED) entity.id w.table := hcrash message rfl
    refine ⟨hfailed.landed, fun itemId code message heq => ?_⟩
    cases heq
    exact ⟨rfl, hfailed⟩

end Dispatch

/-! ## 2. The rows of a cycle -/

/-- Nothing more is written about the rows. -/
def Put (t : SyncItems) (log : List Deed) : Prop :=
  ∀ id ∈ claimedIds log, Lies (· ≠ .IN_FLIGHT) id t

instance decidablePut (t : SyncItems) (log : List Deed) : Decidable (Put t log) :=
  inferInstanceAs (Decidable (∀ id ∈ claimedIds log, Lies (· ≠ .IN_FLIGHT) id t))

/-- What is known about the rows it has claimed, by the phase of the cycle. -/
def Cycle.Hand (t : SyncItems) (c : Cycle) (log : List Deed) : Prop :=
  match c.phase with
  | .starting | .claiming => log = []
  | .claimed rows => claimedIds log = rows.map (·.id) ∧ reports log = []
  | .dispatching _ ds =>
    claimedIds log = ds.map (·.entity.id) ∧ reports log = [] ∧ ∀ d ∈ ds, d.Landed t
  | .releasing first => first.isCredentialRejected = true
  | .recording outcomes => Put t log ∧ ∀ itemId code message,
    .failed itemId code message ∈ outcomes →
      itemId ∈ claimedIds log ∧ Lies (· = .FAILED) itemId t
  | .aborting cause _ _ => cause = .cancelled ∨ Put t log
  | _ => .unreset ∈ log ∨ Put t log

/-- What is known about the rows it has claimed and those it has reported as
failed. -/
structure Minds (w : World) (c : Cycle) (log : List Deed) : Prop where
  issued : ∀ id ∈ claimedIds log, id ∈ w.issued
  failed : ∀ result ∈ reports log, ∀ id ∈ result.failedIds,
    id ∈ claimedIds log ∧ Lies (· = .FAILED) id w.table
  hand : c.Hand w.table log

theorem mem_failedIds {startedAt finishedAt : Int} {outcomes : List ItemOutcome} {id : String} :
    id ∈ (Cycle.buildResult startedAt finishedAt outcomes).failedIds ↔
      ∃ code message, .failed id code message ∈ outcomes := by
  simp only [Cycle.buildResult, List.mem_map, List.mem_filterMap]
  constructor
  · rintro ⟨q, ⟨outcome, houtcome, heq⟩, rfl⟩
    cases outcome <;> cases heq
    exact ⟨_, _, houtcome⟩
  · rintro ⟨code, message, h⟩
    exact ⟨_, ⟨_, h, rfl⟩, rfl⟩

namespace Minds

variable {accepts : HttpRequest → Bool} {live : SyncOptions} {cancelled : Bool} {w w' : World}
  {c c' : Cycle} {ev : CycleEvent} {log : List Deed}

/-- Rows of other items come and go. -/
theorem beside (hM : Minds w c log)
    (hrows : ∀ r ∈ w'.table.rows, r ∈ w.table.rows ∨ r.id ∉ w.issued)
    (hissued : w.issued ⊆ w'.issued) : Minds w' c log := by
  have hold {id : String} (hid : id ∈ claimedIds log) :
      ∀ r ∈ w'.table.rows, r.id = id → r ∈ w.table.rows := by
    intro r hr heq
    rcases hrows r hr with hr | hnew
    · exact hr
    · exact absurd (heq ▸ hM.issued id hid) hnew
  refine ⟨fun id hid => hissued (hM.issued id hid), fun result hresult id hid => ?_, ?_⟩
  · obtain ⟨hclaimed, hfailed⟩ := hM.failed result hresult id hid
    exact ⟨hclaimed, hfailed.congr (hold hclaimed)⟩
  · have hhand := hM.hand
    have hput (h : Put w.table log) : Put w'.table log :=
      fun id hid => (h id hid).congr (hold hid)
    unfold Cycle.Hand at hhand ⊢
    cases hphase : c.phase with
    | starting | claiming | claimed rows | releasing first =>
      rw [hphase] at hhand
      exact hhand
    | dispatching probing ds =>
      rw [hphase] at hhand
      obtain ⟨hclaimed, hnone, hlanded⟩ := hhand
      refine ⟨hclaimed, hnone, fun d hd => (hlanded d hd).congr (hold ?_)⟩
      rw [hclaimed]
      exact List.mem_map_of_mem hd
    | recording outcomes =>
      rw [hphase] at hhand
      refine ⟨hput hhand.1, fun itemId code message hin => ?_⟩
      obtain ⟨hclaimed, hfailed⟩ := hhand.2 itemId code message hin
      exact ⟨hclaimed, hfailed.congr (hold hclaimed)⟩
    | aborting cause terminalEventSent notBefore | recorded result notBefore
    | reporting result notBefore | reported notBefore | failing cause notBefore
    | finishing notBefore | finished =>
      rw [hphase] at hhand
      exact hhand.imp_right hput

/-- A step of one dispatch. -/
theorem dispatch_step (hM : Minds w c log) (hN : c.ids.Nodup) {probing : Bool}
    {ds : List Dispatch} {i : Nat} {dev : DispatchEvent} {d d' : Dispatch}
    (hphase : c.phase = .dispatching probing ds) (hi : ds[i]? = some d)
    (hcrash : ∀ message, dev = .crash message → Lies (· = .FAILED) d.entity.id w.table)
    (hstep : d.step accepts live c.options c.credentials w dev = some (w', d')) :
    Minds w' { c with phase := .dispatching probing (ds.set i d') }
      (log ++ d.deeds c.options c.credentials dev) := by
  have hhand := hM.hand
  rw [Cycle.Hand, hphase] at hhand
  obtain ⟨hclaimed, hnone, hlanded⟩ := hhand
  obtain ⟨hentity, -, hold⟩ := Dispatch.step_frame hstep
  have hmem : d ∈ ds := List.mem_of_getElem? hi
  have hids : (ds.map (·.entity.id)).Nodup := by
    rwa [Cycle.ids, Cycle.dispatches_of_phase hphase] at hN
  have hkinds : claimedIds (d.deeds c.options c.credentials dev) = [] ∧
      reports (d.deeds c.options c.credentials dev) = [] := by
    unfold Dispatch.deeds
    split <;> exact ⟨rfl, rfl⟩
  have hclaims : claimedIds (log ++ d.deeds c.options c.credentials dev) = claimedIds log := by
    rw [claimedIds_append, hkinds.1, List.append_nil]
  have hreports : reports (log ++ d.deeds c.options c.credentials dev) = reports log := by
    rw [reports_append, hkinds.2, List.append_nil]
  refine ⟨fun id hid => ?_, fun result hresult => ?_, ?_, ?_, fun x hx => ?_⟩
  · rw [hclaims] at hid
    rw [(Dispatch.step_spec hstep).issued]
    exact hM.issued id hid
  · rw [hreports, hnone] at hresult
    cases hresult
  · rw [hclaims, hclaimed, Cycle.map_id_set hi hentity]
  · rw [hreports, hnone]
  · rcases Cycle.mem_set_cases hids hi hx with rfl | ⟨hx, hne⟩
    · exact Dispatch.landed_step (hlanded d hmem) hcrash hstep
    · exact (hlanded x hx).congr fun r hr hid => hold r hr (hid ▸ hne)

/-- A step that no row and no result is logged for. -/
theorem move (hM : Minds w c log) {new : List Deed}
    (hclaims : claimedIds new = []) (hreports : reports new = []) (hissued : w'.issued = w.issued)
    (hfailed : ∀ id, Lies (· = .FAILED) id w.table → Lies (· = .FAILED) id w'.table)
    (hhand : c'.Hand w'.table (log ++ new)) : Minds w' c' (log ++ new) := by
  have hsame : claimedIds (log ++ new) = claimedIds log := by
    rw [claimedIds_append, hclaims, List.append_nil]
  refine ⟨fun id hid => ?_, fun result hresult id hid => ?_, hhand⟩
  · rw [hissued]
    exact hM.issued id (hsame ▸ hid)
  · rw [reports_append, hreports, List.append_nil] at hresult
    rw [hsame]
    exact (hM.failed result hresult id hid).imp_right (hfailed id)

/-- The claim. -/
theorem claim (hM : Minds w c log) (hphase : c.phase = .claiming)
    (hissued : ∀ id ∈ w.table.keys, id ∈ w.issued) :
    Minds
      { w with
        table := (SyncItemDao.claimPending c.startedAt (Cycle.batchSize c.options) w.table).1 }
      { c with
        phase :=
          .claimed (SyncItemDao.claimPending c.startedAt (Cycle.batchSize c.options) w.table).2 }
      (log ++ c.deeds w .claim) := by
  have hlog := hM.hand
  rw [Cycle.Hand, hphase] at hlog
  have hlog : log = [] := hlog
  subst hlog
  have hclaims : claimedIds ([] ++ c.deeds w .claim) =
      (SyncItemDao.claimPending c.startedAt (Cycle.batchSize c.options) w.table).2.map (·.id) :=
    congrArg (List.map SyncItemEntity.id) (List.append_nil _)
  refine ⟨fun id hid => ?_, fun result hresult => ?_, hclaims, rfl⟩
  · rw [hclaims] at hid
    obtain ⟨row, hrow, rfl⟩ := List.mem_map.mp hid
    exact hissued row.id (KeyedTable.key_mem_keys (SyncItemDao.selectClaimable_subset hrow).1)
  · cases hresult

end Minds

namespace Cycle

/-- The releasing phase has a suspended call that resets the rest of the batch. -/
def releasing (c : Cycle) : Bool :=
  match c.phase with
  | .releasing _ => true
  | _ => false

/-- If an operation throws at this step, no row is left behind. -/
def Recovers (w : World) (c : Cycle) (log : List Deed) : CycleEvent → Prop
  | .dispatch i (.crash _) => ∀ d ∈ c.dispatches[i]?, Lies (· = .FAILED) d.entity.id w.table
  | .raise _ => c.releasing = true → Put w.table log
  | _ => True

instance decidableRecovers (w : World) (c : Cycle) (log : List Deed) :
    (ev : CycleEvent) → Decidable (c.Recovers w log ev)
  | .dispatch i (.crash _) =>
    inferInstanceAs (Decidable (∀ d ∈ c.dispatches[i]?, Lies (· = .FAILED) d.entity.id w.table))
  | .raise _ => inferInstanceAs (Decidable (c.releasing = true → Put w.table log))
  | .dispatch _ (.start _) | .dispatch _ .refuse | .dispatch _ .send | .dispatch _ (.respond _)
  | .dispatch _ (.settle _ _) | .dispatch _ .emit | .emitStarted | .claim | .resume | .probed
  | .release | .join | .record _ | .emitTerminal | .throw | .abort | .emitFailed | .finish =>
    isTrue trivial

end Cycle

namespace Minds

variable {accepts : HttpRequest → Bool} {live : SyncOptions} {cancelled : Bool} {w w' : World}
  {c c' : Cycle} {ev : CycleEvent} {log : List Deed}

/-- A storage operation of the cycle throws. -/
theorem raise (hM : Minds w c log) {code : Option SyncErrorCode} {phase : CyclePhase}
    (hR : c.Recovers w log (.raise code)) (hstorage : Cycle.inStorage c.phase = true)
    (h : Cycle.thrown (.failed code) c.phase = some phase) :
    Cycle.Hand w.table { c with phase := phase } log := by
  have hhand := hM.hand
  unfold Cycle.Hand at hhand
  cases Cycle.thrown_spec h with
  | claiming hphase =>
    rw [hphase] at hhand
    have hlog : log = [] := hhand
    subst hlog
    exact .inr fun id hid => absurd hid List.not_mem_nil
  | releasing hphase => exact .inr (hR (by rw [Cycle.releasing, hphase]))
  | recording hphase =>
    rw [hphase] at hhand
    exact .inr hhand.1
  | starting hphase | claimed hphase | dispatching hphase | recorded hphase
  | reporting hphase | reported hphase =>
    rw [hphase] at hstorage
    cases hstorage

/-- The suspended call is cancelled. -/
theorem throw {phase : CyclePhase} (h : Cycle.thrown .cancelled c.phase = some phase) :
    Cycle.Hand w.table { c with phase := phase } log := by
  cases Cycle.thrown_spec h <;> exact .inl rfl

/-- All dispatches are done. -/
theorem join {ds : List Dispatch} {outcomes : List ItemOutcome} (hM : Minds w c log)
    (hphase : c.phase = .dispatching false ds)
    (houtcomes : ds.mapM Dispatch.outcome? = some outcomes) :
    Cycle.Hand w.table { c with phase := .recording outcomes } log := by
  have hhand := hM.hand
  rw [Cycle.Hand, hphase] at hhand
  obtain ⟨hclaimed, -, hlanded⟩ := hhand
  have hdone {d : Dispatch} {outcome : ItemOutcome} (hd : d ∈ ds)
      (houtcome : d.outcome? = some outcome) : outcome.Landed d.entity.id w.table := by
    have := hlanded d hd
    rwa [Dispatch.Landed, Dispatch.done_of_outcome houtcome] at this
  refine ⟨fun id hid => ?_, fun itemId code message hin => ?_⟩
  · rw [hclaimed] at hid
    obtain ⟨d, hd, rfl⟩ := List.mem_map.mp hid
    obtain ⟨outcome, houtcome⟩ := Dispatch.outcome_of_mapM houtcomes hd
    exact (hdone hd houtcome).landed
  · obtain ⟨d, hd, houtcome⟩ := Dispatch.mem_of_mapM houtcomes hin
    obtain ⟨rfl, hfailed⟩ := (hdone hd houtcome).failed itemId code message rfl
    rw [hclaimed]
    exact ⟨List.mem_map_of_mem hd, hfailed⟩

theorem cycle_step (hM : Minds w c log) (hN : c.ids.Nodup)
    (hissued : ∀ id ∈ w.table.keys, id ∈ w.issued) (hR : c.Recovers w log ev)
    (h : c.step accepts live cancelled w ev = some (w', c')) :
    Minds w' c' (log ++ c.deeds w ev) := by
  have hspec := Cycle.step_spec h
  obtain ⟨phase, rfl, hmoves⟩ := Cycle.step_moves h
  have hhand := hM.hand
  unfold Cycle.Hand at hhand
  -- a step that writes about no row and logs nothing
  have quiet (hnone : c.deeds w ev = []) (htable : w'.table = w.table)
      (hhand : Cycle.Hand w.table { c with phase := phase } log) :
      Minds w' { c with phase := phase } (log ++ c.deeds w ev) := by
    rw [hnone]
    refine hM.move rfl rfl hspec.issued (fun id hfailed => htable ▸ hfailed) ?_
    rwa [htable, List.append_nil]
  cases hmoves with
  | claim hphase => exact hM.claim hphase hissued
  | @dispatch probing ds i dev d d' w' hphase hstart hi hstep =>
    have hdeeds : c.deeds w (.dispatch i dev) = d.deeds c.options c.credentials dev := by
      simp only [Cycle.deeds, hphase, hi]
    rw [hdeeds]
    refine hM.dispatch_step hN hphase hi (fun message heq => ?_) hstep
    subst heq
    exact hR d (by rw [Cycle.dispatches_of_phase hphase, hi]; rfl)
  | emitStarted hphase =>
    rw [hphase] at hhand
    exact quiet rfl rfl hhand
  | resumeEmpty hphase =>
    rw [hphase] at hhand
    refine quiet rfl rfl ⟨fun id hid => ?_, by rintro _ _ _ ⟨⟩⟩
    rw [hhand.1] at hid
    cases hid
  | @resumeClaimed rows hphase hsome =>
    rw [hphase] at hhand
    refine quiet rfl rfl ⟨?_, hhand.2, fun d hd => ?_⟩
    · rw [hhand.1, List.map_map]
      rfl
    · obtain ⟨row, -, rfl⟩ := List.mem_map.mp hd
      trivial
  | probeRejected hphase hhead => exact quiet rfl rfl rfl
  | probePassed hphase hhead hpassed =>
    rw [hphase] at hhand
    exact quiet rfl rfl hhand
  | @release first hphase =>
    rw [hphase] at hhand
    refine hM.move rfl rfl rfl (fun id => Lies.resetInFlight)
      ⟨fun id _ => lies_resetInFlight id _, fun itemId code message hin => ?_⟩
    obtain rfl := List.mem_singleton.mp hin
    cases hhand
  | join hphase hlive houtcomes => exact quiet rfl rfl (hM.join hphase houtcomes)
  | @record outcomes now hphase =>
    rw [hphase] at hhand
    obtain ⟨hput, hfailed⟩ := hhand
    have hdeeds : c.deeds w (.record now) =
        [.reported (Cycle.buildResult c.startedAt now outcomes)] := by
      simp only [Cycle.deeds, hphase]
    have hclaims : claimedIds (log ++ c.deeds w (.record now)) = claimedIds log := by
      rw [hdeeds, claimedIds_append]
      exact List.append_nil _
    refine ⟨fun id hid => hM.issued id (hclaims ▸ hid), fun result hresult id hid => ?_,
      .inr fun id hid => hput id (hclaims ▸ hid)⟩
    rw [hclaims]
    rw [hdeeds, reports_append, List.mem_append] at hresult
    rcases hresult with hresult | hresult
    · exact hM.failed result hresult id hid
    · obtain rfl := List.mem_singleton.mp hresult
      obtain ⟨code, message, hin⟩ := mem_failedIds.mp hid
      exact hfailed id code message hin
  | resumeRecorded hphase | emitTerminal hphase | resumeReported hphase | emitFailed hphase
  | finish hphase =>
    rw [hphase] at hhand
    exact quiet rfl rfl hhand
  | throw hcancelled hthrown => exact quiet rfl rfl (throw hthrown)
  | raise hstorage hthrown => exact quiet rfl rfl (hM.raise hR hstorage hthrown)
  | @abort cause notBefore hphase | @abortReported cause notBefore hphase =>
    rw [hphase] at hhand
    by_cases hcause : cause = .cancelled
    · rw [if_pos hcause]
      exact hM.move rfl rfl rfl (fun id => Lies.resetInFlight)
        (.inr fun id _ => lies_resetInFlight id _)
    · rw [if_neg hcause] at quiet ⊢
      exact quiet rfl rfl (.inr (hhand.resolve_left hcause))

end Minds

/-! ## 3. The end of a cycle -/

/-- `abortCycle` lets go of its rows and reports. -/
theorem Cycle.abortUnreset_spec {w w' : World} {c c' : Cycle}
    (h : c.abortUnreset w = some (w', c')) : CycleSpec w c w' c' ∧ w'.table = w.table ∧
      ∀ log, c'.Hand w.table (log ++ [.unreset]) := by
  have hin (log : List Deed) : .unreset ∈ log ++ [Deed.unreset] :=
    List.mem_append_right _ List.mem_cons_self
  unfold abortUnreset at h
  split at h
  · split at h <;> cases h
    all_goals
      exact ⟨.of_dispatches rfl (List.Subset.refl _) rfl rfl (.inr rfl), rfl,
        fun log => .inl (hin log)⟩
  · cases h

namespace Engine

variable {accepts : HttpRequest → Bool} {e e' : Engine} {a : Act} {t : Nat}

theorem deeds_of_cycle {c : Cycle} {ev : CycleEvent} (hc : (e.calls t).state = .cycle c) :
    deeds t e (.cycle t ev) = c.deeds e.world ev := by
  simp only [deeds, if_true, hc]

theorem deeds_of_other {l : Label} (hl : ∀ u ev, l ≠ .cycle u ev) : deeds t e l = [] := by
  unfold deeds
  split
  · exact absurd rfl (hl _ _)
  · rfl

/-- The reset of a cycle throws. -/
theorem act_abortUnreset (h : e.act accepts (.abortUnreset t) = some e') :
    ∃ c w c', (e.calls t).state = .cycle c ∧ c.abortUnreset e.world = some (w, c') ∧
      e' = { e.setState t (.cycle c') with world := w } := by
  simp only [act] at h
  split at h
  case h_2 => cases h
  case h_1 c hc =>
    obtain ⟨⟨w, c'⟩, hstep, rfl⟩ := Option.map_eq_some_iff.mp h
    exact ⟨c, w, c', hc, hstep, rfl⟩

theorem Inv.act (hI : Inv e) (h : e.act accepts a = some e') : Inv e' := by
  cases a with
  | step l => exact hI.step h
  | abortUnreset t =>
    obtain ⟨c, w, c', hc, hstep, rfl⟩ := act_abortUnreset h
    refine hI.inCycle ?_ ⟨hc, (Cycle.abortUnreset_spec hstep).1, rfl, rfl⟩
    exact hI.exclusive.keep rfl rfl (by simp [Call.holdsMutex, hc])

/-- If an operation of the cycle of caller `t` throws at this step, no row is left
behind, and the caller does not return. -/
def Recovers (t : Nat) (p : Engine × List Deed) : Act → Prop
  | .step (.cycle u ev) => u = t → ∀ c ∈ (p.1.calls t).cycle?, c.Recovers p.1.world p.2 ev
  | .step (.unlock u) => u ≠ t
  | _ => True

instance decidableRecovers (t : Nat) (p : Engine × List Deed) :
    (a : Act) → Decidable (Recovers t p a)
  | .step (.cycle u ev) =>
    inferInstanceAs (Decidable (u = t → ∀ c ∈ (p.1.calls t).cycle?, c.Recovers p.1.world p.2 ev))
  | .step (.unlock u) => inferInstanceAs (Decidable (u ≠ t))
  | .step (.enqueue _) | .step (.remove _) | .step (.configure _ _) | .step (.setPaused _)
  | .step (.call _ _) | .step (.cancel _) | .step (.giveUp _) | .step (.lock _)
  | .step (.checkPaused _) | .step (.readCredentials _) | .step (.begin _ _) | .step (.reset _)
  | .abortUnreset _ => isTrue trivial

/-- The cycle of caller `t`, with its log. -/
structure Minded (t : Nat) (p : Engine × List Deed) : Prop where
  inv : Inv p.1
  cycle : ∃ c, (p.1.calls t).state = .cycle c ∧ Minds p.1.world c p.2

theorem Minded.step {p p' : Engine × List Deed} (hM : Minded t p) (hR : Recovers t p a)
    (h : StepSystem.recorded (act accepts) (actDeeds t) p a = some p') : Minded t p' := by
  obtain ⟨e, log⟩ := p
  obtain ⟨e', log'⟩ := p'
  obtain ⟨hact, rfl⟩ := StepSystem.recorded_eq_some.mp h
  have hact : e.act accepts a = some e' := hact
  obtain ⟨hI, c, hc, hminds⟩ := hM
  have hI : Inv e := hI
  have hc : (e.calls t).state = .cycle c := hc
  refine ⟨hI.act hact, ?_⟩
  cases a with
  | abortUnreset u =>
    obtain ⟨d, w, c', hd, hstep, rfl⟩ := act_abortUnreset hact
    obtain rfl : u = t := hI.eq_of_cycle hd hc
    obtain rfl := cycle_unique hc hd
    obtain ⟨hspec, htable, hhand⟩ := Cycle.abortUnreset_spec hstep
    refine ⟨c', state_setState e u _, ?_⟩
    have hdeeds : actDeeds u e (.abortUnreset u) = [.unreset] := if_pos rfl
    show Minds w c' (log ++ actDeeds u e (.abortUnreset u))
    rw [hdeeds]
    refine hminds.move rfl rfl hspec.issued (fun id hfailed => htable ▸ hfailed) ?_
    rw [htable]
    exact hhand log
  | step l =>
    have hstep : e.step accepts l = some e' := hact
    by_cases hcycle : ∃ ev, l = .cycle t ev
    · obtain ⟨ev, rfl⟩ := hcycle
      obtain ⟨d, w, c', hd, hcstep, rfl⟩ := step_cycle hstep
      obtain rfl := cycle_unique hc hd
      have hN := hI.nodup_ids hc
      have hdeeds : actDeeds t e (.step (.cycle t ev)) = c.deeds e.world ev := deeds_of_cycle hc
      refine ⟨c', state_setState e t _, ?_⟩
      show Minds w c' (log ++ actDeeds t e (.step (.cycle t ev)))
      rw [hdeeds]
      exact hminds.cycle_step hN hI.keys_issued (hR rfl c (by simp [Call.cycle?, hc])) hcstep
    · have hother : ∀ ev, l ≠ .cycle t ev := fun ev heq => hcycle ⟨ev, heq⟩
      have hunlock : l ≠ .unlock t := by
        rintro rfl
        exact hR rfl
      have hbeside := step_beside hI.exclusive hc hother hunlock hstep
      have hdeeds : actDeeds t e (.step l) = [] := deeds_of_other hbeside.label
      refine ⟨c, hbeside.state, ?_⟩
      show Minds e'.world c (log ++ actDeeds t e (.step l))
      rw [hdeeds, List.append_nil]
      exact hminds.beside hbeside.rows (outbox_step hstep).issued_mono

/-- For every cycle, in any process, beside any other calls, for every batch, with
or without a cancellation, whichever of its storage operations throw: if no
dispatch throws while its row is there and has not failed, and no release throws
while a claimed row is in flight, then at the end of the cycle no row it claimed
is in flight, unless the reset of `abortCycle` threw, and every id it reports as
failed is that of a row that has failed or is gone. -/
theorem nothing_stranded_of_recovers {e₀ e₁ e₂ : Engine} {as₀ as : List Act} {now : Int}
    {c : Cycle} {log : List Deed} (h : Boot e₀) (h₀ : StepSystem.exec (act accepts) e₀ as₀ = some e)
    (hbegin : e.step accepts (.begin t now) = some e₁)
    (hrecovers : StepSystem.Meets (StepSystem.recorded (act accepts) (actDeeds t)) (Recovers t)
      (e₁, []) as)
    (hrun : StepSystem.exec (StepSystem.recorded (act accepts) (actDeeds t)) (e₁, []) as =
      some (e₂, log))
    (hc : (e₂.calls t).state = .cycle c) (hfinished : c.phase = .finished) :
    (.unreset ∉ log → ∀ id ∈ claimedIds log, ∀ r ∈ e₂.world.table.rows, r.id = id →
      r.status ≠ .IN_FLIGHT) ∧
    ∀ result ∈ reports log, ∀ id ∈ result.failedIds, ∀ r ∈ e₂.world.table.rows, r.id = id →
      r.status = .FAILED := by
  have hI : Inv e := StepSystem.exec_invariant (fun hI hs => hI.act hs) h.inv h₀
  have hstart : Minded t (e₁, []) := by
    refine ⟨hI.step hbegin, ?_⟩
    simp only [step] at hbegin
    split at hbegin <;> cases hbegin
    exact ⟨_, state_setState e t _, fun id hid => absurd hid List.not_mem_nil,
      fun result hresult => absurd hresult List.not_mem_nil, rfl⟩
  obtain ⟨-, d, hd, hminds⟩ :=
    StepSystem.exec_invariant_of_meets (fun hM hR hs => hM.step hR hs) hstart hrecovers hrun
  obtain rfl := cycle_unique hc hd
  have hhand := hminds.hand
  rw [Cycle.Hand, hfinished] at hhand
  refine ⟨fun hreset id hid => ?_, fun result hresult id hid => ?_⟩
  · exact hhand.resolve_left hreset id hid
  · exact (hminds.failed result hresult id hid).2

section Sample

/-- The items are enqueued, and caller 0 gets up to the start of its cycle. -/
def admitActs (items : List SyncQueueStorage.NewItem) : List Act := (admitRun items).map .step

/-- The second row of the batch is answered, and `recordResult` throws. -/
def unrecordedActs : List Act :=
  List.map .step (batchRun ++ exchangeRun 0 (.response 200) ++ exchangeRun 1 (.response 400) ++
    [.cycle 0 .join, .cycle 0 (.raise none), .cycle 0 .abort, .cycle 0 .emitFailed,
      .cycle 0 .finish])

/-- The request of the only row is answered 200, and `markSucceeded` throws. -/
def unmarkedActs : List Act :=
  List.map .step (batchRun ++ [.cycle 0 (.dispatch 0 (.start 2001)),
    .cycle 0 (.dispatch 0 .send), .cycle 0 (.dispatch 0 (.respond (.response 200))),
    .cycle 0 (.dispatch 0 (.crash "disk I/O error")), .cycle 0 .join] ++ reportRun)

/-- The row is in flight for good, and reported as failed. -/
theorem failed_write_strands :
    ∃ e e₁ e₂ log c, StepSystem.exec (act fun _ => true) (coldStart .TRUSTED)
        (admitActs [SyncQueueStorage.sampleItem "A"]) = some e ∧
      e.step (fun _ => true) (.begin 0 2000) = some e₁ ∧
      StepSystem.exec (StepSystem.recorded (act fun _ => true) (actDeeds 0)) (e₁, [])
        unmarkedActs = some (e₂, log) ∧
      (e₂.calls 0).state = .cycle c ∧ c.phase = .finished ∧ .unreset ∉ log ∧
      claimedIds log = ["A"] ∧ (reports log).map (·.failedIds) = [["A"]] ∧
      e₂.world.table.rows.map (fun r => (r.id, r.status)) = [("A", .IN_FLIGHT)] := by
  obtain ⟨e, e₁, he, he₁, htrace⟩ : ∃ e e₁,
      StepSystem.exec (act fun _ => true) (coldStart .TRUSTED)
        (admitActs [SyncQueueStorage.sampleItem "A"]) = some e ∧
      e.step (fun _ => true) (.begin 0 2000) = some e₁ ∧
      (StepSystem.exec (StepSystem.recorded (act fun _ => true) (actDeeds 0)) (e₁, [])
        unmarkedActs).map (fun p => (p.1.isFinished, decide (.unreset ∉ p.2), claimedIds p.2,
          (reports p.2).map (·.failedIds),
          decide (p.1.world.table.rows.map (fun r => (r.id, r.status)) = [("A", .IN_FLIGHT)]))) =
        some (true, true, ["A"], [["A"]], true) :=
    ⟨_, _, rfl, rfl, by decide +kernel⟩
  obtain ⟨⟨e₂, log⟩, hrun, hseen⟩ := Option.map_eq_some_iff.mp htrace
  simp only [Prod.mk.injEq, decide_eq_true_eq] at hseen
  obtain ⟨hfinished, hreset, hclaimed, hreports, hrows⟩ := hseen
  obtain ⟨c, hc, hphase⟩ := exists_finished hfinished
  exact ⟨e, e₁, e₂, log, c, he, he₁, hrun, hc, hphase, hreset, hclaimed, hreports, hrows⟩

theorem nothing_stranded_of_recovers_unrecorded :
    ∃ e e₁ e₂ log, StepSystem.exec (act fun _ => true) (coldStart .TRUSTED)
        (admitActs [SyncQueueStorage.sampleItem "A", SyncQueueStorage.sampleItem "B"]) = some e ∧
      e.step (fun _ => true) (.begin 0 2000) = some e₁ ∧
      StepSystem.exec (StepSystem.recorded (act fun _ => true) (actDeeds 0)) (e₁, [])
        unrecordedActs = some (e₂, log) ∧
      claimedIds log = ["A", "B"] ∧
      ∀ id ∈ ["A", "B"], ∀ r ∈ e₂.world.table.rows, r.id = id → r.status ≠ .IN_FLIGHT := by
  obtain ⟨e, e₁, he, he₁, hrecovers, htrace⟩ : ∃ e e₁,
      StepSystem.exec (act fun _ => true) (coldStart .TRUSTED)
        (admitActs [SyncQueueStorage.sampleItem "A", SyncQueueStorage.sampleItem "B"]) = some e ∧
      e.step (fun _ => true) (.begin 0 2000) = some e₁ ∧
      StepSystem.Meets (StepSystem.recorded (act fun _ => true) (actDeeds 0)) (Recovers 0)
        (e₁, []) unrecordedActs ∧
      (StepSystem.exec (StepSystem.recorded (act fun _ => true) (actDeeds 0)) (e₁, [])
        unrecordedActs).map (fun p => (p.1.isFinished, decide (.unreset ∉ p.2), claimedIds p.2)) =
        some (true, true, ["A", "B"]) :=
    ⟨_, _, rfl, rfl, by decide +kernel, by decide +kernel⟩
  obtain ⟨⟨e₂, log⟩, hrun, hseen⟩ := Option.map_eq_some_iff.mp htrace
  simp only [Prod.mk.injEq, decide_eq_true_eq] at hseen
  obtain ⟨hfinished, hreset, hclaimed⟩ := hseen
  obtain ⟨c, hc, hphase⟩ := exists_finished hfinished
  obtain ⟨hput, -⟩ := nothing_stranded_of_recovers (coldStart_boot .TRUSTED) he he₁ hrecovers hrun
    hc hphase
  exact ⟨e, e₁, e₂, log, he, he₁, hrun, hclaimed, fun id hid => hput hreset id (hclaimed ▸ hid)⟩

end Sample

end Engine

end SyncProvider.Android
