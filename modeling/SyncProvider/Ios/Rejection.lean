import SyncProvider.Ios.Bracket
import SyncProvider.Ios.Budget

/-!
# iOS: a stored credential is rejected

A cycle that runs on default headers read back from storage stops at the first
401 or 403. The item keeps its attempt and waits out a hold, the items after it
stay as they are, and `onCycleFinished` is told when the hold ends.

Results:
1. `Watch.cycle_step` : what the batch looks like after each step of the cycle.
2. `Engine.Watched.step` : and while others use the actor and the store.
3. `rejected_once_per_cycle` : a cycle on a stored credential is rejected once.
-/

namespace SyncProvider.Ios

/-- The app has not set a configuration in this process, and the stored one has
default headers. -/
def DispatcherConfig.Stored (config : DispatcherConfig) : Prop :=
  config.source = .persisted ∧ config.hasDefaultHeaders = true

instance decidableStored (config : DispatcherConfig) : Decidable config.Stored :=
  inferInstanceAs (Decidable (config.source = .persisted ∧ config.hasDefaultHeaders = true))

/-! ## What a cycle does to its batch -/

inductive Sight where
  | fetched (batch : List StoredSyncItem)
  /-- The row `markInFlight` found. -/
  | claimed (row : StoredSyncItem)
  /-- The request of `item` was answered 401 or 403, `later` come after it. -/
  | rejected (item : StoredSyncItem) (later : List StoredSyncItem)
  /-- The hold of an item was recorded. -/
  | held (id : String) (nowMs : Int)
  deriving DecidableEq

def rejections (log : List Sight) : List (StoredSyncItem × List StoredSyncItem) :=
  log.filterMap fun
    | .rejected item later => some (item, later)
    | _ => none

@[simp] theorem rejections_append (log log' : List Sight) :
    rejections (log ++ log') = rejections log ++ rejections log' :=
  List.filterMap_append

/-- The server turned the request down. With a transport error the request
failed, whatever status came first. -/
def isRejection (statusCode : Option Int) (error : Option TransportError) : Bool :=
  (statusCode == some 401 || statusCode == some 403) && error == none

theorem isStale_of_isRejection (id : String) {statusCode : Option Int}
    {error : Option TransportError} {sentWith : DispatcherConfig} (hs : sentWith.Stored)
    (h : isRejection statusCode error = true) :
    isStaleCredentialRejection (classifyResponse id statusCode error) sentWith = true ∧
      (classifyResponse id statusCode error).succeeded = false := by
  obtain ⟨hstatus, herror⟩ : (statusCode = some 401 ∨ statusCode = some 403) ∧ error = none := by
    simpa [isRejection] using h
  subst herror
  rcases hstatus with rfl | rfl <;>
    simp [isStaleCredentialRejection, classifyResponse, hs.1, hs.2]

/-- The record of a rejection. -/
theorem recordFailureOutcome_of_stale {config sentWith : DispatcherConfig} {item : StoredSyncItem}
    {outcome : ItemDispatchOutcome} {sample : ℚ}
    (h : isStaleCredentialRejection outcome sentWith = true) :
    ∃ code delayMs, (recordFailureOutcome config sentWith item outcome sample).write =
      .markCredentialRejected code delayMs item.attempts ∧ kMinCredentialHoldMs ≤ delayMs := by
  unfold recordFailureOutcome
  dsimp only
  rw [if_pos h]
  exact ⟨_, _, rfl, le_max_right _ _⟩

namespace Cycle

/-- What a step of the cycle shows. -/
def sights (w : World) (c : Cycle) (ev : CycleEvent) : List Sight :=
  match ev, c.phase with
  | .fetch nowMs, .fetching limit => [.fetched (SyncItemDao.fetchPending nowMs limit w.store)]
  | .markInFlight _, .claiming item _ => (w.store.find? item.id).toList.map .claimed
  | .answer statusCode error, .onWire item rest _ =>
    if isRejection statusCode error then [.rejected item rest] else []
  | .write nowMs, .recording item _ record =>
    match record.write with
    | .markCredentialRejected _ _ _ => [.held item.id nowMs]
    | _ => []
  | _, _ => []

end Cycle

/-- The item waits out its hold, and those after it are as they were. -/
structure Held (w : World) (log : List Sight) (item : StoredSyncItem)
    (later : List StoredSyncItem) : Prop where
  batch : ∃ batch pre, .fetched batch ∈ log ∧ batch = pre ++ item :: later
  claimed : .claimed item ∈ log
  row : ∃ r ∈ w.store.rows, r.id = item.id ∧ r.status = .PENDING ∧ r.attempts = item.attempts ∧
    w.credentialHeldUntil = some r.nextRetryAt ∧
    ∃ nowMs, .held item.id nowMs ∈ log ∧ nowMs + kMinCredentialHoldMs ≤ r.nextRetryAt
  later : ∀ x ∈ later, x ∈ w.store.rows ∧ x.status = .PENDING

/-- What is known about a rejection, by the phase of the cycle. -/
def Cycle.Verdict (w : World) (c : Cycle) (log : List Sight) : Prop :=
  match c.phase with
  | .prepared _ _ _ sentWith _ | .onWire _ _ sentWith => sentWith.Stored ∧ rejections log = []
  | .answered item rest sentWith outcome =>
    rejections log = [] ∨ rejections log = [(item, rest)] ∧ outcome.succeeded = false ∧
      isStaleCredentialRejection outcome sentWith = true
  | .recording item rest record =>
    rejections log = [] ∨ rejections log = [(item, rest)] ∧ ∃ code delayMs,
      record.write = .markCredentialRejected code delayMs item.attempts ∧
        kMinCredentialHoldMs ≤ delayMs
  | .summarizing _ =>
    rejections log = [] ∨ ∃ item later, rejections log = [(item, later)] ∧ Held w log item later
  | .finishing _ | .finished => (rejections log).length ≤ 1
  | _ => rejections log = []

/-- A cycle and its batch: the items ahead are as they were fetched, and the
row of the one at hand is there. -/
structure Watch (w : World) (c : Cycle) (log : List Sight) : Prop where
  batch : (∃ limit, c.phase = .fetching limit) ∨
    ∃ batch, .fetched batch ∈ log ∧ c.phase.hand.items <:+ batch
  ahead : ∀ x ∈ c.phase.hand.ahead, x ∈ w.store.rows ∧ x.status = .PENDING
  marked : ∀ x, c.phase.hand.marked = some x → x.id ∈ w.store.keys ∧ .claimed x ∈ log
  verdict : c.Verdict w log

/-! ## 1. A step of the cycle -/

namespace SyncItemDao

/-- A write leaves the other rows alone. -/
theorem mem_updateById_of_ne {id : String} {f : StoredSyncItem → StoredSyncItem}
    {t : StoredItems} {r : StoredSyncItem} (hf : ∀ r, (f r).id = r.id) (hr : r ∈ t.rows)
    (hne : r.id ≠ id) : r ∈ (updateById id f hf t).rows :=
  mem_updateById.mpr ⟨r, hr, if_neg hne⟩

/-- The row of a rejected item. -/
theorem exists_mem_markCredentialRejected {id : String} {t : StoredItems} (h : id ∈ t.keys)
    (errorCode : Option SyncErrorCode) (retryDelayMs attempts nowMs : Int) :
    ∃ r ∈ (markCredentialRejected id errorCode retryDelayMs attempts nowMs t).rows, r.id = id ∧
      r.status = .PENDING ∧ r.attempts = attempts ∧
      r.nextRetryAt = heldUntil retryDelayMs nowMs := by
  obtain ⟨r, hr, hid⟩ := KeyedTable.mem_keys.mp h
  unfold markCredentialRejected
  exact ⟨_, mem_updateById.mpr ⟨r, hr, if_pos hid⟩, hid, rfl, rfl, rfl⟩

end SyncItemDao

namespace Watch

variable {scheme : String → Option String} {config : DispatcherConfig} {paused : Bool}
  {w w' : World} {c c' : Cycle} {ev : CycleEvent} {log : List Sight}

/-- A step that moves on within the batch and leaves the rows ahead alone. -/
theorem move {more : List Sight} (hW : Watch w c log) (hphase : ∀ limit, c.phase ≠ .fetching limit)
    (hitems : c'.phase.hand.items <:+ c.phase.hand.items)
    (hahead : ∀ x ∈ c'.phase.hand.ahead, x ∈ c.phase.hand.ahead ∧ x ∈ w'.store.rows)
    (hmarked : ∀ x, c'.phase.hand.marked = some x →
      c.phase.hand.marked = some x ∧ w'.store.keys = w.store.keys)
    (hverdict : c'.Verdict w' (log ++ more)) : Watch w' c' (log ++ more) where
  batch := by
    rcases hW.batch with ⟨limit, h⟩ | ⟨batch, hbatch, hsuffix⟩
    · exact absurd h (hphase limit)
    · exact .inr ⟨batch, List.mem_append_left _ hbatch, hitems.trans hsuffix⟩
  ahead x hx := ⟨(hahead x hx).2, (hW.ahead x (hahead x hx).1).2⟩
  marked x hx := by
    obtain ⟨hx, hkeys⟩ := hmarked x hx
    obtain ⟨hin, hclaimed⟩ := hW.marked x hx
    exact ⟨hkeys ▸ hin, List.mem_append_left _ hclaimed⟩
  verdict := hverdict

/-- `markInFlight` finds the row as it was fetched. -/
theorem markInFlight {item : StoredSyncItem} {rest : List StoredSyncItem} {nowMs : Int}
    (hW : Watch w c log) (hL : Ledger w c.phase.hand) (hphase : c.phase = .claiming item rest) :
    Watch { w with store := SyncItemDao.markInFlight item.id nowMs w.store }
      { c with phase := .claimed item ((w.store.find? item.id).map (·.attempts)) rest }
      (log ++ c.sights w (.markInFlight nowMs)) := by
  have hverdict : rejections log = [] := by
    have := hW.verdict
    rwa [Cycle.Verdict, hphase] at this
  have hnodup := hL.nodup
  have hahead := hW.ahead
  rw [hphase] at hnodup hahead
  simp only [CyclePhase.hand, Hand.items, Hand.empty, Option.toList_none, List.nil_append,
    List.map_cons, List.nodup_cons, List.mem_map, not_exists, not_and] at hnodup
  have hrow : item ∈ w.store.rows := (hahead item List.mem_cons_self).1
  have hfind : w.store.find? item.id = some item := KeyedTable.find?_eq_some.mpr ⟨hrow, rfl⟩
  have hsights : c.sights w (.markInFlight nowMs) = [.claimed item] := by
    unfold Cycle.sights
    rw [hphase]
    dsimp only
    rw [hfind]
    rfl
  rw [hsights]
  refine ⟨?_, fun x hx => ?_, fun x hx => ?_, ?_⟩
  · rcases hW.batch with ⟨limit, h⟩ | ⟨batch, hbatch, hsuffix⟩
    · rw [hphase] at h
      cases h
    · rw [hphase] at hsuffix
      exact .inr ⟨batch, List.mem_append_left _ hbatch, hsuffix⟩
  · obtain ⟨hx', hpending⟩ := hahead x (List.mem_cons_of_mem _ hx)
    exact ⟨SyncItemDao.mem_markInFlight.mpr ⟨x, hx', if_neg (hnodup.1 x hx)⟩, hpending⟩
  · cases hx
    refine ⟨?_, List.mem_append_right _ List.mem_cons_self⟩
    rw [SyncItemDao.keys_markInFlight]
    exact KeyedTable.key_mem_keys hrow
  · show rejections (log ++ [.claimed item]) = []
    rw [rejections_append, hverdict]
    rfl

/-- The request is answered, and a 401 or 403 is one of a stored credential. -/
theorem answer {item : StoredSyncItem} {rest : List StoredSyncItem} {sentWith : DispatcherConfig}
    {statusCode : Option Int} {error : Option TransportError} (hW : Watch w c log)
    (hphase : c.phase = .onWire item rest sentWith) :
    Watch w
      { c with phase := .answered item rest sentWith (classifyResponse item.id statusCode error) }
      (log ++ c.sights w (.answer statusCode error)) := by
  obtain ⟨hstored, hverdict⟩ : sentWith.Stored ∧ rejections log = [] := by
    have := hW.verdict
    rwa [Cycle.Verdict, hphase] at this
  have hsights : c.sights w (.answer statusCode error) =
      if isRejection statusCode error then [.rejected item rest] else [] := by
    unfold Cycle.sights
    rw [hphase]
  refine hW.move (by simp [hphase]) ?_ (fun x hx => ?_) (fun x hx => ⟨?_, rfl⟩) ?_
  · rw [hphase]
    exact List.suffix_refl _
  · rw [hphase]
    refine ⟨hx, (hW.ahead x ?_).1⟩
    rw [hphase]
    exact hx
  · rw [hphase]
    exact hx
  · rw [hsights]
    cases hrejection : isRejection statusCode error with
    | true =>
      obtain ⟨hstale, hfailed⟩ := isStale_of_isRejection item.id hstored hrejection
      refine .inr ⟨?_, hfailed, hstale⟩
      rw [rejections_append, hverdict]
      rfl
    | false =>
      refine .inl ?_
      rw [rejections_append, hverdict]
      rfl

/-- The record of a failed dispatch. After a rejection it is the hold. -/
theorem record {item : StoredSyncItem} {rest : List StoredSyncItem} {record : FailureRecord}
    {nowMs : Int} (hW : Watch w c log) (hL : Ledger w c.phase.hand)
    (hphase : c.phase = .recording item rest record) :
    Watch (Cycle.writeFailure w c item rest record nowMs).1
      (Cycle.writeFailure w c item rest record nowMs).2 (log ++ c.sights w (.write nowMs)) := by
  have hverdict := hW.verdict
  rw [Cycle.Verdict, hphase] at hverdict
  have hnodup := hL.nodup
  have hahead := hW.ahead
  have hmarked := hW.marked
  have hbatch := hW.batch
  rw [hphase] at hnodup hahead hmarked hbatch
  simp only [CyclePhase.hand, Hand.items, Option.toList_some, List.singleton_append,
    List.map_cons, List.nodup_cons, List.mem_map, not_exists, not_and] at hnodup
  obtain ⟨limit, h⟩ | ⟨batch, hfetched, pre, hpre⟩ := hbatch
  · cases h
  have hkeep {f : StoredSyncItem → StoredSyncItem} (hf : ∀ r, (f r).id = r.id)
      {x : StoredSyncItem} (hx : x ∈ rest) :
      x ∈ (SyncItemDao.updateById item.id f hf w.store).rows :=
    SyncItemDao.mem_updateById_of_ne hf (hahead x hx).1 (hnodup.1 x hx)
  have hgo {w' : World} {c' : Cycle} {more : List Sight} (hphase' : c'.phase = .looping rest)
      (hrows : ∀ x ∈ rest, x ∈ w'.store.rows) (hnone : rejections (log ++ more) = []) :
      Watch w' c' (log ++ more) := by
    refine hW.move (by simp [hphase]) ?_ (fun x hx => ?_) (fun x hx => ?_) ?_
    · rw [hphase', hphase]
      exact List.suffix_cons _ _
    · rw [hphase'] at hx
      rw [hphase]
      exact ⟨hx, hrows x hx⟩
    · rw [hphase'] at hx
      cases hx
    · rw [Cycle.Verdict, hphase']
      exact hnone
  unfold Cycle.writeFailure Cycle.sights
  rw [hphase]
  dsimp only
  cases hwrite : record.write with
  | markFailed errorCode =>
    rcases hverdict with hnone | ⟨-, code, delayMs, hheld, -⟩
    · refine hgo rfl (fun x hx => hkeep ?_ hx) (by simpa using hnone)
      exact fun _ => rfl
    · rw [hwrite] at hheld
      cases hheld
  | markPendingForRetry errorCode retryDelayMs =>
    rcases hverdict with hnone | ⟨-, code, delayMs, hheld, -⟩
    · refine hgo rfl (fun x hx => hkeep ?_ hx) (by simpa using hnone)
      exact fun _ => rfl
    · rw [hwrite] at hheld
      cases hheld
  | markCredentialRejected errorCode retryDelayMs attempts =>
    refine ⟨.inr ⟨batch, List.mem_append_left _ hfetched, List.nil_suffix⟩, fun x hx => ?_,
      fun x hx => ?_, ?_⟩
    · cases hx
    · cases hx
    · rcases hverdict with hnone | ⟨hone, code, delayMs, hheld, hdelay⟩
      · refine .inl ?_
        rw [rejections_append, hnone]
        rfl
      · rw [hwrite] at hheld
        cases hheld
        have hone' : rejections (log ++ [.held item.id nowMs]) = [(item, rest)] := by
          rw [rejections_append, hone]
          rfl
        refine .inr ⟨item, rest, hone', ?_, ?_, ?_, fun x hx => ⟨?_, (hahead x hx).2⟩⟩
        · exact ⟨batch, pre, List.mem_append_left _ hfetched, hpre.symm⟩
        · exact List.mem_append_left _ (hmarked item rfl).2
        · obtain ⟨r, hr, hid, hstatus, hattempts, hretry⟩ :=
            SyncItemDao.exists_mem_markCredentialRejected (hmarked item rfl).1 errorCode
              retryDelayMs item.attempts nowMs
          refine ⟨r, hr, hid, hstatus, hattempts, congrArg some hretry.symm, nowMs,
            List.mem_append_right _ List.mem_cons_self, ?_⟩
          rw [hretry]
          exact Int.add_le_add_left (hdelay.trans (le_max_right _ _)) nowMs
        · refine hkeep ?_ hx
          exact fun _ => rfl

/-- A step that shows nothing, leaves the store alone, and keeps the items in
hand or lets go of them. -/
theorem pass (hW : Watch w c log) (hsights : c.sights w ev = [])
    (hphase : ∀ limit, c.phase ≠ .fetching limit)
    (hhand : c'.phase.hand.marked = c.phase.hand.marked ∧
      c'.phase.hand.ahead = c.phase.hand.ahead ∨ c'.phase.hand = .empty)
    (hstore : w'.store = w.store) (hverdict : c'.Verdict w' log) :
    Watch w' c' (log ++ c.sights w ev) := by
  rw [hsights]
  rcases hhand with ⟨hmarked, hahead⟩ | hempty
  · refine hW.move hphase ?_ (fun x hx => ⟨hahead ▸ hx, ?_⟩) (fun x hx => ⟨hmarked ▸ hx, ?_⟩) ?_
    · rw [Hand.items, Hand.items, hmarked, hahead]
    · rw [hstore]
      exact (hW.ahead x (hahead ▸ hx)).1
    · rw [hstore]
    · rw [List.append_nil]
      exact hverdict
  · refine hW.move hphase ?_ (fun x hx => ?_) (fun x hx => ?_) ?_
    · rw [hempty]
      exact List.nil_suffix
    · rw [hempty] at hx
      cases hx
    · rw [hempty] at hx
      cases hx
    · rw [List.append_nil]
      exact hverdict

theorem cycle_step (hW : Watch w c log) (hL : Ledger w c.phase.hand) (hconfig : config.Stored)
    (hev : ∀ code, ev ≠ .fail code) (h : c.step scheme config paused w ev = some (w', c')) :
    Watch w' c' (log ++ c.sights w ev) := by
  have hverdict := hW.verdict
  rw [Cycle.Verdict] at hverdict
  have hsights {p : CyclePhase} (hphase : c.phase = p)
      (hev : Cycle.sights w { c with phase := p } ev = []) : c.sights w ev = [] := by
    rw [← hev, ← hphase]
  have hsame {p : CyclePhase} {d : Cycle} (hphase : c.phase = p)
      (h : d.phase.hand.marked = p.hand.marked ∧ d.phase.hand.ahead = p.hand.ahead) :
      d.phase.hand.marked = c.phase.hand.marked ∧ d.phase.hand.ahead = c.phase.hand.ahead ∨
        d.phase.hand = .empty := by
    rw [hphase]
    exact .inl h
  cases Cycle.step_cases h with
  | @fetchNone limit nowMs hphase hnothing =>
    rw [hphase] at hverdict
    have hfetched : c.sights w (.fetch nowMs) = [.fetched []] := by
      unfold Cycle.sights
      rw [hphase]
      dsimp only
      rw [hnothing]
    rw [hfetched]
    refine ⟨.inr ⟨[], List.mem_append_right _ List.mem_cons_self, List.suffix_refl _⟩,
      fun x hx => (by cases hx), fun x hx => (by cases hx), .inl ?_⟩
    rw [rejections_append, hverdict]
    rfl
  | @fetch limit nowMs pending hphase hpending hsome =>
    rw [hphase] at hverdict
    have hfetched : c.sights w (.fetch nowMs) = [.fetched pending] := by
      unfold Cycle.sights
      rw [hphase]
      dsimp only
      rw [hpending]
    rw [hfetched]
    refine ⟨.inr ⟨pending, List.mem_append_right _ List.mem_cons_self, List.suffix_refl _⟩,
      fun x hx => ?_, fun x hx => (by cases hx), ?_⟩
    · have hx : x ∈ pending := hx
      rw [← hpending] at hx
      obtain ⟨hrow, hstatus, -⟩ := SyncItemDao.fetchPending_subset hx
      exact ⟨hrow, hstatus⟩
    · show rejections (log ++ [.fetched pending]) = []
      rw [rejections_append, hverdict]
      rfl
  | leave hphase hleave =>
    rw [hphase] at hverdict
    exact hW.pass (hsights hphase rfl) (by simp [hphase]) (.inr rfl) rfl (.inl hverdict)
  | take hphase hpaused =>
    rw [hphase] at hverdict
    exact hW.pass (hsights hphase rfl) (by simp [hphase]) (hsame hphase ⟨rfl, rfl⟩) rfl
      hverdict
  | markInFlight hphase => exact hW.markInFlight hL hphase
  | prepare hphase hurl =>
    rw [hphase] at hverdict
    exact hW.pass (hsights hphase rfl) (by simp [hphase]) (hsame hphase ⟨rfl, rfl⟩) rfl
      ⟨hconfig, hverdict⟩
  | rejectUrl hphase hurl =>
    rw [hphase] at hverdict
    exact hW.pass (hsights hphase rfl) (by simp [hphase]) (hsame hphase ⟨rfl, rfl⟩) rfl
      (.inl hverdict)
  | send hphase =>
    rw [hphase] at hverdict
    exact hW.pass (hsights hphase rfl) (by simp [hphase]) (hsame hphase ⟨rfl, rfl⟩) rfl
      hverdict
  | sendFails hphase =>
    rw [hphase] at hverdict
    exact hW.pass (hsights hphase rfl) (by simp [hphase]) (hsame hphase ⟨rfl, rfl⟩) rfl
      (.inl hverdict.2)
  | answer hphase => exact hW.answer hphase
  | succeed hphase hok =>
    rw [hphase] at hverdict
    have hnone : rejections log = [] := by
      rcases hverdict with hnone | ⟨-, hfailed, -⟩
      · exact hnone
      · rw [hok] at hfailed
        cases hfailed
    exact hW.pass (hsights hphase rfl) (by simp [hphase]) (hsame hphase ⟨rfl, rfl⟩) rfl
      hnone
  | failItem hphase hok =>
    rw [hphase] at hverdict
    exact hW.pass (hsights hphase rfl) (by simp [hphase]) (hsame hphase ⟨rfl, rfl⟩) rfl
      (hverdict.imp_right fun h => ⟨h.1, recordFailureOutcome_of_stale h.2.2⟩)
  | @remove item rest statusCode nowMs hphase =>
    rw [hphase] at hverdict
    have hnodup := hL.nodup
    have hahead := hW.ahead
    rw [hphase] at hnodup hahead
    simp only [CyclePhase.hand, Hand.items, Option.toList_some, List.singleton_append,
      List.map_cons, List.nodup_cons, List.mem_map, not_exists, not_and] at hnodup
    rw [hsights hphase rfl]
    refine hW.move (by simp [hphase]) ?_ (fun x hx => ⟨?_, ?_⟩) (fun x hx => (by cases hx)) ?_
    · rw [hphase]
      exact List.suffix_cons _ _
    · rw [hphase]
      exact hx
    · exact KeyedTable.mem_deleteWhere.mpr ⟨(hahead x hx).1, by simpa using hnodup.1 x hx⟩
    · rw [List.append_nil]
      exact hverdict
  | record hphase => exact hW.record hL hphase
  | summarize hphase =>
    rw [hphase] at hverdict
    refine hW.pass (hsights hphase rfl) (by simp [hphase]) (.inr rfl) rfl ?_
    show (rejections log).length ≤ 1
    rcases hverdict with hnone | ⟨item, later, hone, -⟩
    · rw [hnone]
      exact Nat.zero_le 1
    · rw [hone]
      exact Nat.le_refl 1
  | fail hstorage => exact absurd rfl (hev _)
  | finish hphase =>
    rw [hphase] at hverdict
    exact hW.pass (hsights hphase rfl) (by simp [hphase]) (.inr rfl) rfl hverdict

/-- What others do beside an active cycle: rows that are not in flight stay, and
the hold is left alone. -/
theorem congr (hW : Watch w c log) (hrows : ∀ r ∈ w.store.rows, r.status = .PENDING →
      r ∈ w'.store.rows) (hkeys : ∀ id ∈ w.store.keys, id ∈ w'.store.keys)
    (hheld : w'.credentialHeldUntil = w.credentialHeldUntil) : Watch w' c log where
  batch := hW.batch
  ahead x hx := ⟨hrows x (hW.ahead x hx).1 (hW.ahead x hx).2, (hW.ahead x hx).2⟩
  marked x hx := (hW.marked x hx).imp_left (hkeys x.id)
  verdict := by
    have hverdict := hW.verdict
    unfold Cycle.Verdict at hverdict ⊢
    cases hphase : c.phase with
    | summarizing nothingPending =>
      rw [hphase] at hverdict
      refine hverdict.imp_right ?_
      rintro ⟨item, later, hone, hheldItem⟩
      obtain ⟨r, hr, hid, hstatus, hattempts, huntil, hrecorded⟩ := hheldItem.row
      refine ⟨item, later, hone, hheldItem.batch, hheldItem.claimed, ?_, fun x hx => ?_⟩
      · exact ⟨r, hrows r hr hstatus, hid, hstatus, hattempts, hheld.trans huntil, hrecorded⟩
      · exact ⟨hrows x (hheldItem.later x hx).1 (hheldItem.later x hx).2, (hheldItem.later x hx).2⟩
    | _ =>
      rw [hphase] at hverdict
      exact hverdict

/-- A cycle that has ended keeps what is known. -/
theorem congr_of_ended (hW : Watch w c log) (hc : c.active = false) : Watch w' c log where
  batch := hW.batch
  ahead x hx := by
    rw [CyclePhase.hand_of_ended hc] at hx
    cases hx
  marked x hx := by
    rw [CyclePhase.hand_of_ended hc] at hx
    cases hx
  verdict := by
    have hverdict := hW.verdict
    unfold Cycle.Verdict at hverdict ⊢
    unfold Cycle.active at hc
    cases hphase : c.phase with
    | finishing notBefore | finished =>
      rw [hphase] at hverdict
      exact hverdict
    | _ =>
      rw [hphase] at hc
      cases hc

end Watch

/-- At most one request of the cycle was rejected. -/
theorem Watch.rejections_le {w : World} {c : Cycle} {log : List Sight} (hW : Watch w c log) :
    (rejections log).length ≤ 1 := by
  have hverdict := hW.verdict
  unfold Cycle.Verdict at hverdict
  have hnone (h : rejections log = []) : (rejections log).length ≤ 1 := by
    rw [h]
    exact Nat.zero_le 1
  have hone {p} (h : rejections log = [p]) : (rejections log).length ≤ 1 := by
    rw [h]
    exact Nat.le_refl 1
  cases hphase : c.phase with
  | finishing | finished =>
    rw [hphase] at hverdict
    exact hverdict
  | prepared | onWire =>
    rw [hphase] at hverdict
    exact hnone hverdict.2
  | answered | recording =>
    rw [hphase] at hverdict
    rcases hverdict with h | ⟨h, -⟩
    · exact hnone h
    · exact hone h
  | summarizing nothingPending =>
    rw [hphase] at hverdict
    rcases hverdict with h | ⟨item, later, h, -⟩
    · exact hnone h
    · exact hone h
  | fetching | looping | claiming | claimed | removing =>
    rw [hphase] at hverdict
    exact hnone hverdict

namespace Cycle

variable {scheme : String → Option String} {config : DispatcherConfig} {paused : Bool}
  {w w' : World} {c c' : Cycle} {ev : CycleEvent}

/-- Without a throw, a cycle ends by recording its result. -/
theorem ends_by_summarize (h : c.step scheme config paused w ev = some (w', c'))
    (hc : c.active = true) (hev : ∀ code, ev ≠ .fail code) (hc' : c'.active = false) :
    ∃ nothingPending, c.phase = .summarizing nothingPending ∧ w'.store = w.store ∧
      c'.phase = .finishing w.credentialHeldUntil := by
  obtain ⟨hstore, -, -, hphase', ⟨nothingPending, hphase⟩ | ⟨-, code, heq⟩⟩ :=
    step_ending h hc hc'
  · exact ⟨nothingPending, hphase, hstore, hphase'⟩
  · exact absurd heq (hev code)

/-- What is left is the call of `onCycleFinished`. -/
theorem step_finishing {notBefore : Option Int} (hphase : c.phase = .finishing notBefore)
    (h : c.step scheme config paused w ev = some (w', c')) :
    ev = .finish ∧ w'.wakes = w.wakes ++ [notBefore] := by
  cases step_cases h with
  | finish hp =>
    rw [hphase] at hp
    cases hp
    exact ⟨rfl, rfl⟩
  | fail hstorage =>
    rw [hphase] at hstorage
    cases hstorage
  | fetchNone hp | fetch hp | leave hp | take hp | markInFlight hp | prepare hp | rejectUrl hp
  | send hp | sendFails hp | answer hp | succeed hp | failItem hp | remove hp | record hp
  | summarize hp =>
    rw [hphase] at hp
    cases hp

end Cycle

/-! ## 2. Beside the cycle -/

namespace Engine

variable {scheme : String → Option String} {e e' : Engine} {t : Nat} {l : Label}

/-- What the step shows for the cycle of flush call `t`. -/
def sights (t : Nat) (e : Engine) : Label → List Sight
  | .cycle u ev =>
    if u = t then
      match e.flushes t with
      | some c => c.sights e.world ev
      | none => []
    else []
  | _ => []

/-- The configuration stays a stored one, no item is removed, the storage works
for the cycle of flush call `t`, and the process lives. -/
def Steady (t : Nat) (e : Engine) : Label → Prop
  | .remove _ | .kill _ _ => False
  | .cycle u (.fail _) => e.config.Stored ∧ u ≠ t
  | _ => e.config.Stored

instance decidableSteady (t : Nat) (e : Engine) : (l : Label) → Decidable (Steady t e l)
  | .remove _ | .kill _ _ => isFalse id
  | .cycle u (.fail _) => inferInstanceAs (Decidable (e.config.Stored ∧ u ≠ t))
  | .cycle _ (.fetch _) | .cycle _ .next | .cycle _ (.markInFlight _) | .cycle _ .prepare
  | .cycle _ .send | .cycle _ (.sendFails _) | .cycle _ (.answer _ _) | .cycle _ (.settle _)
  | .cycle _ (.write _) | .cycle _ (.summarize _) | .cycle _ .finish | .enqueue _
  | .updateConfig _ | .setPaused _ | .flush _ _ _ | .recover =>
    inferInstanceAs (Decidable e.config.Stored)

theorem Steady.stored (h : Steady t e l) : e.config.Stored := by
  unfold Steady at h
  split at h
  · cases h
  · cases h
  · exact h.1
  · exact h

/-- The cycle of flush call `t`, with what it showed. -/
structure Watched (t : Nat) (p : Engine × List Sight) : Prop where
  accounts : Accounts p.1
  cycle : ∃ c, p.1.flushes t = some c ∧ Watch p.1.world c p.2

/-- No step outside the cycle takes away a row that waits. -/
theorem rows_of_apart (hapart : Apart e l e') (hl : Steady t e l)
    (h : e.step scheme l = some e') :
    (∀ r ∈ e.world.store.rows, r.status = .PENDING → r ∈ e'.world.store.rows) ∧
      ∀ id ∈ e.world.store.keys, id ∈ e'.world.store.keys := by
  cases l with
  | enqueue items =>
    obtain ⟨store, -, hrows, rfl⟩ := Engine.step_enqueue h
    refine ⟨fun r hr _ => ?_, fun id hid => ?_⟩
    · show r ∈ store.rows
      rw [hrows]
      exact List.mem_append_left _ hr
    · show id ∈ store.keys
      rw [KeyedTable.keys, hrows, List.map_append]
      exact List.mem_append_left _ hid
  | remove call | kill config paused => cases hl
  | updateConfig config | setPaused paused =>
    cases h
    exact ⟨fun r hr _ => hr, fun id hid => hid⟩
  | flush u recovered nowMs =>
    simp only [step, Option.ite_none_right_eq_some] at h
    obtain ⟨-, h⟩ := h
    cases h
    obtain ⟨config, -, heq | ⟨-, heq⟩⟩ := e.flush_cases u recovered nowMs <;> rw [heq]
    · exact ⟨fun r hr _ => hr, fun id hid => hid⟩
    · exact ⟨fun r hr _ => hr, fun id hid => hid⟩
  | cycle u ev => exact absurd rfl (hapart.label u ev)
  | recover =>
    simp only [step, Option.ite_none_right_eq_some] at h
    obtain ⟨-, h⟩ := h
    cases h
    refine ⟨fun r hr hstatus => ?_, fun id hid => ?_⟩
    · exact SyncItemDao.mem_resetInFlightToPending.mpr ⟨r, hr, if_neg (by simp [hstatus])⟩
    · show id ∈ (SyncItemDao.resetInFlightToPending e.world.store).keys
      rwa [SyncItemDao.keys_resetInFlightToPending]

theorem sights_of_ne (hl : ∀ ev, l ≠ .cycle t ev) : sights t e l = [] := by
  unfold sights
  split
  · rename_i u ev
    exact if_neg fun hu => hl ev (by rw [hu])
  · rfl

theorem Watched.step {p p' : Engine × List Sight} (hW : Watched t p) (hl : Steady t p.1 l)
    (h : StepSystem.recorded (Engine.step scheme) (sights t) p l = some p') : Watched t p' := by
  obtain ⟨e, log⟩ := p
  obtain ⟨e', log'⟩ := p'
  obtain ⟨hstep, rfl⟩ := StepSystem.recorded_eq_some.mp h
  obtain ⟨hA, c, hc, hlog⟩ := hW
  have hstep : e.step scheme l = some e' := hstep
  have hA' : Accounts e' := hA.step hstep
  rcases step_kinds hstep with hapart | ⟨u, recovered, nowMs, rfl, hnone, rfl⟩ |
    ⟨u, ev, d, d', rfl, hcycle⟩ | ⟨config, paused, rfl⟩
  · show Watched t (e', log ++ sights t e l)
    rw [sights_of_ne (hapart.label t), List.append_nil]
    obtain ⟨hrows, hkeys⟩ := rows_of_apart hapart hl hstep
    exact ⟨hA', c, hapart.flushes ▸ hc, hlog.congr hrows hkeys hapart.credentialHeldUntil⟩
  · have hsights : sights t e (.flush u recovered nowMs) = [] := sights_of_ne (by simp)
    show Watched t (_, log ++ sights t e (.flush u recovered nowMs))
    rw [hsights, List.append_nil]
    have hu : t ≠ u := by
      rintro rfl
      rw [hc] at hnone
      cases hnone
    refine ⟨hA', ?_⟩
    obtain ⟨config, -, heq | ⟨-, heq⟩⟩ := e.flush_cases u recovered nowMs <;> rw [heq]
    · exact ⟨c, hc, hlog⟩
    · exact ⟨c, (Function.update_of_ne hu _ _).trans hc,
        hlog.congr (fun r hr _ => hr) (fun id hid => hid) rfl⟩
  · by_cases hu : u = t
    · subst hu
      obtain rfl : c = d := Option.some.inj (hc.symm.trans hcycle.before)
      have hsights : sights u e (.cycle u ev) = c.sights e.world ev := by
        have hc : e.flushes u = some c := hc
        simp only [sights, if_true, hc]
      show Watched u (e', log ++ sights u e (.cycle u ev))
      rw [hsights]
      refine ⟨hA', d', by rw [hcycle.flushes, Function.update_self],
        hlog.cycle_step (hA.hands u c hc).1 hl.stored (fun code hcode => ?_) hcycle.step⟩
      rw [hcode] at hl
      exact hl.2 rfl
    · show Watched t (e', log ++ sights t e (.cycle u ev))
      rw [sights_of_ne (by simp [hu]), List.append_nil]
      refine ⟨hA', c, (hcycle.flushes_of_ne (Ne.symm hu)).trans hc, ?_⟩
      cases hca : c.active with
      | true =>
        -- next to this active cycle, the other one has ended
        obtain ⟨notBefore, hw⟩ :=
          Cycle.step_ended hcycle.step (hA.oneCycle.ended (Ne.symm hu) hcycle.before hc hca)
        show Watch e'.world c log
        rw [hw]
        exact hlog.congr (fun r hr _ => hr) (fun id hid => hid) rfl
      | false => exact hlog.congr_of_ended hca
  · cases hl

/-! ## 3. One rejection -/

/-- The step that ends a cycle. -/
theorem ends_by_summarize {ev : CycleEvent} {c c' : Cycle} (hc : e.flushes t = some c)
    (hca : c.active = true) (hev : ∀ code, ev ≠ .fail code)
    (h : e.step scheme (.cycle t ev) = some e') (hc' : e'.flushes t = some c')
    (hended : c'.active = false) :
    ∃ nothingPending, c.phase = .summarizing nothingPending ∧
      e'.world.store = e.world.store ∧ c'.phase = .finishing e.world.credentialHeldUntil := by
  obtain ⟨d, d', hcycle⟩ := step_cycle h
  obtain rfl : c = d := Option.some.inj (hc.symm.trans hcycle.before)
  obtain rfl : c' = d' := by
    rw [hcycle.flushes, Function.update_self] at hc'
    exact (Option.some.inj hc').symm
  exact Cycle.ends_by_summarize hcycle.step hca hev hended

/-- In every run of an install, for a call of `flush` that starts a cycle, while
the configuration stays a stored one with default headers, storage succeeds for
the cycle and no item is removed: at most one of its requests is answered 401 or
403. And in the step that ends the cycle after such an answer: the item is
`PENDING` again with the attempts of the row its dispatch found, and waits at
least `kMinCredentialHoldMs` from the clock read with its record; the items after
it in the batch have the rows that were fetched; and what the cycle does next is
call `onCycleFinished` with the deadline of the item. -/
theorem rejected_once_per_cycle {e₀ e e₁ e₂ : Engine} {ls₀ ls : List Label} {c₁ : Cycle}
    {recovered : Option StringMap} {nowMs : Int} {log : List Sight} (h : Boot e₀)
    (hstore : e₀.world.store = .empty)
    (h₀ : StepSystem.exec (step scheme) e₀ ls₀ = some e)
    (hflush : e.step scheme (.flush t recovered nowMs) = some e₁)
    (hc₁ : e₁.flushes t = some c₁)
    (hsteady : StepSystem.Meets (step scheme) (Steady t) e₁ ls)
    (hrun : StepSystem.exec (StepSystem.recorded (step scheme) (sights t)) (e₁, []) ls =
      some (e₂, log)) :
    (rejections log).length ≤ 1 ∧
    ∀ ev e₃ c₂ c₃ item later, e₂.flushes t = some c₂ → c₂.active = true →
      Steady t e₂ (.cycle t ev) → e₂.step scheme (.cycle t ev) = some e₃ →
      e₃.flushes t = some c₃ → c₃.active = false → (item, later) ∈ rejections log →
      ∃ batch pre r nowMs, .fetched batch ∈ log ∧ batch = pre ++ item :: later ∧
        .claimed item ∈ log ∧ .held item.id nowMs ∈ log ∧
        r ∈ e₃.world.store.rows ∧ r.id = item.id ∧ r.status = .PENDING ∧
        r.attempts = item.attempts ∧ nowMs + kMinCredentialHoldMs ≤ r.nextRetryAt ∧
        (∀ x ∈ later, x ∈ e₃.world.store.rows) ∧
        ∀ ls' e₄ ev' e₅, (∀ l ∈ ls', l.isKill = false ∧ ∀ ev, l ≠ .cycle t ev) →
          StepSystem.exec (step scheme) e₃ ls' = some e₄ →
          e₄.step scheme (.cycle t ev') = some e₅ →
          ev' = .finish ∧ e₅.world.wakes = e₄.world.wakes ++ [some r.nextRetryAt] := by
  have hA : Accounts e := StepSystem.exec_invariant Accounts.step (h.accounts hstore) h₀
  have hA₁ : Accounts e₁ := hA.step hflush
  have hstart : Watch e₁.world c₁ [] := by
    simp only [step, Option.ite_none_right_eq_some] at hflush
    obtain ⟨hnone, hflush⟩ := hflush
    have hnone : e.flushes t = none := by simpa using hnone
    cases hflush
    obtain ⟨config, -, heq | ⟨-, heq⟩⟩ := e.flush_cases t recovered nowMs <;> rw [heq] at hc₁ ⊢
    · exact absurd hnone (by rw [show e.flushes t = some c₁ from hc₁]; simp)
    · rcases flushes_setCycle hc₁ with ⟨-, rfl⟩ | ⟨hne, -⟩
      · exact ⟨.inl ⟨_, rfl⟩, fun x hx => (by cases hx), fun x hx => (by cases hx), rfl⟩
      · exact absurd rfl hne
  have hwatched : Watched t (e₂, log) :=
    StepSystem.exec_invariant_of_meets (fun hW hl hs => hW.step hl hs) ⟨hA₁, c₁, hc₁, hstart⟩
      (hsteady.recorded (sights t) []) hrun
  obtain ⟨-, d, hd, hwatch⟩ := hwatched
  refine ⟨hwatch.rejections_le, fun ev e₃ c₂ c₃ item later hc₂ hca hl h₃ hc₃ hended hmem => ?_⟩
  obtain rfl : d = c₂ := Option.some.inj (hd.symm.trans hc₂)
  have hev : ∀ code, ev ≠ .fail code := by
    rintro code rfl
    exact hl.2 rfl
  obtain ⟨nothingPending, hphase, hstore₃, hphase₃⟩ :=
    ends_by_summarize hc₂ hca hev h₃ hc₃ hended
  have hverdict := hwatch.verdict
  rw [Cycle.Verdict, hphase] at hverdict
  rcases hverdict with hnone | ⟨item', later', hone, hheld⟩
  · rw [hnone] at hmem
    cases hmem
  · rw [hone, List.mem_singleton] at hmem
    cases hmem
    obtain ⟨batch, pre, hbatch, hpre⟩ := hheld.batch
    obtain ⟨r, hr, hid, hstatus, hattempts, huntil, nowMs, hrecorded, hhold⟩ := hheld.row
    refine ⟨batch, pre, r, nowMs, hbatch, hpre, hheld.claimed, hrecorded, hstore₃ ▸ hr, hid,
      hstatus, hattempts, hhold, fun x hx => hstore₃ ▸ (hheld.later x hx).1, ?_⟩
    intro ls' e₄ ev' e₅ hother h₄ h₅
    have hc₄ : e₄.flushes t = some c₃ :=
      StepSystem.exec_invariant_of_meets (I := fun e => e.flushes t = some c₃)
        (fun hc hl hs => flushes_of_other hs hl.2 hl.1 hc) hc₃
        (StepSystem.meets_of_forall hother) h₄
    obtain ⟨c, c', hcycle⟩ := step_cycle h₅
    obtain rfl : c₃ = c := Option.some.inj (hc₄.symm.trans hcycle.before)
    exact Cycle.step_finishing (hphase₃.trans (congrArg _ huntil)) hcycle.step

section Sample

/-- The sample configuration, read back from storage. -/
def storedConfig : DispatcherConfig :=
  { sampleConfig with
    defaultHeaders := [("Authorization", "Bearer old")]
    source := .persisted
    hasDefaultHeaders := true }

def startRun : List Label :=
  [.enqueue [SyncQueueStorage.sampleItem "A", SyncQueueStorage.sampleItem "B"]]

/-- The first item of the batch is answered 401. -/
def rejectedRun : List Label :=
  .cycle 0 (.fetch 2000) :: sendRun ++ answerRun 401

/-- The second item keeps its row, and the hold of the first one is reported. -/
theorem rejected_once_per_cycle_of_two :
    ∃ e e₁ e₂ e₃ log item later r,
      StepSystem.exec (step https) { firstLaunch with config := storedConfig } startRun = some e ∧
      e.step https (.flush 0 none 2000) = some e₁ ∧
      StepSystem.exec (StepSystem.recorded (step https) (sights 0)) (e₁, []) rejectedRun =
        some (e₂, log) ∧
      e₂.step https (.cycle 0 (.summarize 2200)) = some e₃ ∧
      rejections log = [(item, later)] ∧ later.map (·.id) = ["B"] ∧
      r ∈ e₃.world.store.rows ∧ r.id = item.id ∧ r.status = .PENDING ∧
      r.attempts = item.attempts ∧ ∀ x ∈ later, x ∈ e₃.world.store.rows := by
  obtain ⟨e, e₁, c₁, he, hflush, hc₁⟩ : ∃ e e₁ c₁,
      StepSystem.exec (step https) { firstLaunch with config := storedConfig } startRun = some e ∧
      e.step https (.flush 0 none 2000) = some e₁ ∧ e₁.flushes 0 = some c₁ :=
    ⟨_, _, _, rfl, rfl, rfl⟩
  have hstart : StepSystem.exec (step https) { firstLaunch with config := storedConfig }
      (startRun ++ [.flush 0 none 2000]) = some e₁ :=
    StepSystem.exec_append_eq_some.mpr
      ⟨e, he, StepSystem.exec_cons_eq_some.mpr ⟨e₁, hflush, rfl⟩⟩
  have htrace : ((StepSystem.exec (step https) { firstLaunch with config := storedConfig }
      (startRun ++ [.flush 0 none 2000])).bind fun e₁ =>
        (StepSystem.exec (StepSystem.recorded (step https) (sights 0)) (e₁, []) rejectedRun).bind
          fun p => (p.1.step https (.cycle 0 (.summarize 2200))).map fun e₃ =>
            ((rejections p.2).map fun q => q.2.map (·.id), decide (Steady 0 p.1 (.cycle 0 .finish)),
              (p.1.flushes 0).map Cycle.active, (e₃.flushes 0).map Cycle.active)) =
      some ([["B"]], true, some true, some false) := by
    decide +kernel
  have hmeets : (StepSystem.exec (step https) { firstLaunch with config := storedConfig }
      (startRun ++ [.flush 0 none 2000])).all fun e₁ =>
        decide (StepSystem.Meets (step https) (Steady 0) e₁ rejectedRun) := by
    decide +kernel
  rw [hstart, Option.bind_some] at htrace
  rw [hstart] at hmeets
  obtain ⟨⟨e₂, log⟩, hrun, htrace⟩ := Option.bind_eq_some_iff.mp htrace
  obtain ⟨e₃, h₃, heq⟩ := Option.map_eq_some_iff.mp htrace
  simp only [Prod.mk.injEq, decide_eq_true_eq] at heq
  obtain ⟨hlog, hstored, hactive, hended⟩ := heq
  obtain ⟨⟨item, later⟩, hone, hlater⟩ := List.map_eq_singleton_iff.mp hlog
  obtain ⟨c₂, hc₂, hca⟩ := Option.map_eq_some_iff.mp hactive
  obtain ⟨c₃, hc₃, hca₃⟩ := Option.map_eq_some_iff.mp hended
  obtain ⟨batch, pre, r, nowMs, -, -, -, -, hr, hid, hstatus, hattempts, -, hlaterRows, -⟩ :=
    (rejected_once_per_cycle ⟨rfl, rfl, rfl, rfl, fun _ => rfl⟩ rfl he hflush hc₁
      (of_decide_eq_true hmeets) hrun).2 (.summarize 2200) e₃ c₂ c₃ item later hc₂ hca hstored h₃
        hc₃ hca₃ (by rw [hone]; exact List.mem_cons_self)
  exact ⟨e, e₁, e₂, e₃, log, item, later, r, he, hflush, hrun, h₃, hone, hlater, hr, hid, hstatus,
    hattempts, hlaterRows⟩

end Sample

end Engine

end SyncProvider.Ios
