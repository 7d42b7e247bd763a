import SyncProvider.Ios.Dispatcher

/-!
# iOS: the accounts of a cycle

The attempt counter of a row is persisted before the request and compared with
the budget only after a failure. In between, the cycle works on snapshots. The
accounts are kept over the rows and over what the cycle has in hand (`Hand`):
`Ledger` relates requests to counters, `Within` compares counters with a budget.

Results:
1. `Ledger.cycle_step` : a counter covers the requests of its item.
2. `Hand.Within.cycle_step` : what can still be dispatched has attempts left.
3. `Cycle.step_active`, `Cycle.step_ended` : when a cycle is over.
4. `OneCycle.step` : at most one cycle is active.
-/

namespace SyncProvider.Ios

/-- The attempts an item has. -/
def budget (config : DispatcherConfig) : Int := max 1 config.retryPolicy.maxAttempts

/-- The requests started for an item, less those whose attempt was given back. -/
def World.spent (w : World) (id : String) : Int :=
  (w.requests.map (·.1)).count id - w.refunds.count id

/-! ## What a cycle has in hand -/

/-- The snapshots of a cycle. -/
structure Hand where
  /-- The item under dispatch, once its attempt is counted. -/
  marked : Option StoredSyncItem
  /-- Its request may have started. -/
  sent : Bool
  /-- It failed, and goes back to the queue with its attempt counted. -/
  retry : Bool
  /-- The items to come. -/
  ahead : List StoredSyncItem

namespace Hand

def empty : Hand where
  marked := none
  sent := false
  retry := false
  ahead := []

def items (h : Hand) : List StoredSyncItem := h.marked.toList ++ h.ahead

end Hand

def FailureRecord.isRetry (record : FailureRecord) : Bool :=
  match record.write with
  | .markPendingForRetry _ _ => true
  | _ => false

def CyclePhase.hand : CyclePhase → Hand
  | .looping rest => { Hand.empty with ahead := rest }
  | .claiming item rest => { Hand.empty with ahead := item :: rest }
  | .claimed item _ rest | .prepared item _ rest _ _ =>
    { marked := item, sent := false, retry := false, ahead := rest }
  | .onWire item rest _ | .answered item rest _ _ | .removing item rest _ =>
    { marked := item, sent := true, retry := false, ahead := rest }
  | .recording item rest record =>
    { marked := item, sent := true, retry := record.isRetry, ahead := rest }
  | _ => .empty

/-- What the phase remembers about the counter of the item under dispatch. -/
def CyclePhase.Recalls : CyclePhase → Prop
  | .claimed item before _ | .prepared item before _ _ _ =>
    ∀ k, before = some k → k = item.attempts
  | .recording item _ record =>
    ∀ errorCode retryDelayMs attempts,
      record.write = .markCredentialRejected errorCode retryDelayMs attempts →
      attempts = item.attempts
  | _ => True

/-- The accounts agree: a counter covers the requests of its item, and the rows
agree with the snapshots in hand. -/
structure Ledger (w : World) (h : Hand) : Prop where
  rows_issued : ∀ r ∈ w.store.rows, r.id ∈ w.issued
  requests_issued : ∀ q ∈ w.requests, q.1 ∈ w.issued
  items_issued : ∀ x ∈ h.items, x.id ∈ w.issued
  nodup : (h.items.map (·.id)).Nodup
  rows : ∀ r ∈ w.store.rows, w.spent r.id ≤ r.attempts
  ahead : ∀ x ∈ h.ahead, w.spent x.id ≤ x.attempts
  ahead_row : ∀ x ∈ h.ahead, ∀ r ∈ w.store.rows, r.id = x.id → r.attempts = x.attempts
  marked : ∀ x, h.marked = some x → w.spent x.id ≤ x.attempts + if h.sent then 1 else 0
  marked_row : ∀ x, h.marked = some x → ∀ r ∈ w.store.rows, r.id = x.id →
    r.attempts = x.attempts + 1

/-- The snapshots in hand have attempts left, a retry included. -/
structure Hand.Within (h : Hand) (M : Int) : Prop where
  items : ∀ x ∈ h.items, x.attempts < M
  retry : h.retry = true → ∀ x, h.marked = some x → x.attempts + 1 < M

/-- The rows that wait for a dispatch have attempts left. -/
def World.Within (w : World) (M : Int) : Prop :=
  ∀ r ∈ w.store.rows, r.status = .PENDING → r.attempts < M

/-! ## 1. The accounts -/

namespace Ledger

variable {w w' : World} {h h' : Hand}

/-- The hand is let go. -/
theorem release (hL : Ledger w h) : Ledger w .empty where
  rows_issued := hL.rows_issued
  requests_issued := hL.requests_issued
  items_issued := by simp [Hand.items, Hand.empty]
  nodup := by simp [Hand.items, Hand.empty]
  rows := hL.rows
  ahead := by simp [Hand.empty]
  ahead_row := by simp [Hand.empty]
  marked := by simp [Hand.empty]
  marked_row := by simp [Hand.empty]

/-- Nothing but events, results and flags changed. -/
theorem congr (hL : Ledger w h) (hissued : w'.issued = w.issued) (hstore : w'.store = w.store)
    (hrequests : w'.requests = w.requests) (hrefunds : w'.refunds = w.refunds)
    (hmarked : h'.marked = h.marked) (hahead : h'.ahead = h.ahead)
    (hsent : h.sent = true → h'.sent = true) : Ledger w' h' := by
  have hspent : w'.spent = w.spent := by
    funext id
    simp only [World.spent, hrequests, hrefunds]
  have hitems : h'.items = h.items := by simp only [Hand.items, hmarked, hahead]
  refine ⟨?_, ?_, ?_, ?_, ?_, ?_, ?_, ?_, ?_⟩
  · rw [hstore, hissued]
    exact hL.rows_issued
  · rw [hrequests, hissued]
    exact hL.requests_issued
  · rw [hitems, hissued]
    exact hL.items_issued
  · rw [hitems]
    exact hL.nodup
  · rw [hstore, hspent]
    exact hL.rows
  · rw [hahead, hspent]
    exact hL.ahead
  · rw [hahead, hstore]
    exact hL.ahead_row
  · intro x hx
    have hle := hL.marked x (hmarked ▸ hx)
    rw [hspent]
    cases hs : h.sent with
    | true =>
      rw [hsent hs]
      rwa [hs] at hle
    | false =>
      rw [hs] at hle
      cases h'.sent <;> simp at hle ⊢ <;> omega
  · rw [hmarked, hstore]
    exact hL.marked_row

/-- Rows keep their counters, go, or enter with a new id and no attempts. -/
theorem outside (hL : Ledger w h) (hissued : w.issued ⊆ w'.issued)
    (hrequests : w'.requests = w.requests) (hrefunds : w'.refunds = w.refunds)
    (hrows : ∀ r ∈ w'.store.rows, (∃ r₀ ∈ w.store.rows, r₀.id = r.id ∧ r₀.attempts = r.attempts) ∨
      r.id ∈ w'.issued ∧ r.id ∉ w.issued ∧ r.attempts = 0) : Ledger w' h := by
  have hspent : w'.spent = w.spent := by
    funext id
    simp only [World.spent, hrequests, hrefunds]
  refine ⟨?_, ?_, fun x hx => hissued (hL.items_issued x hx), hL.nodup, ?_, ?_, ?_, ?_, ?_⟩
  · intro r hr
    rcases hrows r hr with ⟨r₀, hr₀, hid, -⟩ | ⟨hnew, -, -⟩
    · exact hid ▸ hissued (hL.rows_issued r₀ hr₀)
    · exact hnew
  · rw [hrequests]
    exact fun q hq => hissued (hL.requests_issued q hq)
  · intro r hr
    rw [hspent]
    rcases hrows r hr with ⟨r₀, hr₀, hid, hattempts⟩ | ⟨-, hnew, hattempts⟩
    · rw [← hid, ← hattempts]
      exact hL.rows r₀ hr₀
    · -- no request names a new id
      have hnone : (w.requests.map (·.1)).count r.id = 0 := by
        rw [List.count_eq_zero]
        intro hmem
        obtain ⟨q, hq, hid⟩ := List.mem_map.mp hmem
        exact hnew (hid ▸ hL.requests_issued q hq)
      rw [World.spent, hnone, hattempts]
      omega
  · rw [hspent]
    exact hL.ahead
  · intro x hx r hr hid
    rcases hrows r hr with ⟨r₀, hr₀, hid₀, hattempts⟩ | ⟨-, hnew, -⟩
    · rw [← hattempts]
      exact hL.ahead_row x hx r₀ hr₀ (hid₀.trans hid)
    · exact absurd (hid ▸ hL.items_issued x (by simp [Hand.items, hx])) hnew
  · rw [hspent]
    exact hL.marked
  · intro x hx r hr hid
    rcases hrows r hr with ⟨r₀, hr₀, hid₀, hattempts⟩ | ⟨-, hnew, -⟩
    · rw [← hattempts]
      exact hL.marked_row x hx r₀ hr₀ (hid₀.trans hid)
    · exact absurd (hid ▸ hL.items_issued x (by simp [Hand.items, hx])) hnew

/-- A batch is fetched. -/
theorem fetch (hL : Ledger w .empty) {pending : List StoredSyncItem}
    (hrows : ∀ x ∈ pending, x ∈ w.store.rows) (hnodup : (pending.map (·.id)).Nodup) :
    Ledger w { Hand.empty with ahead := pending } where
  rows_issued := hL.rows_issued
  requests_issued := hL.requests_issued
  items_issued x hx := hL.rows_issued x (hrows x (by simpa [Hand.items, Hand.empty] using hx))
  nodup := by simpa [Hand.items, Hand.empty] using hnodup
  rows := hL.rows
  ahead x hx := hL.rows x (hrows x hx)
  ahead_row x hx r hr hid := by rw [KeyedTable.eq_of_key_eq hr (hrows x hx) hid]
  marked := by simp [Hand.empty]
  marked_row := by simp [Hand.empty]

/-- `markInFlight` counts the attempt of the next item. -/
theorem mark {item : StoredSyncItem} {rest : List StoredSyncItem}
    (hL : Ledger w { Hand.empty with ahead := item :: rest }) (nowMs : Int) :
    Ledger { w with store := SyncItemDao.markInFlight item.id nowMs w.store }
      { marked := item, sent := false, retry := false, ahead := rest } := by
  have hahead {x : StoredSyncItem} (hx : x ∈ rest) : x ∈ item :: rest := List.mem_cons_of_mem _ hx
  have hne {x : StoredSyncItem} (hx : x ∈ rest) : x.id ≠ item.id := by
    have hn : ((item :: rest).map (·.id)).Nodup := by
      simpa [Hand.items, Hand.empty] using hL.nodup
    rw [List.map_cons, List.nodup_cons] at hn
    exact fun hid => hn.1 (List.mem_map.mpr ⟨x, hx, hid⟩)
  refine ⟨?_, hL.requests_issued, hL.items_issued, hL.nodup, ?_, ?_, ?_, ?_, ?_⟩
  · intro r hr
    obtain ⟨r₀, hr₀, rfl⟩ := SyncItemDao.mem_markInFlight.mp hr
    split
    · exact hL.rows_issued r₀ hr₀
    · exact hL.rows_issued r₀ hr₀
  · intro r hr
    obtain ⟨r₀, hr₀, rfl⟩ := SyncItemDao.mem_markInFlight.mp hr
    have hle : w.spent r₀.id ≤ r₀.attempts := hL.rows r₀ hr₀
    split
    · exact hle.trans (Int.le_add_of_nonneg_right (by decide))
    · exact hle
  · exact fun x hx => hL.ahead x (hahead hx)
  · intro x hx r hr hid
    obtain ⟨r₀, hr₀, rfl⟩ := SyncItemDao.mem_markInFlight.mp hr
    split at hid
    · rename_i hitem
      exact absurd (hid.symm.trans hitem) (hne hx)
    · rename_i hitem
      rw [if_neg hitem]
      exact hL.ahead_row x (hahead hx) r₀ hr₀ hid
  · rintro x ⟨⟩
    have hle : w.spent item.id ≤ item.attempts := hL.ahead item List.mem_cons_self
    simpa [World.spent] using hle
  · rintro x ⟨⟩ r hr hid
    obtain ⟨r₀, hr₀, rfl⟩ := SyncItemDao.mem_markInFlight.mp hr
    have hid₀ : r₀.id = item.id := by
      split at hid
      · assumption
      · exact hid
    rw [if_pos hid₀]
    have := hL.ahead_row item List.mem_cons_self r₀ hr₀ hid₀
    simp only [this]

/-- The item under dispatch is not among those to come. -/
theorem marked_nodup {item : StoredSyncItem} {sent retry : Bool} {rest : List StoredSyncItem}
    (hL : Ledger w { marked := item, sent := sent, retry := retry, ahead := rest }) :
    (∀ x ∈ rest, x.id ≠ item.id) ∧ (rest.map (·.id)).Nodup := by
  have hn : ((item :: rest).map (·.id)).Nodup := by simpa [Hand.items] using hL.nodup
  rw [List.map_cons, List.nodup_cons] at hn
  exact ⟨fun x hx hid => hn.1 (List.mem_map.mpr ⟨x, hx, hid⟩), hn.2⟩

/-- The request of the item under dispatch starts. -/
theorem send {item : StoredSyncItem} {rest : List StoredSyncItem}
    (hL : Ledger w { marked := item, sent := false, retry := false, ahead := rest })
    (request : URLRequest) :
    Ledger { w with requests := w.requests ++ [(item.id, request)] }
      { marked := item, sent := true, retry := false, ahead := rest } := by
  have hspent (id : String) :
      World.spent { w with requests := w.requests ++ [(item.id, request)] } id =
        w.spent id + if item.id = id then 1 else 0 := by
    simp only [World.spent, List.map_append, List.map_singleton, List.count_append,
      List.count_singleton, beq_iff_eq]
    split <;> push_cast <;> omega
  have hmarked := hL.marked item rfl
  refine ⟨hL.rows_issued, ?_, hL.items_issued, hL.nodup, ?_, ?_, hL.ahead_row, ?_, hL.marked_row⟩
  · intro q hq
    rcases List.mem_append.mp hq with hq | hq
    · exact hL.requests_issued q hq
    · rw [List.mem_singleton.mp hq]
      exact hL.items_issued item (by simp [Hand.items])
  · intro r hr
    rw [hspent]
    by_cases hid : item.id = r.id
    · -- the row was counted by `markInFlight`
      have hrow := hL.marked_row item rfl r hr hid.symm
      rw [if_pos hid, hrow, ← hid]
      simpa using hmarked
    · simpa [hid] using hL.rows r hr
  · intro x hx
    rw [hspent, if_neg fun hid => hL.marked_nodup.1 x hx hid.symm]
    simpa using hL.ahead x hx
  · rintro x ⟨⟩
    rw [hspent]
    simpa using hmarked

/-- The row of the item under dispatch is written, and the item let go. The
counter stays, or the attempt is given back in both accounts. -/
theorem settle {item : StoredSyncItem} {sent retry : Bool} {rest : List StoredSyncItem}
    (hL : Ledger w { marked := item, sent := sent, retry := retry, ahead := rest })
    (hissued : w'.issued = w.issued) (hrequests : w'.requests = w.requests)
    (hspent : ∀ id, id ≠ item.id → w'.spent id = w.spent id)
    (hrows : ∀ r ∈ w'.store.rows, r ∈ w.store.rows ∧ r.id ≠ item.id ∨
      r.id = item.id ∧ item.id ∈ w.issued ∧ w'.spent r.id ≤ r.attempts) :
    Ledger w' { Hand.empty with ahead := rest } := by
  obtain ⟨hne, hnodup⟩ := hL.marked_nodup
  refine ⟨?_, ?_, ?_, ?_, ?_, ?_, ?_, by simp [Hand.empty], by simp [Hand.empty]⟩
  · intro r hr
    rw [hissued]
    rcases hrows r hr with ⟨hr, -⟩ | ⟨hid, hitem, -⟩
    · exact hL.rows_issued r hr
    · rwa [hid]
  · rw [hrequests, hissued]
    exact hL.requests_issued
  · intro x hx
    rw [hissued]
    exact hL.items_issued x (by simp_all [Hand.items, Hand.empty])
  · simpa [Hand.items, Hand.empty] using hnodup
  · intro r hr
    rcases hrows r hr with ⟨hr, hid⟩ | ⟨-, -, hle⟩
    · rw [hspent _ hid]
      exact hL.rows r hr
    · exact hle
  · intro x hx
    rw [hspent _ (hne x hx)]
    exact hL.ahead x hx
  · intro x hx r hr hid
    rcases hrows r hr with ⟨hr, -⟩ | ⟨hitem, -⟩
    · exact hL.ahead_row x hx r hr hid
    · exact absurd (hid.symm.trans hitem) (hne x hx)

/-- The write of a failed dispatch keeps the accounts. -/
theorem writeFailure {item : StoredSyncItem} {retry : Bool} {rest : List StoredSyncItem}
    {record : FailureRecord}
    (hL : Ledger w { marked := item, sent := true, retry := retry, ahead := rest }) (c : Cycle)
    (nowMs : Int) (hR : CyclePhase.Recalls (.recording item rest record)) :
    Ledger (Cycle.writeFailure w c item rest record nowMs).1
      (Cycle.writeFailure w c item rest record nowMs).2.phase.hand := by
  have hmarked : w.spent item.id ≤ item.attempts + 1 := by simpa using hL.marked item rfl
  unfold Cycle.writeFailure
  split
  · refine hL.settle rfl rfl (fun _ _ => rfl) fun r hr => ?_
    rcases SyncItemDao.markFailed_cases hr with hr | ⟨r₀, hr₀, hid, rfl⟩
    · exact .inl hr
    · exact .inr ⟨hid, hid ▸ hL.rows_issued r₀ hr₀, hL.rows r₀ hr₀⟩
  · refine hL.settle rfl rfl (fun _ _ => rfl) fun r hr => ?_
    rcases SyncItemDao.markPendingForRetry_cases hr with hr | ⟨r₀, hr₀, hid, rfl⟩
    · exact .inl hr
    · exact .inr ⟨hid, hid ▸ hL.rows_issued r₀ hr₀, hL.rows r₀ hr₀⟩
  · rename_i errorCode retryDelayMs attempts hwrite
    have hattempts : attempts = item.attempts := hR _ _ _ hwrite
    have hspent (id : String) :
        ((w.requests.map (·.1)).count id - (w.refunds ++ [item.id]).count id : Int) =
          w.spent id - if item.id = id then 1 else 0 := by
      simp only [World.spent, List.count_append, List.count_singleton, beq_iff_eq]
      split <;> push_cast <;> omega
    refine Ledger.release (?_ : Ledger _ { Hand.empty with ahead := rest })
    refine hL.settle rfl rfl (fun id hid => ?_) fun r hr => ?_
    · refine (hspent id).trans ?_
      rw [if_neg fun h => hid h.symm, Int.sub_zero]
    · rcases SyncItemDao.markCredentialRejected_cases hr with hr | ⟨r₀, hr₀, hid, rfl⟩
      · exact .inl hr
      · refine .inr ⟨hid, hid ▸ hL.rows_issued r₀ hr₀, (hspent r₀.id).le.trans ?_⟩
        -- the request is taken back from both accounts
        change w.spent r₀.id - _ ≤ attempts
        rw [if_pos hid.symm, hid, hattempts]
        omega

end Ledger

theorem recalls_recordFailureOutcome (config sentWith : DispatcherConfig) (item : StoredSyncItem)
    (rest : List StoredSyncItem) (outcome : ItemDispatchOutcome) (sample : ℚ) :
    CyclePhase.Recalls
      (.recording item rest (recordFailureOutcome config sentWith item outcome sample)) := by
  intro errorCode retryDelayMs attempts hwrite
  rcases recordFailureOutcome_write config sentWith item outcome sample with
    ⟨_, h⟩ | ⟨_, h, -⟩ | ⟨_, h⟩
  all_goals
    rw [h] at hwrite
    cases hwrite
  rfl

/-- A cycle keeps the accounts. -/
theorem Ledger.cycle_step {scheme : String → Option String} {config : DispatcherConfig}
    {paused : Bool} {w w' : World} {c c' : Cycle} {ev : CycleEvent} (hL : Ledger w c.phase.hand)
    (hR : c.phase.Recalls) (h : c.step scheme config paused w ev = some (w', c')) :
    Ledger w' c'.phase.hand ∧ c'.phase.Recalls := by
  cases Cycle.step_cases h with
  | fetchNone hphase hnothing => exact ⟨hL.release, trivial⟩
  | fetch hphase hpending hsome =>
    rw [hphase] at hL
    rw [← hpending]
    exact ⟨hL.fetch (fun x hx => (SyncItemDao.fetchPending_subset hx).1)
      (SyncItemDao.fetchPending_nodup ..), trivial⟩
  | leave hphase hleave => exact ⟨hL.release, trivial⟩
  | take hphase hpaused =>
    rw [hphase] at hL
    exact ⟨hL, trivial⟩
  | markInFlight hphase =>
    rw [hphase] at hL
    refine ⟨hL.mark _, fun k hk => ?_⟩
    obtain ⟨r, hr, rfl⟩ := Option.map_eq_some_iff.mp hk
    obtain ⟨hr, hid⟩ := KeyedTable.find?_eq_some.mp hr
    exact hL.ahead_row _ List.mem_cons_self r hr hid
  | prepare hphase hurl =>
    rw [hphase] at hL hR
    exact ⟨hL, hR⟩
  | rejectUrl hphase hurl =>
    rw [hphase] at hL
    exact ⟨hL.congr rfl rfl rfl rfl rfl rfl fun _ => rfl, trivial⟩
  | send hphase =>
    rw [hphase] at hL
    exact ⟨hL.send _, trivial⟩
  | sendFails hphase =>
    rw [hphase] at hL
    exact ⟨hL.congr rfl rfl rfl rfl rfl rfl fun _ => rfl, trivial⟩
  | answer hphase =>
    rw [hphase] at hL
    exact ⟨hL, trivial⟩
  | succeed hphase hok =>
    rw [hphase] at hL
    exact ⟨hL.congr rfl rfl rfl rfl rfl rfl id, trivial⟩
  | failItem hphase hok =>
    rw [hphase] at hL
    exact ⟨hL.congr rfl rfl rfl rfl rfl rfl id, recalls_recordFailureOutcome _ _ _ _ _ _⟩
  | remove hphase =>
    rw [hphase] at hL
    refine ⟨hL.settle rfl rfl (fun _ _ => rfl) fun r hr => .inl ?_, trivial⟩
    have hr' := KeyedTable.mem_deleteWhere.mp hr
    simpa using hr'
  | @record item rest record nowMs hphase =>
    rw [hphase] at hL hR
    refine ⟨hL.writeFailure c nowMs hR, ?_⟩
    unfold Cycle.writeFailure
    split <;> trivial
  | summarize hphase =>
    rw [hphase] at hL
    exact ⟨hL.congr rfl rfl rfl rfl rfl rfl id, trivial⟩
  | fail hstorage => exact ⟨hL.release.congr rfl rfl rfl rfl rfl rfl id, trivial⟩
  | finish hphase =>
    rw [hphase] at hL
    exact ⟨hL.congr rfl rfl rfl rfl rfl rfl id, trivial⟩

/-- A retry is decided only while there is another attempt. -/
theorem attempts_lt_of_isRetry {config sentWith : DispatcherConfig} {item : StoredSyncItem}
    {outcome : ItemDispatchOutcome} {sample : ℚ}
    (h : (recordFailureOutcome config sentWith item outcome sample).isRetry = true) :
    item.attempts + 1 < budget config := by
  unfold FailureRecord.isRetry at h
  rcases recordFailureOutcome_write config sentWith item outcome sample with
    ⟨_, hw⟩ | ⟨_, -, hlt⟩ | ⟨_, hw⟩
  · rw [hw] at h
    cases h
  · exact lt_max_of_lt_right hlt
  · rw [hw] at h
    cases h

/-! ## 2. The budget -/

theorem Hand.Within.of_subset {h h' : Hand} {M : Int} (hW : h.Within M)
    (hitems : h'.items ⊆ h.items) (hretry : h'.retry = false) : h'.Within M where
  items x hx := hW.items x (hitems hx)
  retry hr := by
    rw [hretry] at hr
    cases hr

theorem Hand.within_empty (M : Int) : Hand.empty.Within M where
  items := by simp [Hand.items, Hand.empty]
  retry := by simp [Hand.empty]

/-- A row that a failed dispatch sends back has attempts left. -/
theorem within_writeFailure {w : World} {item : StoredSyncItem} {sent : Bool}
    {rest : List StoredSyncItem} {record : FailureRecord} {M : Int}
    (hL : Ledger w { marked := item, sent := sent, retry := record.isRetry, ahead := rest })
    (hR : CyclePhase.Recalls (.recording item rest record)) (hrows : w.Within M)
    (hhand : Hand.Within { marked := item, sent := sent, retry := record.isRetry, ahead := rest } M)
    (c : Cycle) (nowMs : Int) :
    (Cycle.writeFailure w c item rest record nowMs).1.Within M ∧
      (Cycle.writeFailure w c item rest record nowMs).2.phase.hand.Within M := by
  have hrest : Hand.Within { Hand.empty with ahead := rest } M :=
    hhand.of_subset (List.subset_append_right _ _) rfl
  unfold Cycle.writeFailure
  split
  · refine ⟨fun r hr hs => ?_, hrest⟩
    rcases SyncItemDao.markFailed_cases hr with ⟨hr, -⟩ | ⟨r₀, -, -, rfl⟩
    · exact hrows r hr hs
    · cases hs
  · rename_i hwrite
    refine ⟨fun r hr hs => ?_, hrest⟩
    rcases SyncItemDao.markPendingForRetry_cases hr with ⟨hr, -⟩ | ⟨r₀, hr₀, hid, rfl⟩
    · exact hrows r hr hs
    · have hlt := hhand.retry (by simp [FailureRecord.isRetry, hwrite]) item rfl
      rwa [← hL.marked_row item rfl r₀ hr₀ hid] at hlt
  · rename_i errorCode retryDelayMs attempts hwrite
    refine ⟨fun r hr hs => ?_, Hand.within_empty M⟩
    rcases SyncItemDao.markCredentialRejected_cases hr with ⟨hr, -⟩ | ⟨r₀, -, -, rfl⟩
    · exact hrows r hr hs
    · change attempts < M
      rw [hR _ _ _ hwrite]
      exact hhand.items item (by simp [Hand.items])

/-- A cycle dispatches within the budget of the configuration in force. -/
theorem Hand.Within.cycle_step {scheme : String → Option String} {config : DispatcherConfig}
    {paused : Bool} {w w' : World} {c c' : Cycle} {ev : CycleEvent}
    (hhand : c.phase.hand.Within (budget config)) (hrows : w.Within (budget config))
    (hL : Ledger w c.phase.hand) (hR : c.phase.Recalls)
    (h : c.step scheme config paused w ev = some (w', c')) :
    w'.Within (budget config) ∧ c'.phase.hand.Within (budget config) := by
  cases Cycle.step_cases h with
  | fetchNone hphase hnothing => exact ⟨hrows, Hand.within_empty _⟩
  | fetch hphase hpending hsome =>
    refine ⟨hrows, fun x hx => ?_, fun hr => by cases hr⟩
    rw [← hpending] at hx
    obtain ⟨hx, hs, -⟩ := SyncItemDao.fetchPending_subset hx
    exact hrows x hx hs
  | leave hphase hleave => exact ⟨hrows, Hand.within_empty _⟩
  | take hphase hpaused =>
    rw [hphase] at hhand
    exact ⟨hrows, hhand⟩
  | markInFlight hphase =>
    rw [hphase] at hhand
    refine ⟨fun r hr hs => ?_, hhand.of_subset (fun _ hx => hx) rfl⟩
    obtain ⟨r₀, hr₀, rfl⟩ := SyncItemDao.mem_markInFlight.mp hr
    split at hs
    · cases hs
    · rename_i hid
      rw [if_neg hid]
      exact hrows r₀ hr₀ hs
  | prepare hphase hurl =>
    rw [hphase] at hhand
    exact ⟨hrows, hhand⟩
  | rejectUrl hphase hurl =>
    rw [hphase] at hhand
    exact ⟨hrows, hhand.of_subset (fun _ hx => hx) rfl⟩
  | send hphase =>
    rw [hphase] at hhand
    exact ⟨hrows, hhand.of_subset (fun _ hx => hx) rfl⟩
  | sendFails hphase =>
    rw [hphase] at hhand
    exact ⟨hrows, hhand.of_subset (fun _ hx => hx) rfl⟩
  | answer hphase =>
    rw [hphase] at hhand
    exact ⟨hrows, hhand⟩
  | succeed hphase hok =>
    rw [hphase] at hhand
    exact ⟨hrows, hhand.of_subset (fun _ hx => hx) rfl⟩
  | failItem hphase hok =>
    rw [hphase] at hhand
    refine ⟨hrows, hhand.items, ?_⟩
    rintro hr x ⟨⟩
    exact attempts_lt_of_isRetry hr
  | remove hphase =>
    rw [hphase] at hhand
    refine ⟨fun r hr => hrows r (KeyedTable.mem_deleteWhere.mp hr).1, ?_⟩
    exact hhand.of_subset (List.subset_append_right _ _) rfl
  | record hphase =>
    rw [hphase] at hL hR hhand
    exact within_writeFailure hL hR hrows hhand c _
  | summarize hphase => exact ⟨hrows, Hand.within_empty _⟩
  | fail hstorage => exact ⟨hrows, Hand.within_empty _⟩
  | finish hphase => exact ⟨hrows, Hand.within_empty _⟩

/-- A request takes its item to one more than its counter at most. -/
theorem Ledger.spent_cycle_step {scheme : String → Option String} {config : DispatcherConfig}
    {paused : Bool} {w w' : World} {c c' : Cycle} {ev : CycleEvent} (hL : Ledger w c.phase.hand)
    (h : c.step scheme config paused w ev = some (w', c')) (id : String) :
    w'.spent id ≤ w.spent id ∨ ∃ x ∈ c.phase.hand.items, w'.spent id ≤ x.attempts + 1 := by
  cases Cycle.step_cases h with
  | @send item before rest sentWith request hphase =>
    rw [hphase] at hL ⊢
    by_cases hid : item.id = id
    · refine .inr ⟨item, by simp [CyclePhase.hand, Hand.items], ?_⟩
      simpa [hid] using (hL.send request).marked item rfl
    · left
      simp [World.spent, hid]
  | @record item rest record nowMs hphase =>
    left
    unfold Cycle.writeFailure
    split
    · exact le_rfl
    · exact le_rfl
    · simp only [World.spent, World.emit, List.count_append]
      omega
  | _ => exact .inl le_rfl

/-! ## 3. The end of a cycle -/

/-- A cycle that is active was active before, and has kept the flag. -/
theorem Cycle.step_active {scheme : String → Option String} {config : DispatcherConfig}
    {paused : Bool} {w w' : World} {c c' : Cycle} {ev : CycleEvent}
    (h : c.step scheme config paused w ev = some (w', c')) (hc' : c'.active = true) :
    c.active = true ∧ w'.isCycleRunning = w.isCycleRunning := by
  cases Cycle.step_cases h with
  | @record item rest record nowMs hphase =>
    refine ⟨by rw [Cycle.active, hphase], ?_⟩
    unfold Cycle.writeFailure
    split <;> rfl
  | summarize hphase => cases hc'
  | fail hstorage => cases hc'
  | finish hphase => cases hc'
  | fetchNone hphase | fetch hphase | leave hphase | take hphase | markInFlight hphase
  | prepare hphase | rejectUrl hphase | send hphase | sendFails hphase | answer hphase
  | succeed hphase | failItem hphase | remove hphase =>
    exact ⟨by rw [Cycle.active, hphase], rfl⟩

/-- A cycle that has ended does nothing but call `onCycleFinished`. -/
theorem Cycle.step_ended {scheme : String → Option String} {config : DispatcherConfig}
    {paused : Bool} {w w' : World} {c c' : Cycle} {ev : CycleEvent}
    (h : c.step scheme config paused w ev = some (w', c')) (hc : c.active = false) :
    ∃ notBefore, w' = { w with wakes := w.wakes ++ [notBefore] } := by
  unfold Cycle.active at hc
  cases Cycle.step_cases h with
  | @finish notBefore hphase => exact ⟨notBefore, rfl⟩
  | fail hstorage =>
    unfold Cycle.inStorage at hstorage
    split at hstorage <;> simp_all
  | fetchNone hphase | fetch hphase | leave hphase | take hphase | markInFlight hphase
  | prepare hphase | rejectUrl hphase | send hphase | sendFails hphase | answer hphase
  | succeed hphase | failItem hphase | remove hphase | record hphase | summarize hphase =>
    rw [hphase] at hc
    cases hc

theorem CyclePhase.hand_of_ended {c : Cycle} (hc : c.active = false) : c.phase.hand = .empty := by
  obtain ⟨startedAt, total, attempted, succeededIds, failedIds, firstError, phase⟩ := c
  cases phase with
  | finishing | finished => rfl
  | _ => cases hc

/-! ## 4. One cycle at a time -/

namespace Engine

/-- At most one cycle is active, and while one is, the flag of the actor is set. -/
structure OneCycle (e : Engine) : Prop where
  running : ∀ t c, e.flushes t = some c → c.active = true → e.world.isCycleRunning = true
  unique : ∀ t c u d, e.flushes t = some c → e.flushes u = some d → c.active = true →
    d.active = true → t = u

/-- A step that touches neither the cycles nor the state of the actor. -/
structure Apart (e : Engine) (l : Label) (e' : Engine) : Prop where
  label : ∀ t ev, l ≠ .cycle t ev
  flushes : e'.flushes = e.flushes
  isCycleRunning : e'.world.isCycleRunning = e.world.isCycleRunning
  credentialHeldUntil : e'.world.credentialHeldUntil = e.world.credentialHeldUntil
  events : e'.world.events = e.world.events

theorem step_kinds {scheme : String → Option String} {e e' : Engine} {l : Label}
    (h : e.step scheme l = some e') :
    Apart e l e' ∨
      (∃ t recovered nowMs, l = .flush t recovered nowMs ∧ e.flushes t = none ∧
        e' = e.flush t recovered nowMs) ∨
      (∃ t ev c c', l = .cycle t ev ∧ InCycle scheme e e' t ev c c') ∨
      ∃ config paused, l = .kill config paused := by
  cases l with
  | enqueue items =>
    simp only [step, Option.ite_none_right_eq_some, Option.map_eq_some_iff] at h
    obtain ⟨-, store, -, rfl⟩ := h
    exact .inl ⟨(by rintro _ _ ⟨⟩), rfl, rfl, rfl, rfl⟩
  | remove call | updateConfig config | setPaused paused =>
    cases h
    exact .inl ⟨(by rintro _ _ ⟨⟩), rfl, rfl, rfl, rfl⟩
  | flush t recovered nowMs =>
    simp only [step, Option.ite_none_right_eq_some] at h
    obtain ⟨hnone, h⟩ := h
    cases h
    exact .inr (.inl ⟨t, recovered, nowMs, rfl, by simpa using hnone, rfl⟩)
  | cycle t ev =>
    obtain ⟨c, c', h⟩ := step_cycle h
    exact .inr (.inr (.inl ⟨t, ev, c, c', rfl, h⟩))
  | recover =>
    simp only [step, Option.ite_none_right_eq_some] at h
    obtain ⟨-, h⟩ := h
    cases h
    exact .inl ⟨(by rintro _ _ ⟨⟩), rfl, rfl, rfl, rfl⟩
  | kill config paused => exact .inr (.inr (.inr ⟨config, paused, rfl⟩))

namespace OneCycle

variable {scheme : String → Option String} {e e' : Engine}

theorem idle (hO : OneCycle e) (hidle : e.world.isCycleRunning = false) {t : Nat} {c : Cycle}
    (hc : e.flushes t = some c) : c.active = false := by
  cases hactive : c.active with
  | true => exact absurd (hO.running t c hc hactive) (by simp [hidle])
  | false => rfl

/-- Next to an active cycle, every other one has ended. -/
theorem ended (hO : OneCycle e) {t u : Nat} {c d : Cycle} (hu : u ≠ t) (hc : e.flushes t = some c)
    (hd : e.flushes u = some d) (hda : d.active = true) : c.active = false := by
  cases hca : c.active with
  | true => exact absurd (hO.unique u d t c hd hc hda hca) hu
  | false => rfl

theorem flush (hO : OneCycle e) (t : Nat) (recovered : Option StringMap) (nowMs : Int) :
    OneCycle (e.flush t recovered nowMs) := by
  obtain ⟨config, -, h | ⟨hidle, h⟩⟩ := e.flush_cases t recovered nowMs <;> rw [h]
  · exact ⟨hO.running, hO.unique⟩
  · -- no cycle is active, so the new one is the only one
    refine ⟨fun u c hc _ => rfl, fun u c v d hc hd hca hda => ?_⟩
    rcases flushes_setCycle hc with ⟨rfl, -⟩ | ⟨-, hc⟩
    · rcases flushes_setCycle hd with ⟨rfl, -⟩ | ⟨-, hd⟩
      · rfl
      · rw [hO.idle hidle hd] at hda
        cases hda
    · rw [hO.idle hidle hc] at hca
      cases hca

theorem inCycle {t : Nat} {ev : CycleEvent} {c c' : Cycle} (hO : OneCycle e)
    (h : InCycle scheme e e' t ev c c') : OneCycle e' := by
  have hcases {u : Nat} {d : Cycle} (hd : e'.flushes u = some d) :
      u = t ∧ d = c' ∨ u ≠ t ∧ e.flushes u = some d :=
    flushes_setCycle (h.flushes ▸ hd)
  refine ⟨fun u d hd hda => ?_, fun u d v d' hd hd' hda hda' => ?_⟩
  · rcases hcases hd with ⟨rfl, rfl⟩ | ⟨hu, hd⟩
    · obtain ⟨hca, hrunning⟩ := Cycle.step_active h.step hda
      rw [hrunning]
      exact hO.running u c h.before hca
    · obtain ⟨notBefore, hw⟩ := Cycle.step_ended h.step (hO.ended hu h.before hd hda)
      rw [hw]
      exact hO.running u d hd hda
  · rcases hcases hd with ⟨rfl, rfl⟩ | ⟨hu, hd⟩
    · rcases hcases hd' with ⟨rfl, rfl⟩ | ⟨hv, hd'⟩
      · rfl
      · exact hO.unique u c v d' h.before hd' (Cycle.step_active h.step hda).1 hda'
    · rcases hcases hd' with ⟨rfl, rfl⟩ | ⟨hv, hd'⟩
      · exact hO.unique u d v c hd h.before hda (Cycle.step_active h.step hda').1
      · exact hO.unique u d v d' hd hd' hda hda'

theorem step {l : Label} (hO : OneCycle e) (h : e.step scheme l = some e') : OneCycle e' := by
  rcases step_kinds h with h | ⟨t, recovered, nowMs, -, -, rfl⟩ | ⟨t, ev, c, c', -, h⟩ |
    ⟨config, paused, rfl⟩
  · refine ⟨fun t c hc hca => ?_, fun t c u d hc hd => ?_⟩
    · rw [h.isCycleRunning]
      exact hO.running t c (h.flushes ▸ hc) hca
    · exact hO.unique t c u d (h.flushes ▸ hc) (h.flushes ▸ hd)
  · exact hO.flush t recovered nowMs
  · exact hO.inCycle h
  · cases h
    exact ⟨by rintro _ _ ⟨⟩, by rintro _ _ _ _ ⟨⟩⟩

end OneCycle

theorem Boot.oneCycle {e : Engine} (h : Boot e) : OneCycle e := by
  refine ⟨fun t c hc => ?_, fun t c u d hc => ?_⟩
  all_goals
    rw [h.flushes] at hc
    cases hc

end Engine

end SyncProvider.Ios
