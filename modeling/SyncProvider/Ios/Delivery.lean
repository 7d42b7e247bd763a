import SyncProvider.Ios.Payload
import SyncProvider.Ios.Selection

/-!
# iOS: the order and the end of delivery

A cycle works through the batch it has fetched from the front to the back. So whatever lands at
its `await`s, its requests go out in dispatch order. And when the server takes everything, as
many flushes as there are batches empty the queue.

Results:
1. `Cycle.step_unsent` : how the items to come change.
2. `sends_in_order` : what the requests of one cycle are.
3. `delivers_everything` : what a row of flushes does when every answer is a success.
-/

namespace SyncProvider.Ios

open StepSystem (exec exec_cons_eq_some exec_append_eq_some exec_past_invariant recorded
  recorded_eq_some)
open SyncItemDao (DispatchedBefore eligible fetchPending)

/-! ## 1. The items to come -/

section Cycle

variable {scheme : String → Option String} {config : DispatcherConfig} {paused : Bool}
  {w w' : World} {c c' : Cycle} {ev : CycleEvent}

theorem Cycle.unsent_writeFailure (w : World) (c : Cycle) (item : StoredSyncItem)
    (rest : List StoredSyncItem) (record : FailureRecord) (nowMs : Int) :
    (writeFailure w c item rest record nowMs).2.unsent.Sublist rest := by
  unfold writeFailure
  cases record.write with
  | markCredentialRejected => exact List.nil_sublist rest
  | markFailed | markPendingForRetry => exact List.Sublist.refl rest

/-- A step fetches a batch, or sends the first of the items to come, or lets some of them go. -/
theorem Cycle.step_unsent (h : c.step scheme config paused w ev = some (w', c')) :
    (∃ limit nowMs, ev = .fetch nowMs ∧ c.phase = .fetching limit ∧ c.uploads ev = [] ∧
      c'.unsent = fetchPending nowMs limit w.store) ∨
    ∃ taken, (c.uploads ev).map (·.itemId) = taken.map (·.id) ∧
      (taken ++ c'.unsent).Sublist c.unsent := by
  have hlet (hnone : c.uploads ev = []) (hsub : c'.unsent.Sublist c.unsent) :
      ∃ taken : List StoredSyncItem, (c.uploads ev).map (·.itemId) = taken.map (·.id) ∧
        (taken ++ c'.unsent).Sublist c.unsent := ⟨[], by rw [hnone]; rfl, hsub⟩
  cases step_cases h with
  | @fetchNone limit nowMs hphase hnone => exact .inl ⟨limit, nowMs, rfl, hphase, rfl, hnone.symm⟩
  | @fetch limit nowMs pending hphase hpending hsome =>
    exact .inl ⟨limit, nowMs, rfl, hphase, rfl, hpending.symm⟩
  | @send item before rest sentWith request hphase =>
    have hunsent : c.unsent = item :: rest := by rw [unsent, hphase]
    refine .inr ⟨[item], ?_, hunsent ▸ List.Sublist.refl _⟩
    simp only [uploads, hphase, List.map_cons, List.map_nil]
  | @take item rest hphase hpaused =>
    have hunsent : c.unsent = item :: rest := by rw [unsent, Cycle.rest, hphase]
    exact .inr (hlet rfl (hunsent ▸ List.Sublist.refl _))
  | @markInFlight item rest nowMs hphase | @prepare item before rest hphase hurl =>
    have hunsent : c.unsent = item :: rest := by rw [unsent, hphase]
    exact .inr (hlet rfl (hunsent ▸ List.Sublist.refl _))
  | @rejectUrl item before rest hphase hurl
  | @sendFails item before rest sentWith request error hphase =>
    have hunsent : c.unsent = item :: rest := by rw [unsent, hphase]
    exact .inr (hlet rfl (hunsent ▸ List.sublist_cons_self item rest))
  | @answer item rest sentWith statusCode error hphase
  | @succeed item rest sentWith outcome sample hphase hok
  | @failItem item rest sentWith outcome sample hphase hok
  | @remove item rest statusCode nowMs hphase =>
    have hunsent : c.unsent = rest := by rw [unsent, Cycle.rest, hphase]
    exact .inr (hlet rfl (hunsent ▸ List.Sublist.refl _))
  | @record item rest record nowMs hphase =>
    have hunsent : c.unsent = rest := by rw [unsent, Cycle.rest, hphase]
    exact .inr (hlet rfl (hunsent ▸ unsent_writeFailure ..))
  | leave | summarize | fail | finish => exact .inr (hlet rfl (List.nil_sublist _))

/-- A cycle fetches once. -/
theorem Cycle.step_fetched (h : c.step scheme config paused w ev = some (w', c')) (limit : Int) :
    c'.phase ≠ .fetching limit := by
  cases step_cases h with
  | @record item rest record nowMs hphase =>
    rcases phase_writeFailure w c item rest record nowMs with hphase | hphase <;> rw [hphase]
    · rintro ⟨⟩
    · rintro ⟨⟩
  | fetchNone | fetch | leave | take | markInFlight | prepare | rejectUrl | send | sendFails
  | answer | succeed | failItem | remove | summarize | fail | finish => rintro ⟨⟩

end Cycle

namespace Engine

variable {scheme : String → Option String} {e e' m m' : Engine} {l : Label} {t : Nat}

/-! ## 2. The requests of one cycle -/

/-- The request the cycle of flush call `t` starts in a step. -/
def uploadsOf (t : Nat) (e : Engine) : Label → List Upload
  | .cycle u ev => if u = t then e.uploads (.cycle u ev) else []
  | _ => []

theorem uploadsOf_of_ne (hl : ∀ ev, l ≠ .cycle t ev) : e.uploadsOf t l = [] := by
  unfold uploadsOf
  split
  · rename_i u ev
    exact if_neg fun hu => hl ev (by rw [hu])
  · rfl

/-- The fetch of the cycle of flush call `t` in the run `ls` from `e`: what it found, and the limit
the call had set. -/
def Fetches (scheme : String → Option String) (e : Engine) (t : Nat) (ls : List Label)
    (batch : List StoredSyncItem) (limit : Int) : Prop :=
  ∃ pre nowMs post m c, ls = pre ++ .cycle t (.fetch nowMs) :: post ∧
    exec (step scheme) e pre = some m ∧ m.flushes t = some c ∧ c.phase = .fetching limit ∧
      batch = fetchPending nowMs limit m.world.store

theorem Fetches.append {past : List Label} {batch : List StoredSyncItem} {limit : Int}
    (h : Fetches scheme e t past batch limit) (more : List Label) :
    Fetches scheme e t (past ++ more) batch limit := by
  obtain ⟨pre, nowMs, post, m, c, rfl, hfetch⟩ := h
  exact ⟨pre, nowMs, post ++ more, m, c, by simp, hfetch⟩

/-- The items are from the fetch of the call, in the order of the fetch. -/
def FromBatch (scheme : String → Option String) (e : Engine) (t : Nat) (past : List Label)
    (items : List StoredSyncItem) : Prop :=
  items = [] ∨ ∃ batch limit, 1 ≤ limit ∧ Fetches scheme e t past batch limit ∧
    items.Sublist batch

theorem FromBatch.sublist {past : List Label} {items items' : List StoredSyncItem}
    (h : FromBatch scheme e t past items) (hsub : items'.Sublist items) :
    FromBatch scheme e t past items' := by
  rcases h with rfl | ⟨batch, limit, hlimit, hfetch, hbatch⟩
  · exact .inl (List.sublist_nil.mp hsub)
  · exact .inr ⟨batch, limit, hlimit, hfetch, hsub.trans hbatch⟩

theorem FromBatch.append {past : List Label} {items : List StoredSyncItem}
    (h : FromBatch scheme e t past items) (more : List Label) :
    FromBatch scheme e t (past ++ more) items := by
  refine h.imp_right ?_
  rintro ⟨batch, limit, hlimit, hfetch, hbatch⟩
  exact ⟨batch, limit, hlimit, hfetch.append more, hbatch⟩

/-- What a batch is: distinct items in dispatch order, no more than the limit. -/
theorem Fetches.spec {past : List Label} {batch : List StoredSyncItem} {limit : Int}
    (h : Fetches scheme e t past batch limit) (hlimit : 1 ≤ limit) :
    (batch.map (·.id)).Nodup ∧ batch.Pairwise DispatchedBefore ∧ (batch.length : Int) ≤ limit := by
  obtain ⟨pre, nowMs, post, m, c, -, -, -, -, rfl⟩ := h
  refine ⟨SyncItemDao.fetchPending_nodup nowMs limit m.world.store,
    ((OrderBy.stable DispatchedBefore).sorted _).sublist
      (SyncItemDao.fetchPendingBy_sublist (.stable DispatchedBefore) nowMs limit m.world.store), ?_⟩
  have hlength : (fetchPending nowMs limit m.world.store).length ≤ limit.toNat := by
    unfold fetchPending
    rw [if_pos (by omega)]
    exact List.length_take_le _ _
  omega

/-- The cycle of flush call `t` has sent `taken` of its batch, and has the rest to come. -/
structure InOrder (scheme : String → Option String) (e : Engine) (t : Nat) (past : List Label)
    (m : Engine) (taken : List StoredSyncItem) : Prop where
  idle : m.flushes t = none → taken = []
  fetching : ∀ c limit, m.flushes t = some c → c.phase = .fetching limit → taken = [] ∧ 1 ≤ limit
  batch : ∀ c, m.flushes t = some c → FromBatch scheme e t past (taken ++ c.unsent)

theorem InOrder.step {past : List Label} {taken : List StoredSyncItem}
    (hpast : exec (Engine.step scheme) e past = some m) (hO : InOrder scheme e t past m taken)
    (hl : l.isKill = false) (h : m.step scheme l = some m') :
    ∃ more, (m.uploadsOf t l).map (·.itemId) = more.map (·.id) ∧
      InOrder scheme e t (past ++ [l]) m' (taken ++ more) := by
  -- a step beside the cycle of this call
  have hbeside (hne : ∀ ev, l ≠ .cycle t ev) (hflushes : m'.flushes t = m.flushes t) :
      ∃ more, (m.uploadsOf t l).map (·.itemId) = more.map (·.id) ∧
        InOrder scheme e t (past ++ [l]) m' (taken ++ more) := by
    refine ⟨[], by rw [uploadsOf_of_ne hne]; rfl, ?_⟩
    rw [List.append_nil]
    exact ⟨fun hnone => hO.idle (hflushes ▸ hnone),
      fun c limit hc => hO.fetching c limit (hflushes ▸ hc),
      fun c hc => (hO.batch c (hflushes ▸ hc)).append [l]⟩
  rcases step_kinds h with hA | ⟨u, recovered, nowMs, rfl, hnone, rfl⟩ |
    ⟨u, ev, d, d', rfl, hcycle⟩ | ⟨config, paused, rfl⟩
  · exact hbeside (hA.label t) (by rw [hA.flushes])
  · obtain ⟨config, -, heq | ⟨-, heq⟩⟩ := m.flush_cases u recovered nowMs
    · exact hbeside (by simp) (by rw [heq])
    · by_cases hu : u = t
      · subst hu
        have hself : (m.flush u recovered nowMs).flushes u =
            some (Cycle.start nowMs (max config.batchSize 1)) := by
          rw [heq]
          exact Function.update_self ..
        refine ⟨[], rfl, ?_⟩
        rw [hO.idle hnone]
        refine ⟨fun _ => rfl, fun c limit hc hphase => ⟨rfl, ?_⟩, fun c hc => ?_⟩
        · rw [hself] at hc
          cases hc
          cases hphase
          exact le_max_right _ _
        · rw [hself] at hc
          cases hc
          exact .inl rfl
      · refine hbeside (by simp) ?_
        rw [heq]
        exact Function.update_of_ne (Ne.symm hu) ..
  · by_cases hu : u = t
    · subst hu
      have hself : m'.flushes u = some d' := by rw [hcycle.flushes, Function.update_self]
      have huploads : m.uploadsOf u (.cycle u ev) = d.uploads ev := by
        rw [uploadsOf, if_pos rfl, uploads_cycle hcycle.before]
      rw [huploads]
      have hlater (limit : Int) : d'.phase ≠ .fetching limit := Cycle.step_fetched hcycle.step limit
      rcases Cycle.step_unsent hcycle.step with ⟨limit, nowMs, rfl, hphase, hnone, hfetch⟩ |
        ⟨more, hmore, hsub⟩
      · obtain ⟨rfl, hlimit⟩ := hO.fetching d limit hcycle.before hphase
        refine ⟨[], by rw [hnone]; rfl, ?_⟩
        refine ⟨fun _ => rfl, fun c limit hc hphase => ?_, fun c hc => ?_⟩
        · rw [hself] at hc
          cases hc
          exact absurd hphase (hlater limit)
        · rw [hself] at hc
          cases hc
          exact .inr ⟨d'.unsent, limit, hlimit,
            ⟨past, nowMs, [], m, d, rfl, hpast, hcycle.before, hphase, hfetch⟩,
            List.Sublist.refl _⟩
      · refine ⟨more, hmore, ⟨fun hnone => ?_, fun c limit hc hphase => ?_, fun c hc => ?_⟩⟩
        · rw [hself] at hnone
          cases hnone
        · rw [hself] at hc
          cases hc
          exact absurd hphase (hlater limit)
        · rw [hself] at hc
          cases hc
          refine FromBatch.append ((hO.batch d hcycle.before).sublist ?_) _
          rw [List.append_assoc]
          exact List.Sublist.append_left hsub taken
    · refine hbeside (fun ev' heq => hu (by cases heq; rfl)) (hcycle.flushes_of_ne (Ne.symm hu))
  · cases hl

/-- In every run of one process, whatever lands between the steps of the cycle of a call of `flush`:
its requests are for distinct items of the one fetch of that cycle, in dispatch order, and no more
than the limit the cycle fetched with. -/
theorem sends_in_order {ls : List Label} {sent : List Upload} (hidle : e.flushes t = none)
    (hls : ∀ l ∈ ls, l.isKill = false)
    (hrun : exec (recorded (step scheme) (uploadsOf t)) (e, []) ls = some (e', sent)) :
    ∃ items : List StoredSyncItem, sent.map (·.itemId) = items.map (·.id) ∧
      (items.map (·.id)).Nodup ∧ items.Pairwise DispatchedBefore ∧
      (items = [] ∨ ∃ batch limit, Fetches scheme e t ls batch limit ∧ items.Sublist batch ∧
        (items.length : Int) ≤ limit) := by
  have hend : ∃ taken : List StoredSyncItem, sent.map (·.itemId) = taken.map (·.id) ∧
      InOrder scheme e t ls e' taken := by
    refine exec_past_invariant (P := fun past p => (∀ l ∈ past, l.isKill = false) →
      ∃ taken : List StoredSyncItem, p.2.map (·.itemId) = taken.map (·.id) ∧
        InOrder scheme e t past p.1 taken) ?_ ?_ hrun hls
    · rintro -
      refine ⟨[], rfl, fun _ => rfl, fun c limit hc => ?_, fun c hc => ?_⟩
      all_goals
        rw [hidle] at hc
        cases hc
    · rintro past ⟨m, log⟩ l ⟨m', log'⟩ hpast hP h hlabels
      obtain ⟨hstep, rfl⟩ := recorded_eq_some.mp h
      obtain ⟨taken, hids, hO⟩ := hP fun l hl => hlabels l (List.mem_append_left _ hl)
      obtain ⟨more, hmore, hO'⟩ := hO.step (StepSystem.exec_of_recorded hpast)
        (hlabels l (List.mem_append_right _ (List.mem_singleton_self l))) hstep
      refine ⟨taken ++ more, ?_, hO'⟩
      rw [List.map_append, List.map_append, hids, hmore]
  obtain ⟨items, hids, hO⟩ := hend
  have hbatch : FromBatch scheme e t ls items := by
    cases hc : e'.flushes t with
    | none => exact .inl (hO.idle hc)
    | some c => exact (hO.batch c hc).sublist (List.sublist_append_left items c.unsent)
  rcases hbatch with rfl | ⟨batch, limit, hlimit, hfetch, hsub⟩
  · exact ⟨[], hids, List.nodup_nil, List.Pairwise.nil, .inl rfl⟩
  · obtain ⟨hnodup, hsorted, hlength⟩ := hfetch.spec hlimit
    exact ⟨items, hids, hnodup.sublist (hsub.map _), hsorted.sublist hsub,
      .inr ⟨batch, limit, hfetch, hsub, (Int.ofNat_le.mpr hsub.length_le).trans hlength⟩⟩

/-! ## 3. When every answer is a success -/

/-- The cycle works off its next item, and the server takes it. -/
def deliverRun (t : Nat) (nowMs statusCode : Int) : List Label :=
  [.cycle t .next, .cycle t (.markInFlight nowMs), .cycle t .prepare, .cycle t .send,
    .cycle t (.answer (some statusCode) none), .cycle t (.settle 0), .cycle t (.write nowMs)]

/-- A call of `flush` with a batch of this many items. -/
def flushRun (t : Nat) (nowMs statusCode : Int) (count : Nat) : List Label :=
  [.flush t none nowMs, .cycle t (.fetch nowMs)] ++
    (List.replicate count (deliverRun t nowMs statusCode)).flatten ++
    [.cycle t .next, .cycle t (.summarize nowMs), .cycle t .finish]

/-- One call after the other. -/
def flushRuns (nowMs statusCode : Int) : Nat → List Nat → List Label
  | _, [] => []
  | t, count :: counts =>
    flushRun t nowMs statusCode count ++ flushRuns nowMs statusCode (t + 1) counts

/-- A cycle that has the items to come, in an engine that is not paused. -/
structure Looping (e : Engine) (t : Nat) (items : List StoredSyncItem) : Prop where
  paused : e.paused = false
  cycle : ∃ c, e.flushes t = some c ∧ c.phase = .looping items

/-- From `e` to `e'` the items were sent and removed, and the other rows are as they were. -/
structure Delivers (e e' : Engine) (items : List StoredSyncItem) : Prop where
  config : e'.config = e.config
  requests : e'.world.requests =
    e.world.requests ++ items.map fun x => (x.id, buildRequest e.config x)
  rows : e'.world.store.rows = e.world.store.rows.filter fun r => !(items.map (·.id)).contains r.id

theorem Delivers.nothing (hconfig : e'.config = e.config)
    (hrequests : e'.world.requests = e.world.requests)
    (hstore : e'.world.store = e.world.store) : Delivers e e' [] := by
  refine ⟨hconfig, hrequests.trans (List.append_nil _).symm, ?_⟩
  rw [hstore]
  simp

theorem Delivers.trans {items items' : List StoredSyncItem} (h : Delivers e m items)
    (h' : Delivers m e' items') : Delivers e e' (items ++ items') where
  config := h'.config.trans h.config
  requests := by
    rw [h'.requests, h.requests, h.config, List.map_append, List.append_assoc]
  rows := by
    rw [h'.rows, h.rows, List.filter_filter]
    refine List.filter_congr fun r _ => ?_
    simp [Bool.and_comm]

theorem rows_delete_markInFlight (item : StoredSyncItem) (nowMs : Int) (t : StoredItems) :
    (SyncItemDao.delete item.id (SyncItemDao.markInFlight item.id nowMs t)).1.rows =
      t.rows.filter fun r => !([item].map (·.id)).contains r.id := by
  rw [SyncItemDao.delete, SyncItemDao.markInFlight, SyncItemDao.updateById,
    KeyedTable.deleteWhere_updateWhere, KeyedTable.deleteWhere]
  · refine List.filter_congr fun r _ => ?_
    rw [Bool.eq_iff_iff]
    simp
  · exact fun _ => rfl

theorem deliver_one {item : StoredSyncItem} {rest : List StoredSyncItem} {nowMs statusCode : Int}
    (hL : Looping e t (item :: rest))
    (hurl : ((scheme item.url).map fun s => hasPrefix s "http") = some true)
    (hok : 200 ≤ statusCode ∧ statusCode < 300) :
    ∃ e', exec (step scheme) e (deliverRun t nowMs statusCode) = some e' ∧ Looping e' t rest ∧
      (∀ u, u ≠ t → e'.flushes u = e.flushes u) ∧ Delivers e e' [item] := by
  obtain ⟨hpaused, c, hc, hphase⟩ := hL
  simp only [deliverRun, exec, step, hc, Option.bind_some, Cycle.step, hphase, hpaused,
    Option.map_some, Bool.false_eq_true, if_false, setCycle, Function.update_self, hurl, if_true,
    classifyResponse, if_pos hok, Function.update_idem]
  refine ⟨_, rfl, ⟨rfl, _, Function.update_self .., rfl⟩, fun u hu => Function.update_of_ne hu _ _,
    rfl, rfl, ?_⟩
  exact rows_delete_markInFlight item nowMs e.world.store

theorem deliver_all {items : List StoredSyncItem} {nowMs statusCode : Int}
    (hL : Looping e t items)
    (hurl : ∀ x ∈ items, ((scheme x.url).map fun s => hasPrefix s "http") = some true)
    (hok : 200 ≤ statusCode ∧ statusCode < 300) :
    ∃ e',
      exec (step scheme) e (List.replicate items.length (deliverRun t nowMs statusCode)).flatten =
        some e' ∧
      Looping e' t [] ∧ (∀ u, u ≠ t → e'.flushes u = e.flushes u) ∧ Delivers e e' items := by
  induction items generalizing e with
  | nil => exact ⟨e, rfl, hL, fun _ _ => rfl, .nothing rfl rfl rfl⟩
  | cons item rest ih =>
    obtain ⟨m, hm, hL', hothers, hone⟩ := deliver_one hL (hurl item List.mem_cons_self) hok
    obtain ⟨e', he', hdone, hothers', hrest⟩ :=
      ih hL' fun x hx => hurl x (List.mem_cons_of_mem item hx)
    refine ⟨e', ?_, hdone, fun u hu => (hothers' u hu).trans (hothers u hu), hone.trans hrest⟩
    rw [List.length_cons, List.replicate_succ, List.flatten_cons]
    exact exec_append_eq_some.mpr ⟨m, hm, he'⟩

/-- Nothing runs, nothing is in the way, and the calls from `t` on are unused. -/
structure Idle (e : Engine) (t : Nat) : Prop where
  paused : e.paused = false
  credentials : e.config.credentialsUnavailable = false
  isCycleRunning : e.world.isCycleRunning = false
  flushes : ∀ u, t ≤ u → e.flushes u = none

/-- A call of `flush` starts a cycle, which fetches its batch. -/
theorem start_batch (scheme : String → Option String) {nowMs : Int}
    {batch : List StoredSyncItem} (hI : Idle e t)
    (hbatch : fetchPending nowMs (max e.config.batchSize 1) e.world.store = batch)
    (hsome : batch ≠ []) :
    ∃ m, exec (step scheme) e [.flush t none nowMs, .cycle t (.fetch nowMs)] = some m ∧
      Looping m t batch ∧ (∀ u, u ≠ t → m.flushes u = e.flushes u) ∧ Delivers e m [] := by
  have hnone : e.flushes t = none := hI.flushes t le_rfl
  have hrestore : restoreCredentialsIfNeeded e.config none = some e.config := by
    rw [restoreCredentialsIfNeeded, hI.credentials]
    rfl
  have hloop : (if batch.isEmpty then CyclePhase.summarizing true else .looping batch) =
      .looping batch := if_neg (by simpa using hsome)
  simp only [exec, step, hnone, Option.isNone_none, if_true, flush, hI.paused, hrestore,
    hI.isCycleRunning, Bool.false_eq_true, if_false, Option.bind_some, setCycle,
    Function.update_self, Cycle.step, Cycle.start, World.emit, hbatch, hloop, Option.map_some,
    Function.update_idem]
  exact ⟨_, rfl, ⟨rfl, _, Function.update_self .., rfl⟩, fun u hu => Function.update_of_ne hu _ _,
    .nothing rfl rfl rfl⟩

/-- A cycle without items to come ends. -/
theorem end_batch (scheme : String → Option String) (nowMs : Int) (hL : Looping e t []) :
    ∃ e', exec (step scheme) e [.cycle t .next, .cycle t (.summarize nowMs), .cycle t .finish] =
        some e' ∧
      e'.paused = false ∧ e'.world.isCycleRunning = false ∧
      (∀ u, u ≠ t → e'.flushes u = e.flushes u) ∧ Delivers e e' [] := by
  obtain ⟨hpaused, c, hc, hphase⟩ := hL
  simp only [exec, step, hc, Option.bind_some, Cycle.step, hphase, Option.map_some, setCycle,
    Function.update_self, Cycle.finishCycle, World.emit, Function.update_idem]
  exact ⟨_, rfl, hpaused, rfl, fun u hu => Function.update_of_ne hu _ _, .nothing rfl rfl rfl⟩

/-- A flush of an idle engine delivers the batch it finds. -/
theorem flush_delivers {nowMs statusCode : Int} {batch : List StoredSyncItem} (hI : Idle e t)
    (hbatch : fetchPending nowMs (max e.config.batchSize 1) e.world.store = batch)
    (hsome : batch ≠ [])
    (hurl : ∀ x ∈ batch, ((scheme x.url).map fun s => hasPrefix s "http") = some true)
    (hok : 200 ≤ statusCode ∧ statusCode < 300) :
    ∃ e', exec (step scheme) e (flushRun t nowMs statusCode batch.length) = some e' ∧
      Idle e' (t + 1) ∧ Delivers e e' batch := by
  obtain ⟨m, hm, hL, hothers, hstart⟩ := start_batch scheme hI hbatch hsome
  obtain ⟨m', hm', hL', hothers', hdone⟩ := deliver_all hL hurl hok
  obtain ⟨e', he', hpaused, hidle, hothers'', hend⟩ :=
    end_batch scheme nowMs hL'
  have hall : Delivers e e' batch := by
    simpa using (hstart.trans hdone).trans hend
  refine ⟨e', ?_, ⟨hpaused, hall.config ▸ hI.credentials, hidle, fun u hu => ?_⟩, hall⟩
  · exact exec_append_eq_some.mpr ⟨m', exec_append_eq_some.mpr ⟨m, hm, hm'⟩, he'⟩
  · have hne : u ≠ t := by omega
    rw [hothers'' u hne, hothers' u hne, hothers u hne]
    exact hI.flushes u (by omega)

/-- The number of items of a batch. -/
def batchLimit (config : DispatcherConfig) : Nat := (max config.batchSize 1).toNat

/-- The rows a fetch can find. -/
def eligibleRows (nowMs : Int) (e : Engine) : List StoredSyncItem :=
  e.world.store.rows.filter (eligible nowMs)

theorem fetchPending_eq_first (nowMs : Int) (e : Engine) :
    fetchPending nowMs (max e.config.batchSize 1) e.world.store =
      (OrderBy.stable DispatchedBefore).first (batchLimit e.config) (e.eligibleRows nowMs) := by
  rw [← SyncItemDao.fetchPendingBy_stable,
    SyncItemDao.fetchPendingBy_eq_first (le_max_right _ _)]
  rfl

/-- What a fetch leaves for the next one. -/
theorem perm_append_rest {t : StoredItems} {batch : List StoredSyncItem} {p : StoredSyncItem → Bool}
    (hbatch : ∀ x ∈ batch, x ∈ t.rows.filter p) (hnodup : (batch.map (·.id)).Nodup) :
    (batch ++ (t.rows.filter fun r => !(batch.map (·.id)).contains r.id).filter p).Perm
      (t.rows.filter p) := by
  have hrows : (t.rows.filter p).Nodup :=
    (List.Nodup.of_map _ t.nodup).sublist List.filter_sublist
  have hin : ((t.rows.filter p).filter fun r => (batch.map (·.id)).contains r.id).Perm batch := by
    refine (List.perm_ext_iff_of_nodup (hrows.sublist List.filter_sublist)
      (List.Nodup.of_map _ hnodup)).mpr fun r => ?_
    rw [List.mem_filter, List.contains_iff_mem, List.mem_map]
    constructor
    · rintro ⟨hr, x, hx, hid⟩
      have hxr : x = r := KeyedTable.eq_of_key_eq (List.mem_filter.mp (hbatch x hx)).1
        (List.mem_filter.mp hr).1 hid
      exact hxr ▸ hx
    · exact fun hr => ⟨hbatch r hr, r, hr, rfl⟩
  have hcomm : (t.rows.filter fun r => !(batch.map (·.id)).contains r.id).filter p =
      (t.rows.filter p).filter fun r => !(batch.map (·.id)).contains r.id := by
    rw [List.filter_filter, List.filter_filter]
    exact List.filter_congr fun r _ => Bool.and_comm _ _
  rw [hcomm]
  exact (hin.symm.append_right _).trans (List.filter_append_perm _ _)

/-- One batch, and the batches of what it leaves. -/
theorem succ_batches {limit n left : Nat} (hlimit : 1 ≤ limit) (hn : 0 < n)
    (hleft : min limit n + left = n) :
    (left + limit - 1) / limit + 1 = (n + limit - 1) / limit := by
  by_cases hfull : limit ≤ n
  · have hsum : n + limit - 1 = (left + limit - 1) + limit := by omega
    rw [hsum, Nat.add_div_right _ hlimit]
  · have hone : n + limit - 1 = (n - 1) + limit := by omega
    rw [hone, Nat.add_div_right _ hlimit, Nat.div_eq_of_lt (by omega : n - 1 < limit),
      Nat.div_eq_of_lt (by omega : left + limit - 1 < limit)]

/-- When every answer is a success, as many flushes as there are batches deliver every row that is
eligible, each of them once and in dispatch order, and leave the other rows alone. -/
theorem delivers_everything {nowMs statusCode : Int} (hI : Idle e t)
    (hurl : ∀ r ∈ e.eligibleRows nowMs,
      ((scheme r.url).map fun s => hasPrefix s "http") = some true)
    (hok : 200 ≤ statusCode ∧ statusCode < 300) :
    ∃ (batches : List (List StoredSyncItem)) (e' : Engine),
      exec (step scheme) e (flushRuns nowMs statusCode t (batches.map List.length)) = some e' ∧
      batches.length =
        ((e.eligibleRows nowMs).length + batchLimit e.config - 1) / batchLimit e.config ∧
      batches.flatten.Perm (e.eligibleRows nowMs) ∧ batches.flatten.Pairwise DispatchedBefore ∧
      Delivers e e' batches.flatten ∧ e'.eligibleRows nowMs = [] := by
  have hlimit : 1 ≤ batchLimit e.config := by
    have : (1 : Int) ≤ max e.config.batchSize 1 := le_max_right _ _
    unfold batchLimit
    omega
  generalize hn : (e.eligibleRows nowMs).length = n
  induction n using Nat.strong_induction_on generalizing e t with
  | _ n ih =>
    by_cases hnone : e.eligibleRows nowMs = []
    · refine ⟨[], e, rfl, ?_, ?_, List.Pairwise.nil, .nothing rfl rfl rfl, hnone⟩
      · rw [hnone] at hn
        rw [List.length_nil, ← hn, List.length_nil, Nat.div_eq_of_lt (by omega)]
      · rw [hnone]
        exact List.Perm.refl []
    · obtain ⟨batch, hfetch⟩ :
          ∃ batch, fetchPending nowMs (max e.config.batchSize 1) e.world.store = batch := ⟨_, rfl⟩
      have hfirst : batch =
          (OrderBy.stable DispatchedBefore).first (batchLimit e.config) (e.eligibleRows nowMs) := by
        rw [← hfetch, fetchPending_eq_first]
      have hlength : batch.length = min (batchLimit e.config) n := by
        rw [hfirst, OrderBy.length_first, hn]
      have hpos : 0 < n := by
        rw [← hn]
        exact List.length_pos_iff.mpr hnone
      have hmem : ∀ x ∈ batch, x ∈ e.eligibleRows nowMs := by
        intro x hx
        rw [hfirst] at hx
        exact (OrderBy.mem_sort _).mp (List.mem_of_mem_take hx)
      have hnodup : (batch.map (·.id)).Nodup := hfetch ▸ SyncItemDao.fetchPending_nodup ..
      obtain ⟨m, hm, hidle, hdone⟩ := flush_delivers hI hfetch
        (List.length_pos_iff.mp (by omega)) (fun x hx => hurl x (hmem x hx)) hok
      have hsplit : (batch ++ m.eligibleRows nowMs).Perm (e.eligibleRows nowMs) := by
        rw [eligibleRows, hdone.rows]
        exact perm_append_rest hmem hnodup
      have hcount : batch.length + (m.eligibleRows nowMs).length = n := by
        rw [← List.length_append, hsplit.length_eq, hn]
      have hleft {r : StoredSyncItem} (hr : r ∈ m.eligibleRows nowMs) :
          r ∈ e.eligibleRows nowMs := hsplit.subset (List.mem_append_right _ hr)
      obtain ⟨batches, e', hrun, hbatches, hperm, hsorted, hdone', hend⟩ :=
        ih _ (by omega) hidle (fun r hr => hurl r (hleft hr)) (hdone.config ▸ hlimit) rfl
      refine ⟨batch :: batches, e', exec_append_eq_some.mpr ⟨m, hm, hrun⟩, ?_,
        (hperm.append_left batch).trans hsplit, ?_, hdone.trans hdone', hend⟩
      · rw [List.length_cons, hbatches, hdone.config]
        exact succ_batches hlimit hpos (hlength ▸ hcount)
      · rw [List.flatten_cons, List.pairwise_append]
        refine ⟨hfirst ▸ OrderBy.sorted_first _ _ _, hsorted, fun a ha b hb => ?_⟩
        -- what the limit has left out comes before none that it has kept
        have hb : b ∈ m.eligibleRows nowMs := hperm.subset hb
        rw [hfirst] at ha
        refine OrderBy.le_of_left_out (hleft hb) (fun hin => ?_) ha
        rw [← hfirst] at hin
        have hdisjoint : (batch ++ m.eligibleRows nowMs).Nodup :=
          hsplit.nodup_iff.mpr
            ((List.Nodup.of_map _ e.world.store.nodup).sublist List.filter_sublist)
        exact (List.nodup_append.mp hdisjoint).2.2 b hin b hb rfl

section Sample

/-- The requests of one cycle, out of two items. -/
theorem sends_in_order_of_one_cycle :
    ∃ e' sent, exec (recorded (step https) (uploadsOf 0)) (firstLaunch, [])
        (fetchRun [SyncQueueStorage.sampleItem "A", SyncQueueStorage.sampleItem "B"] ++ sendRun ++
          answerRun 200 ++ sendRun) = some (e', sent) ∧
      sent.map (·.itemId) = ["A", "B"] ∧
      ∃ items : List StoredSyncItem, sent.map (·.itemId) = items.map (·.id) ∧
        (items.map (·.id)).Nodup ∧ items.Pairwise DispatchedBefore := by
  have hls : ∀ l ∈ fetchRun [SyncQueueStorage.sampleItem "A", SyncQueueStorage.sampleItem "B"] ++
      sendRun ++ answerRun 200 ++ sendRun, l.isKill = false := by decide
  have hrun : exec (recorded (step https) (uploadsOf 0)) (firstLaunch, [])
      (fetchRun [SyncQueueStorage.sampleItem "A", SyncQueueStorage.sampleItem "B"] ++ sendRun ++
        answerRun 200 ++ sendRun) = some (_, _) := rfl
  obtain ⟨items, hids, hnodup, hsorted, -⟩ := sends_in_order rfl hls hrun
  exact ⟨_, _, hrun, rfl, items, hids, hnodup, hsorted⟩

/-- Two items wait in an idle engine. -/
def twoWaiting : Option Engine :=
  exec (step https) firstLaunch
    [.enqueue [SyncQueueStorage.sampleItem "A", SyncQueueStorage.sampleItem "B"]]

theorem delivers_everything_of_two :
    ∃ e, twoWaiting = some e ∧ (e.eligibleRows 2000).length = 2 ∧
      ∃ (batches : List (List StoredSyncItem)) (e' : Engine),
        exec (step https) e (flushRuns 2000 200 0 (batches.map List.length)) = some e' ∧
          batches.length = 1 ∧ batches.flatten.Perm (e.eligibleRows 2000) ∧
          e'.eligibleRows 2000 = [] := by
  have hhttp : (some "https").map (fun s => hasPrefix s "http") = some true := by decide
  have hok : (200 : Int) ≤ 200 ∧ (200 : Int) < 300 := by decide
  obtain ⟨e, he, hidle, hlimit, hcount, hurl⟩ : ∃ e, twoWaiting = some e ∧ Idle e 0 ∧
      batchLimit e.config = 25 ∧ (e.eligibleRows 2000).length = 2 ∧
      ∀ r ∈ e.eligibleRows 2000, ((https r.url).map fun s => hasPrefix s "http") = some true :=
    ⟨_, rfl, ⟨rfl, rfl, rfl, fun _ _ => rfl⟩, by decide, by decide, fun _ _ => hhttp⟩
  obtain ⟨batches, e', hrun, hbatches, hperm, -, -, hend⟩ :=
    delivers_everything hidle hurl hok
  rw [hcount, hlimit] at hbatches
  exact ⟨e, he, hcount, batches, e', hrun, hbatches, hperm, hend⟩

end Sample

end Engine

end SyncProvider.Ios
