import SyncProvider.Ios.Bracket
import SyncProvider.Ios.Budget

/-!
# iOS: a flush whose task is cancelled

The handler of an expired background task cancels the `Task` that runs its
flush. The dispatch loop does not look at that. A foreground request started in
a cancelled task throws `URLError.cancelled` without being sent, after
`markInFlight` has counted the attempt, and is recorded as a network error.

Results:
1. `mem_charges_updateById` : which row a write changes.
2. `Traces.step` : an item that is counted is sent, abandoned, or at hand.
3. `untried_untouched_iff` : a flush changes no row it sent no request for
   exactly when it abandons no item whose attempt it has counted.
4. `cancelled_flush_spends_attempts` : a cancelled flush that does.
-/

namespace SyncProvider.Ios

/-! ## The errors of a request -/

inductive URLErrorCode where
  | timedOut | notConnectedToInternet | networkConnectionLost | dataNotAllowed
  | internationalRoamingOff | cannotConnectToHost | cannotFindHost | badURL | unsupportedURL
  | cancelled | other
  deriving DecidableEq

/-- An error that ends a dispatch, with its `localizedDescription`. -/
inductive ThrownError where
  | urlError (code : URLErrorCode) (description : String)
  | otherError (description : String)
  deriving DecidableEq

def wrapAsSyncProviderError : ThrownError → TransportError
  | .urlError code description =>
    match code with
    | .timedOut => ⟨.TIMEOUT, "Request timed out"⟩
    | .notConnectedToInternet | .networkConnectionLost | .dataNotAllowed
    | .internationalRoamingOff | .cannotConnectToHost | .cannotFindHost =>
      ⟨.NETWORK_ERROR, "Network error: " ++ description⟩
    | .badURL | .unsupportedURL => ⟨.INVALID_URL, "Invalid URL: " ++ description⟩
    | .cancelled | .other => ⟨.NETWORK_ERROR, description⟩
  | .otherError description => ⟨.INVALID_PAYLOAD, description⟩

/-- The session a dispatch has chosen. `description` is the text of the
cancellation, `bodyError` the failure to write the body file. -/
inductive Attempt where
  | foreground (description : String)
  | background (bodyError : Option String)
  deriving DecidableEq

/-- How the dispatch goes on. The continuation of a background upload does not
notice the cancellation. -/
def Attempt.event (cancelled : Bool) : Attempt → CycleEvent
  | .foreground description =>
    if cancelled then .sendFails (wrapAsSyncProviderError (.urlError .cancelled description))
    else .send
  | .background (some description) =>
    .sendFails (wrapAsSyncProviderError (.otherError description))
  | .background none => .send

/-- The session starts the request. -/
def Attempt.starts (cancelled : Bool) : Attempt → Bool
  | .foreground _ => !cancelled
  | .background bodyError => bodyError.isNone

theorem Attempt.event_of_starts {cancelled : Bool} {attempt : Attempt}
    (h : attempt.starts cancelled = true) : attempt.event cancelled = .send := by
  cases attempt with
  | foreground description =>
    cases cancelled with
    | true => cases h
    | false => rfl
  | background bodyError =>
    cases bodyError with
    | some description => cases h
    | none => rfl

theorem Attempt.event_of_not_starts {cancelled : Bool} {attempt : Attempt}
    (h : attempt.starts cancelled = false) :
    ∃ error, attempt.event cancelled = .sendFails error := by
  cases attempt with
  | foreground description =>
    cases cancelled with
    | true => exact ⟨_, rfl⟩
    | false => cases h
  | background bodyError =>
    cases bodyError with
    | some description => exact ⟨_, rfl⟩
    | none => cases h

/-! ## What a flush does to the rows -/

/-- The row has an attempt more, has failed, or has another deadline. -/
def Changed (r r' : StoredSyncItem) : Bool :=
  r.attempts < r'.attempts || (r'.status == .FAILED && r.status != .FAILED) ||
    r'.nextRetryAt != r.nextRetryAt

/-- The items whose row is changed between `t` and `t'`. -/
def charges (t t' : StoredItems) : List String :=
  (t.rows.filter fun r => t'.rows.any fun r' => r'.id == r.id && Changed r r').map (·.id)

inductive Trace where
  /-- The flush changed the row of the item. -/
  | counted (id : String)
  /-- It started a request for it. -/
  | sent (id : String)
  /-- It ended its dispatch without a request, with its attempt counted. -/
  | abandoned (id : String)
  deriving DecidableEq

namespace Cycle

/-- The item at hand, before its request, with its counter from before the claim. -/
def opened (c : Cycle) : Option (StoredSyncItem × Option Int) :=
  match c.phase with
  | .claimed item before _ | .prepared item before _ _ _ => some (item, before)
  | _ => none

/-- The item at hand, before its request, when `markInFlight` found its row. -/
def atStake (c : Cycle) : Option StoredSyncItem :=
  match c.opened with
  | some (item, some _) => some item
  | _ => none

/-- The item at hand, after its request. -/
def tried (c : Cycle) : Option StoredSyncItem :=
  match c.phase with
  | .onWire item _ _ | .answered item _ _ _ | .removing item _ _ | .recording item _ _ => some item
  | _ => none

/-- The items this step drops without a request, with their attempt counted. -/
def abandons (scheme : String → Option String) (c : Cycle) (ev : CycleEvent) : List String :=
  match ev, c.atStake with
  | .prepare, some item =>
    if ((scheme item.url).map fun s => hasPrefix s "http") = some true then [] else [item.id]
  | .sendFails _, some item => [item.id]
  | _, _ => []

/-- What a step of the flush does to the rows, and the requests it starts. -/
def traces (scheme : String → Option String) (w w' : World) (c : Cycle) (ev : CycleEvent) :
    List Trace :=
  (charges w.store w'.store).map .counted ++
    (w'.requests.drop w.requests.length).map (fun q => .sent q.1) ++
    (c.abandons scheme ev).map .abandoned

end Cycle

/-! ## 1. Which row a write changes -/

theorem not_changed_self (r : StoredSyncItem) : Changed r r = false := by
  simp [Changed]

theorem mem_charges {t t' : StoredItems} {id : String} :
    id ∈ charges t t' ↔
      ∃ r ∈ t.rows, ∃ r' ∈ t'.rows, r.id = id ∧ r'.id = id ∧ Changed r r' = true := by
  simp only [charges, List.mem_map, List.mem_filter, List.any_eq_true, Bool.and_eq_true, beq_iff_eq]
  constructor
  · rintro ⟨r, ⟨hr, r', hr', hid, hchanged⟩, rfl⟩
    exact ⟨r, hr, r', hr', rfl, hid, hchanged⟩
  · rintro ⟨r, hr, r', hr', rfl, hid, hchanged⟩
    exact ⟨r, ⟨hr, r', hr', hid, hchanged⟩, rfl⟩

/-- Rows that stay or go are not changed. -/
theorem charges_of_subset {t t' : StoredItems} (h : ∀ r ∈ t'.rows, r ∈ t.rows) :
    charges t t' = [] := by
  refine List.eq_nil_iff_forall_not_mem.mpr fun id hid => ?_
  obtain ⟨r, hr, r', hr', rfl, hid, hchanged⟩ := mem_charges.mp hid
  rw [KeyedTable.eq_of_key_eq (h r' hr') hr hid, not_changed_self] at hchanged
  cases hchanged

@[simp] theorem charges_self (t : StoredItems) : charges t t = [] :=
  charges_of_subset fun _ hr => hr

theorem mem_charges_updateById {id x : String} {f : StoredSyncItem → StoredSyncItem}
    {t : StoredItems} (hf : ∀ r, (f r).id = r.id)
    (h : x ∈ charges t (SyncItemDao.updateById id f hf t)) : x = id ∧ id ∈ t.keys := by
  obtain ⟨r, hr, r', hr', rfl, hid, hchanged⟩ := mem_charges.mp h
  rcases SyncItemDao.updateById_cases hr' with ⟨hr', -⟩ | ⟨r₀, hr₀, rfl, rfl⟩
  · rw [KeyedTable.eq_of_key_eq hr' hr hid, not_changed_self] at hchanged
    cases hchanged
  · have hsame : r.id = r₀.id := hid.symm.trans (hf r₀)
    exact ⟨hsame, KeyedTable.key_mem_keys hr₀⟩

/-- `markInFlight` changes the row of its item, when there is one. -/
theorem mem_charges_markInFlight {id x : String} {nowMs : Int} {t : StoredItems} :
    x ∈ charges t (SyncItemDao.markInFlight id nowMs t) ↔ x = id ∧ id ∈ t.keys := by
  refine ⟨fun h => mem_charges_updateById ?_ h, ?_⟩
  · exact fun _ => rfl
  · rintro ⟨rfl, hin⟩
    obtain ⟨r, hr, hid⟩ := KeyedTable.mem_keys.mp hin
    refine mem_charges.mpr ⟨r, hr, _, SyncItemDao.mem_markInFlight.mpr ⟨r, hr, if_pos hid⟩, hid,
      hid, ?_⟩
    simp [Changed]

/-- The write of a failed dispatch changes its row at most. -/
theorem mem_charges_writeFailure {w : World} {c : Cycle} {item : StoredSyncItem}
    {rest : List StoredSyncItem} {record : FailureRecord} {nowMs : Int} {x : String}
    (h : x ∈ charges w.store (Cycle.writeFailure w c item rest record nowMs).1.store) :
    x = item.id ∧ item.id ∈ w.store.keys := by
  unfold Cycle.writeFailure at h
  split at h
  all_goals
    refine mem_charges_updateById ?_ h
    exact fun _ => rfl

/-! ## 2. What becomes of an item -/

namespace Cycle

variable {scheme : String → Option String} {w w' : World} {c : Cycle} {ev : CycleEvent}

/-- A step that starts no request and drops nothing. -/
theorem traces_eq (hrequests : w'.requests = w.requests) (habandons : c.abandons scheme ev = []) :
    c.traces scheme w w' ev = (charges w.store w'.store).map .counted := by
  simp [traces, hrequests, habandons]

/-- And one that changes no row either. -/
theorem traces_eq_nil (hstore : charges w.store w'.store = [])
    (hrequests : w'.requests = w.requests) (habandons : c.abandons scheme ev = []) :
    c.traces scheme w w' ev = [] := by
  rw [traces_eq hrequests habandons, hstore]
  rfl

/-- A dispatch is abandoned when the session does not start its request. -/
theorem abandons_event {cancelled : Bool} {attempt : Attempt} :
    c.abandons scheme (attempt.event cancelled) = [] ↔
      c.atStake = none ∨ attempt.starts cancelled = true := by
  cases hstarts : attempt.starts cancelled with
  | true => simp [Attempt.event_of_starts hstarts, abandons]
  | false =>
    obtain ⟨error, herror⟩ := Attempt.event_of_not_starts hstarts
    rw [herror]
    unfold abandons
    cases c.atStake <;> simp

end Cycle

/-- The log of a flush: an item it counted is sent, abandoned, or at hand before
its request, and what is still to come is neither sent nor abandoned. -/
structure Traces (w : World) (c : Cycle) (log : List Trace) : Prop where
  fresh : ∀ limit, c.phase = .fetching limit → log = []
  counted : ∀ id, .counted id ∈ log → .sent id ∈ log ∨ .abandoned id ∈ log ∨
    ∃ item k, c.opened = some (item, some k) ∧ item.id = id
  abandoned : ∀ id, .abandoned id ∈ log → .counted id ∈ log ∧ .sent id ∉ log
  ahead : ∀ x ∈ c.unsent, .sent x.id ∉ log ∧ .abandoned x.id ∉ log
  opened : ∀ item before, c.opened = some (item, before) →
    (before = none → item.id ∉ w.store.keys) ∧ (before ≠ none → .counted item.id ∈ log)
  tried : ∀ item, c.tried = some item →
    .sent item.id ∈ log ∨ .abandoned item.id ∈ log ∨ item.id ∉ w.store.keys

namespace Traces

variable {scheme : String → Option String} {config : DispatcherConfig} {paused : Bool}
  {w w' : World} {c c' : Cycle} {ev : CycleEvent} {log : List Trace}

theorem opened_mem {item : StoredSyncItem} {before : Option Int}
    (h : c.opened = some (item, before)) : item ∈ c.phase.hand.items := by
  unfold Cycle.opened at h
  cases hphase : c.phase with
  | claimed x b rest =>
    rw [hphase] at h
    cases h
    simp [CyclePhase.hand, Hand.items]
  | prepared x b rest sentWith request =>
    rw [hphase] at h
    cases h
    simp [CyclePhase.hand, Hand.items]
  | _ =>
    rw [hphase] at h
    cases h

theorem tried_mem {item : StoredSyncItem} (h : c.tried = some item) :
    item ∈ c.phase.hand.items := by
  unfold Cycle.tried at h
  cases hphase : c.phase with
  | onWire | answered | removing | recording =>
    rw [hphase] at h
    cases h
    simp [CyclePhase.hand, Hand.items]
  | _ =>
    rw [hphase] at h
    cases h

/-- The others take rows away and bring new ones. -/
theorem congr (hT : Traces w c log)
    (hkeys : ∀ id ∈ w'.store.keys, id ∈ w.store.keys ∨ id ∉ w.issued)
    (hissued : ∀ x ∈ c.phase.hand.items, x.id ∈ w.issued) : Traces w' c log where
  fresh := hT.fresh
  counted := hT.counted
  abandoned := hT.abandoned
  ahead := hT.ahead
  opened item before hopened := by
    refine ⟨fun hnone hin => ?_, (hT.opened item before hopened).2⟩
    rcases hkeys item.id hin with hin | hnew
    · exact (hT.opened item before hopened).1 hnone hin
    · exact hnew (hissued item (opened_mem hopened))
  tried item htried := by
    refine (hT.tried item htried).imp_right fun h => h.imp_right fun hout hin => ?_
    rcases hkeys item.id hin with hin | hnew
    · exact hout hin
    · exact hnew (hissued item (tried_mem htried))

/-- A step that leaves no trace. -/
theorem quiet (hT : Traces w c log) (htraces : c.traces scheme w w' ev = [])
    (hkeys : w'.store.keys ⊆ w.store.keys) (hfetching : ∀ limit, c'.phase ≠ .fetching limit)
    (hopened : c'.opened = c.opened) (hunsent : ∀ x ∈ c'.unsent, x ∈ c.unsent ∨ log = [])
    (htried : c'.tried = none ∨ c'.tried = c.tried) :
    Traces w' c' (log ++ c.traces scheme w w' ev) := by
  rw [htraces, List.append_nil]
  refine ⟨fun limit h => absurd h (hfetching limit), ?_, hT.abandoned, fun x hx => ?_, ?_, ?_⟩
  · rw [hopened]
    exact hT.counted
  · rcases hunsent x hx with hx | rfl
    · exact hT.ahead x hx
    · simp
  · rw [hopened]
    intro item before h
    exact (hT.opened item before h).imp_left fun hout hnone hin => hout hnone (hkeys hin)
  · rcases htried with hnone | hsame
    · rw [hnone]
      simp
    · rw [hsame]
      intro item h
      exact (hT.tried item h).imp_right fun h => h.imp_right fun hout hin => hout (hkeys hin)

/-- The dispatch of the item at hand ends without a request. -/
theorem drop {item : StoredSyncItem} {before : Option Int} {rest : List StoredSyncItem}
    (hT : Traces w c log) (hopened : c.opened = some (item, before))
    (hunsent : c.unsent = item :: rest) (hne : ∀ x ∈ rest, x.id ≠ item.id)
    (htraces : c.traces scheme w w ev = if before = none then [] else [.abandoned item.id])
    (hfetching : ∀ limit, c'.phase ≠ .fetching limit) (hopened' : c'.opened = none)
    (hunsent' : c'.unsent = rest) (htried' : c'.tried = some item) :
    Traces w c' (log ++ c.traces scheme w w ev) := by
  obtain ⟨hgone, hcounted⟩ := hT.opened item before hopened
  obtain ⟨hunsentItem, hkept⟩ := hT.ahead item (hunsent ▸ List.mem_cons_self)
  have hrest {x : StoredSyncItem} (hx : x ∈ rest) : x ∈ c.unsent :=
    hunsent ▸ List.mem_cons_of_mem _ hx
  rw [htraces]
  cases before with
  | none =>
    rw [if_pos rfl, List.append_nil]
    refine ⟨fun limit h => absurd h (hfetching limit), fun id hid => ?_, hT.abandoned,
      fun x hx => hT.ahead x (hrest (hunsent' ▸ hx)), by simp [hopened'], fun x hx => ?_⟩
    · rcases hT.counted id hid with h | h | ⟨x, k, hx, -⟩
      · exact .inl h
      · exact .inr (.inl h)
      · rw [hopened] at hx
        cases hx
    · rw [htried'] at hx
      cases hx
      exact .inr (.inr (hgone rfl))
  | some k =>
    rw [if_neg (by simp)]
    refine ⟨fun limit h => absurd h (hfetching limit), fun id hid => ?_, fun id hid => ?_,
      fun x hx => ?_, by simp [hopened'], fun x hx => ?_⟩
    · have hid : .counted id ∈ log := by simpa using hid
      rcases hT.counted id hid with h | h | ⟨x, k', hx, hxid⟩
      · exact .inl (List.mem_append_left _ h)
      · exact .inr (.inl (List.mem_append_left _ h))
      · rw [hopened] at hx
        cases hx
        subst hxid
        exact .inr (.inl (by simp))
    · have hid : .abandoned id ∈ log ∨ id = item.id := by simpa using hid
      have : .counted id ∈ log ∧ .sent id ∉ log := by
        rcases hid with hid | rfl
        · exact hT.abandoned id hid
        · exact ⟨hcounted (by simp), hunsentItem⟩
      simpa using this
    · have hahead := hT.ahead x (hrest (hunsent' ▸ hx))
      simpa [hne x (hunsent' ▸ hx)] using hahead
    · rw [htried'] at hx
      cases hx
      exact .inr (.inl (by simp))

/-- The request of the item at hand starts. -/
theorem send {item : StoredSyncItem} {before : Option Int} {rest : List StoredSyncItem}
    (hT : Traces w c log) (hopened : c.opened = some (item, before))
    (hunsent : c.unsent = item :: rest) (hne : ∀ x ∈ rest, x.id ≠ item.id)
    (htraces : c.traces scheme w w' ev = [.sent item.id])
    (hfetching : ∀ limit, c'.phase ≠ .fetching limit) (hopened' : c'.opened = none)
    (hunsent' : c'.unsent = rest) (htried' : c'.tried = some item) :
    Traces w' c' (log ++ c.traces scheme w w' ev) := by
  obtain ⟨-, hkept⟩ := hT.ahead item (hunsent ▸ List.mem_cons_self)
  rw [htraces]
  refine ⟨fun limit h => absurd h (hfetching limit), fun id hid => ?_, fun id hid => ?_,
    fun x hx => ?_, by simp [hopened'], fun x hx => ?_⟩
  · have hid : .counted id ∈ log := by simpa using hid
    rcases hT.counted id hid with h | h | ⟨x, k, hx, hxid⟩
    · exact .inl (List.mem_append_left _ h)
    · exact .inr (.inl (List.mem_append_left _ h))
    · rw [hopened] at hx
      cases hx
      subst hxid
      exact .inl (by simp)
  · have hid : .abandoned id ∈ log := by simpa using hid
    have hother : id ≠ item.id := by
      rintro rfl
      exact hkept hid
    simpa [hother] using hT.abandoned id hid
  · rw [hunsent'] at hx
    have hahead := hT.ahead x (hunsent ▸ List.mem_cons_of_mem _ hx)
    simpa [hne x hx] using hahead
  · rw [htried'] at hx
    cases hx
    exact .inl (by simp)

/-- `markInFlight` counts the attempt of the row that is there. -/
theorem markInFlight {item : StoredSyncItem} {rest : List StoredSyncItem} {nowMs : Int}
    (hT : Traces w c log) (hphase : c.phase = .claiming item rest)
    (hstore : w'.store = SyncItemDao.markInFlight item.id nowMs w.store)
    (hrequests : w'.requests = w.requests) (habandons : c.abandons scheme ev = [])
    (hphase' : c'.phase = .claimed item ((w.store.find? item.id).map (·.attempts)) rest) :
    Traces w' c' (log ++ c.traces scheme w w' ev) := by
  have hkeys : w'.store.keys = w.store.keys := by rw [hstore, SyncItemDao.keys_markInFlight]
  have hopened : c.opened = none := by rw [Cycle.opened, hphase]
  have hopened' : c'.opened = some (item, (w.store.find? item.id).map (·.attempts)) := by
    rw [Cycle.opened, hphase']
  have hunsent : c'.unsent = c.unsent := by rw [Cycle.unsent, hphase', Cycle.unsent, hphase]
  rw [Cycle.traces_eq hrequests habandons, hstore]
  refine ⟨fun limit h => ?_, fun id hid => ?_, fun id hid => ?_, fun x hx => ?_,
    fun x before hx => ?_, fun x hx => ?_⟩
  · rw [hphase'] at h
    cases h
  · rcases List.mem_append.mp hid with hid | hid
    · rcases hT.counted id hid with h | h | ⟨x, k, hx, -⟩
      · exact .inl (List.mem_append_left _ h)
      · exact .inr (.inl (List.mem_append_left _ h))
      · rw [hopened] at hx
        cases hx
    · -- the row was there, so its counter is remembered
      have hcharged : id ∈ charges w.store (SyncItemDao.markInFlight item.id nowMs w.store) := by
        simpa using hid
      obtain ⟨rfl, hin⟩ := mem_charges_markInFlight.mp hcharged
      obtain ⟨r, hr⟩ := Option.ne_none_iff_exists'.mp
        (fun hnone => KeyedTable.find?_eq_none.mp hnone hin)
      exact .inr (.inr ⟨item, r.attempts, by rw [hopened', hr, Option.map_some], rfl⟩)
  · have hid : .abandoned id ∈ log := by simpa using hid
    simpa using (hT.abandoned id hid).imp_left fun h => Or.inl h
  · simpa using hT.ahead x (hunsent ▸ hx)
  · rw [hopened'] at hx
    cases hx
    refine ⟨fun hnone => ?_, fun hsome => ?_⟩
    · rw [hkeys]
      exact KeyedTable.find?_eq_none.mp (Option.map_eq_none_iff.mp hnone)
    · have hin : item.id ∈ w.store.keys := by
        by_contra hout
        exact hsome (Option.map_eq_none_iff.mpr (KeyedTable.find?_eq_none.mpr hout))
      exact List.mem_append_right _ (List.mem_map_of_mem (mem_charges_markInFlight.mpr ⟨rfl, hin⟩))
  · rw [Cycle.tried, hphase'] at hx
    cases hx

/-- The record of a dispatch changes the row of an item that was tried. -/
theorem record {item : StoredSyncItem} {rest : List StoredSyncItem} {record : FailureRecord}
    {nowMs : Int} (hT : Traces w c log) (hphase : c.phase = .recording item rest record)
    (habandons : c.abandons scheme ev = []) :
    Traces (Cycle.writeFailure w c item rest record nowMs).1
      (Cycle.writeFailure w c item rest record nowMs).2
      (log ++ c.traces scheme w (Cycle.writeFailure w c item rest record nowMs).1 ev) := by
  obtain ⟨-, -, hrequests, hrest⟩ := Cycle.writeFailure_spec w c item rest record nowMs
  have hopened : c.opened = none := by rw [Cycle.opened, hphase]
  have hopened' : (Cycle.writeFailure w c item rest record nowMs).2.opened = none := by
    unfold Cycle.writeFailure
    split <;> rfl
  have htried' : (Cycle.writeFailure w c item rest record nowMs).2.tried = none := by
    unfold Cycle.writeFailure
    split <;> rfl
  have hunsent : c.unsent = rest := by rw [Cycle.unsent, Cycle.rest, hphase]
  rw [Cycle.traces_eq hrequests habandons]
  refine ⟨fun limit h => ?_, fun id hid => ?_, fun id hid => ?_, fun x hx => ?_, ?_, ?_⟩
  · unfold Cycle.writeFailure at h
    split at h <;> cases h
  · rcases List.mem_append.mp hid with hid | hid
    · rcases hT.counted id hid with h | h | ⟨x, k, hx, -⟩
      · exact .inl (List.mem_append_left _ h)
      · exact .inr (.inl (List.mem_append_left _ h))
      · rw [hopened] at hx
        cases hx
    · obtain ⟨x, hcharged, hx⟩ := List.mem_map.mp hid
      cases hx
      obtain ⟨rfl, hin⟩ := mem_charges_writeFailure hcharged
      rcases hT.tried item (by rw [Cycle.tried, hphase]) with h | h | hout
      · exact .inl (List.mem_append_left _ h)
      · exact .inr (.inl (List.mem_append_left _ h))
      · exact absurd hin hout
  · have hid : .abandoned id ∈ log := by simpa using hid
    simpa using (hT.abandoned id hid).imp_left fun h => Or.inl h
  · simpa using hT.ahead x (hunsent ▸ hrest x hx)
  · rw [hopened']
    simp
  · rw [htried']
    simp

theorem step (hT : Traces w c log) (hL : Ledger w c.phase.hand)
    (h : c.step scheme config paused w ev = some (w', c')) :
    Traces w' c' (log ++ c.traces scheme w w' ev) := by
  -- the items to come are others than the one at hand
  have hothers {item : StoredSyncItem} {rest : List StoredSyncItem}
      (hhand : c.phase.hand =
        { marked := some item, sent := false, retry := false, ahead := rest }) :
      ∀ x ∈ rest, x.id ≠ item.id := by
    have hnodup := hL.nodup
    rw [hhand, Hand.items] at hnodup
    simp only [Option.toList_some, List.singleton_append, List.map_cons, List.nodup_cons,
      List.mem_map, not_exists, not_and] at hnodup
    exact hnodup.1
  cases Cycle.step_cases h with
  | fetchNone hphase hnothing =>
    refine hT.quiet (Cycle.traces_eq_nil (charges_self _) rfl rfl) (List.Subset.refl _) (by simp)
      ?_ (fun x hx => by cases hx) (.inl rfl)
    rw [Cycle.opened, Cycle.opened, hphase]
  | fetch hphase hpending hsome =>
    refine hT.quiet (Cycle.traces_eq_nil (charges_self _) rfl rfl) (List.Subset.refl _) (by simp)
      ?_ (fun x hx => .inr (hT.fresh _ hphase)) (.inl rfl)
    rw [Cycle.opened, Cycle.opened, hphase]
  | leave hphase hleave =>
    refine hT.quiet (Cycle.traces_eq_nil (charges_self _) rfl rfl) (List.Subset.refl _) (by simp)
      ?_ (fun x hx => by cases hx) (.inl rfl)
    rw [Cycle.opened, Cycle.opened, hphase]
  | take hphase hpaused =>
    refine hT.quiet (Cycle.traces_eq_nil (charges_self _) rfl rfl) (List.Subset.refl _) (by simp)
      ?_ (fun x hx => .inl ?_) (.inl rfl)
    · rw [Cycle.opened, Cycle.opened, hphase]
    · rw [Cycle.unsent, Cycle.rest, hphase]
      exact hx
  | markInFlight hphase => exact hT.markInFlight hphase rfl rfl rfl rfl
  | @prepare item before rest hphase hurl =>
    have habandons : c.abandons scheme .prepare = [] := by
      unfold Cycle.abandons Cycle.atStake
      rw [Cycle.opened, hphase]
      cases before with
      | none => rfl
      | some k => exact if_pos hurl
    refine hT.quiet (Cycle.traces_eq_nil (charges_self _) rfl habandons) (List.Subset.refl _)
      (by simp) ?_ (fun x hx => .inl ?_) (.inl rfl)
    · rw [Cycle.opened, Cycle.opened, hphase]
    · rw [Cycle.unsent, hphase]
      exact hx
  | @rejectUrl item before rest hphase hurl =>
    have hopened : c.opened = some (item, before) := by rw [Cycle.opened, hphase]
    have hunsent : c.unsent = item :: rest := by rw [Cycle.unsent, hphase]
    have htraces : c.traces scheme w w .prepare =
        if before = none then [] else [.abandoned item.id] := by
      unfold Cycle.traces Cycle.abandons Cycle.atStake
      rw [hopened]
      cases before with
      | none => simp
      | some k => simp [hurl]
    exact hT.drop hopened hunsent (hothers (by rw [hphase]; rfl)) htraces
      (by simp) rfl rfl rfl
  | @send item before rest sentWith request hphase =>
    have hopened : c.opened = some (item, before) := by rw [Cycle.opened, hphase]
    have hunsent : c.unsent = item :: rest := by rw [Cycle.unsent, hphase]
    refine hT.send hopened hunsent (hothers (by rw [hphase]; rfl)) ?_
      (by simp) rfl rfl rfl
    simp [Cycle.traces, Cycle.abandons]
  | @sendFails item before rest sentWith request error hphase =>
    have hopened : c.opened = some (item, before) := by rw [Cycle.opened, hphase]
    have hunsent : c.unsent = item :: rest := by rw [Cycle.unsent, hphase]
    have htraces : c.traces scheme w w (.sendFails error) =
        if before = none then [] else [.abandoned item.id] := by
      unfold Cycle.traces Cycle.abandons Cycle.atStake
      rw [hopened]
      cases before with
      | none => simp
      | some k => simp
    exact hT.drop hopened hunsent (hothers (by rw [hphase]; rfl)) htraces
      (by simp) rfl rfl rfl
  | answer hphase | succeed hphase | failItem hphase =>
    refine hT.quiet (Cycle.traces_eq_nil (charges_self _) rfl rfl) (List.Subset.refl _) (by simp)
      ?_ (fun x hx => .inl ?_) (.inr ?_)
    · rw [Cycle.opened, Cycle.opened, hphase]
    · rw [Cycle.unsent, Cycle.rest, hphase]
      exact hx
    · rw [Cycle.tried, Cycle.tried, hphase]
  | remove hphase =>
    refine hT.quiet (Cycle.traces_eq_nil ?_ rfl rfl) ?_ (by simp) ?_ (fun x hx => .inl ?_)
      (.inl rfl)
    · exact charges_of_subset fun r hr => (KeyedTable.mem_deleteWhere.mp hr).1
    · exact KeyedTable.keys_deleteWhere_subset _ _
    · rw [Cycle.opened, Cycle.opened, hphase]
    · rw [Cycle.unsent, Cycle.rest, hphase]
      exact hx
  | record hphase => exact hT.record hphase rfl
  | summarize hphase | finish hphase =>
    refine hT.quiet (Cycle.traces_eq_nil (charges_self _) rfl rfl) (List.Subset.refl _) (by simp)
      ?_ (fun x hx => by cases hx) (.inl rfl)
    rw [Cycle.opened, Cycle.opened, hphase]
  | fail hstorage =>
    refine hT.quiet (Cycle.traces_eq_nil (charges_self _) rfl rfl) (List.Subset.refl _) (by simp)
      ?_ (fun x hx => by cases hx) (.inl rfl)
    unfold Cycle.opened
    cases hphase : c.phase with
    | claimed | prepared =>
      rw [hphase] at hstorage
      cases hstorage
    | _ => rfl

end Traces

/-! ## 3. The flush of a task -/

/-- The engine, and which flush calls run in a cancelled task. -/
structure Driven where
  engine : Engine
  cancelled : Nat → Bool

namespace Driven

inductive Label where
  /-- A step that does not decide how a dispatch goes on. -/
  | engine (l : Ios.Label)
  /-- The task of flush call `t` is cancelled. -/
  | cancel (t : Nat)
  /-- The dispatch of flush call `t` goes to a session. -/
  | dispatch (t : Nat) (attempt : Attempt)
  deriving DecidableEq

/-- The step decides how a dispatch goes on. -/
def dispatches : Ios.Label → Bool
  | .cycle _ .send | .cycle _ (.sendFails _) => true
  | _ => false

/-- The engine takes a step. The tasks end with the process. -/
def advance (scheme : String → Option String) (s : Driven) (l : Ios.Label) : Option Driven :=
  (s.engine.step scheme l).map fun e =>
    { engine := e, cancelled := if l.isKill then fun _ => false else s.cancelled }

def step (scheme : String → Option String) (s : Driven) : Label → Option Driven
  | .engine l => if dispatches l then none else s.advance scheme l
  | .cancel t => some { s with cancelled := Function.update s.cancelled t true }
  | .dispatch t attempt => s.advance scheme (.cycle t (attempt.event (s.cancelled t)))

/-- The event of a cycle that the step is for the engine. -/
def cycleEvent (s : Driven) : Label → Option (Nat × CycleEvent)
  | .engine (.cycle t ev) => if dispatches (.cycle t ev) then none else some (t, ev)
  | .dispatch t attempt => some (t, attempt.event (s.cancelled t))
  | _ => none

/-- The item at hand of flush call `t`, when its attempt is counted and its
request not started. -/
def atStake (s : Driven) (t : Nat) : Option StoredSyncItem :=
  (s.engine.flushes t).bind Cycle.atStake

/-- The step takes a counted attempt of flush call `t` on to its request: the
url is usable, and the session starts the request. -/
def tries (scheme : String → Option String) (t : Nat) (s : Driven) : Label → Bool
  | .engine (.cycle u .prepare) =>
    u != t || (s.atStake t).all fun item =>
      decide (((scheme item.url).map fun s => hasPrefix s "http") = some true)
  | .dispatch u attempt => u != t || (s.atStake t).isNone || attempt.starts (s.cancelled t)
  | _ => true

/-- What the step traces for flush call `t`. -/
def traces (scheme : String → Option String) (t : Nat) (s : Driven) (l : Label) : List Trace :=
  match s.cycleEvent l, s.engine.flushes t with
  | some (u, ev), some c =>
    if u = t then
      c.traces scheme s.engine.world ((s.engine.step scheme (.cycle u ev)).getD s.engine).world ev
    else []
  | _, _ => []

def Label.isKill : Label → Bool
  | .engine l => l.isKill
  | _ => false

variable {scheme : String → Option String} {t : Nat} {s s' : Driven} {l : Label}

/-- A step leaves the engine alone, or is a step of the engine. -/
theorem step_engine (h : s.step scheme l = some s') :
    s.cycleEvent l = none ∧ s'.engine = s.engine ∨
      ∃ l', s.engine.step scheme l' = some s'.engine ∧ l'.isKill = l.isKill ∧
        ∀ u ev, s.cycleEvent l = some (u, ev) ↔ l' = .cycle u ev := by
  cases l with
  | cancel u =>
    cases h
    exact .inl ⟨rfl, rfl⟩
  | engine l =>
    simp only [step, Option.ite_none_left_eq_some, Bool.not_eq_true] at h
    obtain ⟨hother, h⟩ := h
    obtain ⟨e, he, rfl⟩ := Option.map_eq_some_iff.mp h
    refine .inr ⟨l, he, rfl, fun u ev => ?_⟩
    cases l <;> simp_all [cycleEvent]
  | dispatch u attempt =>
    obtain ⟨e, he, rfl⟩ := Option.map_eq_some_iff.mp h
    refine .inr ⟨_, he, rfl, fun v ev => ?_⟩
    simp [cycleEvent]

/-- A step traces an abandoned item exactly when it ends the dispatch of one. -/
theorem mem_traces_abandoned {c : Cycle} {w w' : World} {ev : CycleEvent} :
    (∀ a ∈ c.traces scheme w w' ev, ∀ id, a ≠ .abandoned id) ↔ c.abandons scheme ev = [] := by
  refine ⟨fun h => List.eq_nil_iff_forall_not_mem.mpr fun id hid => ?_, fun h a ha id => ?_⟩
  · exact h _ (List.mem_append_right _ (List.mem_map_of_mem hid)) id rfl
  · rintro rfl
    rw [Cycle.traces, h] at ha
    rcases List.mem_append.mp (by simpa only [List.map_nil, List.append_nil] using ha) with ha | ha
    · simp at ha
    · obtain ⟨q, -, hq⟩ := List.mem_map.mp ha
      cases hq

/-- The steps that do not take a counted attempt to its request are those that
trace an item as abandoned. -/
theorem tries_iff_traces :
    s.tries scheme t l = true ↔ ∀ a ∈ s.traces scheme t l, ∀ id, a ≠ .abandoned id := by
  cases hc : s.engine.flushes t with
  | none =>
    have htraces : s.traces scheme t l = [] := by
      unfold traces
      rw [hc]
      split <;> simp_all
    have htries : s.tries scheme t l = true := by
      unfold tries atStake
      rw [hc]
      split <;> simp
    simp [htraces, htries]
  | some c =>
    have hstake : s.atStake t = c.atStake := by simp [atStake, hc]
    have htraces {u : Nat} {ev : CycleEvent} (hev : s.cycleEvent l = some (u, ev)) :
        (∀ a ∈ s.traces scheme t l, ∀ id, a ≠ .abandoned id) ↔
          (u = t → c.abandons scheme ev = []) := by
      unfold traces
      rw [hev, hc]
      by_cases hu : u = t
      · simp [hu, mem_traces_abandoned]
      · simp [hu]
    have hsilent (hev : s.cycleEvent l = none) : s.traces scheme t l = [] := by
      unfold traces
      rw [hev]
    cases l with
    | cancel u => simp [tries, hsilent rfl]
    | dispatch u attempt =>
      rw [htraces rfl, Cycle.abandons_event]
      by_cases hu : u = t
      · simp [tries, hstake, hu]
      · simp [tries, hu]
    | engine l =>
      cases l with
      | cycle u ev =>
        cases ev with
        | prepare =>
          rw [htraces rfl]
          by_cases hu : u = t
          · cases hstaked : c.atStake <;> simp [tries, Cycle.abandons, hstake, hstaked, hu]
          · simp [tries, hu]
        | send | sendFails => simp [tries, hsilent rfl]
        | _ => simp [tries, htraces rfl, Cycle.abandons]
      | _ => simp [tries, hsilent rfl]

/-! ## 4. A flush and the items it has not tried -/

/-- The cycle of flush call `t`, with what it traced. -/
structure Tracked (t : Nat) (p : Driven × List Trace) : Prop where
  accounts : p.1.engine.Accounts
  cycle : ∃ c, p.1.engine.flushes t = some c ∧ Traces p.1.engine.world c p.2

theorem traces_of_ne {l' : Ios.Label}
    (hevent : ∀ u ev, s.cycleEvent l = some (u, ev) ↔ l' = .cycle u ev)
    (hne : ∀ ev, l' ≠ .cycle t ev) : s.traces scheme t l = [] := by
  unfold traces
  split
  · rename_i u ev c hev hc
    refine if_neg fun hu => hne ev ?_
    rw [← hu]
    exact (hevent u ev).mp hev
  · rfl

theorem Tracked.step {p p' : Driven × List Trace} (hT : Tracked t p) (hl : l.isKill = false)
    (h : StepSystem.recorded (step scheme) (traces scheme t) p l = some p') : Tracked t p' := by
  obtain ⟨s, log⟩ := p
  obtain ⟨s', log'⟩ := p'
  obtain ⟨hstep, rfl⟩ := StepSystem.recorded_eq_some.mp h
  obtain ⟨hA, c, hc, hlog⟩ := hT
  rcases step_engine hstep with ⟨hnone, hengine⟩ | ⟨l', hl', hkill, hevent⟩
  · have htraces : s.traces scheme t l = [] := by
      unfold traces
      rw [hnone]
    show Tracked t (s', log ++ s.traces scheme t l)
    rw [htraces, List.append_nil]
    refine ⟨?_, ?_⟩
    · rw [hengine]
      exact hA
    · rw [hengine]
      exact ⟨c, hc, hlog⟩
  · have hA' : s'.engine.Accounts := hA.step hl'
    have hissued : ∀ x ∈ c.phase.hand.items, x.id ∈ s.engine.world.issued :=
      (hA.hands t c hc).1.items_issued
    -- what another party does
    have beside (hne : ∀ ev, l' ≠ .cycle t ev) (hc' : s'.engine.flushes t = some c) :
        Tracked t (s', log ++ s.traces scheme t l) := by
      rw [traces_of_ne hevent hne, List.append_nil]
      refine ⟨hA', c, hc', hlog.congr (fun id hid => ?_) hissued⟩
      exact ((Engine.outbox_step hl').stored_new hid).imp_right fun hnew => hnew.2
    rcases Engine.step_kinds hl' with hapart | ⟨u, recovered, nowMs, rfl, hnone, heq⟩ |
      ⟨u, ev, d, d', rfl, hcycle⟩ | ⟨config, paused, rfl⟩
    · exact beside (hapart.label t) (hapart.flushes ▸ hc)
    · refine beside (by simp) ?_
      have hu : t ≠ u := by
        rintro rfl
        rw [hc] at hnone
        cases hnone
      obtain ⟨config, -, hflush | ⟨-, hflush⟩⟩ := s.engine.flush_cases u recovered nowMs
      · rw [heq, hflush]
        exact hc
      · rw [heq, hflush]
        exact (Function.update_of_ne hu _ _).trans hc
    · by_cases hu : u = t
      · subst hu
        obtain rfl : c = d := Option.some.inj (hc.symm.trans hcycle.before)
        have htraces : s.traces scheme u l =
            c.traces scheme s.engine.world s'.engine.world ev := by
          unfold traces
          rw [(hevent u ev).mpr rfl, hc]
          simp [hl']
        show Tracked u (s', log ++ s.traces scheme u l)
        rw [htraces]
        exact ⟨hA', d', by rw [hcycle.flushes, Function.update_self],
          hlog.step (hA.hands u c hc).1 hcycle.step⟩
      · exact beside (by simp [hu]) ((hcycle.flushes_of_ne (Ne.symm hu)).trans hc)
    · rw [hl] at hkill
      cases hkill

/-- In every run of an install, for a call of `flush`, whether and whenever its
task is cancelled. If it starts no cycle, it changes no row. If it starts one,
then once that is over: it has changed only rows of items it started a request
for, exactly when each attempt it counted was taken on to its request. -/
theorem untried_untouched_iff {s₀ s s₁ : Driven} {ls₀ : List Label}
    {recovered : Option StringMap} {nowMs : Int} (h : s₀.engine.Boot)
    (hstore : s₀.engine.world.store = .empty)
    (h₀ : StepSystem.exec (step scheme) s₀ ls₀ = some s)
    (hflush : s.step scheme (.engine (.flush t recovered nowMs)) = some s₁) :
    (s₁.engine.flushes t = none → s₁.engine.world.store = s.engine.world.store) ∧
      ∀ c ls log s₂ c₂, s₁.engine.flushes t = some c → (∀ l ∈ ls, l.isKill = false) →
        StepSystem.exec (StepSystem.recorded (step scheme) (traces scheme t)) (s₁, []) ls =
          some (s₂, log) →
        s₂.engine.flushes t = some c₂ → c₂.active = false →
        ((∀ id, .counted id ∈ log → .sent id ∈ log) ↔
          StepSystem.Meets (step scheme) (fun s l => s.tries scheme t l = true) s₁ ls) := by
  have hA : s.engine.Accounts := by
    refine StepSystem.exec_invariant (I := fun s => s.engine.Accounts) ?_ (h.accounts hstore) h₀
    intro s l s' hA hs
    rcases step_engine hs with ⟨-, heq⟩ | ⟨l', hl', -⟩
    · rw [heq]
      exact hA
    · exact hA.step hl'
  obtain ⟨e, he, rfl⟩ := Option.map_eq_some_iff.mp hflush
  have hA₁ : e.Accounts := hA.step he
  simp only [Engine.step, Option.ite_none_right_eq_some] at he
  obtain ⟨hnone, he⟩ := he
  have hnone : s.engine.flushes t = none := by simpa using hnone
  cases he
  refine ⟨fun _ => ?_, fun c ls log s₂ c₂ hc hkill hrun hc₂ hended => ?_⟩
  · obtain ⟨config, -, heq | ⟨-, heq⟩⟩ := s.engine.flush_cases t recovered nowMs
    · rw [heq]
    · rw [heq]
      rfl
  · have hstart : Traces (s.engine.flush t recovered nowMs).world c [] := by
      obtain ⟨config, -, heq | ⟨-, heq⟩⟩ := s.engine.flush_cases t recovered nowMs
      · rw [heq] at hc
        exact absurd hnone (by rw [show s.engine.flushes t = some c from hc]; simp)
      · rw [heq] at hc
        rcases Engine.flushes_setCycle hc with ⟨-, rfl⟩ | ⟨hne, -⟩
        · exact ⟨fun _ _ => rfl, by simp, by simp, fun x hx => (by cases hx),
            by simp [Cycle.opened, Cycle.start], by simp [Cycle.tried, Cycle.start]⟩
        · exact absurd rfl hne
    have hend : Tracked t (s₂, log) :=
      StepSystem.exec_invariant_of_meets (fun hT hl hs => hT.step hl hs) ⟨hA₁, c, hc, hstart⟩
        (StepSystem.meets_of_forall hkill) hrun
    obtain ⟨-, d, hd, hlog⟩ := hend
    obtain rfl : c₂ = d := Option.some.inj (hc₂.symm.trans hd)
    -- nothing is at hand any more
    have hopened : c₂.opened = none := by
      unfold Cycle.opened
      cases hphase : c₂.phase with
      | claimed | prepared =>
        rw [Cycle.active, hphase] at hended
        cases hended
      | _ => rfl
    rw [StepSystem.meets_iff_recorded (fun s l => tries_iff_traces) (by simp) hrun]
    constructor
    · intro hsent a ha id hid
      subst hid
      obtain ⟨hcounted, hunsent⟩ := hlog.abandoned id ha
      exact hunsent (hsent id hcounted)
    · intro hkept id hid
      rcases hlog.counted id hid with hsent | habandoned | ⟨item, k, hitem, -⟩
      · exact hsent
      · exact absurd rfl (hkept _ habandoned id)
      · rw [hopened] at hitem
        cases hitem

section Sample

/-! ## 5. A cancelled flush -/

/-- The first launch, with no task cancelled. -/
def firstLaunch : Driven where
  engine := Engine.firstLaunch
  cancelled _ := false

/-- The flush that is about to start its cycle, over two items. -/
def startRun : List Label :=
  [.engine (.enqueue [SyncQueueStorage.sampleItem "A", SyncQueueStorage.sampleItem "B"]),
    .engine (.flush 0 none 2000)]

/-- The next item of the flush, up to the session. -/
def takeUpRun (nowMs : Int) : List Label :=
  [.engine (.cycle 0 .next), .engine (.cycle 0 (.markInFlight nowMs)), .engine (.cycle 0 .prepare)]

/-- The dispatch ends, and its outcome is recorded. -/
def recordRun (nowMs : Int) : List Label :=
  [.engine (.cycle 0 (.settle 0)), .engine (.cycle 0 (.write nowMs))]

/-- The task expires while the request of the first item is out. The second
dispatch goes to `attempt`. -/
def expiredRun (attempt : Attempt) (later : List Label) : List Label :=
  .engine (.cycle 0 (.fetch 2000)) :: takeUpRun 2001 ++
    [.dispatch 0 (.foreground "cancelled"), .cancel 0,
      .engine (.cycle 0 (.answer none (some ⟨.NETWORK_ERROR, "cancelled"⟩)))] ++
    recordRun 2002 ++ takeUpRun 2003 ++ .dispatch 0 attempt :: later ++ recordRun 2004 ++
    [.engine (.cycle 0 .next), .engine (.cycle 0 (.summarize 2005)), .engine (.cycle 0 .finish)]

/-- What a reader of the queue sees of an item. -/
def seen (s : Driven) (id : String) : Option (Int × Bool) :=
  (s.engine.world.store.find? id).map fun r => (r.attempts, 2004 < r.nextRetryAt)

/-- In the foreground the second request is not sent, and its item has an attempt
less and a cooldown. -/
theorem cancelled_flush_spends_attempts :
    ∃ s₁ s₂ log, StepSystem.exec (step Engine.https) firstLaunch startRun = some s₁ ∧
      StepSystem.exec (StepSystem.recorded (step Engine.https) (traces Engine.https 0)) (s₁, [])
        (expiredRun (.foreground "cancelled") []) = some (s₂, log) ∧
      .counted "B" ∈ log ∧ .sent "B" ∉ log ∧ s₂.seen "B" = some (1, true) := by
  have htrace : ((StepSystem.exec (step Engine.https) firstLaunch startRun).bind fun s₁ =>
      (StepSystem.exec (StepSystem.recorded (step Engine.https) (traces Engine.https 0)) (s₁, [])
        (expiredRun (.foreground "cancelled") [])).map fun p =>
          (decide (.counted "B" ∈ p.2 ∧ .sent "B" ∉ p.2), p.1.seen "B")) =
      some (true, some (1, true)) := by
    decide +kernel
  obtain ⟨s₁, hs₁, htrace⟩ := Option.bind_eq_some_iff.mp htrace
  obtain ⟨⟨s₂, log⟩, hrun, heq⟩ := Option.map_eq_some_iff.mp htrace
  obtain ⟨hlog, hseen⟩ := Prod.mk.inj heq
  obtain ⟨hcounted, hunsent⟩ := of_decide_eq_true hlog
  exact ⟨s₁, s₂, log, hs₁, hrun, hcounted, hunsent, hseen⟩

/-- The upload of the second item goes to the background session, which sends it
whatever becomes of the task. -/
theorem untried_untouched_in_background :
    ∃ s s₁ s₂ log, StepSystem.exec (step Engine.https) firstLaunch
        [.engine (.enqueue [SyncQueueStorage.sampleItem "A", SyncQueueStorage.sampleItem "B"])] =
          some s ∧
      s.step Engine.https (.engine (.flush 0 none 2000)) = some s₁ ∧
      StepSystem.exec (StepSystem.recorded (step Engine.https) (traces Engine.https 0)) (s₁, [])
        (expiredRun (.background none) [.engine (.cycle 0 (.answer (some 500) none))]) =
          some (s₂, log) ∧
      .counted "B" ∈ log ∧ ∀ id, .counted id ∈ log → .sent id ∈ log := by
  obtain ⟨s, s₁, c, hs, hflush, hc⟩ : ∃ s s₁ c, StepSystem.exec (step Engine.https) firstLaunch
      [.engine (.enqueue [SyncQueueStorage.sampleItem "A", SyncQueueStorage.sampleItem "B"])] =
        some s ∧
      s.step Engine.https (.engine (.flush 0 none 2000)) = some s₁ ∧
      s₁.engine.flushes 0 = some c := ⟨_, _, _, rfl, rfl, rfl⟩
  have hstart : StepSystem.exec (step Engine.https) firstLaunch startRun = some s₁ :=
    StepSystem.exec_append_eq_some.mpr ⟨s, hs, StepSystem.exec_cons_eq_some.mpr ⟨s₁, hflush, rfl⟩⟩
  have htrace : ((StepSystem.exec (step Engine.https) firstLaunch startRun).bind fun s₁ =>
      (StepSystem.exec (StepSystem.recorded (step Engine.https) (traces Engine.https 0)) (s₁, [])
        (expiredRun (.background none) [.engine (.cycle 0 (.answer (some 500) none))])).map
          fun p => (decide (.counted "B" ∈ p.2), (p.1.engine.flushes 0).map Cycle.active)) =
      some (true, some false) := by
    decide +kernel
  have hmeets : (StepSystem.exec (step Engine.https) firstLaunch startRun).all fun s₁ =>
      decide (StepSystem.Meets (step Engine.https)
        (fun s l => s.tries Engine.https 0 l = true) s₁
        (expiredRun (.background none) [.engine (.cycle 0 (.answer (some 500) none))])) := by
    decide +kernel
  rw [hstart] at htrace hmeets
  obtain ⟨⟨s₂, log⟩, hrun, heq⟩ := Option.map_eq_some_iff.mp htrace
  obtain ⟨hcounted, hended⟩ := Prod.mk.inj heq
  obtain ⟨c₂, hc₂, hended⟩ := Option.map_eq_some_iff.mp hended
  have hsent := ((untried_untouched_iff Engine.firstLaunch_boot rfl hs hflush).2 c _ log s₂ c₂ hc
    (by decide) hrun hc₂ hended).mpr (of_decide_eq_true hmeets)
  exact ⟨s, s₁, s₂, log, hs, hflush, hrun, of_decide_eq_true hcounted, hsent⟩

end Sample

end Driven

end SyncProvider.Ios
