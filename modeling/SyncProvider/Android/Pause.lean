import SyncProvider.Android.Payload

/-!
# Android: a pause ends with the batch

`flush` looks at the flag once, under the mutex and before its cycle. A cycle that has got past
the check claims its batch and dispatches all of it, whatever the flag says. So a pause that
lands meanwhile lets at most this one batch out, each row of it once.

Results:
1. `Cycle.step_batch` : how the rows in hand of a cycle change.
2. `Engine.step_paused` : what a step does while the process is paused.
3. `paused_finishes_batch` : what a run sends from a pause on.
-/

namespace SyncProvider.Android

open StepSystem (exec exec_past_invariant Visits visits_last)

/-! ## 1. The batch of a cycle -/

/-- The cycle has its claim before it. -/
def Cycle.mayClaim (c : Cycle) : Bool :=
  match c.phase with
  | .starting | .claiming => true
  | _ => false

/-- What a step does to the rows in hand. -/
inductive BatchStep (w : World) (c : Cycle) (w' : World) (c' : Cycle) : Prop where
  | claim (before : c.mayClaim = true) (after : c'.mayClaim = false)
      (requests : w'.requests = w.requests)
      (batch : (c'.ids.length : Int) ≤ Cycle.batchSize c.options)
  | quiet (requests : w'.requests = w.requests) (ids : c'.ids.Sublist c.ids)
      (unsent : c'.unsent ⊆ c.unsent)
  | send (id : String) (request : HttpRequest) (held : id ∈ c.unsent) (claimed : c.mayClaim = false)
      (requests : w'.requests = w.requests ++ [(id, request)]) (ids : c'.ids = c.ids)
      (unsent : c'.unsent ⊆ c.unsent) (sent : id ∉ c'.unsent)

theorem SyncItemDao.length_selectClaimable_le {now limit : Int} (hlimit : 0 ≤ limit)
    (t : SyncItems) : ((selectClaimable now limit t).length : Int) ≤ limit := by
  unfold selectClaimable
  rw [if_neg (by omega), List.length_take]
  omega

theorem Cycle.one_le_batchSize (options : SyncOptions) : 1 ≤ batchSize options := le_max_right _ _

namespace Cycle

variable {accepts : HttpRequest → Bool} {live : SyncOptions} {cancelled : Bool} {w w' : World}
  {c c' : Cycle} {ev : CycleEvent}

/-- A dispatch whose step leaves `unsent` alone or ends it. -/
theorem unsent_set {ds : List Dispatch} {i : Nat} {d d' : Dispatch} (hi : ds[i]? = some d)
    (hentity : d'.entity = d.entity) (hunsent : d'.unsent = true → d.unsent = true) :
    ((ds.set i d').filter Dispatch.unsent).map (·.entity.id) ⊆
      (ds.filter Dispatch.unsent).map (·.entity.id) := by
  intro id hid
  obtain ⟨x, hx, rfl⟩ := List.mem_map.mp hid
  obtain ⟨hx, hux⟩ := List.mem_filter.mp hx
  rcases List.mem_or_eq_of_mem_set hx with hx | rfl
  · exact List.mem_map.mpr ⟨x, List.mem_filter.mpr ⟨hx, hux⟩, rfl⟩
  · exact List.mem_map.mpr
      ⟨d, List.mem_filter.mpr ⟨List.mem_of_getElem? hi, hunsent hux⟩, by rw [hentity]⟩

/-- A step that dispatches nothing: the rows in hand stay or are let go. -/
theorem batch_of_dispatches (hrequests : w'.requests = w.requests)
    (hd : c'.dispatches = c.dispatches ∨ c'.dispatches = []) : BatchStep w c w' c' := by
  rcases hd with hd | hd
  · refine .quiet hrequests ?_ ?_
    · rw [ids, hd]
      exact List.Sublist.refl _
    · rw [unsent, hd]
      exact List.Subset.refl _
  · refine .quiet hrequests ?_ ?_
    · rw [ids, hd]
      exact List.nil_sublist _
    · rw [unsent, hd]
      exact List.nil_subset _

theorem step_batch (hN : c.ids.Nodup) (h : c.step accepts live cancelled w ev = some (w', c')) :
    BatchStep w c w' c' ∧ (c'.mayClaim = true → c.mayClaim = true) := by
  obtain ⟨phase, rfl, hmoves⟩ := step_moves h
  have hlate {phase : CyclePhase} (hphase : mayClaim { c with phase := phase } = false) :
      mayClaim { c with phase := phase } = true → c.mayClaim = true := by
    rw [hphase]
    rintro ⟨⟩
  cases hmoves with
  | emitStarted hphase =>
    refine ⟨batch_of_dispatches rfl (.inr rfl), fun _ => ?_⟩
    simp only [mayClaim, hphase]
  | claim hphase =>
    refine ⟨.claim (by simp only [mayClaim, hphase]) rfl rfl ?_, hlate rfl⟩
    have hlimit := one_le_batchSize c.options
    show ((((SyncItemDao.selectClaimable _ _ w.table).map Dispatch.queue).map _).length : Int) ≤ _
    rw [List.length_map, List.length_map]
    exact SyncItemDao.length_selectClaimable_le (by omega) w.table
  | @dispatch probing ds i dev d d' w' hphase hstart hi hstep =>
    refine ⟨?_, hlate rfl⟩
    have hspec := Dispatch.step_spec hstep
    have hds : c.dispatches = ds := dispatches_of_phase hphase
    have hids : ({ c with phase := .dispatching probing (ds.set i d') } : Cycle).ids = c.ids := by
      rw [ids, ids, hds]
      exact map_id_set hi hspec.entity
    have hunsent : ({ c with phase := .dispatching probing (ds.set i d') } : Cycle).unsent ⊆
        c.unsent := by
      rw [unsent, unsent, hds]
      exact unsent_set hi hspec.entity hspec.unsent
    cases Dispatch.step_moves hstep with
    | @send entity startedAt request hbudget hbuild =>
      refine .send entity.id request ?_ (by simp only [mayClaim, hphase]) rfl hids hunsent ?_
      · rw [unsent, hds]
        exact List.mem_map.mpr
          ⟨_, List.mem_filter.mpr ⟨List.mem_of_getElem? hi, rfl⟩, rfl⟩
      · intro hid
        obtain ⟨x, hx, hxid⟩ := List.mem_map.mp hid
        obtain ⟨hx, hux⟩ := List.mem_filter.mp hx
        rw [ids, hds] at hN
        -- the other dispatches of the batch are of other items
        rcases mem_set_cases hN hi hx with rfl | ⟨-, hne⟩
        · cases hux
        · exact hne hxid
    | start | refuse | unbuilt | respond | settle | emit | crash =>
      exact .quiet rfl (by rw [hids]) hunsent
  | resumeClaimed hphase | probePassed hphase =>
    refine ⟨batch_of_dispatches rfl (.inl ?_), hlate rfl⟩
    simp only [dispatches, hphase]
  | @throw phase hcancelled hthrown | @raise code phase hstorage hthrown =>
    refine ⟨batch_of_dispatches rfl (.inr (dispatches_thrown hthrown)), hlate ?_⟩
    cases thrown_spec hthrown <;> rfl
  | abort hphase | abortReported hphase =>
    refine ⟨batch_of_dispatches ?_ (.inr rfl), hlate rfl⟩
    split <;> rfl
  | resumeEmpty | probeRejected | release | join | record | resumeRecorded | emitTerminal
  | resumeReported | emitFailed | finish => exact ⟨batch_of_dispatches rfl (.inr rfl), hlate rfl⟩

end Cycle

/-- The caller is past the check, with its claim before it. -/
def Call.mayClaim (call : Call) : Bool :=
  match call.state with
  | .unpaused | .admitted _ => true
  | .cycle c => c.mayClaim
  | _ => false

/-- The pause stays. -/
def Label.staysPaused : Label → Bool
  | .setPaused paused => paused
  | _ => true

/-! ## 2. One step while paused -/

namespace Engine

variable {accepts : HttpRequest → Bool} {e e' m m' : Engine} {l : Label}

theorem holdsMutex_of_mayClaim {call : Call} (h : call.mayClaim = true) :
    call.holdsMutex = true := by
  obtain ⟨state, cancelled⟩ := call
  cases state <;> first | rfl | cases h

/-- Nobody gets past the check. -/
theorem step_mayClaim (hI : Inv e) (hpaused : e.paused = true)
    (h : e.step accepts l = some e') (u : Nat) (hu : (e'.calls u).mayClaim = true) :
    (e.calls u).mayClaim = true := by
  have moved {t : Nat} {call : Call} (hcalls : e'.calls = Function.update e.calls t call)
      (hcall : call.mayClaim = true → (e.calls t).mayClaim = true) :
      (e.calls u).mayClaim = true := by
    rw [hcalls] at hu
    by_cases hut : u = t
    · subst hut
      rw [Function.update_self] at hu
      exact hcall hu
    · rwa [Function.update_of_ne hut] at hu
  cases l with
  | enqueue items =>
    obtain ⟨table, -, -, rfl⟩ := Engine.step_enqueue h
    exact hu
  | remove call | configure options credentials | setPaused paused =>
    cases h
    exact hu
  | cancel t =>
    cases h
    exact moved rfl fun hcall => hcall
  | giveUp t =>
    simp only [step, Option.ite_none_right_eq_some] at h
    obtain ⟨-, h⟩ := h
    split at h <;> cases h
    all_goals exact moved rfl (by rintro ⟨⟩)
  | call t op | lock t | reset t =>
    simp only [step] at h
    split at h <;> cases h
    exact moved rfl (by rintro ⟨⟩)
  | checkPaused t =>
    simp only [step, hpaused, if_true] at h
    split at h <;> cases h
    exact moved rfl (by rintro ⟨⟩)
  | readCredentials t | begin t now =>
    simp only [step] at h
    split at h <;> cases h
    rename_i hstate
    exact moved rfl fun _ => by simp only [Call.mayClaim, hstate]
  | cycle t ev =>
    obtain ⟨c, w, c', hc, hstep, rfl⟩ := step_cycle h
    have hids : c.ids.Nodup := hI.nodup_ids hc
    refine moved rfl fun hcall => ?_
    simp only [Call.mayClaim, hc]
    exact (Cycle.step_batch hids hstep).2 hcall
  | unlock t =>
    simp only [step] at h
    split at h
    · cases h
      exact moved rfl (by rintro ⟨⟩)
    · split at h <;> cases h
      exact moved rfl (by rintro ⟨⟩)
    · cases h

/-- What a step does to the rows in hand of the callers. -/
inductive CallsStep (e e' : Engine) : Prop where
  | claim (t : Nat) (before : (e.calls t).mayClaim = true)
      (requests : e'.world.requests = e.world.requests)
  | quiet (requests : e'.world.requests = e.world.requests)
      (ids : ∀ u, (e'.calls u).ids ⊆ (e.calls u).ids)
      (unsent : ∀ u, (e'.calls u).unsent ⊆ (e.calls u).unsent)
  | send (t : Nat) (c : Cycle) (id : String) (request : HttpRequest)
      (state : (e.calls t).state = .cycle c) (claimed : c.mayClaim = false) (held : id ∈ c.unsent)
      (requests : e'.world.requests = e.world.requests ++ [(id, request)])
      (ids : ∀ u, (e'.calls u).ids ⊆ (e.calls u).ids)
      (unsent : ∀ u, (e'.calls u).unsent ⊆ (e.calls u).unsent)
      (sent : id ∉ (e'.calls t).unsent)

theorem step_calls (hI : Inv e) (h : e.step accepts l = some e') :
    CallsStep e e' := by
  by_cases hl : ∃ t ev, l = .cycle t ev
  · obtain ⟨t, ev, rfl⟩ := hl
    obtain ⟨c, w, c', hc, hstep, rfl⟩ := step_cycle h
    have hids : c.ids.Nodup := hI.nodup_ids hc
    -- the other callers keep what they have
    have hcalls {f : Call → List String} (hf : f ⟨.cycle c', (e.calls t).cancelled⟩ ⊆ f (e.calls t))
        (u : Nat) : f (Function.update e.calls t ⟨.cycle c', (e.calls t).cancelled⟩ u) ⊆
          f (e.calls u) := by
      by_cases hu : u = t
      · subst hu
        rwa [Function.update_self]
      · rw [Function.update_of_ne hu]
        exact List.Subset.refl _
    have hmine : (e.calls t).ids = c.ids ∧ (e.calls t).unsent = c.unsent := by
      simp only [Call.ids, Call.unsent, Call.dispatches, hc]
      exact ⟨rfl, rfl⟩
    cases (Cycle.step_batch hids hstep).1 with
    | claim before after requests batch =>
      refine .claim t ?_ requests
      simp only [Call.mayClaim, hc, before]
    | quiet requests ids unsent =>
      exact .quiet requests (hcalls (f := Call.ids) (hmine.1 ▸ ids.subset))
        (hcalls (f := Call.unsent) (hmine.2 ▸ unsent))
    | send id request held claimed requests ids unsent sent =>
      refine .send t c id request hc claimed held requests
        (hcalls (f := Call.ids) (hmine.1 ▸ ids ▸ List.Subset.refl _))
        (hcalls (f := Call.unsent) (hmine.2 ▸ unsent)) ?_
      simp only [setState, setCall, Function.update_self]
      exact sent
  · obtain ⟨-, hrequests, hcycles⟩ := step_outside (fun t ev heq => hl ⟨t, ev, heq⟩) h
    have hd (u : Nat) : (e'.calls u).dispatches = (e.calls u).dispatches ∨
        (e'.calls u).dispatches = [] := by
      cases hstate : (e'.calls u).state with
      | cycle c =>
        rcases hcycles u c hstate with hc | hnone
        · exact .inl (by simp only [Call.dispatches, hstate, hc])
        · exact .inr (by simp only [Call.dispatches, hstate, hnone])
      | idle | waiting | entered | unpaused | admitted | leaving =>
        exact .inr (by simp only [Call.dispatches, hstate])
    refine .quiet hrequests (fun u => ?_) fun u => ?_
    · rcases hd u with hd | hd
      · rw [Call.ids, hd]
        exact List.Subset.refl _
      · rw [Call.ids, hd]
        exact List.nil_subset _
    · rcases hd u with hd | hd
      · rw [Call.unsent, hd]
        exact List.Subset.refl _
      · rw [Call.unsent, hd]
        exact List.nil_subset _

/-! ## 3. A run from a pause on -/

/-- The cycles have at most their batch in hand. -/
def Batched (e : Engine) : Prop :=
  ∀ t c, (e.calls t).state = .cycle c → (c.ids.length : Int) ≤ Cycle.batchSize c.options

theorem Batched.step (hI : Inv e) (hB : Batched e) (h : e.step accepts l = some e') :
    Batched e' := by
  intro t c hc
  rcases step_newCycle h hc with hc | ⟨now, -, -, hphase, -⟩ | ⟨ev, d, -, hd, hstep⟩
  · exact hB t c hc
  · have hlimit := Cycle.one_le_batchSize c.options
    simp only [Cycle.ids, Cycle.dispatches, hphase, List.map_nil, List.length_nil]
    omega
  · have hold := hB t d hd
    rw [(Cycle.step_options hstep).1]
    cases (Cycle.step_batch (hI.nodup_ids hd) hstep).1 with
    | claim before after requests batch => exact batch
    | quiet requests ids unsent =>
      have := ids.length_le
      omega
    | send id request held claimed requests ids unsent sent => rwa [ids]

theorem Boot.batched (h : Boot e) : Batched e := by
  intro t c hc
  rw [h.calls] at hc
  cases hc

/-- The cycle of caller `t` has these rows in hand, at most its batch. -/
def HasBatch (t : Nat) (batch : List String) (e : Engine) : Prop :=
  ∃ c, (e.calls t).state = .cycle c ∧ c.ids = batch ∧
    (batch.length : Int) ≤ Cycle.batchSize c.options

/-- What was sent since the pause in `e` is from one batch, which a cycle had in hand at a moment
of the run `past`, and nobody claims another one. -/
structure Winding (accepts : HttpRequest → Bool) (e : Engine) (past : List Label) (m : Engine)
    (new : List (String × HttpRequest)) : Prop where
  requests : m.world.requests = e.world.requests ++ new
  nodup : (new.map (·.1)).Nodup
  sent : ∀ q ∈ new, ∀ u, q.1 ∉ (m.calls u).unsent
  batch : new = [] ∨ ∃ t batch, Visits (Engine.step accepts) (HasBatch t batch) e past ∧
    (∀ q ∈ new, q.1 ∈ batch) ∧ (∀ u, (m.calls u).mayClaim = false) ∧
    ∀ u, (m.calls u).ids ⊆ batch

theorem Winding.step {past : List Label} {new : List (String × HttpRequest)}
    (hpast : exec (Engine.step accepts) e past = some m) (hI : Inv m) (hB : Batched m)
    (hpaused : m.paused = true) (hW : Winding accepts e past m new)
    (h : m.step accepts l = some m') : ∃ new', Winding accepts e (past ++ [l]) m' new' := by
  have hclaims (hnone : ∀ u, (m.calls u).mayClaim = false) (u : Nat) :
      (m'.calls u).mayClaim = false := by
    cases hu : (m'.calls u).mayClaim with
    | false => rfl
    | true => exact (step_mayClaim hI hpaused h u hu).symm.trans (hnone u)
  cases step_calls hI h with
  | claim t before requests =>
    -- a claim comes before every request
    rcases hW.batch with rfl | ⟨t₀, batch, -, -, hnone, -⟩
    · exact ⟨[], requests.trans hW.requests, List.nodup_nil, by simp, .inl rfl⟩
    · rw [hnone t] at before
      cases before
  | quiet requests ids unsent =>
    refine ⟨new, requests.trans hW.requests, hW.nodup,
      fun q hq u hu => hW.sent q hq u (unsent u hu), hW.batch.imp_right ?_⟩
    rintro ⟨t, batch, hvisits, hmem, hnone, hids⟩
    exact ⟨t, batch, hvisits.append [l], hmem, hclaims hnone,
      fun u => List.Subset.trans (ids u) (hids u)⟩
  | send t c id request state claimed held requests ids unsent sent =>
    have hmine : (m.calls t).ids = c.ids ∧ (m.calls t).unsent = c.unsent := by
      simp only [Call.ids, Call.unsent, Call.dispatches, state]
      exact ⟨rfl, rfl⟩
    have hid : id ∈ c.ids := (List.filter_sublist.map _).subset held
    -- whoever is inside the block is this caller
    have halone {u : Nat} (hu : (m.calls u).holdsMutex = true) : u = t :=
      hI.exclusive.eq hu (by simp only [Call.holdsMutex, state])
    refine ⟨new ++ [(id, request)], ?_, ?_, ?_, .inr ?_⟩
    · rw [requests, hW.requests, List.append_assoc]
    · rw [List.map_append, List.map_singleton]
      refine hW.nodup.append (List.nodup_singleton _) ?_
      rintro x hx hxid
      obtain ⟨q, hq, rfl⟩ := List.mem_map.mp hx
      rw [List.mem_singleton] at hxid
      exact hW.sent q hq t (hmine.2 ▸ hxid ▸ held)
    · intro q hq u hu
      rcases List.mem_append.mp hq with hq | hq
      · exact hW.sent q hq u (unsent u hu)
      · obtain rfl := List.mem_singleton.mp hq
        have hin : id ∈ (m.calls u).ids := (List.filter_sublist.map _).subset (unsent u hu)
        obtain rfl := halone (holdsMutex_of_mem_ids hin)
        exact sent hu
    · rcases hW.batch with rfl | ⟨t₀, batch, hvisits, hmem, hnone, hids⟩
      · refine ⟨t, c.ids, (visits_last hpast ⟨c, state, rfl, hB t c state⟩).append [l], ?_,
          hclaims fun u => ?_, fun u x hx => ?_⟩
        · intro q hq
          obtain rfl := List.mem_singleton.mp hq
          exact hid
        · cases hu : (m.calls u).mayClaim with
          | false => rfl
          | true =>
            obtain rfl := halone (holdsMutex_of_mayClaim hu)
            simp only [Call.mayClaim, state, claimed] at hu
            cases hu
        · have hx : x ∈ (m.calls u).ids := ids u hx
          obtain rfl := halone (holdsMutex_of_mem_ids hx)
          rwa [hmine.1] at hx
      · refine ⟨t₀, batch, hvisits.append [l], fun q hq => ?_, hclaims hnone,
          fun u => List.Subset.trans (ids u) (hids u)⟩
        rcases List.mem_append.mp hq with hq | hq
        · exact hmem q hq
        · obtain rfl := List.mem_singleton.mp hq
          exact hids t (hmine.1 ▸ hid)

/-- Only `setPaused` changes the flag. -/
theorem paused_step (hpaused : e.paused = true) (hl : l.staysPaused = true)
    (h : e.step accepts l = some e') : e'.paused = true := by
  cases l with
  | enqueue items =>
    obtain ⟨table, -, -, rfl⟩ := Engine.step_enqueue h
    exact hpaused
  | remove call | configure options credentials | cancel t =>
    cases h
    exact hpaused
  | setPaused paused =>
    cases h
    exact hl
  | giveUp t =>
    simp only [step, Option.ite_none_right_eq_some] at h
    obtain ⟨-, h⟩ := h
    split at h <;> cases h
    all_goals exact hpaused
  | call t op | lock t | checkPaused t | readCredentials t | begin t now | reset t =>
    simp only [step] at h
    split at h <;> cases h
    exact hpaused
  | cycle t ev =>
    obtain ⟨c, w, c', -, -, rfl⟩ := step_cycle h
    exact hpaused
  | unlock t =>
    simp only [step] at h
    split at h
    · cases h
      exact hpaused
    · split at h <;> cases h
      exact hpaused
    · cases h

/-- From a pause on, until it is lifted: whatever is enqueued, configured, flushed or cancelled, no
item is sent twice, and all that is sent is from one batch that one cycle had in hand. -/
theorem paused_finishes_batch {ls : List Label} (hreach : Reachable accepts e)
    (hpaused : e.paused = true) (hls : ∀ l ∈ ls, l.staysPaused = true)
    (hrun : exec (step accepts) e ls = some e') :
    ∃ new, e'.world.requests = e.world.requests ++ new ∧ (new.map (·.1)).Nodup ∧
      (new = [] ∨ ∃ t batch, Visits (Engine.step accepts) (HasBatch t batch) e ls ∧
        ∀ q ∈ new, q.1 ∈ batch) := by
  have hend : Inv e' ∧ Batched e' ∧ e'.paused = true ∧ ∃ new, Winding accepts e ls e' new := by
    refine exec_past_invariant (P := fun past m => (∀ l ∈ past, l.staysPaused = true) →
      Inv m ∧ Batched m ∧ m.paused = true ∧ ∃ new, Winding accepts e past m new) ?_ ?_ hrun hls
    · rintro -
      refine ⟨hreach.inv, ?_, hpaused, [], (List.append_nil _).symm, List.nodup_nil, by simp,
        .inl rfl⟩
      obtain ⟨e₀, ls₀, h0, hrun₀⟩ := hreach
      have hsized : Inv e ∧ Batched e :=
        StepSystem.exec_invariant (I := fun m => Inv m ∧ Batched m)
          (fun hm h => ⟨hm.1.step h, hm.2.step hm.1 h⟩) ⟨h0.inv, h0.batched⟩ hrun₀
      exact hsized.2
    · intro past m l m' hpast hP h hlabels
      obtain ⟨hI, hB, hp, new, hW⟩ := hP fun l hl => hlabels l (List.mem_append_left _ hl)
      exact ⟨hI.step h, hB.step hI h,
        paused_step hp (hlabels l (List.mem_append_right _ (List.mem_singleton_self l))) h,
        hW.step hpast hI hB hp h⟩
  obtain ⟨-, -, -, new, hW⟩ := hend
  refine ⟨new, hW.requests, hW.nodup, hW.batch.imp_right ?_⟩
  rintro ⟨t, batch, hvisits, hmem, -⟩
  exact ⟨t, batch, hvisits, hmem⟩

section Sample

/-- A cycle has claimed two items when the pause lands. -/
def pauseRun : List Label :=
  claimRun [SyncQueueStorage.sampleItem "A", SyncQueueStorage.sampleItem "B"] ++ [.setPaused true]

def twoItemRun : List Label := dispatchRun 0 200 ++ dispatchRun 1 200

/-- Both of them go out. -/
theorem paused_finishes_batch_of_two :
    ∃ e e', exec (step fun _ => true) (coldStart .TRUSTED) pauseRun = some e ∧
      exec (step fun _ => true) e twoItemRun = some e' ∧
      e'.world.requests.map (·.1) = ["A", "B"] ∧
      ∃ new, e'.world.requests = e.world.requests ++ new ∧ (new.map (·.1)).Nodup ∧
        (new = [] ∨ ∃ t batch, Visits (Engine.step fun _ => true) (HasBatch t batch) e twoItemRun ∧
          ∀ q ∈ new, q.1 ∈ batch) := by
  have hls : ∀ l ∈ twoItemRun, l.staysPaused = true := by decide
  have hreach : Reachable (fun _ => true) _ :=
    ⟨coldStart .TRUSTED, pauseRun, coldStart_boot .TRUSTED, rfl⟩
  exact ⟨_, _, rfl, rfl, rfl, paused_finishes_batch hreach rfl hls rfl⟩

end Sample

end Engine

end SyncProvider.Android
