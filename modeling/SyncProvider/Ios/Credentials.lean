import SyncProvider.Ios.Payload

/-!
# iOS: no request without its credentials

After a launch the declared default headers may not be readable yet. `flush` then starts no
cycle until it has read them back, and a configuration that arrives meanwhile comes with its
headers. So every request is built from headers that were handed in or read back, and never from
a configuration whose headers are missing.

Results:
1. `Engine.flush_config` : the configuration a call of `flush` goes on with.
2. `uploads_with_credentials` : the configurations behind the requests of a run.
-/

namespace SyncProvider.Ios

open StepSystem (exec exec_past_invariant recorded recorded_eq_some)

/-- The configuration a step hands in. -/
def Label.offers : Label → List DispatcherConfig
  | .updateConfig config | .kill config _ => [config]
  | _ => []

/-- The headers a step reads back. -/
def Label.reads : Label → List StringMap
  | .flush _ recovered _ => recovered.toList
  | _ => []

/-- `updateConfig` comes from `configureSync`, which has its headers. -/
def Label.isLive : Label → Bool
  | .updateConfig config => !config.credentialsUnavailable
  | _ => true

namespace Engine

/-- What the engine of `e` was launched with, and what the steps of `ls` hand in. -/
def offered (e : Engine) (ls : List Label) : List DispatcherConfig :=
  e.config :: ls.flatMap Label.offers

/-- The configuration was handed in with its headers, or without, and the headers were read back. -/
inductive Credited (e : Engine) (ls : List Label) (config : DispatcherConfig) : Prop where
  | handedIn (offered : config ∈ e.offered ls) (available : config.credentialsUnavailable = false)
  | readBack (base : DispatcherConfig) (headers : StringMap) (offered : base ∈ e.offered ls)
      (unavailable : base.credentialsUnavailable = true) (read : headers ∈ ls.flatMap Label.reads)
      (restored : config = { base with defaultHeaders := headers, credentialsUnavailable := false })

theorem Credited.available {e : Engine} {ls : List Label} {config : DispatcherConfig}
    (h : Credited e ls config) : config.credentialsUnavailable = false := by
  cases h with
  | handedIn offered available => exact available
  | readBack base headers offered unavailable read restored => rw [restored]

theorem mem_offered_snoc {e : Engine} {ls : List Label} {l : Label} {config : DispatcherConfig}
    (h : config ∈ e.offered ls ∨ config ∈ l.offers) : config ∈ e.offered (ls ++ [l]) := by
  have hsplit : e.offered (ls ++ [l]) = e.offered ls ++ l.offers := by simp [offered]
  rw [hsplit]
  exact List.mem_append.mpr h

theorem Credited.snoc {e : Engine} {ls : List Label} {config : DispatcherConfig}
    (h : Credited e ls config) (l : Label) : Credited e (ls ++ [l]) config := by
  cases h with
  | handedIn offered available => exact .handedIn (mem_offered_snoc (.inl offered)) available
  | readBack base headers offered unavailable read restored =>
    refine .readBack base headers (mem_offered_snoc (.inl offered)) unavailable ?_ restored
    rw [List.flatMap_append]
    exact List.mem_append_left _ read

variable {scheme : String → Option String} {e e' e₀ : Engine} {l : Label} {past : List Label}

/-! ## 1. The configuration of the actor -/

/-- The configuration is the one the engine had, or the one with the headers read back. -/
theorem flush_config (e : Engine) (t : Nat) (recovered : Option StringMap) (nowMs : Int) :
    ((e.flush t recovered nowMs).config = e.config ∧
        ((e.flush t recovered nowMs).flushes = e.flushes ∨
          e.config.credentialsUnavailable = false)) ∨
      ∃ headers, recovered = some headers ∧ e.config.credentialsUnavailable = true ∧
        (e.flush t recovered nowMs).config =
          { e.config with defaultHeaders := headers, credentialsUnavailable := false } := by
  unfold flush
  split
  · exact .inl ⟨rfl, .inl rfl⟩
  · unfold restoreCredentialsIfNeeded
    cases havailable : e.config.credentialsUnavailable with
    | false =>
      simp only [Bool.false_eq_true, if_false]
      split
      · exact .inl ⟨rfl, .inl rfl⟩
      · exact .inl ⟨rfl, .inr trivial⟩
    | true =>
      cases recovered with
      | none => exact .inl ⟨rfl, .inl rfl⟩
      | some headers =>
        refine .inr ⟨headers, rfl, rfl, ?_⟩
        simp only [if_true, Option.map_some]
        split <;> rfl

/-- The configuration is known, and it is complete while there are cycles. -/
structure Ready (e₀ : Engine) (past : List Label) (e : Engine) : Prop where
  config : Credited e₀ past e.config ∨
    e.config ∈ e₀.offered past ∧ e.config.credentialsUnavailable = true
  cycles : ∀ t c, e.flushes t = some c → e.config.credentialsUnavailable = false

theorem Ready.credited (hR : Ready e₀ past e) {t : Nat} {c : Cycle} (hc : e.flushes t = some c) :
    Credited e₀ past e.config := by
  rcases hR.config with hcredited | ⟨-, hmissing⟩
  · exact hcredited
  · rw [hR.cycles t c hc] at hmissing
    cases hmissing

theorem Boot.ready (h : Boot e) : Ready e [] e := by
  refine ⟨?_, fun t c hc => ?_⟩
  · by_cases hmissing : e.config.credentialsUnavailable = true
    · exact .inr ⟨List.mem_cons_self, hmissing⟩
    · exact .inl (.handedIn List.mem_cons_self (by simpa using hmissing))
  · rw [h.flushes] at hc
    cases hc

theorem Ready.step (hR : Ready e₀ past e) (hl : l.isLive = true) (h : e.step scheme l = some e') :
    Ready e₀ (past ++ [l]) e' := by
  have hkept (hconfig : e'.config = e.config) :
      Credited e₀ (past ++ [l]) e'.config ∨
        e'.config ∈ e₀.offered (past ++ [l]) ∧ e'.config.credentialsUnavailable = true := by
    rw [hconfig]
    refine hR.config.imp (fun hcredited => hcredited.snoc l) ?_
    rintro ⟨hoffered, hmissing⟩
    exact ⟨mem_offered_snoc (.inl hoffered), hmissing⟩
  have hbeside (hconfig : e'.config = e.config) (hflushes : e'.flushes = e.flushes) :
      Ready e₀ (past ++ [l]) e' := by
    refine ⟨hkept hconfig, fun t c hc => ?_⟩
    rw [hconfig]
    exact hR.cycles t c (hflushes ▸ hc)
  cases l with
  | enqueue items =>
    obtain ⟨store, -, -, rfl⟩ := Engine.step_enqueue h
    exact hbeside rfl rfl
  | remove call | setPaused paused =>
    cases h
    exact hbeside rfl rfl
  | updateConfig config =>
    cases h
    have havailable : config.credentialsUnavailable = false := by simpa [Label.isLive] using hl
    exact ⟨.inl (.handedIn (mem_offered_snoc (.inr (List.mem_singleton_self config))) havailable),
      fun _ _ _ => havailable⟩
  | flush t recovered nowMs =>
    obtain ⟨-, h⟩ := Option.ite_none_right_eq_some.mp h
    cases h
    rcases e.flush_config t recovered nowMs with
      ⟨hconfig, hcycles⟩ | ⟨headers, rfl, hmissing, hconfig⟩
    · rcases hcycles with hflushes | havailable
      · exact hbeside hconfig hflushes
      · exact ⟨hkept hconfig, fun _ _ _ => hconfig ▸ havailable⟩
    · have hread : headers ∈
          (past ++ [Label.flush t (some headers) nowMs]).flatMap Label.reads := by
        rw [List.flatMap_append]
        exact List.mem_append_right _ (by simp [Label.reads])
      rcases hR.config with hcredited | ⟨hoffered, -⟩
      · rw [hcredited.available] at hmissing
        cases hmissing
      · refine ⟨.inl ?_, fun _ _ _ => by rw [hconfig]⟩
        exact .readBack e.config headers (mem_offered_snoc (.inl hoffered)) hmissing hread hconfig
  | cycle t ev =>
    obtain ⟨c, c', hcycle⟩ := step_cycle h
    refine ⟨hkept hcycle.config, fun u d hd => ?_⟩
    rw [hcycle.config]
    exact hR.cycles t c hcycle.before
  | recover =>
    obtain ⟨-, h⟩ := Option.ite_none_right_eq_some.mp h
    cases h
    exact hbeside rfl rfl
  | kill config paused =>
    cases h
    have hoffered : config ∈ e₀.offered (past ++ [.kill config paused]) :=
      mem_offered_snoc (.inr (List.mem_singleton_self config))
    refine ⟨?_, by rintro _ _ ⟨⟩⟩
    by_cases hmissing : config.credentialsUnavailable = true
    · exact .inr ⟨hoffered, hmissing⟩
    · exact .inl (.handedIn hoffered (by simpa using hmissing))

/-! ## 2. What a run sends -/

/-- The requests, prepared and sent, are built from complete configurations. -/
structure Covered (e₀ : Engine) (past : List Label) (p : Engine × List Upload) : Prop where
  prepared : ∀ t c item before rest sentWith request, p.1.flushes t = some c →
    c.phase = .prepared item before rest sentWith request →
    ∃ config, Credited e₀ past config ∧ request = buildRequest config item
  sent : ∀ u ∈ p.2, ∃ x ∈ e₀.entered past, ∃ config, Credited e₀ past config ∧
    u = ⟨x.id, buildRequest config x, bodyData x⟩

theorem Covered.step {p p' : Engine × List Upload} (hF : Faithful scheme e₀ past p)
    (hR : Ready e₀ past p.1) (hC : Covered e₀ past p)
    (h : recorded (Engine.step scheme) uploads p l = some p') :
    Covered e₀ (past ++ [l]) p' := by
  obtain ⟨e, sent⟩ := p
  obtain ⟨e', sent'⟩ := p'
  obtain ⟨hstep, rfl⟩ := recorded_eq_some.mp h
  have hold {x : StoredSyncItem} (hx : x ∈ e₀.entered past) : x ∈ e₀.entered (past ++ [l]) := by
    rw [entered_snoc]
    exact List.mem_append_left _ hx
  refine ⟨?_, fun u hu => ?_⟩
  · intro t c item before rest sentWith request hc hphase
    rcases step_prepared hstep hc hphase with hc | ⟨⟨c₀, hc₀⟩, hbuilt⟩
    · obtain ⟨config, hcredited, hbuilt⟩ :=
        hC.prepared t c item before rest sentWith request hc hphase
      exact ⟨config, hcredited.snoc l, hbuilt⟩
    · exact ⟨e.config, (hR.credited hc₀).snoc l, hbuilt⟩
  · rcases List.mem_append.mp hu with hu | hu
    · obtain ⟨x, hx, config, hcredited, heq⟩ := hC.sent u hu
      exact ⟨x, hold hx, config, hcredited.snoc l, heq⟩
    · obtain ⟨t, c, item, before, rest, sentWith, request, hc, hphase, rfl⟩ := mem_uploads hu
      obtain ⟨config, hcredited, rfl⟩ :=
        hC.prepared t c item before rest sentWith request hc hphase
      have hitem : item ∈ c.phase.hand.items := by
        rw [hphase]
        exact List.mem_cons_self
      exact ⟨item.asEnqueued, hold (hF.items t c hc item hitem), config, hcredited.snoc l, rfl⟩

/-- In every run from a launch in which the configurations that `configureSync` hands in have their
headers, whatever the interleaving and however often the process dies: each request is the one of
an item that was handed in, under a configuration that came with its default headers, or under one
that came without them and with the headers a call of `flush` has read back. -/
theorem uploads_with_credentials {ls : List Label} {sent : List Upload} (h0 : Boot e₀)
    (hlive : ∀ l ∈ ls, l.isLive = true)
    (hrun : exec (recorded (Engine.step scheme) uploads) (e₀, []) ls = some (e, sent)) :
    ∀ u ∈ sent, ∃ x ∈ e₀.entered ls, ∃ config, Credited e₀ ls config ∧
      u = ⟨x.id, buildRequest config x, bodyData x⟩ := by
  have hend : Faithful scheme e₀ ls (e, sent) ∧ Ready e₀ ls e ∧ Covered e₀ ls (e, sent) := by
    refine exec_past_invariant (P := fun past p => (∀ l ∈ past, l.isLive = true) →
      Faithful scheme e₀ past p ∧ Ready e₀ past p.1 ∧ Covered e₀ past p) ?_ ?_ hrun hlive
    · rintro -
      refine ⟨h0.faithful, h0.ready, ?_, fun u hu => absurd hu List.not_mem_nil⟩
      intro t c item before rest sentWith request hc
      rw [h0.flushes] at hc
      cases hc
    · intro past p l p' hpast hP h hlabels
      obtain ⟨hF, hR, hC⟩ := hP fun l hl => hlabels l (List.mem_append_left _ hl)
      have hl : l.isLive = true := hlabels l (List.mem_append_right _ (List.mem_singleton_self l))
      exact ⟨hF.step (StepSystem.exec_of_recorded hpast) h, hR.step hl (recorded_eq_some.mp h).1,
        hC.step hF hR h⟩
  exact hend.2.2.sent

section Sample

/-- An install whose stored headers are not readable at the launch. -/
def lockedLaunch : Engine :=
  { firstLaunch with
    config := { sampleConfig with source := .persisted, hasDefaultHeaders := true,
                                  credentialsUnavailable := true } }

theorem lockedLaunch_boot : Boot lockedLaunch := ⟨rfl, rfl, rfl, rfl, fun _ => rfl⟩

/-- The first flush cannot read the headers and the second one can. -/
def unlockRun : List Label :=
  [.enqueue [SyncQueueStorage.sampleItem "A"], .flush 0 none 2000,
    .flush 1 (some [("Authorization", "t")]) 2001, .cycle 1 (.fetch 2001), .cycle 1 .next,
    .cycle 1 (.markInFlight 2001), .cycle 1 .prepare, .cycle 1 .send]

/-- The request has the headers that were read back. -/
theorem uploads_with_credentials_once_unlocked :
    ∃ e u, exec (recorded (Engine.step https) uploads) (lockedLaunch, []) unlockRun =
        some (e, [u]) ∧ u.request.headers = [("Authorization", "t")] ∧
      ∃ x ∈ lockedLaunch.entered unlockRun, ∃ config, Credited lockedLaunch unlockRun config ∧
        u = ⟨x.id, buildRequest config x, bodyData x⟩ := by
  have hlive : ∀ l ∈ unlockRun, l.isLive = true := by decide
  have hrun : exec (recorded (Engine.step https) uploads) (lockedLaunch, []) unlockRun =
      some (_, [_]) := rfl
  exact ⟨_, _, hrun, rfl,
    uploads_with_credentials lockedLaunch_boot hlive hrun _ (List.mem_singleton_self _)⟩

end Sample

end Engine

end SyncProvider.Ios
