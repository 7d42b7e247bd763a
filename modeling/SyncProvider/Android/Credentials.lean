import SyncProvider.Android.Payload

/-!
# Android: no request without its credentials

After a start the stored secret with the default headers may not be readable. `flush` then starts
no cycle, and every configuration that is published later has its headers. The options of a cycle
are read after the policy of its credentials, so they may be newer, but they are complete.

Results:
1. `Engine.Ready.step` : which options are in force while a caller is past its check.
2. `sends_with_credentials` : the options behind the requests of a run.
-/

namespace SyncProvider.Android

open StepSystem (exec exec_past_invariant)

/-- The configuration a step publishes. -/
def Label.offers : Label → List (SyncOptions × CredentialPolicy)
  | .configure options credentials => [(options, credentials)]
  | _ => []

/-- A configuration that is published in a running process has its headers. -/
def Label.isLive : Label → Bool
  | .configure _ credentials => credentials != .UNAVAILABLE
  | _ => true

/-- The caller is past its check of the credentials. -/
def Call.hasCredentials (call : Call) : Bool :=
  match call.state with
  | .admitted _ | .cycle _ => true
  | _ => false

namespace Engine

variable {accepts : HttpRequest → Bool} {e e' e₀ : Engine} {l : Label} {past : List Label}

/-- What the process of `e` has started with, and what the steps of `ls` publish. -/
def offered (e : Engine) (ls : List Label) : List (SyncOptions × CredentialPolicy) :=
  (e.options, e.credentials) :: ls.flatMap Label.offers

theorem mem_offered_snoc {ls : List Label} {config : SyncOptions × CredentialPolicy}
    (h : config ∈ e.offered ls ∨ config ∈ l.offers) : config ∈ e.offered (ls ++ [l]) := by
  have hsplit : e.offered (ls ++ [l]) = e.offered ls ++ l.offers := by simp [offered]
  rw [hsplit]
  exact List.mem_append.mpr h

/-! ## 1. The configuration in force -/

/-- The configuration is known. While a caller is past its check it is complete, and so is the one
of its cycle. -/
structure Ready (e₀ : Engine) (past : List Label) (e : Engine) : Prop where
  offered : (e.options, e.credentials) ∈ e₀.offered past
  complete : ∀ t, (e.calls t).hasCredentials = true → e.credentials ≠ .UNAVAILABLE
  cycles : ∀ t c, (e.calls t).state = .cycle c →
    ∃ credentials, (c.options, credentials) ∈ e₀.offered past ∧ credentials ≠ .UNAVAILABLE

theorem Boot.ready (h : Boot e) : Ready e [] e where
  offered := List.mem_cons_self
  complete t ht := by
    rw [h.calls] at ht
    cases ht
  cycles t c hc := by
    rw [h.calls] at hc
    cases hc

/-- Only `configure` changes the configuration, and only `readCredentials` lets a caller past its
check. -/
theorem step_credentials (hl : l.isLive = true) (h : e.step accepts l = some e') :
    ((e'.options, e'.credentials) = (e.options, e.credentials) ∧
        ∀ t, (e'.calls t).hasCredentials = true →
          (e.calls t).hasCredentials = true ∨ e.credentials ≠ .UNAVAILABLE) ∨
      (e'.options, e'.credentials) ∈ l.offers ∧ e'.credentials ≠ .UNAVAILABLE := by
  have moved {u : Nat} {call : Call} (hoptions : e'.options = e.options)
      (hcredentials : e'.credentials = e.credentials)
      (hcalls : e'.calls = Function.update e.calls u call)
      (hcall : call.hasCredentials = true →
        (e.calls u).hasCredentials = true ∨ e.credentials ≠ .UNAVAILABLE) :
      (e'.options, e'.credentials) = (e.options, e.credentials) ∧
        ∀ t, (e'.calls t).hasCredentials = true →
          (e.calls t).hasCredentials = true ∨ e.credentials ≠ .UNAVAILABLE := by
    refine ⟨by rw [hoptions, hcredentials], fun t ht => ?_⟩
    rw [hcalls] at ht
    by_cases htu : t = u
    · subst htu
      rw [Function.update_self] at ht
      exact hcall ht
    · rw [Function.update_of_ne htu] at ht
      exact .inl ht
  cases l with
  | enqueue items =>
    obtain ⟨table, -, -, rfl⟩ := Engine.step_enqueue h
    exact .inl ⟨rfl, fun t ht => .inl ht⟩
  | remove call | setPaused paused =>
    cases h
    exact .inl ⟨rfl, fun t ht => .inl ht⟩
  | configure options credentials =>
    cases h
    exact .inr ⟨List.mem_singleton_self _, by simpa [Label.isLive] using hl⟩
  | cancel u =>
    cases h
    exact .inl (moved rfl rfl rfl fun hcall => .inl hcall)
  | giveUp u =>
    simp only [step, Option.ite_none_right_eq_some] at h
    obtain ⟨-, h⟩ := h
    split at h <;> cases h
    all_goals exact .inl (moved rfl rfl rfl (by rintro ⟨⟩))
  | call u op | lock u | reset u =>
    simp only [step] at h
    split at h <;> cases h
    exact .inl (moved rfl rfl rfl (by rintro ⟨⟩))
  | checkPaused u =>
    simp only [step] at h
    split at h <;> cases h
    refine .inl (moved rfl rfl rfl fun hcall => ?_)
    by_cases hpaused : e.paused = true
    · rw [if_pos hpaused] at hcall
      cases hcall
    · rw [if_neg hpaused] at hcall
      cases hcall
  | readCredentials u =>
    simp only [step] at h
    split at h <;> cases h
    refine .inl (moved rfl rfl rfl fun hcall => .inr fun hmissing => ?_)
    rw [if_pos hmissing] at hcall
    cases hcall
  | begin u now =>
    simp only [step] at h
    split at h <;> cases h
    rename_i hadmitted
    exact .inl (moved rfl rfl rfl fun _ => .inl (by simp only [Call.hasCredentials, hadmitted]))
  | cycle u ev =>
    obtain ⟨c, w, c', hc, -, rfl⟩ := step_cycle h
    exact .inl (moved rfl rfl rfl fun _ => .inl (by simp only [Call.hasCredentials, hc]))
  | unlock u =>
    simp only [step] at h
    split at h
    · cases h
      exact .inl (moved rfl rfl rfl (by rintro ⟨⟩))
    · split at h <;> cases h
      exact .inl (moved rfl rfl rfl (by rintro ⟨⟩))
    · cases h

theorem Ready.step (hR : Ready e₀ past e) (hl : l.isLive = true) (h : e.step accepts l = some e') :
    Ready e₀ (past ++ [l]) e' := by
  have hcycles : ∀ t c, (e'.calls t).state = .cycle c →
      ∃ credentials, (c.options, credentials) ∈ e₀.offered (past ++ [l]) ∧
        credentials ≠ .UNAVAILABLE := by
    intro t c hc
    rcases step_newCycle h hc with hc | ⟨now, -, hoptions, -, hadmitted⟩ | ⟨ev, d, -, hd, hstep⟩
    · obtain ⟨credentials, hoffered, hcomplete⟩ := hR.cycles t c hc
      exact ⟨credentials, mem_offered_snoc (.inl hoffered), hcomplete⟩
    · refine ⟨e.credentials, mem_offered_snoc (.inl (hoptions ▸ hR.offered)), hR.complete t ?_⟩
      simp only [Call.hasCredentials, hadmitted]
    · obtain ⟨credentials, hoffered, hcomplete⟩ := hR.cycles t d hd
      exact ⟨credentials, mem_offered_snoc (.inl ((Cycle.step_options hstep).1 ▸ hoffered)),
        hcomplete⟩
  rcases step_credentials hl h with ⟨hsame, hcalls⟩ | ⟨hoffered, hcomplete⟩
  · have hcredentials : e'.credentials = e.credentials := congrArg Prod.snd hsame
    refine ⟨mem_offered_snoc (.inl (hsame ▸ hR.offered)), fun t ht => ?_, hcycles⟩
    rw [hcredentials]
    exact (hcalls t ht).elim (hR.complete t) id
  · exact ⟨mem_offered_snoc (.inr hoffered), fun _ _ => hcomplete, hcycles⟩

/-! ## 2. What a run sends -/

/-- The request is the one of an item that was handed in, under complete options. -/
def Covered (accepts : HttpRequest → Bool) (e₀ : Engine) (past : List Label)
    (q : String × HttpRequest) : Prop :=
  ∃ x ∈ e₀.entered past, ∃ options credentials, (options, credentials) ∈ e₀.offered past ∧
    credentials ≠ .UNAVAILABLE ∧ q.1 = x.id ∧
    buildRequest accepts x options.defaultHeaders = some q.2

/-- In every run from the start of a process in which what is published has its headers, whatever
the interleaving: each request is the one of an item that was handed in, under options that were
published with their default headers. -/
theorem sends_with_credentials {ls : List Label} (h0 : Boot e₀)
    (hlive : ∀ l ∈ ls, l.isLive = true) (hrun : exec (Engine.step accepts) e₀ ls = some e) :
    ∀ q ∈ e.world.requests, Covered accepts e₀ ls q := by
  have hend : Faithful accepts e₀ ls e ∧ Ready e₀ ls e ∧
      ∀ q ∈ e.world.requests, Covered accepts e₀ ls q := by
    refine exec_past_invariant (P := fun past e => (∀ l ∈ past, l.isLive = true) →
      Faithful accepts e₀ past e ∧ Ready e₀ past e ∧
        ∀ q ∈ e.world.requests, Covered accepts e₀ past q) ?_ ?_ hrun hlive
    · rintro -
      refine ⟨h0.faithful, h0.ready, fun q hq => ?_⟩
      rw [h0.requests] at hq
      cases hq
    · intro past e l e' hpast hP h hlabels
      obtain ⟨hF, hR, hC⟩ := hP fun l hl => hlabels l (List.mem_append_left _ hl)
      have hl : l.isLive = true := hlabels l (List.mem_append_right _ (List.mem_singleton_self l))
      have hold {x : SyncItemEntity} (hx : x ∈ e₀.entered past) :
          x ∈ e₀.entered (past ++ [l]) := by
        rw [entered_snoc]
        exact List.mem_append_left _ hx
      have hearlier {q : String × HttpRequest} (hq : q ∈ e.world.requests) :
          Covered accepts e₀ (past ++ [l]) q := by
        obtain ⟨x, hx, options, credentials, hoffered, hcovered⟩ := hC q hq
        exact ⟨x, hold hx, options, credentials, mem_offered_snoc (.inl hoffered), hcovered⟩
      refine ⟨hF.step hpast h, hR.step hl h, fun q hq => ?_⟩
      rcases step_requests h with hsame | ⟨t, c, d, request, hc, hd, hbuild, hmore⟩
      · exact hearlier (hsame ▸ hq)
      · rw [hmore, List.mem_append, List.mem_singleton] at hq
        rcases hq with hq | rfl
        · exact hearlier hq
        · obtain ⟨credentials, hoffered, hcomplete⟩ := hR.cycles t c hc
          exact ⟨d.entity.asEnqueued, hold (hF.copies t c hc d hd), c.options, credentials,
            mem_offered_snoc (.inl hoffered), hcomplete, rfl, hbuild⟩
  exact hend.2.2

section Sample

/-- The stored secret is not readable at the start, until `configureSync` brings its own. -/
def unlockRun : List Label :=
  [.call 1 .flush, .lock 1, .checkPaused 1, .readCredentials 1, .unlock 1,
    .configure { sampleOptions with defaultHeaders := some [("Authorization", "t")] } .TRUSTED] ++
    claimRun [SyncQueueStorage.sampleItem "A"] ++ dispatchRun 0 200

/-- The request has the headers that were published. -/
theorem sends_with_credentials_once_configured :
    ∃ e q, exec (Engine.step fun _ => true) (coldStart .UNAVAILABLE) unlockRun = some e ∧
      e.world.requests = [q] ∧ q.2.headers = [("Authorization", "t")] ∧
      Covered (fun _ => true) (coldStart .UNAVAILABLE) unlockRun q := by
  have hlive : ∀ l ∈ unlockRun, l.isLive = true := by decide
  obtain ⟨e, q, he, hsent, hheaders⟩ : ∃ e q,
      exec (Engine.step fun _ => true) (coldStart .UNAVAILABLE) unlockRun = some e ∧
        e.world.requests = [q] ∧ q.2.headers = [("Authorization", "t")] := ⟨_, _, rfl, rfl, rfl⟩
  exact ⟨e, q, he, hsent, hheaders,
    sends_with_credentials (coldStart_boot .UNAVAILABLE) hlive he q
      (hsent ▸ List.mem_singleton_self q)⟩

end Sample

end Engine

end SyncProvider.Android
