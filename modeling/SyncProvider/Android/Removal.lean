import SyncProvider.Android.Dispatcher

/-!
# Android: what a removal guarantees

`removeItem` and `clear` delete rows. A running cycle works on the entities it
claimed, which are copies, and never looks at the table again before it sends
one. So a removal decides nothing for a row that a cycle has in hand unsent.

Results:
1. `removed_never_sent` : a removed row that no cycle has in hand unsent is
   never sent afterwards.
2. `removed_while_claimed_is_sent` : one that waits behind the probe is.
-/

namespace SyncProvider.Android

open SyncQueueStorage (RemoveCall)

/-- The call takes this row: `removeItem` returned true for it, or `clear`
returned while it was there. -/
def SyncQueueStorage.RemoveCall.Takes (call : RemoveCall) (t : SyncItems) (id : String) : Prop :=
  match call with
  | .removeItem x => x = id ∧ 0 < (SyncItemDao.deleteById x t).2
  | .clear => id ∈ t.keys

namespace Engine

/-- A row that is taken was in the table, and is not there afterwards. -/
theorem mem_keys_of_takes {call : RemoveCall} {t : SyncItems} {id : String}
    (h : call.Takes t id) : id ∈ t.keys ∧ id ∉ (SyncQueueStorage.remove call t).keys := by
  cases call with
  | removeItem x =>
    obtain ⟨rfl, hpos⟩ := h
    exact ⟨SyncItemDao.deleteById_pos.mp hpos,
      fun hmem => (SyncItemDao.mem_deleteById.mp hmem).2 rfl⟩
  | clear => exact ⟨h, fun hmem => by cases hmem⟩

/-- A row that is taken while no cycle has it in hand unsent is gone. -/
theorem gone_of_takes {accepts : HttpRequest → Bool} {e e' : Engine} {call : RemoveCall}
    {id : String} (hI : Inv e) (htakes : call.Takes e.world.table id)
    (hunsent : ∀ t, id ∉ (e.calls t).unsent) (hstep : e.step accepts (.remove call) = some e') :
    e'.outbox.Gone id := by
  obtain ⟨hmem, hout⟩ := mem_keys_of_takes htakes
  cases hstep
  exact ⟨hI.keys_issued id hmem, hout, fun ⟨t, ht⟩ => hunsent t ht⟩

/-! ## 1. When a removal holds -/

/-- In any run: when `removeItem` or `clear` takes a row that no running cycle
has claimed and not yet sent, no request for it is started ever after. -/
theorem removed_never_sent {accepts : HttpRequest → Bool} {e e' e'' : Engine} {call : RemoveCall}
    {id : String} {ls : List Label} (h : Reachable accepts e)
    (htakes : call.Takes e.world.table id) (hunsent : ∀ t, id ∉ (e.calls t).unsent)
    (hstep : e.step accepts (.remove call) = some e')
    (hrun : StepSystem.exec (step accepts) e' ls = some e'') :
    e''.requested id = e.requested id := by
  have hcount : e'.requested id = e.requested id := by
    cases hstep
    rfl
  rw [← hcount]
  exact Reachable.requested_eq (h.step hstep) (gone_of_takes h.inv htakes hunsent hstep) hrun

section Sample

/-- A row removed before any cycle claims it stays unsent. -/
theorem removed_never_sent_before_claim :
    ∃ e e' e'', StepSystem.exec (step fun _ => true) (coldStart .TRUSTED)
        [.enqueue [SyncQueueStorage.sampleItem "A"]] = some e ∧
      e.step (fun _ => true) (.remove .clear) = some e' ∧
      StepSystem.exec (step fun _ => true) e' (claimRun []) = some e'' ∧
      e''.requested "A" = e.requested "A" := by
  obtain ⟨e, e', e'', he, htakes, hidle, he', he''⟩ :
      ∃ e e' e'', StepSystem.exec (step fun _ => true) (coldStart .TRUSTED)
          [.enqueue [SyncQueueStorage.sampleItem "A"]] = some e ∧
        RemoveCall.clear.Takes e.world.table "A" ∧ (∀ t, "A" ∉ (e.calls t).unsent) ∧
        e.step (fun _ => true) (.remove .clear) = some e' ∧
        StepSystem.exec (step fun _ => true) e' (claimRun []) = some e'' :=
    ⟨_, _, _, rfl, List.mem_singleton_self _, fun _ => List.not_mem_nil, rfl, rfl⟩
  exact ⟨e, e', e'', he, he', he'',
    removed_never_sent ⟨_, _, coldStart_boot .TRUSTED, he⟩ htakes hidle he' he''⟩

/-! ## 2. A removal that comes too late -/

/-- Two rows claimed under restored credentials, the first one on the wire. -/
def probeRun : List Label :=
  claimRun [SyncQueueStorage.sampleItem "A", SyncQueueStorage.sampleItem "B"] ++
    [.cycle 0 (.dispatch 0 (.start 2001)), .cycle 0 (.dispatch 0 .send)]

/-- The probe succeeds, so the second row is dispatched. -/
def afterProbeRun : List Label :=
  [.cycle 0 (.dispatch 0 (.respond (.response 200))), .cycle 0 (.dispatch 0 (.settle 2100 0)),
    .cycle 0 (.dispatch 0 .emit), .cycle 0 .probed, .cycle 0 (.dispatch 1 (.start 2101)),
    .cycle 0 (.dispatch 1 .send)]

/-- While the probe is out, `removeItem` returns true for the second row. No
request for it was started. The probe comes back, and the row is sent. -/
theorem removed_while_claimed_is_sent :
    ∃ e e' e'', StepSystem.exec (step fun _ => true) (coldStart .PERSISTED) probeRun = some e ∧
      (RemoveCall.removeItem "B").Takes e.world.table "B" ∧ e.requested "B" = 0 ∧
      e.step (fun _ => true) (.remove (.removeItem "B")) = some e' ∧
      StepSystem.exec (step fun _ => true) e' afterProbeRun = some e'' ∧
      e''.requested "B" = 1 :=
  ⟨_, _, _, rfl, ⟨rfl, by decide⟩, rfl, rfl, rfl, rfl⟩

end Sample

end Engine

end SyncProvider.Android
