import SyncProvider.Ios.Dispatcher

/-!
# iOS: what a removal guarantees

`removeItem` and `clearQueue` delete rows. A running cycle works through the
snapshots it fetched at its start. When the row of one has vanished,
`markInFlight` does nothing and the cycle sends the snapshot all the same. So a
removal decides nothing for an item of the batch that is still to come.

Results:
1. `removed_stays_unsent` : a removed row that no running cycle has ahead of it
   is never sent afterwards.
2. `removed_while_fetched_is_sent` : one that a running cycle has fetched is.
-/

namespace SyncProvider.Ios

open SyncQueueStorage (RemoveCall)

/-- The call takes this row: `remove` returned true for it, or `clear` returned
while it was there. -/
def SyncQueueStorage.RemoveCall.Takes (call : RemoveCall) (t : StoredItems) (id : String) : Prop :=
  match call with
  | .remove x => x = id ∧ (SyncItemDao.delete x t).2 = true
  | .clear => id ∈ t.keys

namespace Engine

/-- A row that is taken was in the store, and is not there afterwards. -/
theorem mem_keys_of_takes {call : RemoveCall} {t : StoredItems} {id : String}
    (h : call.Takes t id) : id ∈ t.keys ∧ id ∉ (SyncQueueStorage.run call t).keys := by
  cases call with
  | remove x =>
    obtain ⟨rfl, htrue⟩ := h
    exact ⟨SyncItemDao.delete_eq_true.mp htrue,
      fun hmem => (SyncItemDao.mem_delete.mp hmem).2 rfl⟩
  | clear => exact ⟨h, fun hmem => by cases hmem⟩

/-- A row that is taken while no cycle can still send it is gone. -/
theorem gone_of_takes {scheme : String → Option String} {e e' : Engine} {call : RemoveCall}
    {id : String} (hI : KeysIssued e) (htakes : call.Takes e.world.store id)
    (hunsent : ∀ t, ∀ x ∈ e.unsent t, x.id ≠ id)
    (hstep : e.step scheme (.remove call) = some e') : e'.outbox.Gone id := by
  obtain ⟨hmem, hout⟩ := mem_keys_of_takes htakes
  cases hstep
  exact ⟨hI id hmem, hout, fun ⟨t, x, hx, hid⟩ => hunsent t x hx hid⟩

/-! ## 1. When a removal holds -/

/-- In any run: when `removeItem` or `clearQueue` takes a row that no running
cycle has fetched and not yet sent, no request for it is started ever after. -/
theorem removed_stays_unsent {scheme : String → Option String} {e e' e'' : Engine}
    {call : RemoveCall} {id : String} {ls : List Label} (h : Reachable scheme e)
    (htakes : call.Takes e.world.store id) (hunsent : ∀ t, ∀ x ∈ e.unsent t, x.id ≠ id)
    (hstep : e.step scheme (.remove call) = some e')
    (hrun : StepSystem.exec (step scheme) e' ls = some e'') :
    e''.requested id = e.requested id := by
  have hcount : e'.requested id = e.requested id := by
    cases hstep
    rfl
  rw [← hcount]
  exact Reachable.requested_eq (h.step hstep) (gone_of_takes h.keysIssued htakes hunsent hstep)
    hrun

section Sample

/-- A row removed before any cycle fetches it stays unsent. -/
theorem removed_stays_unsent_before_fetch :
    ∃ e e' e'', StepSystem.exec (step https) firstLaunch
        [.enqueue [SyncQueueStorage.sampleItem "A"]] = some e ∧
      e.step https (.remove (.remove "A")) = some e' ∧
      StepSystem.exec (step https) e' (fetchRun []) = some e'' ∧
      e''.requested "A" = e.requested "A" := by
  obtain ⟨e, e', e'', he, htakes, hidle, he', he''⟩ :
      ∃ e e' e'', StepSystem.exec (step https) firstLaunch
          [.enqueue [SyncQueueStorage.sampleItem "A"]] = some e ∧
        (RemoveCall.remove "A").Takes e.world.store "A" ∧
        (∀ t, ∀ x ∈ e.unsent t, x.id ≠ "A") ∧
        e.step https (.remove (.remove "A")) = some e' ∧
        StepSystem.exec (step https) e' (fetchRun []) = some e'' :=
    ⟨_, _, _, rfl, ⟨rfl, by decide⟩, fun _ _ hx => absurd hx List.not_mem_nil, rfl, rfl⟩
  exact ⟨e, e', e'', he, he', he'',
    removed_stays_unsent ⟨_, _, firstLaunch_boot, he⟩ htakes hidle he' he''⟩

/-! ## 2. A removal that comes too late -/

/-- While the first item of the batch is on the wire, `removeItem` returns true
for the second one. No request for it was started. The first one comes back,
and the loop sends the second. -/
theorem removed_while_fetched_is_sent :
    ∃ e e' e'', StepSystem.exec (step https) firstLaunch
        (fetchRun [SyncQueueStorage.sampleItem "A", SyncQueueStorage.sampleItem "B"] ++ sendRun) =
          some e ∧
      (RemoveCall.remove "B").Takes e.world.store "B" ∧ e.requested "B" = 0 ∧
      e.step https (.remove (.remove "B")) = some e' ∧
      StepSystem.exec (step https) e' (answerRun 200 ++ sendRun) = some e'' ∧
      e''.requested "B" = 1 := by
  refine ⟨_, _, _, rfl, ⟨rfl, ?_⟩, rfl, rfl, rfl, ?_⟩
  · decide
  · decide

end Sample

end Engine

end SyncProvider.Ios
