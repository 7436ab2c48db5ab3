import MpvmApp.Lib.Runs
import MpvmApp.Services.ScanWorkers

/-!
# One removal for each item

The request of a removal and the storing of its operation are two steps.  A restart between them
forgets the request, and the item is handed over as if nothing had been requested.  An item that
has been rebound to another asset can also be handed over twice after a restart, when its asset is
resolved again.  Without either, no item has its asset removed twice.

Main definitions:

- `Recorded`: the condition on a step.

Main results:

- Theorem `removals_once`: runs whose steps meet the condition remove each asset once.
-/

namespace MpvmApp
namespace Services
namespace Scan

open Remediation AssetCard

/-! ## Lists of workers -/

theorem mem_set_cases {α : Type*} {l : List α} {index : Nat} {a b : α} (h : b ∈ l.set index a) :
    b = a ∨ ∃ other, other ≠ index ∧ l[other]? = some b := by
  obtain ⟨other, hother⟩ := List.mem_iff_getElem?.1 h
  rw [List.getElem?_set] at hother
  split_ifs at hother with hindex
  · exact .inl (Option.some.inj hother).symm
  · exact .inr ⟨other, Ne.symm hindex, hother⟩

/-! ## What is stored about a removal -/

/-- The operation of a removal of the item is stored. -/
def Stored (items : Items) (itemId : Nat) : Prop :=
  ∃ row, items.find? itemId = some row ∧ row.removalOperationId.isSome = true

/-- The item is stored as one whose removal has failed. -/
def StoredFailed (items : Items) (itemId : Nat) : Prop :=
  ∃ row, items.find? itemId = some row ∧ row.status = .removalFailed

theorem stored_update_iff {items : Items} {itemId : Nat} {values : ItemValues} {current : Instant}
    (hvalues : values.removalOperationId = none) (id : Nat) :
    Stored (updateScanPostprocessItem items itemId values current) id ↔ Stored items id := by
  unfold Stored
  rw [find?_updateScanPostprocessItem]
  split_ifs
  · simp [ItemValues.apply, hvalues]
  · rfl

theorem stored_update_ne {items : Items} {itemId id : Nat} {values : ItemValues}
    {current : Instant} (hid : id ≠ itemId) :
    (Stored (updateScanPostprocessItem items itemId values current) id ↔ Stored items id) ∧
      (StoredFailed (updateScanPostprocessItem items itemId values current) id ↔
        StoredFailed items id) := by
  unfold Stored StoredFailed
  rw [find?_updateScanPostprocessItem, if_neg hid]
  exact ⟨Iff.rfl, Iff.rfl⟩

/-- The rows of the items after a step: the same items of the same runs. -/
def KeepsRows (items items' : Items) : Prop :=
  ∀ id row, items.find? id = some row →
    ∃ row', items'.find? id = some row' ∧ row'.runId = row.runId

theorem keepsRows_update (items : Items) (itemId : Nat) (values : ItemValues)
    (current : Instant) :
    KeepsRows items (updateScanPostprocessItem items itemId values current) := by
  intro id row hrow
  rw [find?_updateScanPostprocessItem, hrow]
  split_ifs
  · exact ⟨_, rfl, rfl⟩
  · exact ⟨row, rfl, rfl⟩

/-! ## The invariant -/

/-- Each item has its removal requested at most once. -/
def RemovedOnce (s : System) : Prop :=
  (s.removals.map Removal.itemId).Nodup

/-- What the steps that meet the condition keep. -/
structure OnceInv (s : System) : Prop where
  once : RemovedOnce s
  /-- Workers have stored items. -/
  rows : ∀ w ∈ s.workers, ∃ row, s.items.find? w.itemId = some row ∧ row.runId = w.runId
  consistent : ∀ w ∈ s.workers, w.Consistent
  /-- Only coordinated runs have active workers. -/
  coordinated : ∀ w ∈ s.workers, w.isActive → (s.coordinators.get? w.runId).isSome = true
  /-- A worker that may request a removal would be the first. -/
  fresh : ∀ w ∈ s.workers, w.mayRequest →
    (∀ removal ∈ s.removals, removal.itemId ≠ w.itemId) ∧ ¬ Stored s.items w.itemId
  /-- Two active workers share an item only to wait for its stored operation. -/
  alone : ∀ (i j : Nat) (w v : Worker), s.workers[i]? = some w → s.workers[j]? = some v → i ≠ j →
    w.itemId = v.itemId → w.isActive → v.isActive → Stored s.items w.itemId
  /-- The outcome of a requested removal is stored, or a worker has it in memory. -/
  recorded : ∀ removal ∈ s.removals, Stored s.items removal.itemId ∨
    (∃ w ∈ s.workers, w.itemId = removal.itemId ∧ w.unrecorded = true) ∨
    StoredFailed s.items removal.itemId ∧
      ∀ w ∈ s.workers, w.itemId = removal.itemId → ¬ w.isActive

theorem onceInv_initial :
    OnceInv initial where
  once := by simp [RemovedOnce, initial]
  rows := by simp [initial]
  consistent := by simp [initial]
  coordinated := by simp [initial]
  fresh := by simp [initial]
  alone := by simp [initial]
  recorded := by simp [initial]

theorem Worker.mayRequest.isActive {w : Worker} (h : w.mayRequest) :
    w.isActive := by
  left
  rintro hended
  simp [Worker.mayRequest, hended] at h

theorem Worker.isActive_of_phase {w : Worker} (h : w.phase ≠ .ended) :
    w.isActive :=
  .inl h

/-- What a system is after the worker at a place has moved. -/
structure Moved (s : System) (index : Nat) (w : Worker) (t : System) (w' : Worker) : Prop where
  found : s.workers[index]? = some w
  workers : t.workers = s.workers.set index w'
  coordinators : t.coordinators = s.coordinators
  itemId : w'.itemId = w.itemId
  runId : w'.runId = w.runId

namespace Moved

variable {s t : System} {index : Nat} {w w' : Worker}

theorem mem_cases (h : Moved s index w t w') {v : Worker} (hv : v ∈ t.workers) :
    v = w' ∨ ∃ other, other ≠ index ∧ s.workers[other]? = some v :=
  mem_set_cases (h.workers ▸ hv)

theorem mem_self (h : Moved s index w t w') :
    w' ∈ t.workers := by
  rw [h.workers]
  exact List.mem_set (List.getElem?_eq_some_iff.1 h.found).1 w'

theorem mem_other (h : Moved s index w t w') {v : Worker} {other : Nat}
    (hv : s.workers[other]? = some v) (hother : other ≠ index) :
    v ∈ t.workers := by
  rw [h.workers]
  exact List.mem_of_getElem? ((List.getElem?_set_ne (Ne.symm hother)).trans hv)

theorem getElem?_eq (h : Moved s index w t w') (other : Nat) :
    t.workers[other]? = if index = other then some w' else s.workers[other]? := by
  rw [h.workers, List.getElem?_set]
  split_ifs with hindex hlength
  · rfl
  · exact absurd (List.getElem?_eq_some_iff.1 h.found).1 hlength
  · rfl

theorem rows (h : Moved s index w t w') (hinv : OnceInv s) (hkeep : KeepsRows s.items t.items) :
    ∀ v ∈ t.workers, ∃ row, t.items.find? v.itemId = some row ∧ row.runId = v.runId := by
  have hold : ∀ v ∈ s.workers, ∃ row, t.items.find? v.itemId = some row ∧ row.runId = v.runId := by
    intro v hv
    obtain ⟨row, hrow, hrun⟩ := hinv.rows v hv
    obtain ⟨row', hrow', hrun'⟩ := hkeep _ _ hrow
    exact ⟨row', hrow', hrun'.trans hrun⟩
  intro v hv
  rcases h.mem_cases hv with rfl | ⟨other, -, hother⟩
  · rw [h.itemId, h.runId]
    exact hold w (List.mem_of_getElem? h.found)
  · exact hold v (List.mem_of_getElem? hother)

theorem coordinated (h : Moved s index w t w') (hinv : OnceInv s)
    (hactive : w'.isActive → w.isActive) :
    ∀ v ∈ t.workers, v.isActive → (t.coordinators.get? v.runId).isSome = true := by
  intro v hv hv'
  rw [h.coordinators]
  rcases h.mem_cases hv with rfl | ⟨other, -, hother⟩
  · rw [h.runId]
    exact hinv.coordinated w (List.mem_of_getElem? h.found) (hactive hv')
  · exact hinv.coordinated v (List.mem_of_getElem? hother) hv'

theorem consistent (h : Moved s index w t w') (hinv : OnceInv s) (hw' : w'.Consistent) :
    ∀ v ∈ t.workers, v.Consistent := by
  intro v hv
  rcases h.mem_cases hv with rfl | ⟨other, -, hother⟩
  · exact hw'
  · exact hinv.consistent v (List.mem_of_getElem? hother)

theorem alone (h : Moved s index w t w') (hinv : OnceInv s) (hactive : w'.isActive → w.isActive)
    (hstored : ∀ id, Stored s.items id → Stored t.items id) :
    ∀ (i j : Nat) (u v : Worker), t.workers[i]? = some u → t.workers[j]? = some v → i ≠ j →
      u.itemId = v.itemId → u.isActive → v.isActive → Stored t.items u.itemId := by
  -- The worker at a place before the move had the same item, and was active if it is now.
  have hbefore : ∀ (i : Nat) (u : Worker), t.workers[i]? = some u →
      ∃ u₀, s.workers[i]? = some u₀ ∧ u₀.itemId = u.itemId ∧ (u.isActive → u₀.isActive) := by
    intro i u hu
    rw [h.getElem?_eq] at hu
    split_ifs at hu with hindex
    · cases hu
      exact ⟨w, hindex ▸ h.found, h.itemId.symm, hactive⟩
    · exact ⟨u, hu, rfl, id⟩
  intro i j u v hu hv hij hitem hu' hv'
  obtain ⟨u₀, hu₀, hitemu, hactiveu⟩ := hbefore i u hu
  obtain ⟨v₀, hv₀, hitemv, hactivev⟩ := hbefore j v hv
  have hsame : u₀.itemId = v₀.itemId := hitemu.trans (hitem.trans hitemv.symm)
  rw [← hitemu]
  exact hstored _ (hinv.alone i j u₀ v₀ hu₀ hv₀ hij hsame (hactiveu hu') (hactivev hv'))

end Moved

/-! ## The moves of a worker -/

variable {s t : System} {index : Nat} {w w' : Worker}

theorem exists_unrecorded_of_ne (h : Moved s index w t w') {itemId : Nat}
    (hunrecorded : w.itemId = itemId → w.unrecorded = true → w'.unrecorded = true)
    (hv : ∃ v ∈ s.workers, v.itemId = itemId ∧ v.unrecorded = true) :
    ∃ v ∈ t.workers, v.itemId = itemId ∧ v.unrecorded = true := by
  obtain ⟨v, hv, hitem, hv'⟩ := hv
  obtain ⟨other, hother⟩ := List.mem_iff_getElem?.1 hv
  by_cases hindex : other = index
  · subst hindex
    obtain rfl : v = w := Option.some.inj (hother.symm.trans h.found)
    exact ⟨w', h.mem_self, h.itemId.trans hitem, hunrecorded hitem hv'⟩
  · exact ⟨v, h.mem_other hother hindex, hitem, hv'⟩

theorem stored_of_other (h : Moved s index w t w') (hinv : OnceInv s) (hw : w.isActive)
    {v : Worker} {other : Nat} (hv : s.workers[other]? = some v) (hother : other ≠ index)
    (hitem : v.itemId = w.itemId) (hactive : v.isActive) :
    Stored s.items w.itemId :=
  hinv.alone index other w v h.found hv (Ne.symm hother) hitem.symm hw hactive

theorem onceInv_quiet (hinv : OnceInv s) (h : Moved s index w t w') {s' : System}
    (hquiet : QuietMove s w s' w') (hitems : t.items = s'.items)
    (hremovals : t.removals = s'.removals) :
    OnceInv t := by
  have hremovals' : t.removals = s.removals := hremovals.trans hquiet.removals
  have hstored : ∀ id, Stored t.items id ↔ Stored s.items id := by
    intro id
    rw [hitems]
    rcases hquiet.items with hsame | ⟨-, values, current, hvalues, hupdate⟩
    · rw [hsame]
    · rw [hupdate]
      exact stored_update_iff hvalues id
  have hkeep : KeepsRows s.items t.items := by
    rw [hitems]
    rcases hquiet.items with hsame | ⟨-, values, current, -, hupdate⟩
    · rw [hsame]
      exact fun id row hrow => ⟨row, hrow, rfl⟩
    · rw [hupdate]
      exact keepsRows_update s.items w.itemId values current
  refine ⟨?_, h.rows hinv hkeep, ?_, h.coordinated hinv hquiet.active, ?_,
    h.alone hinv hquiet.active fun id => (hstored id).2, ?_⟩
  · rw [RemovedOnce, hremovals']
    exact hinv.once
  · exact h.consistent hinv (hquiet.consistent (hinv.consistent w (List.mem_of_getElem? h.found)))
  · intro v hv hmay
    rw [hremovals', hstored]
    rcases h.mem_cases hv with rfl | ⟨other, -, hother⟩
    · rw [h.itemId]
      exact hinv.fresh w (List.mem_of_getElem? h.found) (hquiet.mayRequest hmay)
    · exact hinv.fresh v (List.mem_of_getElem? hother) hmay
  · intro removal hremoval
    rw [hremovals'] at hremoval
    rcases hinv.recorded removal hremoval with hop | hmemory | ⟨hfailed, hinactive⟩
    · exact .inl ((hstored _).2 hop)
    · exact .inr (.inl (exists_unrecorded_of_ne h (fun _ hw => hquiet.unrecorded.trans hw) hmemory))
    · refine .inr (.inr ⟨?_, fun v hv hitem hactive => ?_⟩)
      · rw [hitems]
        rcases hquiet.items with hsame | ⟨hended, values, current, -, hupdate⟩
        · rw [hsame]
          exact hfailed
        · rw [hupdate]
          -- The item of the update has an active worker, that of the removal has none.
          have hne : removal.itemId ≠ w.itemId := fun hid =>
            hinactive w (List.mem_of_getElem? h.found) hid.symm (.inl hended)
          exact (stored_update_ne hne).2.2 hfailed
      · rcases h.mem_cases hv with rfl | ⟨other, -, hother⟩
        · exact hinactive w (List.mem_of_getElem? h.found) (h.itemId ▸ hitem)
            (hquiet.active hactive)
        · exact hinactive v (List.mem_of_getElem? hother) hitem hactive

/-- The worker requests the removal: it is the first of its item. -/
theorem onceInv_request (hinv : OnceInv s) (h : Moved s index w t w') {removal : Removal}
    (hremoval : w.removal = some removal) (hunrecorded : w'.unrecorded = true)
    (hmay : ¬ w'.mayRequest) (hconsistent : w'.Consistent) (hitems : t.items = s.items)
    (hremovals : t.removals = removal :: s.removals) :
    OnceInv t := by
  have hw := List.mem_of_getElem? h.found
  obtain ⟨hmayw, hid⟩ : w.mayRequest ∧ removal.itemId = w.itemId := by
    unfold Worker.removal at hremoval
    split at hremoval
    · rename_i hphase
      cases hremoval
      exact ⟨by simp [Worker.mayRequest, hphase], rfl⟩
    · cases hremoval
  obtain ⟨hfirst, hnot⟩ := hinv.fresh w hw hmayw
  have hactive : w'.isActive → w.isActive := fun _ => hmayw.isActive
  refine ⟨?_, h.rows hinv (hitems ▸ fun id row hrow => ⟨row, hrow, rfl⟩),
    h.consistent hinv hconsistent, h.coordinated hinv hactive, ?_,
    h.alone hinv hactive fun id hstored => hitems ▸ hstored, ?_⟩
  · rw [RemovedOnce, hremovals, List.map_cons, List.nodup_cons]
    refine ⟨fun hmem => ?_, hinv.once⟩
    obtain ⟨other, hother, heq⟩ := List.mem_map.1 hmem
    exact hfirst other hother (heq.trans hid)
  · intro v hv hmayv
    rw [hremovals, hitems]
    rcases h.mem_cases hv with rfl | ⟨other, hne, hother⟩
    · exact absurd hmayv hmay
    · obtain ⟨hfirstv, hnotv⟩ := hinv.fresh v (List.mem_of_getElem? hother) hmayv
      refine ⟨?_, hnotv⟩
      intro r hr hitem
      rcases List.mem_cons.1 hr with rfl | hold
      · exact hnot (stored_of_other h hinv hmayw.isActive hother hne (hitem.symm.trans hid)
          hmayv.isActive)
      · exact hfirstv r hold hitem
  · intro r hr
    rw [hremovals] at hr
    rw [hitems]
    rcases List.mem_cons.1 hr with rfl | hold
    · exact .inr (.inl ⟨w', h.mem_self, h.itemId.trans hid.symm, hunrecorded⟩)
    · rcases hinv.recorded r hold with hop | hmemory | ⟨hfailed, hinactive⟩
      · exact .inl hop
      · exact .inr (.inl (exists_unrecorded_of_ne h (fun _ _ => hunrecorded) hmemory))
      · refine .inr (.inr ⟨hfailed, fun v hv hitem hv' => ?_⟩)
        rcases h.mem_cases hv with rfl | ⟨other, -, hother⟩
        · exact hinactive w hw (h.itemId ▸ hitem) hmayw.isActive
        · exact hinactive v (List.mem_of_getElem? hother) hitem hv'

/-- The worker stores the operation that MP VM has given it. -/
theorem onceInv_storeOperation (hinv : OnceInv s) {operationId : String} {values : ItemValues}
    {current : Instant} (h : Moved s index w t
      { w with phase := .waiting operationId, unrecorded := false })
    (hphase : w.phase = .requested operationId)
    (hvalues : values.removalOperationId = some operationId)
    (hitems : t.items = updateScanPostprocessItem s.items w.itemId values current)
    (hremovals : t.removals = s.removals) :
    OnceInv t := by
  have hw := List.mem_of_getElem? h.found
  have hactivew : w.isActive := Worker.isActive_of_phase (by simp [hphase])
  have hself : Stored t.items w.itemId := by
    obtain ⟨row, hrow, -⟩ := hinv.rows w hw
    refine ⟨values.apply current row, ?_, by simp [ItemValues.apply, hvalues]⟩
    rw [hitems, find?_updateScanPostprocessItem, if_pos rfl, hrow]
    rfl
  have hstored : ∀ id, Stored s.items id → Stored t.items id := by
    intro id hop
    by_cases hid : id = w.itemId
    · exact hid ▸ hself
    · rw [hitems]
      exact (stored_update_ne hid).1.2 hop
  refine ⟨?_, h.rows hinv (hitems ▸ keepsRows_update s.items w.itemId values current),
    h.consistent hinv ⟨by simp, by simp⟩, h.coordinated hinv fun _ => hactivew, ?_,
    h.alone hinv (fun _ => hactivew) hstored, ?_⟩
  · rw [RemovedOnce, hremovals]
    exact hinv.once
  · intro v hv hmayv
    rw [hremovals]
    rcases h.mem_cases hv with rfl | ⟨other, hne, hother⟩
    · simp [Worker.mayRequest] at hmayv
    · obtain ⟨hfirstv, hnotv⟩ := hinv.fresh v (List.mem_of_getElem? hother) hmayv
      have hid : v.itemId ≠ w.itemId := fun hid =>
        hnotv (hid ▸ stored_of_other h hinv hactivew hother hne hid hmayv.isActive)
      rw [hitems]
      exact ⟨hfirstv, fun hop => hnotv ((stored_update_ne hid).1.1 hop)⟩
  · intro r hr
    rw [hremovals] at hr
    by_cases hid : r.itemId = w.itemId
    · exact .inl (hid ▸ hself)
    · rcases hinv.recorded r hr with hop | hmemory | ⟨hfailed, hinactive⟩
      · exact .inl (hstored _ hop)
      · exact .inr (.inl (exists_unrecorded_of_ne h (fun hitem => absurd hitem.symm hid) hmemory))
      · refine .inr (.inr ⟨hitems ▸ (stored_update_ne hid).2.2 hfailed, fun v hv hitem hv' => ?_⟩)
        rcases h.mem_cases hv with rfl | ⟨other, -, hother⟩
        · exact hid hitem.symm
        · exact hinactive v (List.mem_of_getElem? hother) hitem hv'

/-- A handler stores the failure or the cancellation of the item. -/
theorem onceInv_record (hinv : OnceInv s) {current : Instant}
    (h : Moved s index w t { w with phase := .ended, unrecorded := false })
    (hphase : (∃ error, w.phase = .failing error) ∨ w.phase = .cancelling)
    (hitems : t.items = updateScanPostprocessItem s.items w.itemId (handlerValues w current) current)
    (hremovals : t.removals = s.removals) :
    OnceInv t := by
  have hw := List.mem_of_getElem? h.found
  have hended : w.phase ≠ .ended := by
    rcases hphase with ⟨error, hfailing⟩ | hcancelling
    · simp [hfailing]
    · simp [hcancelling]
  have hactivew : w.isActive := .inl hended
  have hvalues : (handlerValues w current).removalOperationId = none := by
    unfold handlerValues
    split <;> rfl
  have hstored : ∀ id, Stored t.items id ↔ Stored s.items id := by
    intro id
    rw [hitems]
    exact stored_update_iff hvalues id
  refine ⟨?_, h.rows hinv (hitems ▸ keepsRows_update s.items w.itemId _ current),
    h.consistent hinv ⟨by simp, by simp⟩, h.coordinated hinv fun _ => hactivew, ?_,
    h.alone hinv (fun _ => hactivew) fun id => (hstored id).2, ?_⟩
  · rw [RemovedOnce, hremovals]
    exact hinv.once
  · intro v hv hmayv
    rw [hremovals, hstored]
    rcases h.mem_cases hv with rfl | ⟨other, -, hother⟩
    · simp [Worker.mayRequest] at hmayv
    · exact hinv.fresh v (List.mem_of_getElem? hother) hmayv
  · intro r hr
    rw [hremovals] at hr
    by_cases hop : Stored s.items r.itemId
    · exact .inl ((hstored _).2 hop)
    by_cases hid : r.itemId = w.itemId
    · -- No one else is at work on the item, so the outcome was in the memory of this worker.
      have hothers : ∀ (other : Nat) (v : Worker), other ≠ index →
          s.workers[other]? = some v → v.itemId = r.itemId → ¬ v.isActive := by
        intro other v hne hother hitem hv
        exact hop (hid ▸ stored_of_other h hinv hactivew hother hne (hitem.trans hid) hv)
      have hunrecorded : w.unrecorded = true := by
        rcases hinv.recorded r hr with hop' | ⟨v, hv, hitem, hv'⟩ | ⟨-, hinactive⟩
        · exact absurd hop' hop
        · obtain ⟨other, hother⟩ := List.mem_iff_getElem?.1 hv
          by_cases hindex : other = index
          · subst hindex
            obtain rfl : v = w := Option.some.inj (hother.symm.trans h.found)
            exact hv'
          · exact absurd (.inr hv') (hothers other v hindex hother hitem)
        · exact absurd hactivew (hinactive w hw hid.symm)
      obtain ⟨hsaved, hcase⟩ := (hinv.consistent w hw).unrecorded hunrecorded
      obtain ⟨error, hfailing⟩ : ∃ error, w.phase = .failing error := by
        rcases hphase with hfailing | hcancelling
        · exact hfailing
        · simp [hcancelling] at hcase
      refine .inr (.inr ⟨?_, fun v hv hitem hv' => ?_⟩)
      · obtain ⟨row, hrow, -⟩ := hinv.rows w hw
        refine ⟨(handlerValues w current).apply current row, ?_, ?_⟩
        · rw [hitems, hid, find?_updateScanPostprocessItem, if_pos rfl, hrow]
          rfl
        · simp [ItemValues.apply, handlerValues, hfailing, hsaved]
      · rcases h.mem_cases hv with rfl | ⟨other, hne, hother⟩
        · simp [Worker.isActive] at hv'
        · exact hothers other v hne hother hitem hv'
    · rcases hinv.recorded r hr with hop' | hmemory | ⟨hfailed, hinactive⟩
      · exact absurd hop' hop
      · exact .inr (.inl (exists_unrecorded_of_ne h (fun hitem => absurd hitem.symm hid) hmemory))
      · refine .inr (.inr ⟨hitems ▸ (stored_update_ne hid).2.2 hfailed, fun v hv hitem hv' => ?_⟩)
        rcases h.mem_cases hv with rfl | ⟨other, -, hother⟩
        · exact hid hitem.symm
        · exact hinactive v (List.mem_of_getElem? hother) hitem hv'

theorem onceInv_move (hinv : OnceInv s) {removal : Option Removal} {s' : System}
    (hmove : Move s w removal s' w') (h : Moved s index w t w') (hitems : t.items = s'.items)
    (hremovals : t.removals = s'.removals) :
    OnceInv t := by
  cases hmove with
  | quiet hquiet => exact onceInv_quiet hinv h hquiet hitems hremovals
  | request hremoval hunrecorded hmay hconsistent =>
      exact onceInv_request hinv h hremoval hunrecorded hmay
        (hconsistent (hinv.consistent w (List.mem_of_getElem? h.found))) hitems hremovals
  | storeOperation operationId values current hphase hvalues =>
      exact onceInv_storeOperation hinv h hphase hvalues hitems hremovals
  | record current hphase => exact onceInv_record hinv h hphase hitems hremovals

/-! ## New workers -/

theorem forall_index_iff_pairwise {α : Type*} {R : α → α → Prop} (hsymm : ∀ a b, R a b → R b a)
    {l : List α} :
    (∀ (i j : Nat) (a b : α), l[i]? = some a → l[j]? = some b → i ≠ j → R a b) ↔ l.Pairwise R := by
  rw [List.pairwise_iff_getElem]
  constructor
  · intro h i j hi hj hij
    exact h i j _ _ (List.getElem?_eq_getElem hi) (List.getElem?_eq_getElem hj) hij.ne
  · intro h i j a b ha hb hij
    obtain ⟨hi, rfl⟩ := List.getElem?_eq_some_iff.1 ha
    obtain ⟨hj, rfl⟩ := List.getElem?_eq_some_iff.1 hb
    rcases Nat.lt_or_gt_of_ne hij with hlt | hgt
    · exact h i j hi hj hlt
    · exact hsymm _ _ (h j i hj hi hgt)

/-- Two workers share an item only when its operation is stored. -/
def ShareStored (items : Items) (u v : Worker) : Prop :=
  u.itemId = v.itemId → u.isActive → v.isActive → Stored items u.itemId

theorem shareStored_symm {items : Items} (u v : Worker) (h : ShareStored items u v) :
    ShareStored items v u :=
  fun hitem hv hu => hitem ▸ h hitem.symm hu hv

theorem OnceInv.pairwise (h : OnceInv s) :
    s.workers.Pairwise (ShareStored s.items) :=
  (forall_index_iff_pairwise shareStored_symm).1 fun i j u v hu hv hij hitem =>
    h.alone i j u v hu hv hij hitem

/--
Workers are added for items that nobody is at work on, unless their operation is stored, and of
which no removal has been requested, unless they only wait.
-/
theorem onceInv_append (hinv : OnceInv s) {new : List Worker}
    (hworkers : t.workers = s.workers ++ new) (hremovals : t.removals = s.removals)
    (hkeep : KeepsRows s.items t.items)
    (hstored : ∀ id, Stored t.items id ↔ Stored s.items id)
    (hfailed : ∀ id, StoredFailed s.items id → StoredFailed t.items id)
    (hcoordinators : ∀ runId, (s.coordinators.get? runId).isSome = true →
      (t.coordinators.get? runId).isSome = true)
    (hrows : ∀ v ∈ new, ∃ row, t.items.find? v.itemId = some row ∧ row.runId = v.runId)
    (hconsistent : ∀ v ∈ new, v.Consistent)
    (hcoordinated : ∀ v ∈ new, (t.coordinators.get? v.runId).isSome = true)
    (hmay : ∀ v ∈ new, v.mayRequest → ¬ Stored s.items v.itemId)
    (hfree : ∀ v ∈ new, ¬ Stored s.items v.itemId →
      ¬ StoredFailed s.items v.itemId ∧ ∀ u ∈ s.workers, u.itemId = v.itemId → ¬ u.isActive)
    (hnew : (new.map Worker.itemId).Nodup) :
    OnceInv t := by
  have hmem : ∀ {v}, v ∈ t.workers ↔ v ∈ s.workers ∨ v ∈ new := by
    simp [hworkers]
  refine ⟨?_, ?_, ?_, ?_, ?_, ?_, ?_⟩
  · rw [RemovedOnce, hremovals]
    exact hinv.once
  · intro v hv
    rcases hmem.1 hv with hold | hadded
    · obtain ⟨row, hrow, hrun⟩ := hinv.rows v hold
      obtain ⟨row', hrow', hrun'⟩ := hkeep _ _ hrow
      exact ⟨row', hrow', hrun'.trans hrun⟩
    · exact hrows v hadded
  · intro v hv
    rcases hmem.1 hv with hold | hadded
    · exact hinv.consistent v hold
    · exact hconsistent v hadded
  · intro v hv hactive
    rcases hmem.1 hv with hold | hadded
    · exact hcoordinators _ (hinv.coordinated v hold hactive)
    · exact hcoordinated v hadded
  · intro v hv hmayv
    rw [hremovals, hstored]
    rcases hmem.1 hv with hold | hadded
    · exact hinv.fresh v hold hmayv
    · have hnot := hmay v hadded hmayv
      refine ⟨fun removal hremoval hitem => ?_, hnot⟩
      obtain ⟨hnotfailed, hinactive⟩ := hfree v hadded hnot
      rcases hinv.recorded removal hremoval with hop | ⟨u, hu, huitem, hu'⟩ | ⟨hfail, -⟩
      · exact hnot (hitem ▸ hop)
      · exact hinactive u hu (huitem.trans hitem) (.inr hu')
      · exact hnotfailed (hitem ▸ hfail)
  · refine (forall_index_iff_pairwise shareStored_symm).2 ?_
    rw [hworkers, List.pairwise_append]
    refine ⟨?_, ?_, ?_⟩
    · exact hinv.pairwise.imp fun hshare hitem hu hv => (hstored _).2 (hshare hitem hu hv)
    · rw [List.Nodup, List.pairwise_map] at hnew
      exact hnew.imp fun hne hitem => absurd hitem hne
    · intro u hu v hv hitem hactive _
      rw [hitem, hstored]
      by_contra hnot
      exact (hfree v hv hnot).2 u hu hitem hactive
  · intro removal hremoval
    rw [hremovals] at hremoval
    by_cases hop : Stored s.items removal.itemId
    · exact .inl ((hstored _).2 hop)
    · rcases hinv.recorded removal hremoval with hop' | ⟨u, hu, huitem, hu'⟩ | ⟨hfail, hinactive⟩
      · exact absurd hop' hop
      · exact .inr (.inl ⟨u, hmem.2 (.inl hu), huitem, hu'⟩)
      · refine .inr (.inr ⟨hfailed _ hfail, fun v hv hitem hactive => ?_⟩)
        rcases hmem.1 hv with hold | hadded
        · exact hinactive v hold hitem hactive
        · exact (hfree v hadded (hitem ▸ hop)).1 (hitem ▸ hfail)

theorem map_filterMap_sublist {α β γ : Type*} {f : α → Option β} {g : β → γ} {k : α → γ}
    (hf : ∀ a b, f a = some b → g b = k a) (l : List α) :
    ((l.filterMap f).map g).Sublist (l.map k) := by
  induction l with
  | nil => simp
  | cons a l ih =>
      cases hfa : f a with
      | none => simpa [List.filterMap_cons, hfa] using ih.cons (k a)
      | some b => simpa [List.filterMap_cons, hfa, hf a b hfa] using ih.cons_cons (k a)

theorem mem_resumedWorkers {items : Items} {runId : String} {v : Worker}
    (h : v ∈ resumedWorkers items runId) :
    ∃ row assetId, items.find? row.id = some row ∧ row.runId = runId ∧
      row.status.isFinished = false ∧ v = newWorker row assetId := by
  obtain ⟨row, hrow, hv⟩ := List.mem_filterMap.1 h
  obtain ⟨hmem, hrun⟩ := List.mem_filter.1 hrow
  split at hv
  · rename_i assetId _
    split_ifs at hv with hfinished
    cases hv
    exact ⟨row, assetId, Table.find?_of_mem hmem, of_decide_eq_true hrun, by simpa using hfinished,
      rfl⟩
  · cases hv

theorem nodup_resumedWorkers (items : Items) (runId : String) :
    ((resumedWorkers items runId).map Worker.itemId).Nodup := by
  refine List.Nodup.sublist (map_filterMap_sublist (k := ItemRow.id) ?_ _)
    (items.pkNodup.sublist (List.filter_sublist.map _))
  intro row v hv
  split at hv
  · split_ifs at hv
    cases hv
    rfl
  · cases hv

theorem newWorker_consistent (row : ItemRow) (assetId : String) :
    (newWorker row assetId).Consistent :=
  ⟨by simp [newWorker], by simp [newWorker]⟩

theorem stored_iff_of_find? {items : Items} {id : Nat} {row : ItemRow}
    (h : items.find? id = some row) :
    (Stored items id ↔ row.removalOperationId.isSome = true) ∧
      (StoredFailed items id ↔ row.status = .removalFailed) := by
  simp [Stored, StoredFailed, h]

theorem not_stored_of_find?_eq_none {items : Items} {id : Nat} (h : items.find? id = none) :
    ¬ Stored items id ∧ ¬ StoredFailed items id := by
  simp [Stored, StoredFailed, h]

theorem onceInv_coordinate (hinv : OnceInv s) (runId : String) :
    OnceInv (coordinateRun s runId) := by
  unfold coordinateRun
  split
  · exact hinv
  · rename_i hnone
    have hcoordinators : ∀ other, (s.coordinators.get? other).isSome = true →
        ((s.coordinators.set runId ((listScanPostprocessItems s.items runId).filterMap
          fun row => Sql.orNone row.assetId)).get? other).isSome = true := by
      intro other hother
      rw [Dict.get?_set]
      split_ifs
      · rfl
      · exact hother
    refine onceInv_append hinv (s := s) rfl rfl (fun id row hrow => ⟨row, hrow, rfl⟩)
      (fun _ => Iff.rfl) (fun _ h => h) hcoordinators ?_ ?_ ?_ ?_ ?_ (nodup_resumedWorkers _ _)
    · intro v hv
      obtain ⟨row, assetId, hrow, -, -, rfl⟩ := mem_resumedWorkers hv
      exact ⟨row, hrow, rfl⟩
    · intro v hv
      obtain ⟨row, assetId, -, -, -, rfl⟩ := mem_resumedWorkers hv
      exact newWorker_consistent row assetId
    · intro v hv
      obtain ⟨row, assetId, -, hrun, -, rfl⟩ := mem_resumedWorkers hv
      simp [newWorker, hrun, Dict.get?_set]
    · intro v hv hmay
      obtain ⟨row, assetId, hrow, -, -, rfl⟩ := mem_resumedWorkers hv
      have hop : row.removalOperationId = none := hmay
      intro hstored
      have hsome := (stored_iff_of_find? hrow).1.1 hstored
      rw [hop] at hsome
      cases hsome
    · intro v hv _
      obtain ⟨row, assetId, hrow, hrun, hfinished, rfl⟩ := mem_resumedWorkers hv
      refine ⟨fun hfail => ?_, fun u hu hitem hactive => ?_⟩
      · rw [(stored_iff_of_find? hrow).2.1 hfail] at hfinished
        cases hfinished
      · -- An active worker on an item of the run would belong to its coordinator.
        obtain ⟨urow, hurow, hurun⟩ := hinv.rows u hu
        have hcoordinated := hinv.coordinated u hu hactive
        obtain rfl : urow = row := Option.some.inj ((hitem ▸ hurow).symm.trans hrow)
        rw [← hurun, hrun, hnone] at hcoordinated
        cases hcoordinated

/-! ## The condition -/

/--
The condition on a step: a restart leaves no requested removal behind whose operation or failure is
not stored, and an asset that is resolved for the first time since a restart is not that of an item
which is at work, or whose removal has failed without an operation.
-/
def Recorded (s : System) : Event → Prop
  | .restart _ => ∀ w ∈ s.workers, w.unrecorded = false
  | .schedule runId assetId _ _ _ _ _ =>
      ∀ seen ∈ s.coordinators.get? runId, assetId ∉ seen →
        ∀ row ∈ findItem s.items runId (.asset assetId), row.removalOperationId.isSome = true ∨
          row.status ≠ .removalFailed ∧ ∀ w ∈ s.workers, w.itemId = row.id → ¬ w.isActive
  | _ => True

theorem onceInv_schedule (hinv : OnceInv s) {runId assetId : String}
    {mpJobId target displayName : Option String} {nextId : Nat} {current : Instant}
    (hok : Recorded s (.schedule runId assetId mpJobId target displayName nextId current)) :
    OnceInv (scheduleAsset s runId assetId mpJobId target displayName nextId current) := by
  unfold scheduleAsset
  split
  · exact hinv
  rename_i seen hseen
  split_ifs with hmem
  · exact hinv
  split
  · exact hinv
  rename_i items row hupsert
  obtain ⟨hkey, hrow, hothers, hcase⟩ := upsertScanPostprocessItem_cases hupsert
  have hrun : row.runId = runId := congrArg Prod.fst hkey
  -- Neither the stored operation nor the stored failure of any item changes.
  have hsame : ∀ id, (Stored items id ↔ Stored s.items id) ∧
      (StoredFailed items id ↔ StoredFailed s.items id) := by
    intro id
    by_cases hid : id = row.id
    · subst hid
      rw [(stored_iff_of_find? hrow).1, (stored_iff_of_find? hrow).2]
      rcases hcase with ⟨-, hnone, hop, hstatus⟩ | ⟨old, -, hold, -, hop, hstatus⟩
      · obtain ⟨hnot, hnotfailed⟩ := not_stored_of_find?_eq_none hnone
        simp [hnot, hnotfailed, hop, hstatus]
      · rw [(stored_iff_of_find? hold).1, (stored_iff_of_find? hold).2, hop, hstatus]
        exact ⟨Iff.rfl, Iff.rfl⟩
    · unfold Stored StoredFailed
      rw [hothers id hid]
      exact ⟨Iff.rfl, Iff.rfl⟩
  have hkeep : KeepsRows s.items items := by
    intro id old hold
    by_cases hid : id = row.id
    · subst hid
      rcases hcase with ⟨-, hnone, -⟩ | ⟨old', -, hold', hrun', -⟩
      · rw [hnone] at hold
        cases hold
      · obtain rfl : old' = old := Option.some.inj (hold'.symm.trans hold)
        exact ⟨row, hrow, hrun'⟩
    · exact ⟨old, (hothers id hid).trans hold, rfl⟩
  refine onceInv_append hinv (s := s) rfl rfl hkeep (fun id => (hsame id).1)
    (fun id => (hsame id).2.2) ?_ ?_ ?_ ?_ ?_ ?_ (by simp)
  · intro other hother
    rw [Dict.get?_set]
    split_ifs
    · rfl
    · exact hother
  · intro v hv
    rw [List.mem_singleton.1 hv]
    exact ⟨row, hrow, rfl⟩
  · intro v hv
    rw [List.mem_singleton.1 hv]
    exact newWorker_consistent row assetId
  · intro v hv
    rw [List.mem_singleton.1 hv]
    simp [newWorker, hrun, Dict.get?_set]
  · intro v hv hmay
    rw [List.mem_singleton.1 hv] at hmay ⊢
    have hop : row.removalOperationId = none := hmay
    rw [newWorker, ← (hsame row.id).1, (stored_iff_of_find? hrow).1, hop]
    simp
  · intro v hv hnot
    rw [List.mem_singleton.1 hv] at hnot ⊢
    rcases hcase with ⟨-, hnone, -⟩ | ⟨old, hfind, hold, -, -, -⟩
    · refine ⟨(not_stored_of_find?_eq_none hnone).2, fun u hu hitem _ => ?_⟩
      obtain ⟨urow, hurow, -⟩ := hinv.rows u hu
      rw [hitem] at hurow
      cases hurow.symm.trans hnone
    · rcases hok seen hseen hmem old hfind with hop | ⟨hstatus, hinactive⟩
      · exact absurd ((stored_iff_of_find? hold).1.2 hop) hnot
      · refine ⟨fun hfail => hstatus ((stored_iff_of_find? hold).2.1 hfail), fun u hu hitem => ?_⟩
        exact hinactive u hu (hitem.trans (Table.pk_of_find? hold).symm)

theorem onceInv_keepsProgress (hinv : OnceInv s) (hworkers : t.workers = s.workers)
    (hremovals : t.removals = s.removals) (hcoordinators : t.coordinators = s.coordinators)
    (hitems : KeepsProgress s.items t.items) :
    OnceInv t := by
  obtain ⟨g, hg, hfind⟩ := hitems
  have hstored : ∀ id, Stored t.items id ↔ Stored s.items id := by
    intro id
    simp [Stored, hfind, (hg _).removalOperationId]
  have hsame : t.workers = s.workers ++ [] := by
    rw [hworkers, List.append_nil]
  refine onceInv_append hinv hsame hremovals ?_ hstored ?_ ?_ (by simp)
    (by simp) (by simp) (by simp) (by simp) (by simp)
  · intro id row hrow
    exact ⟨g row, by rw [hfind, hrow]; rfl, (hg row).runId⟩
  · rintro id ⟨row, hrow, hstatus⟩
    exact ⟨g row, by rw [hfind, hrow]; rfl, (hg row).removalFailed hstatus⟩
  · rw [hcoordinators]
    exact fun _ h => h

theorem onceInv_restart (hinv : OnceInv s) {current : Instant}
    (hok : Recorded s (.restart current)) :
    OnceInv (restartProcess s current) := by
  obtain ⟨g, hg, hfind⟩ := keepsProgress_releaseItems s.items current
  refine ⟨hinv.once, ?_, ?_, ?_, ?_, ?_, ?_⟩
  all_goals try simp [restartProcess]
  intro removal hremoval
  rcases hinv.recorded removal hremoval with ⟨row, hrow, hop⟩ | ⟨w, hw, -, hw'⟩ | ⟨⟨row, hrow, hstatus⟩, -⟩
  · exact .inl ⟨g row, by rw [hfind, hrow]; rfl, (hg row).removalOperationId ▸ hop⟩
  · rw [hok w hw] at hw'
    cases hw'
  · exact .inr ⟨g row, by rw [hfind, hrow]; rfl, (hg row).removalFailed hstatus⟩

/-- Every step that meets the condition keeps the invariant. -/
theorem onceInv_step (s : System) (e : Event) (hinv : OnceInv s) (hok : Recorded s e) :
    OnceInv (step s e) := by
  cases e with
  | coordinate runId => exact onceInv_coordinate hinv runId
  | schedule runId assetId mpJobId target displayName nextId current =>
      exact onceInv_schedule hinv hok
  | worker index action =>
      simp only [step]
      split
      · exact hinv
      · rename_i w hw
        have hframe := frame_advance s w action
        exact onceInv_move hinv (move_advance s w action)
          ⟨hw, rfl, hframe.coordinators, hframe.itemId, hframe.runId⟩ rfl rfl
  | jobs event =>
      refine onceInv_keepsProgress hinv rfl rfl rfl ?_
      cases event with
      | rebind jobId canonicalAssetId current =>
          exact keepsProgress_rebindItems s.items jobId canonicalAssetId current
      | _ => exact KeepsProgress.refl s.items
  | saveCard assetId => exact onceInv_keepsProgress hinv rfl rfl rfl (KeepsProgress.refl s.items)
  | deleteCard assetId => exact onceInv_keepsProgress hinv rfl rfl rfl (KeepsProgress.refl s.items)
  | restart current => exact onceInv_restart hinv hok

/--
In a run whose steps meet the condition, the removal of the asset of an item is requested at most
once, whatever restarts, failures and cancellations the run has.
-/
theorem removals_once (es : List Event) (hrun : Runs.Along step Recorded initial es) :
    RemovedOnce (Runs.run step initial es) :=
  (hrun.invariant onceInv_step onceInv_initial).once

/-- A worker builds the card of its asset, up to the look-up of the job. -/
def buildEvents (index : Nat) (jobId : Uuid) (card : String) : List Event :=
  [.worker index .begin, .worker index .probed, .worker index (.create jobId 2 true),
    .worker index (.storeBuilding 3), .jobs (.start jobId.text 4), .saveCard card,
    .jobs (.rebind jobId.text card 5),
    .jobs (.finish jobId.text .completed "completed" none none 6), .worker index .jobReturned,
    .worker index .lookUp, .worker index (.storeCardSaved 7)]

instance (w : Worker) : Decidable w.isActive :=
  inferInstanceAs (Decidable (_ ∨ _))

instance (s : System) (e : Event) : Decidable (Recorded s e) := by
  cases e <;> unfold Recorded <;> infer_instance

/-- A run that removes an asset, is restarted after its operation is stored, and waits for it. -/
theorem removals_once_restarted :
    RemovedOnce (Runs.run step initial
      ([.coordinate "run-1", .schedule "run-1" "a" none (some "10.0.0.5") none 1 1] ++
        buildEvents 0 ⟨"job-1", by decide +kernel⟩ "a" ++
        [.worker 0 (.request (.ok "op-1")), .worker 0 (.storeOperation 8), .restart 9,
          .coordinate "run-1", .worker 0 .begin, .worker 0 (.removed true "done" 10)])) :=
  removals_once _ (by decide +kernel)

/--
The process is restarted between a request and the storing of its operation; an item that was
rebound before a restart is handed over twice.
-/
theorem removals_twice :
    ¬ RemovedOnce (Runs.run step initial
        ([.coordinate "run-1", .schedule "run-1" "a" none (some "10.0.0.5") none 1 1] ++
          buildEvents 0 ⟨"job-1", by decide +kernel⟩ "a" ++
          [.worker 0 (.request (.ok "op-1")), .restart 8, .coordinate "run-1"] ++
          buildEvents 0 ⟨"job-2", by decide +kernel⟩ "a" ++
          [.worker 0 (.request (.ok "op-2"))])) ∧
      ¬ RemovedOnce (Runs.run step initial
        ([.coordinate "run-1", .schedule "run-1" "a" none (some "10.0.0.0/24") none 1 1] ++
          buildEvents 0 ⟨"job-1", by decide +kernel⟩ "b" ++
          [.restart 8, .coordinate "run-1",
            .schedule "run-1" "a" none (some "10.0.0.5") none 2 9] ++
          buildEvents 0 ⟨"job-2", by decide +kernel⟩ "b" ++
          [.worker 0 (.request (.ok "op-1")), .worker 0 (.storeOperation 10)] ++
          buildEvents 1 ⟨"job-3", by decide +kernel⟩ "b" ++
          [.worker 1 (.request (.ok "op-2"))])) := by
  unfold RemovedOnce
  decide +kernel

end Scan
end Services
end MpvmApp
