import BtSniffer.Dht.DispatcherLoop
import BtSniffer.Dht.LookupRun
import BtSniffer.Dht.SamplerDriven
import BtSniffer.Lib.Ledger

/-!
# The accounts of the dispatcher

What the parts of the dispatcher remember of the queries that are open, whether they are queued, pending
or on their way from one to the other.

* `MaintenanceState.Waits` — the candidates in flight of the lookup are the nodes that are asked.
* `Accounts` — every part agrees with the open purposes.
-/

set_option autoImplicit false

namespace BtSniffer

open Relational

/-! ## The lookup -/

namespace LookupRun

variable {config : MaintenanceConfig} {r : LookupRun} {id : NodeId} {ids : List NodeId}

/-- The nodes that are waited for when one of them has answered. -/
theorem others_perm (h : (r.opened.map NodeContact.id).Perm (id :: ids)) (hv : Valid config r) :
    ((IterativeLookup.others r.opened id).map NodeContact.id).Perm ids := by
  have hnodup : (r.opened.map NodeContact.id).Nodup := by
    have hall := hv.tracks.ids
    rw [List.map_append] at hall
    exact (List.nodup_append.1 hall).1
  have hmap : (IterativeLookup.others r.opened id).map NodeContact.id =
      (r.opened.map NodeContact.id).filter (fun other => decide (other ≠ id)) := by
    unfold IterativeLookup.others
    rw [List.filter_map]
    rfl
  have hcons := (List.nodup_cons.1 (h.nodup_iff.1 hnodup)).1
  rw [hmap]
  refine (h.filter _).trans ?_
  rw [List.filter_cons_of_neg (by simp), List.filter_eq_self.2]
  intro other hother
  refine decide_eq_true ?_
  rintro rfl
  exact hcons hother

end LookupRun

namespace MaintenanceState

variable {m : MaintenanceState} {ids ids' : List NodeId} {id : NodeId}

/-- The nodes that the lookup waits for. -/
def Waits (m : MaintenanceState) (ids : List NodeId) : Prop :=
  match m.lookup with
  | none => ids = []
  | some lookup => ∃ r : LookupRun, r.lookup = lookup ∧
      LookupRun.Valid m.config.toMaintenanceConfig r ∧ (r.opened.map NodeContact.id).Perm ids

theorem Waits.perm (h : m.Waits ids) (hp : ids.Perm ids') : m.Waits ids' := by
  unfold Waits at *
  split at h
  · rw [h] at hp
    rw [List.nil_perm.1 hp]
  · obtain ⟨r, hr, hv, ho⟩ := h
    exact ⟨r, hr, hv, ho.trans hp⟩

theorem waits_none (h : m.lookup = none) : m.Waits ids ↔ ids = [] := by
  unfold Waits
  rw [h]

theorem waits_some {lookup : IterativeLookup} (h : m.lookup = some lookup) : m.Waits ids ↔
    ∃ r : LookupRun, r.lookup = lookup ∧ LookupRun.Valid m.config.toMaintenanceConfig r ∧
      (r.opened.map NodeContact.id).Perm ids := by
  unfold Waits
  rw [h]

/-- What is waited for depends on the lookup and the configuration. -/
theorem Waits.of_eq {m' : MaintenanceState} (h : m.Waits ids) (hlookup : m'.lookup = m.lookup)
    (hconfig : m'.config = m.config) : m'.Waits ids := by
  unfold Waits at *
  rw [hlookup, hconfig]
  exact h

/-- **A node that was asked is settled**, by a call that ends the wait for it. -/
theorem Waits.settle (h : m.Waits (id :: ids)) {f : IterativeLookup → IterativeLookup}
    (hf : ∀ r : LookupRun, ∃ call closed, r.step m.config.toMaintenanceConfig call =
      ⟨f r.lookup, IterativeLookup.others r.opened id, closed⟩) : (m.mapLookup f).Waits ids := by
  cases hlookup : m.lookup with
  | none => cases (waits_none hlookup).1 h
  | some lookup =>
    obtain ⟨r, rfl, hv, ho⟩ := (waits_some hlookup).1 h
    obtain ⟨call, closed, hstep⟩ := hf r
    have hmap : (m.mapLookup f).lookup = some (f r.lookup) := by
      unfold mapLookup
      rw [hlookup]
      rfl
    refine (waits_some hmap).2
      ⟨⟨f r.lookup, IterativeLookup.others r.opened id, closed⟩, rfl, ?_, LookupRun.others_perm ho hv⟩
    have hvalid := LookupRun.step_valid hv call
    rw [hstep] at hvalid
    exact hvalid

theorem Waits.defer (h : m.Waits (id :: ids)) :
    (m.mapLookup (fun lookup => lookup.defer id)).Waits ids :=
  h.settle (fun _ => ⟨.defer id, _, rfl⟩)

theorem Waits.completeFailure (h : m.Waits (id :: ids)) :
    (m.mapLookup (fun lookup => lookup.completeFailure id)).Waits ids :=
  h.settle (fun _ => ⟨.completeFailure id, _, rfl⟩)

theorem Waits.completeSuccess (h : m.Waits (id :: ids)) (discovered : List (NodeContact × Bool))
    (localId : NodeId) :
    (m.mapLookup (fun lookup => lookup.completeSuccess id discovered localId)).Waits ids :=
  h.settle (fun _ => ⟨.completeSuccess id discovered localId, _, rfl⟩)

/-- A lookup that is complete waits for nothing. -/
theorem Waits.complete (h : m.Waits ids) {lookup : IterativeLookup} (hlookup : m.lookup = some lookup)
    (hc : lookup.isComplete m.config.toMaintenanceConfig = true) : ids = [] := by
  obtain ⟨r, rfl, hv, ho⟩ := (waits_some hlookup).1 h
  have hzero : r.lookup.inFlight = 0 := by
    by_contra hne
    unfold IterativeLookup.isComplete at hc
    rw [if_pos hne] at hc
    cases hc
  have hlen : r.opened = [] := List.length_eq_zero_iff.1 (hv.tracks.inFlight.symm.trans hzero)
  rw [hlen] at ho
  exact List.nil_perm.1 ho

/-- **A lookup ends only when it waits for nothing.** -/
theorem Waits.finishIfComplete (h : m.Waits ids) (routing : RoutingTable) (now : Nat) :
    (m.finishIfComplete routing now).1.Waits ids := by
  unfold MaintenanceState.finishIfComplete
  split
  · exact h
  · rename_i lookup hlookup
    split
    · rename_i hc
      have hnone : (m.finish lookup routing now).1.lookup = none := by
        unfold finish scheduleRetry
        split <;> rfl
      exact (waits_none hnone).2 (h.complete hlookup hc)
    · exact h

/-- A lookup begins when there is none, and waits for nothing yet. -/
theorem Waits.beginIfDue (h : m.Waits ids) (routing : RoutingTable) (now : Nat) (random : NodeId) :
    (m.beginIfDue routing now random).Waits ids := by
  unfold MaintenanceState.beginIfDue
  split
  · exact h
  · rename_i hdue
    have hlookup : m.lookup = none := by
      simpa using (fun hsome => hdue (by simp [hsome]) : ¬ m.lookup.isSome = true)
    have hids := (waits_none hlookup).1 h
    split
    · exact h
    · rename_i kind target _
      simp only
      split
      · exact h.of_eq rfl rfl
      · refine (waits_some rfl).2 ⟨_, rfl, LookupRun.start_valid kind target ?_, ?_⟩
        · unfold RoutingTable.closestUsable
          exact List.length_take_le _ _
        · rw [hids]
          exact .refl _

/-- **The next nodes are asked.** -/
theorem Waits.takeNext (h : m.Waits ids) {lookup : IterativeLookup} (hlookup : m.lookup = some lookup)
    (capacity : Nat) :
    let next := lookup.takeNext m.config.toMaintenanceConfig capacity
    { m with lookup := some next.1 }.Waits (next.2.map NodeContact.id ++ ids) := by
  obtain ⟨r, rfl, hv, ho⟩ := (waits_some hlookup).1 h
  refine (waits_some rfl).2 ⟨_, rfl, LookupRun.step_valid hv (.takeNext capacity), ?_⟩
  simp only [LookupRun.step, List.map_append]
  exact ho.append_left _

end MaintenanceState

/-! ## Accounts -/

namespace Dispatcher

/-- What the parts of the dispatcher remember agrees with the open purposes; `asked` are the callers of
all commands. While the identity is paused, recovery is over. -/
structure Accounts (d : Dispatcher) (asked : List Caller) (now : Nat) (purposes : List Purpose) :
    Prop where
  verifications : d.verifications.Records Purpose.verification? purposes
  probes : d.bucketProbes.Records Purpose.probe? purposes
  recovery : d.identityPaused = false → d.recovery.active.Records Purpose.recovery? purposes
  waiting : (d.recovery.queued.map Recovery.SavedContact.id).Nodup ∧
    ∀ c ∈ d.recovery.queued, d.recovery.active.get? c.id = none
  lookup : d.maintenance.Waits (purposes.filterMap Purpose.lookup?)
  sampler : d.sampler.Driven now (purposes.filterMap Purpose.request?)
  callers : asked.Perm (purposes.filterMap Purpose.caller? ++
    (d.journal.replies.map Prod.fst ++ d.journal.reclaimed))
  routing : d.routing.Shape

/-- The parts that the accounts are about. -/
def parts (d : Dispatcher) : (Bool × Table (NodeId × SocketAddr) id × Table (NodeId × SocketAddr) id) ×
    Recovery.Progress × MaintenanceState × Sampler ×
    List (Caller × Except QueryError QueryReply) × List Caller × RoutingTable :=
  ((d.identityPaused, d.verifications, d.bucketProbes), d.recovery, d.maintenance, d.sampler,
    d.journal.replies, d.journal.reclaimed, d.routing)

variable {d d' : Dispatcher} {asked : List Caller} {now t : Nat} {purposes purposes' : List Purpose}
  {p : Purpose}

/-- Other parts do not matter. -/
theorem Accounts.frame (h : d.Accounts asked now purposes) (hp : d'.parts = d.parts) :
    d'.Accounts asked now purposes := by
  simp only [parts, Prod.mk.injEq] at hp
  obtain ⟨⟨hpaused, hv, hb⟩, hr, hm, hs, hreplies, hreclaimed, hrouting⟩ := hp
  constructor
  · rw [hv]
    exact h.verifications
  · rw [hb]
    exact h.probes
  · rw [hpaused, hr]
    exact h.recovery
  · rw [hr]
    exact h.waiting
  · rw [hm]
    exact h.lookup
  · rw [hs]
    exact h.sampler
  · rw [hreplies, hreclaimed]
    exact h.callers
  · rw [hrouting]
    exact h.routing

theorem Accounts.perm (h : d.Accounts asked now purposes) (hp : purposes.Perm purposes') :
    d.Accounts asked now purposes' where
  verifications := h.verifications.perm hp
  probes := h.probes.perm hp
  recovery := fun hpaused => (h.recovery hpaused).perm hp
  waiting := h.waiting
  lookup := h.lookup.perm (hp.filterMap _)
  sampler := h.sampler.perm (hp.filterMap _)
  callers := h.callers.trans ((hp.filterMap _).append_right _)
  routing := h.routing

theorem Accounts.later (h : d.Accounts asked now purposes) (hle : now ≤ t) :
    d.Accounts asked t purposes :=
  { h with sampler := h.sampler.later hle }

/-! ### A purpose ends -/

/-- A purpose of a caller. -/
theorem of_caller {caller : Caller} (h : p.caller? = some caller) :
    p = .fetch caller ∨ p = .userPing caller := by
  cases p with
  | fetch c => exact .inl (congrArg _ (Option.some.inj h))
  | userPing c => exact .inr (congrArg _ (Option.some.inj h))
  | _ => cases h

/-- **The caller gets a reply.** -/
theorem Accounts.reply (h : d.Accounts asked now (p :: purposes)) {caller : Caller}
    (hp : p.caller? = some caller) (result : Except QueryError QueryReply) :
    (d.reply caller result).Accounts asked now purposes := by
  rcases of_caller hp with rfl | rfl
  all_goals exact
    { verifications := h.verifications
      probes := h.probes
      recovery := h.recovery
      waiting := h.waiting
      lookup := h.lookup
      sampler := h.sampler
      callers := h.callers.trans List.perm_middle.symm
      routing := h.routing }

/-- The channel of a caller is dropped. -/
theorem Accounts.reclaim (h : d.Accounts asked now (p :: purposes)) {caller : Caller}
    (hp : p.caller? = some caller) : (d.reclaim p).Accounts asked now purposes := by
  have hperm : (caller :: (purposes.filterMap Purpose.caller? ++
      (d.journal.replies.map Prod.fst ++ d.journal.reclaimed))).Perm
      (purposes.filterMap Purpose.caller? ++
        (d.journal.replies.map Prod.fst ++ caller :: d.journal.reclaimed)) := by
    rw [← List.append_assoc, ← List.append_assoc]
    exact List.perm_middle.symm
  rcases of_caller hp with rfl | rfl
  all_goals exact
    { verifications := h.verifications
      probes := h.probes
      recovery := h.recovery
      waiting := h.waiting
      lookup := h.lookup
      sampler := h.sampler
      callers := h.callers.trans hperm
      routing := h.routing }

theorem Accounts.endRecovery {id : NodeId} (h : d.Accounts asked now (.recovery id :: purposes)) :
    { d with recovery := d.recovery.finished id }.Accounts asked now purposes where
  verifications := h.verifications
  probes := h.probes
  recovery := fun hpaused => (h.recovery hpaused).closes rfl
  waiting := by
    refine ⟨h.waiting.1, fun c hc => ?_⟩
    unfold Recovery.Progress.finished
    rw [Table.get?_erase, h.waiting.2 c hc, ite_self]
  lookup := h.lookup
  sampler := h.sampler
  callers := h.callers
  routing := h.routing

theorem Accounts.endVerification {key : NodeId × SocketAddr}
    (h : d.Accounts asked now (.verification key :: purposes)) :
    { d with verifications := d.verifications.erase key }.Accounts asked now purposes where
  verifications := h.verifications.closes rfl
  probes := h.probes
  recovery := h.recovery
  waiting := h.waiting
  lookup := h.lookup
  sampler := h.sampler
  callers := h.callers
  routing := h.routing

theorem Accounts.endProbe {incumbent candidate : NodeContact} {remaining : List NodeContact}
    {attempt : Nat}
    (h : d.Accounts asked now (.bucketProbe incumbent remaining candidate attempt :: purposes)) :
    { d with bucketProbes := d.bucketProbes.erase (incumbent.id, incumbent.address) }.Accounts asked
      now purposes where
  verifications := h.verifications
  probes := h.probes.closes rfl
  recovery := h.recovery
  waiting := h.waiting
  lookup := h.lookup
  sampler := h.sampler
  callers := h.callers
  routing := h.routing

/-- The sampler gets its request back. -/
theorem Accounts.endSampling {request : Request} {s' : Sampler}
    (h : d.Accounts asked now (.sampling request :: purposes))
    (hs : ∀ {held : List Request}, d.sampler.Driven now (request :: held) → s'.Driven now held) :
    { d with sampler := s' }.Accounts asked now purposes where
  verifications := h.verifications
  probes := h.probes
  recovery := h.recovery
  waiting := h.waiting
  lookup := h.lookup
  sampler := hs h.sampler
  callers := h.callers
  routing := h.routing

/-- The lookup does not wait for the node any longer. -/
theorem Accounts.endLookup {id : NodeId} {m' : MaintenanceState}
    (h : d.Accounts asked now (.maintenanceLookup id :: purposes))
    (hm : ∀ {ids : List NodeId}, d.maintenance.Waits (id :: ids) → m'.Waits ids) :
    { d with maintenance := m' }.Accounts asked now purposes where
  verifications := h.verifications
  probes := h.probes
  recovery := h.recovery
  waiting := h.waiting
  lookup := hm h.lookup
  sampler := h.sampler
  callers := h.callers
  routing := h.routing

/-- **A query that is given up before it was sent.** -/
theorem Accounts.finishStartError (h : d.Accounts asked now (p :: purposes)) (error : QueryError) :
    (d.finishStartError p error now).Accounts asked now purposes := by
  cases p with
  | fetch caller => exact h.reply rfl _
  | userPing caller => exact h.reply rfl _
  | recovery id => exact h.endRecovery
  | verification key => exact h.endVerification
  | bucketProbe incumbent remaining candidate attempt => exact h.endProbe
  | maintenanceLookup id => exact h.endLookup (fun hw => hw.defer)
  | sampling request =>
    unfold Dispatcher.finishStartError
    simp only
    split
    · exact h.endSampling (fun hd => hd.uncertainSend)
    · exact h.endSampling (fun hd => hd.abandonUnsent)

end Dispatcher

end BtSniffer
