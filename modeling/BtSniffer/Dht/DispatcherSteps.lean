import BtSniffer.Dht.DispatcherCancel

/-!
# The steps of the loop keep the books

* `Open.observeQuery`, `Open.advanceRecovery` — what the dispatcher starts for its routing table.
* `Open.advanceMaintenance` — the nodes that a lookup asks.
* `Open.advanceSampler` — a request of the sampler, from its choice to its start.
* `Open.getPeers`, `Open.bootstrapPing` — commands bring a caller with them.
-/

set_option autoImplicit false

namespace BtSniffer

open Relational

namespace Dispatcher

variable {d d' : Dispatcher} {asked : List Caller} {now : Nat} {hand purposes : List Purpose}
  {p : Purpose}

/-- `start_rpc` while no id is lost. -/
theorem Open.start (h : d.Open asked now (p :: hand) [] 0 0)
    (hping : ∀ caller, p ≠ .userPing caller) (remote : Recovery.RemoteNode) (query : Outbound) :
    (d.startRpc remote query p now).Open asked now hand [] 0 0 :=
  (h.more 1).startRpc (fun caller hp => absurd hp (hping caller)) remote query

/-! ## Verification -/

theorem Accounts.beginVerification (h : d.Accounts asked now purposes) {key : NodeId × SocketAddr}
    (hnew : d.verifications.get? key = none) :
    { d with verifications := d.verifications.insertNew key }.Accounts asked now
      (.verification key :: purposes) where
  verifications := h.verifications.opens rfl hnew
  probes := h.probes
  recovery := h.recovery
  waiting := h.waiting
  lookup := h.lookup
  sampler := h.sampler
  callers := h.callers
  routing := h.routing

/-- A node is verified, unless this is done already. -/
theorem Open.scheduleVerification (h : d.Open asked now hand [] 0 0) (id : NodeId)
    (address : SocketAddr) :
    (d.scheduleVerification id address now).Open asked now hand [] 0 0 := by
  unfold Dispatcher.scheduleVerification
  split
  · exact h
  · rename_i hnew
    have hbegin : { d with verifications := d.verifications.insertNew (id, address) }.Open asked now
        (.verification (id, address) :: hand) [] 0 0 :=
      h.enter rfl (fun ha => ha.beginVerification (Option.not_isSome_iff_eq_none.1 hnew))
    exact hbegin.start (fun _ => by simp) _ _

/-- **`observe_query`** may start a verification. -/
theorem Open.observeQuery (h : d.Open asked now hand [] 0 0) (id : NodeId) (address : SocketAddr)
    (readOnly : Bool) : (d.observeQuery id address readOnly now).Open asked now hand [] 0 0 := by
  have hroute : { d with routing :=
      ((d.routing.observeQuery id address readOnly now).getD (.updated, d.routing)).2 }.Open asked now
      hand [] 0 0 := h.reroute (h.accounts.routing.observeQuery id address readOnly)
  unfold Dispatcher.observeQuery
  simp only
  split
  · exact hroute.scheduleVerification _ _
  · exact hroute

/-! ## Recovery -/

/-- A saved contact leaves the queue and is recovered; its node is not yet. -/
theorem Accounts.beginRecovery (h : d.Accounts asked now purposes) {c : Recovery.SavedContact}
    {rest : List Recovery.SavedContact} (hqueue : d.recovery.queued = c :: rest) (next : Option Nat) :
    { d with recovery :=
      { queued := rest, active := d.recovery.active.insert c, next := next } }.Accounts asked now
        (.recovery c.id :: purposes) := by
  obtain ⟨hnodup, hnone⟩ := h.waiting
  rw [hqueue] at hnodup hnone
  have hnew : d.recovery.active.get? c.id = none := hnone c List.mem_cons_self
  have hinsert : d.recovery.active.insert c = d.recovery.active.insertNew c := by
    unfold Table.insert
    rw [Table.erase_of_none hnew]
  have hid := (List.nodup_cons.1 hnodup).1
  refine { h with recovery := fun hpaused => ?_, waiting := ⟨(List.nodup_cons.1 hnodup).2, ?_⟩ }
  · simp only [hinsert]
    exact (h.recovery hpaused).opens rfl hnew
  · intro x hx
    have hne : c.id ≠ x.id := fun heq => hid (heq ▸ List.mem_map_of_mem hx)
    simp only [Table.get?_insert, if_neg hne]
    exact hnone x (List.mem_cons_of_mem _ hx)

/-- **`advance_recovery`** asks the next saved contact. -/
theorem Open.advanceRecovery (h : d.Open asked now hand [] 0 0) :
    (d.advanceRecovery now).Open asked now hand [] 0 0 := by
  unfold Dispatcher.advanceRecovery
  split
  · exact h
  · split
    · exact h
    · rename_i c rest hqueue
      have hbegin : { d with recovery :=
          { queued := rest, active := d.recovery.active.insert c,
            next := some (now + Recovery.RECOVERY_PACE) } }.Open asked now
          (.recovery c.id :: hand) [] 0 0 := h.enter rfl (fun ha => ha.beginRecovery hqueue _)
      exact hbegin.start (fun _ => by simp) _ _

/-! ## Maintenance -/

/-- The state of the maintenance may change with the nodes that it waits for. -/
theorem Accounts.maintain (h : d.Accounts asked now purposes) {m' : MaintenanceState}
    (nodes : List NodeId)
    (hm : d.maintenance.Waits (purposes.filterMap Purpose.lookup?) →
      m'.Waits (nodes ++ purposes.filterMap Purpose.lookup?)) :
    { d with maintenance := m' }.Accounts asked now
      (nodes.map Purpose.maintenanceLookup ++ purposes) := by
  have hskip : ∀ {β : Type} (f : Purpose → Option β), (∀ id, f (.maintenanceLookup id) = none) →
      (nodes.map Purpose.maintenanceLookup ++ purposes).filterMap f = purposes.filterMap f := by
    intro β f hf
    have hnil : (nodes.map Purpose.maintenanceLookup).filterMap f = [] := by
      rw [List.filterMap_map]
      exact List.filterMap_eq_nil_iff.2 (fun id _ => hf id)
    rw [List.filterMap_append, hnil, List.nil_append]
  have hnodes : (nodes.map Purpose.maintenanceLookup ++ purposes).filterMap Purpose.lookup? =
      nodes ++ purposes.filterMap Purpose.lookup? := by
    rw [List.filterMap_append, List.filterMap_map]
    exact congrArg (· ++ _) List.filterMap_some
  obtain ⟨hv, hb, hr, hw, hl, hs, hc, hrouting⟩ := h
  constructor
  · unfold Table.Records
    rw [hskip _ (fun _ => rfl)]
    exact hv
  · unfold Table.Records
    rw [hskip _ (fun _ => rfl)]
    exact hb
  · unfold Table.Records
    rw [hskip _ (fun _ => rfl)]
    exact hr
  · exact hw
  · rw [hnodes]
    exact hm hl
  · rw [hskip _ (fun _ => rfl)]
    exact hs
  · rw [hskip _ (fun _ => rfl)]
    exact hc
  · exact hrouting

/-- A lookup that is complete ends. -/
theorem Open.finishMaintenance (h : d.Open asked now hand [] 0 0) :
    (d.finishMaintenance now).Open asked now hand [] 0 0 := by
  have hrouting : (d.maintenance.finishIfComplete d.routing now).2.Shape := by
    unfold MaintenanceState.finishIfComplete
    split
    · exact h.accounts.routing
    · split
      · unfold MaintenanceState.finish
        simp only
        split
        · simp only
          split
          · exact h.accounts.routing
          · rename_i lookup _ _ _ _ _
            obtain ⟨t', ht', hmarks⟩ :=
              RoutingTable.markRefreshed_spec h.accounts.routing lookup.target now
            rw [ht']
            exact hmarks.shape h.accounts.routing
        · exact h.accounts.routing
      · exact h.accounts.routing
  unfold Dispatcher.finishMaintenance
  refine ⟨h.books.frame (by simp [traffic]), ?_⟩
  have hm := h.accounts.maintain [] (fun hw => hw.finishIfComplete d.routing now)
  exact (hm.reroute hrouting).frame rfl

/-- One node of a lookup is asked, or refused by the policy. -/
theorem Open.askNode {target : NodeId} {node : NodeContact}
    (h : d.Open asked now (.maintenanceLookup node.id :: hand) [] 0 0) :
    (askNode target now d node).Open asked now hand [] 0 0 := by
  unfold Dispatcher.askNode
  split
  · exact h.start (fun _ => by simp) _ _
  · exact h.settle rfl (fun ha => ha.endLookup (fun hw => hw.completeFailure))

theorem Open.askAll {target : NodeId} : ∀ (nodes : List NodeContact) {d : Dispatcher},
    d.Open asked now ((nodes.map NodeContact.id).map Purpose.maintenanceLookup ++ hand) [] 0 0 →
    (nodes.foldl (Dispatcher.askNode target now) d).Open asked now hand [] 0 0
  | [], _, h => h
  | _ :: rest, _, h => Open.askAll rest h.askNode

theorem Open.askNodes (h : d.Open asked now hand [] 0 0) :
    (d.askNodes now).Open asked now hand [] 0 0 := by
  unfold Dispatcher.askNodes
  cases hlookup : d.maintenance.lookup with
  | none => exact h
  | some lookup =>
    have hm := h.accounts.maintain
      ((lookup.takeNext d.maintenance.config.toMaintenanceConfig
        (d.automaticLimit - d.occupied)).2.map NodeContact.id)
      (fun hw => hw.takeNext hlookup (d.automaticLimit - d.occupied))
    refine Open.finishMaintenance (Open.askAll _ ⟨h.books.frame rfl, ?_⟩)
    exact (hm.perm (List.perm_append_comm_assoc _ _ _)).frame rfl

/-- **`advance_maintenance`** begins a lookup, asks its next nodes and ends it. -/
theorem Open.advanceMaintenance (h : d.Open asked now hand [] 0 0) :
    (d.advanceMaintenance now).Open asked now hand [] 0 0 := by
  have hm := h.accounts.maintain []
    (fun hw => hw.beginIfDue d.routing now d.answer.random)
  have hbegin : { d.asked with
      maintenance := d.maintenance.beginIfDue d.routing now d.answer.random }.Open asked now hand []
      0 0 := ⟨h.books.frame (by simp [traffic, Dispatcher.asked]), hm.frame rfl⟩
  unfold Dispatcher.advanceMaintenance
  exact hbegin.finishMaintenance.askNodes

/-! ## Sampling -/

/-- The sampler may change with the request that it holds. -/
theorem Accounts.sample (h : d.Accounts asked now purposes) {request : Option Request} {s' : Sampler}
    (hs : d.sampler.Driven now (purposes.filterMap Purpose.request?) →
      s'.Driven now (request.toList ++ purposes.filterMap Purpose.request?)) :
    { d with sampler := s' }.Accounts asked now
      (request.toList.map Purpose.sampling ++ purposes) := by
  cases request with
  | none => exact { h with sampler := hs h.sampler }
  | some request =>
    exact
      { verifications := h.verifications
        probes := h.probes
        recovery := h.recovery
        waiting := h.waiting
        lookup := h.lookup
        sampler := hs h.sampler
        callers := h.callers
        routing := h.routing }

/-- What the sampler returns is in hand. -/
theorem Open.sample (h : d.Open asked now hand [] 0 0) {request : Option Request} {s' : Sampler}
    (hs : ∀ {held : List Request}, d.sampler.Driven now held →
      s'.Driven now (request.toList ++ held)) :
    { d with sampler := s' }.Open asked now (request.toList.map Purpose.sampling ++ hand) [] 0 0 :=
  ⟨h.books.frame rfl, ((h.accounts.sample hs).perm (List.perm_append_comm_assoc _ _ _)).frame rfl⟩

/-- A request that the sampler has in hand is taken back, and may be returned. -/
theorem Open.resample {request : Request} {result : Option Request} {s' : Sampler}
    (h : d.Open asked now (.sampling request :: hand) [] 0 0)
    (hs : ∀ {held : List Request}, d.sampler.Driven now (request :: held) →
      s'.Driven now (result.toList ++ held)) :
    { d with sampler := s' }.Open asked now (result.toList.map Purpose.sampling ++ hand) [] 0 0 := by
  have ha : { d with sampler := s' }.Accounts asked now
      (result.toList.map Purpose.sampling ++ (d.outstanding ++ hand)) := by
    have hbefore := h.accounts.perm List.perm_middle
    cases result with
    | none => exact hbefore.endSampling hs
    | some r =>
      exact
        { verifications := hbefore.verifications
          probes := hbefore.probes
          recovery := hbefore.recovery
          waiting := hbefore.waiting
          lookup := hbefore.lookup
          sampler := hs hbefore.sampler
          callers := hbefore.callers
          routing := hbefore.routing }
  exact ⟨h.books.frame rfl, (ha.perm (List.perm_append_comm_assoc _ _ _)).frame rfl⟩

/-- **A request that was chosen is reserved, and started once it is.** -/
theorem Open.launch {request : Request} (h : d.Open asked now (.sampling request :: hand) [] 0 0) :
    (d.launch request now).Open asked now hand [] 0 0 := by
  have hreserved := h.resample (fun hd => hd.reserveRequest)
  unfold Dispatcher.launch
  simp only
  cases hr : (d.sampler.reserveRequest request now now).2 with
  | none =>
    rw [hr] at hreserved
    exact hreserved
  | some r =>
    rw [hr] at hreserved
    exact hreserved.start (fun _ => by simp) _ _

theorem Open.selectNext (h : d.Open asked now hand [] 0 0) (capacity : Nat) :
    (d.selectNext capacity now).Open asked now hand [] 0 0 := by
  have hasked : d.asked.Open asked now hand [] 0 0 := h.frame rfl rfl
  have hnext := hasked.sample
    (fun hd => hd.next d.routing capacity d.answer.output d.answer.random)
  unfold Dispatcher.selectNext
  simp only
  cases hr : (d.sampler.next d.routing capacity now d.answer.output d.answer.random).2 with
  | none =>
    rw [show (d.asked.sampler.next d.routing capacity now d.answer.output d.answer.random).2 = none
      from hr] at hnext
    exact hnext
  | some r =>
    rw [show (d.asked.sampler.next d.routing capacity now d.answer.output d.answer.random).2 = some r
      from hr] at hnext
    exact hnext.launch

/-- **`advance_sampler`** starts one request at most, or stops the sampler. -/
theorem Open.advanceSampler (h : d.Open asked now [] [] 0 0) :
    (d.advanceSampler now).Open asked now [] [] 0 0 := by
  have hasked : d.asked.Open asked now [] [] 0 0 := h.frame rfl rfl
  have htaken := h.sample (fun hd => hd.takeReserved (d.automaticLimit - d.occupied))
  unfold Dispatcher.advanceSampler
  split
  · exact h
  · split
    · exact hasked.stopSampler
    · simp only
      cases hr : (d.sampler.takeReserved (d.automaticLimit - d.occupied) now).2 with
      | some r =>
        rw [hr] at htaken
        exact htaken.launch
      | none =>
        rw [hr] at htaken
        simp only
        split
        · exact htaken
        · exact htaken.selectNext _

/-! ## Commands -/

/-- A caller comes with its query. -/
theorem Open.ask (h : d.Open asked now hand [] 0 0) {caller : Caller} (hp : p.caller? = some caller) :
    d.Open (caller :: asked) now (p :: hand) [] 0 0 := by
  refine ⟨h.books, Accounts.perm ?_ List.perm_middle.symm⟩
  have ha := h.accounts
  rcases of_caller hp with rfl | rfl
  all_goals exact
    { verifications := ha.verifications
      probes := ha.probes
      recovery := ha.recovery
      waiting := ha.waiting
      lookup := ha.lookup
      sampler := ha.sampler
      callers := ha.callers.cons caller
      routing := ha.routing }

/-- **`GetPeers`** is started, or answered at once. -/
theorem Open.getPeers (h : d.Open asked now hand [] 0 0) (caller : Caller)
    (remote : Recovery.RemoteNode) (hash : SwarmKey) (gone : Bool) :
    (d.getPeers caller remote hash gone now).Open (caller :: asked) now hand [] 0 0 := by
  have hask : d.Open (caller :: asked) now (.fetch caller :: hand) [] 0 0 := h.ask rfl
  unfold Dispatcher.getPeers
  split
  · exact hask.settle rfl (fun ha => ha.reclaim rfl)
  · split
    · exact hask.settle rfl (fun ha => ha.reply rfl _)
    · split
      · exact hask.settle rfl (fun ha => ha.reply rfl _)
      · exact hask.start (fun _ => by simp) _ _

/-- **`BootstrapPing`** too. -/
theorem Open.bootstrapPing (h : d.Open asked now hand [] 0 0) (caller : Caller)
    (remote : Recovery.RemoteNode) :
    (d.bootstrapPing caller remote now).Open (caller :: asked) now hand [] 0 0 := by
  have hask : d.Open (caller :: asked) now (.userPing caller :: hand) [] 0 0 := h.ask rfl
  unfold Dispatcher.bootstrapPing
  split
  · exact hask.settle rfl (fun ha => ha.reply rfl _)
  · rename_i hroom
    have hcapacity : d.occupied < d.automaticLimit := by
      simpa [recoveryCapacity] using hroom
    exact (hask.more 1).startRpc (fun _ _ => hcapacity) remote .ping

theorem Open.samplingPause (h : d.Open asked now hand [] 0 0) (paused : Bool) :
    (d.samplingPause paused now).Open asked now hand [] 0 0 := by
  have hset : { d with samplingPaused := paused }.Open asked now hand [] 0 0 := h.frame rfl rfl
  unfold Dispatcher.samplingPause
  simp only
  split
  · exact hset.discardQueuedSampling
  · exact hset

/-- The sampler changes, and holds what it held. -/
theorem Open.drive (h : d.Open asked now hand [] 0 0) {s' : Sampler}
    (hs : ∀ {held : List Request}, d.sampler.Driven now held → s'.Driven now held) :
    { d with sampler := s' }.Open asked now hand [] 0 0 := by
  have hnone : ∀ {held : List Request}, d.sampler.Driven now held →
      s'.Driven now ((none : Option Request).toList ++ held) := hs
  exact h.sample hnone

theorem Open.storagePause (h : d.Open asked now [] [] 0 0) (error : StorageError) :
    (d.storagePause error now).Open asked now [] [] 0 0 :=
  h.stopSampler.drive (fun hd => hd.markStorageFault error)

theorem Open.startSampling (h : d.Open asked now hand [] 0 0) (config : SamplerConfig)
    (random : NodeId) : (d.startSampling config random now).Open asked now hand [] 0 0 :=
  h.drive (fun hd => hd.start config _ random)

end Dispatcher

end BtSniffer
