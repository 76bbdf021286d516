import BtSniffer.Dht.DispatcherSteady

/-!
# The steps of the loop keep the identity

* `steady_handleResponse`, `steady_handleError`, `steady_expireTransactions` — ends of queries.
* `steady_act` — every step of the loop but a change of identity.
-/

set_option autoImplicit false

namespace BtSniffer

open Relational

namespace Dispatcher

variable {d d' : Dispatcher} {now : Nat}

/-! ## Routing -/

theorem steady_recordFailure (d : Dispatcher) (id : NodeId) :
    Steady now d (d.recordFailure id now).2 :=
  steady_reroute (fun h => h.recordFailure id) (fun h => RoutingTable.recordFailure_owner h id)

theorem steady_blame (d : Dispatcher) (remote : Recovery.RemoteNode) (error : QueryError) :
    Steady now d (d.blame remote error now) := by
  unfold blame recordExpectedFailure
  split
  · exact .refl d
  · split
    · exact .refl d
    · exact steady_recordFailure d _

theorem steady_startBucketProbe (d : Dispatcher) (incumbent : NodeContact)
    (remaining : List NodeContact) (candidate : NodeContact) (attempt : Nat) :
    Steady now d (d.startBucketProbe incumbent remaining candidate attempt now) := by
  unfold startBucketProbe
  simp only
  split
  · exact .refl d
  · have hbegin : Steady now d
        { d with bucketProbes := d.bucketProbes.insertNew (incumbent.id, incumbent.address) } :=
      .of_eq rfl rfl
    exact hbegin.trans (steady_startRpc _ _ _ _)

theorem steady_handleInsertOutcome (d : Dispatcher) (outcome : InsertOutcome) :
    Steady now d (d.handleInsertOutcome outcome now) := by
  unfold handleInsertOutcome
  split
  · exact steady_startBucketProbe d _ _ _ _
  · exact .refl d

theorem steady_reconsider (d : Dispatcher) (candidate : NodeContact) :
    Steady now d (d.reconsider candidate now) := by
  unfold reconsider
  exact (steady_reroute (fun h => h.reconsiderCandidate candidate)
    (fun h => RoutingTable.reconsiderCandidate_owner h candidate)).trans
      (steady_handleInsertOutcome _ _)

/-- The key of a bucket probe is given up. -/
theorem steady_endProbe (d : Dispatcher) (key : NodeId × SocketAddr) :
    Steady now d { d with bucketProbes := d.bucketProbes.erase key } := .of_eq rfl rfl

/-! ## Completion -/

theorem steady_probeAnswered (d : Dispatcher) (incumbent : NodeContact) (remaining : List NodeContact)
    (candidate : NodeContact) : Steady now d (d.probeAnswered incumbent remaining candidate now) := by
  unfold probeAnswered
  refine (steady_endProbe d (incumbent.id, incumbent.address)).trans ?_
  simp only
  split
  · exact steady_reconsider _ candidate
  · exact steady_startBucketProbe _ _ _ _ _

theorem steady_finishSuccess (d : Dispatcher) (p : Purpose) (responderId : NodeId)
    (decoded : Validated) : Steady now d (d.finishSuccess p responderId decoded now) := by
  cases p with
  | fetch caller =>
    unfold finishSuccess
    simp only
    split
    · exact .of_eq rfl rfl
    · exact .of_eq rfl rfl
  | sampling request =>
    unfold finishSuccess
    simp only
    split
    · exact .frame rfl (Sampler.keeps_success _ _ _ _ _ _)
    · exact .frame rfl (Sampler.keeps_nodes _ _ _ _ _ _)
  | bucketProbe incumbent remaining candidate attempt =>
    exact steady_probeAnswered d incumbent remaining candidate
  | _ => exact .of_eq rfl rfl

theorem steady_probeFailed (d : Dispatcher) (incumbent : NodeContact) (remaining : List NodeContact)
    (candidate : NodeContact) (attempt : Nat) :
    Steady now d (d.probeFailed incumbent remaining candidate attempt now) := by
  unfold probeFailed
  refine (steady_recordFailure d incumbent.id).trans ?_
  simp only
  split
  · exact (steady_endProbe _ _).trans (steady_reconsider _ candidate)
  · split
    · exact steady_startRpc _ _ _ _
    · exact steady_endProbe _ _

theorem steady_finishNetworkFailure (d : Dispatcher) (remote : Recovery.RemoteNode) (p : Purpose)
    (error : QueryError) : Steady now d (d.finishNetworkFailure remote p error now) := by
  have hblame : Steady now d (d.blame remote error now) := steady_blame d remote error
  cases p with
  | fetch caller => exact hblame.trans (.of_eq rfl rfl)
  | sampling request => exact hblame.trans (.frame rfl (Sampler.keeps_failure _ _ _ _ _))
  | userPing caller => exact hblame.trans (.of_eq rfl rfl)
  | bucketProbe incumbent remaining candidate attempt =>
    exact steady_probeFailed d incumbent remaining candidate attempt
  | maintenanceLookup nodeId => exact hblame.trans (.of_eq rfl rfl)
  | _ => exact .of_eq rfl rfl

/-- The transactions may change. -/
theorem steady_transactions (d : Dispatcher) (m : TransactionManager) :
    Steady now d { d with transactions := m } := .of_eq rfl rfl

theorem steady_failPending (d : Dispatcher) (id : TransactionId) (error : QueryError) :
    Steady now d (d.failPending id error now) := by
  unfold failPending
  split
  · exact .refl d
  · exact (steady_erase d d.transactions id).trans (steady_finishNetworkFailure _ _ _ _)

theorem steady_expireTransactions (d : Dispatcher) : Steady now d (d.expireTransactions now) := by
  unfold expireTransactions
  exact (steady_transactions d _).trans (.foldl
    (fun d (x : PendingTransaction) => steady_failPending d x.id .timeout) _ _)

/-! ## Datagrams -/

/-- An address is noticed only while the identity is not paused. -/
theorem steady_observeExternal (hp : d.identityPaused = false) (source : SocketAddr)
    (bytes : Option (List UInt8)) : Steady now d (d.observeExternal source bytes now) := by
  unfold observeExternal
  split
  · exact .refl d
  · split
    · intro hs
      refine ⟨⟨hs.paused, hs.punctual, hs.awake, hs.routing⟩, rfl, fun he => he, fun hpaused => ?_⟩
      rw [hpaused] at hp
      cases hp
    · exact .refl d

theorem steady_deliver (hp : d.identityPaused = false) (p : Purpose) (received : Received)
    (response : ResponseArgs) (decoded : Validated) :
    Steady now d (d.deliver p received response decoded now) := by
  unfold deliver
  refine (steady_observeExternal hp received.source received.message.ip).trans ?_
  simp only
  exact ((steady_reroute (fun h => h.observeResponse _ _)
    (fun h => RoutingTable.observeResponse_owner h _ _)).trans
      (steady_finishSuccess _ p response.id decoded)).trans (steady_handleInsertOutcome _ _)

/-- While the identity is paused, no query is pending. -/
theorem Sane.get?_pending (hs : d.Sane now) (hp : d.identityPaused = true) (id : TransactionId) :
    d.pending.get? id = none :=
  Table.get?_eq_none.2 fun _ hx => absurd ((hs.paused hp).2 ▸ hx) List.not_mem_nil

theorem steady_handleResponse (d : Dispatcher) (received : Received) :
    Steady now d (d.handleResponse received now) := by
  intro hs
  unfold handleResponse
  split
  · rename_i completed m _
    by_cases hp : d.identityPaused = true
    · simp only [hs.get?_pending hp]
      exact steady_transactions d m hs
    · have hp' := Bool.not_eq_true _ ▸ hp
      simp only
      split
      · exact steady_transactions d m hs
      · rename_i p _
        have htaken : Steady now d { d with transactions := m, pending := d.pending.erase p.id } :=
          steady_erase d m p.id
        split
        · exact htaken.trans (steady_finishNetworkFailure _ _ _ _) hs
        · exact htaken.trans (steady_deliver (by exact hp') _ _ _ _) hs
  · exact (steady_transactions d _).trans (steady_failPending _ _ _) hs
  · exact steady_transactions d _ hs

theorem steady_handleError (d : Dispatcher) (received : Received) :
    Steady now d (d.handleError received now) := by
  intro hs
  unfold handleError
  simp only
  split
  · rename_i completed m _
    by_cases hp : d.identityPaused = true
    · simp only [hs.get?_pending hp]
      exact steady_transactions d m hs
    · have hp' := Bool.not_eq_true _ ▸ hp
      split
      · exact steady_transactions d m hs
      · rename_i p _
        have htaken : Steady now d { d with transactions := m, pending := d.pending.erase p.id } :=
          steady_erase d m p.id
        split
        · exact htaken.trans (steady_finishNetworkFailure _ _ _ _) hs
        · split
          · exact htaken.trans ((steady_observeExternal (by exact hp') _ _).trans
              (steady_finishNetworkFailure _ _ _ _)) hs
          · exact htaken.trans (steady_finishNetworkFailure _ _ _ _) hs
  · exact (steady_transactions d _).trans (steady_failPending _ _ _) hs
  · exact steady_transactions d _ hs

/-! ## Cancellation -/

theorem steady_reclaim (d : Dispatcher) (p : Purpose) : Steady now d (d.reclaim p) := .of_eq rfl rfl

theorem steady_reclaimPending (d : Dispatcher) (p : PendingDispatch) :
    Steady now d (d.reclaimPending p) := by
  unfold reclaimPending
  exact (steady_erase d (d.transactions.cancel p.id).2 p.id).trans (steady_reclaim _ p.purpose)

theorem steady_cancelFetchQueries (d : Dispatcher) (gone : Caller → Bool) :
    Steady now d (d.cancelFetchQueries gone) := by
  unfold cancelFetchQueries
  refine .trans ?_ (.foldl steady_reclaimPending _ _)
  exact (steady_unqueue d _).trans
    (.foldl (fun d (q : Queued) => steady_reclaim d q.purpose) _ _)

theorem steady_abandon (d : Dispatcher) (r : Request) :
    Steady now d { d with sampler := d.sampler.abandonUnsent r now } :=
  .frame rfl (Sampler.keeps_abandonUnsent d.sampler r now)

theorem steady_discardQueuedSampling (d : Dispatcher) : Steady now d (d.discardQueuedSampling now) := by
  unfold discardQueuedSampling
  exact (steady_unqueue d _).trans (.foldl steady_abandon _ _)

theorem steady_cancelSampling (d : Dispatcher) (p : PendingDispatch) :
    Steady now d (cancelSampling now d p) := by
  unfold cancelSampling
  split
  · exact .refl d
  · rename_i request _
    exact (steady_erase d (d.transactions.cancel p.id).2 p.id).trans
      (.frame rfl (Sampler.keeps_cancelRequest d.sampler request now now))

theorem steady_stopSampler (d : Dispatcher) : Steady now d (d.stopSampler now) := by
  unfold stopSampler
  simp only
  refine ((steady_discardQueuedSampling d).trans ?_).trans (.foldl steady_cancelSampling _ _)
  exact .frame rfl (Sampler.keeps_stop _ now)

/-! ## What the loop starts -/

theorem steady_scheduleVerification (d : Dispatcher) (id : NodeId) (address : SocketAddr) :
    Steady now d (d.scheduleVerification id address now) := by
  unfold scheduleVerification
  split
  · exact .refl d
  · have hbegin : Steady now d
        { d with verifications := d.verifications.insertNew (id, address) } := .of_eq rfl rfl
    exact hbegin.trans (steady_startRpc _ _ _ _)

theorem steady_observeQuery (d : Dispatcher) (id : NodeId) (address : SocketAddr) (readOnly : Bool) :
    Steady now d (d.observeQuery id address readOnly now) := by
  have hroute : Steady now d { d with routing :=
      ((d.routing.observeQuery id address readOnly now).getD (.updated, d.routing)).2 } :=
    steady_reroute (fun h => h.observeQuery id address readOnly)
      (fun h => RoutingTable.observeQuery_owner h id address readOnly)
  unfold observeQuery
  refine hroute.trans ?_
  simp only
  split
  · exact steady_scheduleVerification _ _ _
  · exact .refl _

theorem steady_advanceRecovery (d : Dispatcher) : Steady now d (d.advanceRecovery now) := by
  unfold advanceRecovery
  split
  · exact .refl d
  · split
    · exact .refl d
    · rename_i c rest _
      have hbegin : Steady now d { d with recovery :=
          { queued := rest, active := d.recovery.active.insert c,
            next := some (now + Recovery.RECOVERY_PACE) } } := .of_eq rfl rfl
      exact hbegin.trans (steady_startRpc _ _ _ _)

theorem steady_finishMaintenance (d : Dispatcher) : Steady now d (d.finishMaintenance now) := by
  intro hs
  have hrouting : (d.maintenance.finishIfComplete d.routing now).2.Shape ∧
      (d.maintenance.finishIfComplete d.routing now).2.owner = d.routing.owner := by
    unfold MaintenanceState.finishIfComplete
    split
    · exact ⟨hs.routing, rfl⟩
    · split
      · unfold MaintenanceState.finish
        simp only
        split
        · simp only
          split
          · exact ⟨hs.routing, rfl⟩
          · rename_i lookup _ _ _ _ _
            obtain ⟨t', ht', hmarks⟩ := RoutingTable.markRefreshed_spec hs.routing lookup.target now
            rw [ht']
            refine ⟨hmarks.shape hs.routing, ?_⟩
            obtain ⟨_, _, _, _, _, rfl⟩ := hmarks
            rfl
        · exact ⟨hs.routing, rfl⟩
      · exact ⟨hs.routing, rfl⟩
  unfold finishMaintenance
  have hroute : Steady now d { d with
      routing := (d.maintenance.finishIfComplete d.routing now).2 } :=
    steady_reroute (fun _ => hrouting.1) (fun _ => hrouting.2)
  refine Steady.trans hroute ?_ hs
  exact .of_eq rfl rfl

theorem steady_askNode (target : NodeId) (d : Dispatcher) (node : NodeContact) :
    Steady now d (askNode target now d node) := by
  unfold askNode
  split
  · exact steady_startRpc d _ _ _
  · exact .of_eq rfl rfl

theorem steady_askNodes (d : Dispatcher) : Steady now d (d.askNodes now) := by
  unfold askNodes
  split
  · exact .refl d
  · rename_i lookup _
    refine Steady.trans ?_ (steady_finishMaintenance _)
    refine Steady.trans ?_ (.foldl (steady_askNode lookup.target) _ _)
    exact .of_eq rfl rfl

theorem steady_advanceMaintenance (d : Dispatcher) : Steady now d (d.advanceMaintenance now) := by
  unfold advanceMaintenance
  refine Steady.trans ?_ (steady_askNodes _)
  refine Steady.trans ?_ (steady_finishMaintenance _)
  exact .of_eq rfl rfl

theorem steady_launch (d : Dispatcher) (request : Request) : Steady now d (d.launch request now) := by
  have hreserved : Steady now d
      { d with sampler := (d.sampler.reserveRequest request now now).1 } :=
    .frame rfl (Sampler.keeps_reserveRequest d.sampler request now now)
  unfold launch
  simp only
  split
  · exact hreserved
  · exact hreserved.trans (steady_startRpc _ _ _ _)

theorem steady_selectNext (d : Dispatcher) (capacity : Nat) :
    Steady now d (d.selectNext capacity now) := by
  unfold selectNext
  simp only
  have hnext : Steady now d { d.asked with sampler :=
      (d.sampler.next d.routing capacity now d.answer.output d.answer.random).1 } :=
    .frame rfl (Sampler.keeps_next d.sampler d.routing capacity now d.answer.output d.answer.random)
  split
  · exact hnext
  · exact hnext.trans (steady_launch _ _)

theorem steady_advanceSampler (d : Dispatcher) : Steady now d (d.advanceSampler now) := by
  unfold advanceSampler
  split
  · exact .refl d
  · split
    · exact (steady_asked d).trans (steady_stopSampler _)
    · have htaken : Steady now d { d with sampler :=
          (d.sampler.takeReserved (d.automaticLimit - d.occupied) now).1 } :=
        .frame rfl (Sampler.keeps_takeReserved d.sampler _ now)
      simp only
      split
      · exact htaken.trans (steady_launch _ _)
      · split
        · exact htaken
        · exact htaken.trans (steady_selectNext _ _)

/-! ## Commands -/

theorem steady_getPeers (d : Dispatcher) (caller : Caller) (remote : Recovery.RemoteNode)
    (hash : SwarmKey) (gone : Bool) : Steady now d (d.getPeers caller remote hash gone now) := by
  unfold getPeers
  split
  · exact .of_eq rfl rfl
  · split
    · exact .of_eq rfl rfl
    · split
      · exact .of_eq rfl rfl
      · exact steady_startRpc d _ _ _

theorem steady_bootstrapPing (d : Dispatcher) (caller : Caller) (remote : Recovery.RemoteNode) :
    Steady now d (d.bootstrapPing caller remote now) := by
  unfold bootstrapPing
  split
  · exact .of_eq rfl rfl
  · exact steady_startRpc d _ _ _

theorem steady_samplingPause (d : Dispatcher) (paused : Bool) :
    Steady now d (d.samplingPause paused now) := by
  unfold samplingPause
  simp only
  split
  · refine Steady.trans ?_ (steady_discardQueuedSampling _)
    exact .of_eq rfl rfl
  · exact .of_eq rfl rfl

theorem steady_storagePause (d : Dispatcher) (error : StorageError) :
    Steady now d (d.storagePause error now) :=
  (steady_stopSampler d).trans (.frame rfl (Sampler.keeps_markStorageFault _ _ _))

/-! ## Steps -/

/-- A change of identity. -/
def Act.rotates : Act → Bool
  | .rotate .. => true
  | _ => false

/-- **Every other step keeps the identity**, and sends nothing while it is paused. -/
theorem steady_act {a : Act} (ha : a.rotates = false) (hact : d.act now a = some d') :
    Steady now d d' := by
  cases a with
  | rotate events bound random current => cases ha
  | storageEvent event =>
    obtain ⟨s, hs, rfl⟩ := Option.map_eq_some_iff.1 hact
    exact .frame rfl (Sampler.keeps_storageEvent hs)
  | getPeers caller remote hash gone =>
    cases hact
    exact steady_getPeers d caller remote hash gone
  | bootstrapPing caller remote =>
    cases hact
    exact steady_bootstrapPing d caller remote
  | startSampling config random =>
    cases hact
    exact .frame rfl (Sampler.keeps_start _ _ _ _ _)
  | stopSampling =>
    cases hact
    exact steady_stopSampler d
  | storagePause error =>
    cases hact
    exact steady_storagePause d error
  | samplingPause paused =>
    cases hact
    exact steady_samplingPause d paused
  | cancelFetches gone =>
    cases hact
    exact steady_cancelFetchQueries d gone
  | query id address readOnly =>
    cases hact
    exact steady_observeQuery d id address readOnly
  | response received =>
    cases hact
    exact steady_handleResponse d received
  | error received =>
    cases hact
    exact steady_handleError d received
  | expire =>
    cases hact
    exact steady_expireTransactions d
  | acceptPermit =>
    cases hact
    exact .frame rfl (Sampler.keeps_acceptPermit _)
  | outbound =>
    cases hact
    exact steady_advanceOutbound d
  | maintenance =>
    cases hact
    exact steady_advanceMaintenance d
  | recovery =>
    cases hact
    exact steady_advanceRecovery d
  | sampler =>
    cases hact
    exact steady_advanceSampler d

end Dispatcher

end BtSniffer
