import BtSniffer.Dht.DispatcherOps

/-!
# The loop of the dispatcher

Reference model of the steps of `run_loop` (`src/dht/dispatcher/runtime/driver.rs`) and of what they
call: commands, cancellation, verification, maintenance, recovery, sampling and the change of identity.

* `Act` is one step of the loop. A run takes them in any order, which includes that of the loop.
* A datagram that the budget does not admit or the decoder refuses is no step; shutdown ends a run.
* The order in which the source walks over its hash maps is that of the table.
-/

set_option autoImplicit false

namespace BtSniffer

open Relational

/-! ## Saved contacts -/

/-- One contact of `RoutingTable::snapshot`. -/
def NodeContact.saved (c : NodeContact) (now : Nat) (wall : Int) :
    Except StorageError Recovery.SavedContact :=
  if now < c.lastResponse then .error (.invalid "路由响应时间在未来")
  else
    let at_ := wall - (now - c.lastResponse : Nat)
    if at_ < -TIME_LIMIT then .error (.invalid "路由时间换算溢出")
    else
      match unixMillis at_ with
      | .error e => .error (.invalid e.label)
      | .ok respondedAt => .ok ⟨c.id, c.address, respondedAt⟩

/-- `RoutingTable::snapshot`. -/
def RoutingTable.snapshot (t : RoutingTable) (now : Nat) (wall : Int) :
    Except StorageError (List Recovery.SavedContact) :=
  (t.contacts.filter (fun c => decide (c.status now ≠ .bad))).mapM (fun c => c.saved now wall)

namespace Dispatcher

/-- `saved_contacts`. -/
def savedContacts (d : Dispatcher) (now : Nat) : Except StorageError (List Recovery.SavedContact) :=
  match d.clock.wallAt now with
  | .error e => .error (.invalid e.label)
  | .ok wall =>
    (d.routing.snapshot now wall).map (fun contacts => Recovery.savedContacts d.recovery contacts)

/-! ## Cancellation -/

/-- A pending query of a caller who has gone is given up. -/
def reclaimPending (d : Dispatcher) (p : PendingDispatch) : Dispatcher :=
  { d with
    transactions := (d.transactions.cancel p.id).2
    pending := d.pending.erase p.id }.reclaim p.purpose

/-- `cancel_fetch_queries`; `gone` says which callers have cancelled. -/
def cancelFetchQueries (d : Dispatcher) (gone : Caller → Bool) : Dispatcher :=
  let cancelled := fun purpose : Purpose => purpose.caller?.any gone
  let d := (d.queued.filter (fun q => cancelled q.purpose)).foldl
    (fun d q => d.reclaim q.purpose)
    { d with queued := d.queued.filter (fun q => !cancelled q.purpose) }
  (d.pending.rows.filter (fun p => cancelled p.purpose)).foldl reclaimPending d

/-! ## Verification -/

/-- `schedule_verification`. -/
def scheduleVerification (d : Dispatcher) (id : NodeId) (address : SocketAddr) (now : Nat) :
    Dispatcher :=
  if (d.verifications.get? (id, address)).isSome then d
  else
    { d with verifications := d.verifications.insertNew (id, address) }.startRpc ⟨address, some id⟩
      .ping (.verification (id, address)) now

/-- `observe_query`, after the reply was sent. -/
def observeQuery (d : Dispatcher) (id : NodeId) (address : SocketAddr) (readOnly : Bool) (now : Nat) :
    Dispatcher :=
  let result := (d.routing.observeQuery id address readOnly now).getD (.updated, d.routing)
  let d := { d with routing := result.2 }
  match result.1 with
  | .verificationRequired id address => d.scheduleVerification id address now
  | _ => d

/-! ## Sampling -/

/-- `discard_queued_sampling`. -/
def discardQueuedSampling (d : Dispatcher) (now : Nat) : Dispatcher :=
  (d.queued.filterMap (fun q => q.purpose.request?)).foldl
    (fun d request => { d with sampler := d.sampler.abandonUnsent request now })
    { d with queued := d.queued.filter (fun q => q.purpose.request?.isNone) }

/-- A pending sampling request is cancelled. -/
def cancelSampling (now : Nat) (d : Dispatcher) (p : PendingDispatch) : Dispatcher :=
  match p.purpose.request? with
  | none => d
  | some request =>
    { d with
      transactions := (d.transactions.cancel p.id).2
      pending := d.pending.erase p.id
      sampler := d.sampler.cancelRequest request now now }

/-- `stop_sampler`. -/
def stopSampler (d : Dispatcher) (now : Nat) : Dispatcher :=
  let d := d.discardQueuedSampling now
  let d := { d with sampler := d.sampler.stop now }
  d.pending.rows.foldl (cancelSampling now) d

/-- The query of a sampling request. -/
def samplingQuery (request : Request) : Outbound :=
  if request.kind = .findNodeFallback then .findNode request.target else .sample request.target

/-- A request that was selected gets its reservation, and is started when it has one. -/
def launch (d : Dispatcher) (request : Request) (now : Nat) : Dispatcher :=
  let result := d.sampler.reserveRequest request now now
  let d := { d with sampler := result.1 }
  match result.2 with
  | none => d
  | some request =>
    d.startRpc ⟨request.node.address, some request.node.id⟩ (samplingQuery request)
      (.sampling request) now

/-- `next` and what follows. -/
def selectNext (d : Dispatcher) (capacity now : Nat) : Dispatcher :=
  let result := d.sampler.next d.routing capacity now d.answer.output d.answer.random
  let d := { d.asked with sampler := result.1 }
  match result.2 with
  | none => d
  | some request => d.launch request now

/-- `advance_sampler`. -/
def advanceSampler (d : Dispatcher) (now : Nat) : Dispatcher :=
  if d.samplingPaused then d
  else if d.sampler.session.isSome && d.answer.output.closed then d.asked.stopSampler now
  else
    let capacity := d.automaticLimit - d.occupied
    let result := d.sampler.takeReserved capacity now
    let d := { d with sampler := result.1 }
    match result.2 with
    | some request => d.launch request now
    | none =>
      if d.sampler.durable.any (fun durable => durable.ready.isSome) then d
      else d.selectNext capacity now

/-! ## Maintenance and recovery -/

/-- `finish_if_complete`. -/
def finishMaintenance (d : Dispatcher) (now : Nat) : Dispatcher :=
  let result := d.maintenance.finishIfComplete d.routing now
  { d with maintenance := result.1, routing := result.2 }

/-- One node of a lookup is asked, unless the policy refuses it. -/
def askNode (target : NodeId) (now : Nat) (d : Dispatcher) (node : NodeContact) : Dispatcher :=
  if d.automaticPolicy.accepts node.address then
    d.startRpc ⟨node.address, some node.id⟩ (.findNode target) (.maintenanceLookup node.id) now
  else
    { d with maintenance := d.maintenance.mapLookup (fun lookup => lookup.completeFailure node.id) }

/-- The next nodes of the lookup are asked. -/
def askNodes (d : Dispatcher) (now : Nat) : Dispatcher :=
  match d.maintenance.lookup with
  | none => d
  | some lookup =>
    let next := lookup.takeNext d.maintenance.config.toMaintenanceConfig
      (d.automaticLimit - d.occupied)
    let d := { d with maintenance := { d.maintenance with lookup := some next.1 } }
    (next.2.foldl (askNode lookup.target now) d).finishMaintenance now

/-- `advance_maintenance`. -/
def advanceMaintenance (d : Dispatcher) (now : Nat) : Dispatcher :=
  let maintenance := d.maintenance.beginIfDue d.routing now d.answer.random
  ({ d.asked with maintenance := maintenance }.finishMaintenance now).askNodes now

/-- `recovery_capacity`. -/
def recoveryCapacity (d : Dispatcher) : Bool := decide (d.occupied < d.automaticLimit)

/-- `advance_recovery`. -/
def advanceRecovery (d : Dispatcher) (now : Nat) : Dispatcher :=
  if (d.recovery.deadline d.recoveryCapacity).all (fun at_ => decide (now < at_)) then d
  else
    match d.recovery.queued with
    | [] => d
    | c :: rest =>
      { d with recovery :=
        { queued := rest
          active := d.recovery.active.insert c
          next := some (now + Recovery.RECOVERY_PACE) } }.startRpc
        ⟨c.address, some c.id⟩ .ping (.recovery c.id) now

/-! ## The change of identity -/

/-- What `clear_queries` does with a pending query. -/
def dropPending (error : QueryError) (now : Nat) (d : Dispatcher) (p : PendingDispatch) :
    Dispatcher :=
  let d := { d with transactions := (d.transactions.cancel p.id).2 }
  match p.purpose with
  | .fetch caller => d.reply caller (.error error)
  | .userPing caller => d.reply caller (.error error)
  | .sampling request => { d with sampler := d.sampler.cancelRequest request now now }
  | _ => d

/-- `clear_queries`. -/
def clearQueries (d : Dispatcher) (error : QueryError) (now : Nat) : Dispatcher :=
  let d := d.queued.foldl (fun d q => d.finishStartError q.purpose error now) { d with queued := [] }
  let d := d.pending.rows.foldl (dropPending error now) { d with pending := .empty }
  { d with
    queueDeadline := none
    verifications := .empty
    bucketProbes := .empty
    maintenance := d.maintenance.clear }

/-- `cancel_for_identity`. -/
def cancelForIdentity (d : Dispatcher) (now : Nat) : Dispatcher := d.clearQueries .identityChanged now

/-- `rotate_identity` after `bind` has stored the new identity. -/
def adopt (d : Dispatcher) (identity : LocalIdentity) (ip : IpAddr)
    (contacts : List Recovery.SavedContact) (now : Nat) : Dispatcher :=
  { d with
    identityStore := some identity
    routing := .new identity.nodeId identity.family now
    recovery := ⟨contacts, .empty, some now⟩
    maintenance := .new d.maintenance.config now
    security := d.security.committed ip now
    identityPaused := false }

/-- `rotate_identity` from `cancel_for_identity` on: the database is flushed by `events`, and `bound` is
what `bind` answers. -/
def switchIdentity (d : Dispatcher) (ip : IpAddr) (contacts : List Recovery.SavedContact)
    (events : List (Nat × StorageEvent)) (bound : Except StorageError LocalIdentity)
    (random : NodeId) (now current : Nat) : Option Dispatcher :=
  let d := { d with identityPaused := true }.cancelForIdentity now
  (d.sampler.prepareIdentityChange events random now).map (fun prepared =>
    match prepared.1, bound with
    | .error e, _ => { d with sampler := prepared.2.markStorageFault e current }
    | .ok _, .error e => { d with sampler := prepared.2.markStorageFault e current }
    | .ok _, .ok identity =>
      { d with sampler := prepared.2.identityChanged identity }.adopt identity ip contacts now)

/-- `rotate_identity`. -/
def rotateIdentity (d : Dispatcher) (events : List (Nat × StorageEvent))
    (bound : Except StorageError LocalIdentity) (random : NodeId) (now current : Nat) :
    Option Dispatcher :=
  match d.pendingExternalIp with
  | none => some d
  | some ip =>
    let d := { d with pendingExternalIp := none }
    if d.identityStore.isNone then some d
    else
      match d.savedContacts now with
      | .error e => some { d with sampler := d.sampler.markStorageFault e now }
      | .ok contacts => d.switchIdentity ip contacts events bound random now current

/-! ## Commands -/

/-- `GetPeers`; `gone` is whether the caller has cancelled. -/
def getPeers (d : Dispatcher) (caller : Caller) (remote : Recovery.RemoteNode) (hash : SwarmKey)
    (gone : Bool) (now : Nat) : Dispatcher :=
  if gone then d.reclaim (.fetch caller)
  else if !d.automaticPolicy.accepts remote.address ||
      !d.routing.addressFamily.accepts remote.address then
    d.reply caller (.error (.invalidResponse "get_peers 目标地址无效"))
  else if d.occupied ≥ d.transactions.maxPending - 1 then
    d.reply caller (.error (.atCapacity (d.transactions.maxPending - 1)))
  else d.startRpc remote (.getPeers hash) (.fetch caller) now

/-- `BootstrapPing`. -/
def bootstrapPing (d : Dispatcher) (caller : Caller) (remote : Recovery.RemoteNode) (now : Nat) :
    Dispatcher :=
  if !d.recoveryCapacity then
    d.reply caller (.error (.atCapacity (d.transactions.maxPending - 1)))
  else d.startRpc remote .ping (.userPing caller) now

/-- `SamplingPause`. -/
def samplingPause (d : Dispatcher) (paused : Bool) (now : Nat) : Dispatcher :=
  let d := { d with samplingPaused := paused }
  if paused then d.discardQueuedSampling now else d

/-- `StoragePause`. -/
def storagePause (d : Dispatcher) (error : StorageError) (now : Nat) : Dispatcher :=
  let d := d.stopSampler now
  { d with sampler := d.sampler.markStorageFault error now }

/-- `StartSampling`. -/
def startSampling (d : Dispatcher) (config : SamplerConfig) (random : NodeId) (now : Nat) :
    Dispatcher :=
  { d with sampler := (d.sampler.start config (d.automaticLimit + 1) now random).2 }

/-! ## Steps -/

/-- A step of the loop. -/
inductive Act where
  | getPeers (caller : Caller) (remote : Recovery.RemoteNode) (hash : SwarmKey) (gone : Bool)
  | bootstrapPing (caller : Caller) (remote : Recovery.RemoteNode)
  | startSampling (config : SamplerConfig) (random : NodeId)
  | stopSampling
  | storagePause (error : StorageError)
  | samplingPause (paused : Bool)
  | cancelFetches (gone : Caller → Bool)
  | query (id : NodeId) (address : SocketAddr) (readOnly : Bool)
  | response (received : Received)
  | error (received : Received)
  | expire
  | storageEvent (event : StorageEvent)
  | acceptPermit
  | rotate (events : List (Nat × StorageEvent)) (bound : Except StorageError LocalIdentity)
      (random : NodeId) (current : Nat)
  | outbound
  | maintenance
  | recovery
  | sampler

/-- One step at the time `now`, if it can be taken. -/
def act (d : Dispatcher) (now : Nat) : Act → Option Dispatcher
  | .getPeers caller remote hash gone => some (d.getPeers caller remote hash gone now)
  | .bootstrapPing caller remote => some (d.bootstrapPing caller remote now)
  | .startSampling config random => some (d.startSampling config random now)
  | .stopSampling => some (d.stopSampler now)
  | .storagePause error => some (d.storagePause error now)
  | .samplingPause paused => some (d.samplingPause paused now)
  | .cancelFetches gone => some (d.cancelFetchQueries gone)
  | .query id address readOnly => some (d.observeQuery id address readOnly now)
  | .response received => some (d.handleResponse received now)
  | .error received => some (d.handleError received now)
  | .expire => some (d.expireTransactions now)
  | .storageEvent event =>
    (d.sampler.storageEvent event now).map (fun sampler => { d with sampler := sampler })
  | .acceptPermit => some { d with sampler := d.sampler.acceptPermit }
  | .rotate events bound random current => d.rotateIdentity events bound random now current
  | .outbound => some (d.advanceOutbound now)
  | .maintenance => some (d.advanceMaintenance now)
  | .recovery => some (d.advanceRecovery now)
  | .sampler => some (d.advanceSampler now)

end Dispatcher

end BtSniffer
