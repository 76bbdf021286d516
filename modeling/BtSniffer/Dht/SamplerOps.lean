import BtSniffer.Dht.Sampler
import BtSniffer.Dht.Transaction
import Mathlib.Data.List.MinMax
import Mathlib.Data.List.Sort

/-!
# Operations of the sampler

Reference model of `schedule.rs`, `outcome.rs`, `durable/mod.rs` and of the life cycle in `state.rs`
under `src/dht/dispatcher/sampler/`.
-/

set_option autoImplicit false

namespace BtSniffer

open Relational

/-! ## Errors of queries -/

/-- `UdpTransportError`; an I/O error tells whether its kind is `WriteZero`. -/
inductive UdpTransportError where
  | encode
  | io (writeZero : Bool)
  deriving DecidableEq, Repr

/-- `QueryError`. -/
inductive QueryError where
  | dispatcherClosed
  | localWait
  | identityChanged
  | shuttingDown
  | atCapacity (limit : Nat)
  | transaction (error : TransactionError)
  | transport (error : UdpTransportError)
  | timeout
  | remote (code : Int) (message : List UInt8)
  | invalidResponse (text : String)
  | unexpectedNodeId (expected actual : NodeId)

/-- `matches!(error, QueryError::Remote { code: 204, .. })`. -/
def QueryError.isUnsupported : QueryError → Bool
  | .remote code _ => decide (code = 204)
  | _ => false

/-! ## Routing -/

/-- The rank of a contact in `closest_usable`: good contacts first, then by distance. -/
def usableRank (target : NodeId) (now : Nat) (c : NodeContact) : Nat ×ₗ Nat :=
  toLex (if c.status now = .good then 0 else 1, distance c.id target)

/-- `RoutingTable::closest_usable`. -/
def RoutingTable.closestUsable (routing : RoutingTable) (target : NodeId) (limit now : Nat) :
    List NodeContact :=
  ((routing.contacts.filter (fun c => decide (c.status now ≠ .bad))).insertionSort
    (fun a b => usableRank target now a ≤ usableRank target now b)).take limit

/-- `status(now) == Bad` of a known contact. -/
def RoutingTable.isBad (routing : RoutingTable) (id : NodeId) (now : Nat) : Bool :=
  (routing.contact id).any (fun c => decide (c.status now = .bad))

/-! ## Sessions -/

namespace SamplingSession

/-- `in_flight.contains_key(id)`. -/
def isInFlight (session : SamplingSession) (id : NodeId) : Bool := (session.inFlight.get? id).isSome

/-- `in_flight.values().any(|busy| busy == ip)`. -/
def isBusy (session : SamplingSession) (ip : IpAddr) : Bool :=
  session.inFlight.any (fun e => decide (e.2 = ip))

/-- One node of `add_nodes`. -/
def addNode (session : SamplingSession) (routing : RoutingTable) (now : Nat)
    (node : DiscoveredNode) : SamplingSession :=
  if node.id = routing.localId ∨ routing.isBad node.id now then session
  else
    let known := routing.contact node.id
    let node := known.elim node (fun c => ⟨c.id, c.address⟩)
    if !routing.addressFamily.accepts node.address ||
        !session.config.addressPolicy.accepts node.address then session
    else
      match session.candidates.get? node.id with
      | none => { session with candidates := session.candidates.insert (node.id, .new node) }
      | some row =>
        if known.isSome && !session.isInFlight node.id then
          { session with
            candidates := session.candidates.insert (node.id, { row.2 with node := node }) }
        else session

/-- The candidate that `add_nodes` gives up next: the most distant one that is not in flight. -/
def worst (session : SamplingSession) : Option NodeId :=
  (((session.candidates.rows.map Prod.snd).filter
    (fun c => !session.isInFlight c.node.id)).argmax
      (fun c => distance c.node.id session.target)).map (fun c => c.node.id)

/-- The loop of `add_nodes` that gives up candidates; every turn gives up one. -/
def evict : Nat → SamplingSession → SamplingSession
  | 0, session => session
  | fuel + 1, session =>
    if session.candidates.rows.length > session.config.candidateCapacity then
      match session.worst with
      | some id => evict fuel { session with candidates := session.candidates.erase id }
      | none => session
    else session

/-- `add_nodes` in a session. -/
def addNodes (session : SamplingSession) (nodes : List DiscoveredNode) (routing : RoutingTable)
    (now : Nat) : SamplingSession :=
  let session := nodes.foldl (fun session node => session.addNode routing now node) session
  session.evict session.candidates.rows.length

/-- `candidates.retain` of `next`: bad contacts that are not in flight are dropped. -/
def dropBad (session : SamplingSession) (routing : RoutingTable) (now : Nat) : SamplingSession :=
  { session with
    candidates := session.candidates.delete
      (fun row => !session.isInFlight row.1 && routing.isBad row.1 now) }

/-- `reset_round`. -/
def resetRound (session : SamplingSession) (random : NodeId) (now : Nat) : SamplingSession :=
  { session with
    target := random
    queries := 0
    candidates := session.candidates.update (fun _ => true)
      (fun row => (row.1, { row.2 with visited := false, kind := .sample })) (fun _ => rfl)
    nextSend := now + session.config.sendSpacing }

/-- What `select_candidate` finds for a candidate. -/
inductive Verdict where
  | skip
  | due (at_ : Nat)
  | full
  | eligible
  deriving DecidableEq, Repr

/-- When a candidate may be asked: a fallback at once, a sample after both cooldowns. -/
def due (ids : Table (NodeId × Cooldown) Prod.fst) (ips : Table (IpAddr × Nat) Prod.fst) (now : Nat)
    (c : Candidate) : Nat :=
  if c.kind = .findNodeFallback then now
  else max ((ids.get? c.node.id).elim now (fun e => e.2.until_)) ((ips.get? c.node.ip).elim now Prod.snd)

/-- One turn of the loop of `select_candidate`. -/
def verdict (session : SamplingSession) (ids : Table (NodeId × Cooldown) Prod.fst)
    (ips : Table (IpAddr × Nat) Prod.fst) (now : Nat) (c : Candidate) : Verdict :=
  if (c.visited ∧ c.kind = .sample) ∨ session.isInFlight c.node.id ∨ session.isBusy c.node.ip then
    .skip
  else if due ids ips now c > now then .due (due ids ips now c)
  else if (ids.get? c.node.id = none ∧ ids.rows.length ≥ session.config.cooldownCapacity) ∨
      (ips.get? c.node.ip = none ∧ ips.rows.length ≥ session.config.cooldownCapacity) then .full
  else .eligible

/-- `CandidateSelection`. -/
structure Selection where
  candidate : Option Candidate
  earliest : Option Nat
  trackingFull : Bool

/-- `select_candidate`. -/
def selectCandidate (session : SamplingSession) (ids : Table (NodeId × Cooldown) Prod.fst)
    (ips : Table (IpAddr × Nat) Prod.fst) (now : Nat) : Selection :=
  let candidates := session.candidates.rows.map Prod.snd
  let verdict := session.verdict ids ips now
  { candidate := (((candidates.filter (fun c => decide (verdict c = .eligible))).insertionSort
      (fun a b => distance a.node.id session.target ≤ distance b.node.id session.target)).take
        session.config.shortlistSize).head?
    earliest := (candidates.filterMap (fun c =>
      match verdict c with
      | .due at_ => some at_
      | _ => none)).min?
    trackingFull := candidates.any (fun c => decide (verdict c = .full)) }

/-- All candidates were asked in this round. -/
def allVisited (session : SamplingSession) : Bool :=
  session.candidates.rows.all (fun row => row.2.visited && decide (row.2.kind = .sample))

end SamplingSession

/-! ## Cooldowns -/

/-- What the caller of `next` sees of the output channel. -/
structure OutputState where
  closed : Bool
  slot : Bool
  deriving DecidableEq, Repr

namespace Sampler

/-- `status.pause`. -/
def paused (s : Sampler) (reason : PauseReason) : Sampler :=
  { s with status := { s.status with pause := reason } }

/-- `cooldown`. -/
def cooldown (s : Sampler) (node : DiscoveredNode) (until_ failures : Nat) : Sampler :=
  { s with
    ids := s.ids.insert (node.id,
      ⟨(s.ids.get? node.id).elim until_ (fun e => max e.2.until_ until_), failures⟩)
    ips := s.ips.insert (node.ip, (s.ips.get? node.ip).elim until_ (fun e => max e.2 until_)) }

/-- `finished`. -/
def finished (s : Sampler) (request : Request) : Sampler :=
  match s.session with
  | none => s
  | some session =>
    let session := { session with inFlight := session.inFlight.erase request.node.id }
    { s with
      session := some session
      status := { s.status with inFlight := session.inFlight.rows.length } }

/-- A change of the durable state, if there is one. -/
def mapDurable (s : Sampler) (f : Durable → Durable) : Sampler :=
  { s with durable := s.durable.map f }

/-- A future is pushed to `settling`. -/
def pushSettlement (s : Sampler) (settlement : Settlement) : Sampler :=
  s.mapDurable (fun d => { d with settling := d.settling ++ [settlement] })

/-- The memory that `abandon_unsent` releases. -/
def forget (s : Sampler) (request : Request) : Sampler :=
  { s with ids := s.ids.erase request.node.id, ips := s.ips.erase request.node.ip }

/-- `abandon_unsent` after the request was released: the next one waits for a second. -/
def delaySend (s : Sampler) (now : Nat) : Sampler :=
  match s.session with
  | none => s
  | some session =>
    let at_ := max session.nextSend (now + 1000000000)
    { s with session := some { session with nextSend := at_ }, deadline := some at_ }

/-- `abandon_unsent`. -/
def abandonUnsent (s : Sampler) (request : Request) (now : Nat) : Sampler :=
  let s := s.finished request
  let s :=
    if request.kind = .sample then
      let s := s.forget request
      match request.lease with
      | some lease => s.pushSettlement (.abandon lease)
      | none => s
    else s
  s.delaySend now

/-- The first part of `stop`: a request that is ready was not sent. -/
def dropReady (s : Sampler) (now : Nat) : Sampler :=
  match s.durable.bind Durable.ready with
  | none => s
  | some request =>
    (s.mapDurable (fun d => { d with ready := none })).abandonUnsent request now

/-- The second part of `stop`: requests in flight are taken to have been sent. -/
def holdInFlight (s : Sampler) (session : SamplingSession) (now : Nat) : Sampler :=
  { s with
    ids := s.ids.update (fun e => session.isInFlight e.1)
      (fun e => (e.1, { e.2 with until_ := max e.2.until_ (now + UNSUPPORTED_FOR) })) (fun _ => rfl)
    ips := s.ips.update (fun e => session.isBusy e.1)
      (fun e => (e.1, max e.2 (now + UNSUPPORTED_FOR))) (fun _ => rfl) }

/-- `stop`. -/
def stop (s : Sampler) (now : Nat) : Sampler :=
  let s := s.dropReady now
  let s :=
    match s.session with
    | none => s
    | some session => { s.holdInFlight session now with session := none }
  { s with
    status := { s.status with running := false, inFlight := 0, candidates := 0, pause := .stopped }
    deadline := none }

/-- `mark_storage_fault`. -/
def markStorageFault (s : Sampler) (error : StorageError) (current : Nat) : Sampler :=
  let s := s.stop current
  { s with status := { s.status with storageError := some error, pause := .storage } }

/-- `start`. -/
def start (s : Sampler) (config : SamplerConfig) (maxPending now : Nat) (random : NodeId) :
    Except SamplerError Unit × Sampler :=
  if s.status.storageError.isSome then (.error .storageFault, s)
  else if s.durable.isSome ∧ config.cooldownCapacity > 10000 then (.error .invalidConfig, s)
  else if s.session.isSome then (.error .alreadyRunning, s)
  else
    match config.validate maxPending now with
    | .error e => (.error e, s)
    | .ok () =>
      let s := { s with
        ids := s.ids.delete (fun e => decide (e.2.until_ ≤ now))
        ips := s.ips.delete (fun e => decide (e.2 ≤ now)) }
      if s.ids.rows.length > config.cooldownCapacity ∨ s.ips.rows.length > config.cooldownCapacity
      then (.error .invalidConfig, s)
      else
        (.ok (), { s with
          generation := s.generation + 1
          session := some ⟨config, false, .empty, .empty, random, 0, now⟩
          status := { SamplerStatus.default with running := true }
          deadline := some now })

/-! ## Scheduling -/

/-- `add_nodes`. -/
def addNodes (s : Sampler) (nodes : List DiscoveredNode) (routing : RoutingTable) (now : Nat) :
    Sampler :=
  { s with session := s.session.map (fun session => session.addNodes nodes routing now) }

/-- `register_request`. -/
def registerRequest (s : Sampler) (session : SamplingSession) (candidate : Candidate) (now : Nat) :
    Sampler × Request :=
  let session' := { session with
    candidates := session.candidates.update (fun row => decide (row.1 = candidate.node.id))
      (fun row => (row.1, { row.2 with visited := true, kind := .sample })) (fun _ => rfl)
    inFlight := session.inFlight.insert (candidate.node.id, candidate.node.ip)
    queries := session.queries + 1
    nextSend := now + session.config.sendSpacing
    readyPermit := false }
  ({ s with
      session := some session'
      ids := s.ids.insertNew (candidate.node.id, ⟨now, 0⟩)
      ips := s.ips.insertNew (candidate.node.ip, now)
      status := { s.status with pause := .ready, inFlight := session'.inFlight.rows.length }
      deadline := some session'.nextSend },
    { generation := s.generation
      lease := none
      node := candidate.node
      target := session.target
      kind := candidate.kind
      permit := session.readyPermit })

/-- Expired cooldowns are dropped only where room is needed. -/
def dropExpired (s : Sampler) (session : SamplingSession) (now : Nat) : Sampler :=
  { s with
    ids := if s.ids.rows.length ≥ session.config.cooldownCapacity then
        s.ids.delete (fun e => decide (e.2.until_ ≤ now) && !session.isInFlight e.1)
      else s.ids
    ips := if s.ips.rows.length ≥ session.config.cooldownCapacity then
        s.ips.delete (fun e => decide (e.2 ≤ now) && !session.isBusy e.1)
      else s.ips }

/-- A new round. -/
def newRound (s : Sampler) (session : SamplingSession) (random : NodeId) (now : Nat) : Sampler :=
  let session := session.resetRound random now
  { s with session := some session, deadline := some session.nextSend }.paused .cooldown

/-- `next` without a candidate that may be asked. -/
def nextIdle (s : Sampler) (session : SamplingSession) (selection : SamplingSession.Selection)
    (random : NodeId) (now : Nat) : Sampler :=
  if session.inFlight.rows = [] ∧ session.candidates.any (fun row => row.2.visited) then
    s.newRound session random now
  else if selection.trackingFull then
    let ends := (s.ids.rows.map (fun e => e.2.until_) ++ s.ips.rows.map Prod.snd).filter
      (fun at_ => decide (at_ > now))
    { s with deadline := (selection.earliest.toList ++ ends).min? }.paused .trackingCapacity
  else { s with deadline := selection.earliest }.paused .cooldown

/-- `next` from the choice of a candidate on. -/
def nextSelect (s : Sampler) (session : SamplingSession) (random : NodeId) (now : Nat) :
    Sampler × Option Request :=
  let s := s.dropExpired session now
  let selection := session.selectCandidate s.ids s.ips now
  match selection.candidate with
  | some candidate =>
    let (s, request) := s.registerRequest session candidate now
    (s, some request)
  | none => (s.nextIdle session selection random now, none)

/-- `next` from the check of the output on. -/
def nextRound (s : Sampler) (session : SamplingSession) (output : OutputState) (random : NodeId)
    (now : Nat) : Sampler × Option Request :=
  if output.closed then (s, none)
  else if !session.readyPermit && !output.slot then (s.paused .output, none)
  else
    let session := { session with readyPermit := true }
    let s := { s with session := some session }
    if now < session.nextSend then
      ({ s with deadline := some session.nextSend }.paused .cooldown, none)
    else if session.queries ≥ session.config.maxQueries ∨ session.allVisited then
      if session.inFlight.rows ≠ [] then (s.paused .transactions, none)
      else (s.newRound session random now, none)
    else s.nextSelect session random now

/-- `next` once the candidates are up to date. -/
def nextIn (s : Sampler) (session : SamplingSession) (capacity : Nat) (output : OutputState)
    (random : NodeId) (now : Nat) : Sampler × Option Request :=
  let s := { s with
    session := some session
    status := { s.status with
      inFlight := session.inFlight.rows.length
      candidates := session.candidates.rows.length } }
  if session.candidates.rows = [] then (s.paused .noSeeds, none)
  else if capacity = 0 ∨ session.inFlight.rows.length ≥ session.config.parallelism then
    (s.paused .transactions, none)
  else s.nextRound session output random now

/-- The database has work of the sampler. -/
def storageBusy (s : Sampler) : Bool :=
  s.durable.any (fun d => d.reserving.isSome || !d.settling.isEmpty || d.ready.isSome)

/-- `next`. -/
def next (s : Sampler) (routing : RoutingTable) (capacity now : Nat) (output : OutputState)
    (random : NodeId) : Sampler × Option Request :=
  let s := { s with deadline := none }
  if s.status.storageError.isSome || s.storageBusy then (s.paused .storage, none)
  else
    match s.session with
    | none => (s, none)
    | some session =>
      let seeds := (routing.closestUsable session.target session.config.shortlistSize now).map
        (fun c => (⟨c.id, c.address⟩ : DiscoveredNode))
      let session := (session.addNodes seeds routing now).dropBad routing now
      s.nextIn session capacity output random now

/-! ## Outcomes -/

/-- `settle_request`. -/
def settleRequest (s : Sampler) (request : Request) (now current : Nat) : Sampler :=
  match request.lease, s.ids.get? request.node.id, s.durable with
  | some lease, some (_, cooldown), some durable =>
    match durable.clock.millisAt now with
    | .error e => s.markStorageFault (.invalid e.label) current
    | .ok at_ =>
      let durationMs := max ((cooldown.until_ - now + 999999) / 1000000) 1
      if durationMs < 2 ^ 63 then
        s.pushSettlement (.settle lease (.ok at_) durationMs cooldown.failures)
      else s.markStorageFault (.invalid "冷却结算溢出") current
  | _, _, _ => s

/-- `cancel_request`. -/
def cancelRequest (s : Sampler) (request : Request) (now current : Nat) : Sampler :=
  match request.lease with
  | none => s
  | some lease =>
    let durationMs := max lease.durationMs 21600000
    match checkedAdd now (durationMs.toNat * 1000000) with
    | none => s.markStorageFault (.invalid "取消冷却时间溢出") current
    | some until_ =>
      let s := s.cooldown request.node until_ 0
      match s.durable with
      | none => s
      | some durable =>
        let at_ := (durable.clock.millisAt now).mapError (fun e => StorageError.invalid e.label)
        s.pushSettlement (.settle lease at_ durationMs 0)

/-- `uncertain_send`. -/
def uncertainSend (s : Sampler) (request : Request) (now current : Nat) : Sampler :=
  (s.finished request).cancelRequest request now current

/-- One is added to `status.unsupported`. -/
def countUnsupported (s : Sampler) : Sampler :=
  { s with status := { s.status with unsupported := s.status.unsupported + 1 } }

/-- The `SampleResponse` that the sampler reads. -/
structure SampleResponse where
  nodes : List DiscoveredNode
  interval : Nat

/-- `success`. -/
def success (s : Sampler) (request : Request) (response : SampleResponse) (routing : RoutingTable)
    (now current : Nat) : Sampler :=
  let s := s.finished request
  match s.session with
  | none => s
  | some session =>
    match s.durable.map (fun d : Durable => d.clock.wallAt now) with
    | some (.error e) => s.markStorageFault (.invalid e.label) current
    | _ =>
      let until_ := now + max response.interval session.config.minimumInterval
      let s := s.cooldown request.node until_ 0
      let s := s.settleRequest request now current
      let s := s.addNodes response.nodes routing now
      { s with status := { s.status with successful := s.status.successful + 1 } }

/-- `nodes`. -/
def nodes (s : Sampler) (request : Request) (nodes : List DiscoveredNode) (routing : RoutingTable)
    (now current : Nat) : Sampler :=
  let s := s.finished request
  let s :=
    if request.kind = .sample then
      s.countUnsupported.cooldown request.node (now + UNSUPPORTED_FOR) 0
    else s
  (s.settleRequest request now current).addNodes nodes routing now

/-- `Duration::MAX`. -/
def DURATION_MAX : Nat := (2 ^ 64 - 1) * 1000000000 + 999999999

/-- The failures of a node after one more. -/
def failuresAfter (s : Sampler) (id : NodeId) : Nat :=
  (s.ids.get? id).elim 1 (fun e => min (e.2.failures + 1) (2 ^ 32 - 1))

/-- The exponential backoff of `failure`. -/
def backoff (config : SamplerConfig) (failures : Nat) : Nat :=
  min (min (config.retryInitial * min (2 ^ (failures - 1)) (2 ^ 32 - 1)) DURATION_MAX) config.retryMax

/-- A candidate gets the fallback of `failure`. -/
def markFallback (s : Sampler) (id : NodeId) : Sampler :=
  { s with session := s.session.map (fun session => { session with
      candidates := session.candidates.update (fun row => decide (row.1 = id))
        (fun row => (row.1, { row.2 with kind := .findNodeFallback })) (fun _ => rfl) }) }

/-- `failure`. -/
def failure (s : Sampler) (request : Request) (error : QueryError) (now current : Nat) : Sampler :=
  let s := s.finished request
  match s.session with
  | none => s
  | some session =>
    let s :=
      if request.kind = .sample ∧ error.isUnsupported then
        (s.markFallback request.node.id).countUnsupported.cooldown request.node
          (now + UNSUPPORTED_FOR) 0
      else
        let failures := s.failuresAfter request.node.id
        { s with status := { s.status with failed := s.status.failed + 1 } }.cooldown request.node
          (now + backoff session.config failures) failures
    s.settleRequest request now current

/-! ## The database -/

/-- `reserve_request`. -/
def reserveRequest (s : Sampler) (request : Request) (now current : Nat) :
    Sampler × Option Request :=
  match s.durable with
  | none => (s, some request)
  | some durable =>
    if request.lease.isSome ∨ request.kind = .findNodeFallback then (s, some request)
    else
      match s.session with
      | none => (s, none)
      | some session =>
        let durationMs := (max session.config.minimumInterval UNSUPPORTED_FOR + 999999) / 1000000
        match durable.clock.millisAt now with
        | .error e => (s.markStorageFault (.invalid e.label) current, none)
        | .ok at_ =>
          if durationMs < 2 ^ 63 then
            let durable := { durable with
              reserving := some ⟨request, durable.identity, at_, durationMs,
                session.config.cooldownCapacity⟩ }
            ({ s with durable := some durable, deadline := none }.paused .storage, none)
          else (s.markStorageFault (.invalid "冷却时长溢出") current, none)

/-- `take_reserved`. -/
def takeReserved (s : Sampler) (capacity now : Nat) : Sampler × Option Request :=
  match s.durable, s.session with
  | some durable, some session =>
    if durable.ready = none ∨ durable.settling.length ≠ 0 ∨ capacity = 0 then (s, none)
    else if now < session.nextSend then ({ s with deadline := some session.nextSend }, none)
    else
      ({ s with
          durable := some { durable with ready := none }
          session := some { session with nextSend := now + session.config.sendSpacing } },
        durable.ready)
  | _, _ => (s, none)

/-- `storage_event` for the answer to a reservation. -/
def reserved (s : Sampler) (reservation : Reservation) (result : Except StorageError CooldownLease)
    (current : Nat) : Sampler :=
  let s := s.mapDurable (fun d => { d with reserving := none })
  match result with
  | .error e => s.markStorageFault e current
  | .ok lease =>
    let request := { reservation.request with lease := some lease }
    if s.session.isSome ∧ request.generation = s.generation then
      s.mapDurable (fun d => { d with ready := some request })
    else s.abandonUnsent request current

/-- `storage_event` for the answer to a settlement. -/
def settled (s : Sampler) (index : Nat) (result : Except StorageError Unit) (current : Nat) :
    Sampler :=
  let s := s.mapDurable (fun d => { d with settling := d.settling.eraseIdx index })
  match result with
  | .error e => s.markStorageFault e current
  | .ok () => s

/-- `attach_storage`. -/
def attachStorage (s : Sampler) (clock : Clock) (identity : LocalIdentity)
    (restored : List RestoredCooldown) (now : Nat) : Except StorageError Sampler := do
  if s.session.isSome ∨ s.durable.isSome then
    throw (.invalid "不能替换正在使用的持久化状态")
  let s ← restored.foldlM (fun (s : Sampler) value => do
    let remaining := match value with
      | .id _ remainingMs _ => remainingMs
      | .ip _ remainingMs => remainingMs
    if remaining < 0 then throw (.invalid "冷却时间无效")
    match checkedAdd now (remaining.toNat * 1000000) with
    | none => throw (.invalid "冷却期限溢出")
    | some until_ =>
      match value with
      | .id node _ failures => return { s with ids := s.ids.insert (node, ⟨until_, failures⟩) }
      | .ip ip _ => return { s with ips := s.ips.insert (ip, until_) }) s
  return { s with durable := some ⟨clock, identity, none, none, []⟩ }

end Sampler

end BtSniffer
