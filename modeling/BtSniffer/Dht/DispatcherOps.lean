import BtSniffer.Dht.Dispatcher

/-!
# Ends of queries and the loop of the dispatcher

Reference model of `response/` (matching, validation and completion), `fetch.rs`, `maintenance.rs`,
`recovery.rs`, `sampler/driver.rs` and `runtime/commands.rs` under `src/dht/dispatcher/`, as far as they
change the dispatcher.

* An operation of the routing table panics only without a bucket for a Node ID, which a table never
  lacks (`RoutingTable.Shape`); here nothing would change.
* Commands that only read are left out.
-/

set_option autoImplicit false

namespace BtSniffer

open Relational

namespace Dispatcher

/-! ## Routing -/

/-- `record_failure`. -/
def recordFailure (d : Dispatcher) (id : NodeId) (now : Nat) : Option NodeStatus × Dispatcher :=
  let result := (d.routing.recordFailure id now).getD (none, d.routing)
  (result.1, { d with routing := result.2 })

/-- `record_expected_failure`. -/
def recordExpectedFailure (d : Dispatcher) (remote : Recovery.RemoteNode) (now : Nat) : Dispatcher :=
  match remote.expectedId with
  | none => d
  | some id => (d.recordFailure id now).2

/-- `start_bucket_probe`. -/
def startBucketProbe (d : Dispatcher) (incumbent : NodeContact) (remaining : List NodeContact)
    (candidate : NodeContact) (attempt now : Nat) : Dispatcher :=
  let key := (incumbent.id, incumbent.address)
  if (d.bucketProbes.get? key).isSome then d
  else
    { d with bucketProbes := d.bucketProbes.insertNew key }.startRpc
      ⟨incumbent.address, some incumbent.id⟩ .ping (.bucketProbe incumbent remaining candidate attempt)
      now

/-- `handle_insert_outcome`. -/
def handleInsertOutcome (d : Dispatcher) (outcome : InsertOutcome) (now : Nat) : Dispatcher :=
  match outcome with
  | .probeRequired (incumbent :: incumbents) candidate =>
    d.startBucketProbe incumbent incumbents candidate 1 now
  | _ => d

/-- The probed bucket may take the candidate now. -/
def reconsider (d : Dispatcher) (candidate : NodeContact) (now : Nat) : Dispatcher :=
  let result := (d.routing.reconsiderCandidate candidate now).getD (.rejectedFull, d.routing)
  { d with routing := result.2 }.handleInsertOutcome result.1 now

/-! ## Completion -/

/-- `ValidatedResponse`. -/
inductive Validated where
  | basic
  | peers (nodes : List DiscoveredNode) (peers : List SocketAddr)
  | nodes (nodes : List DiscoveredNode)
  | samples (response : Krpc.SampleResponse)
  deriving DecidableEq

/-- `ValidatedResponse::nodes`. -/
def Validated.nodeList : Validated → List DiscoveredNode
  | .nodes found => found
  | _ => []

/-- The nodes that a lookup learns: contacts as the routing table has them, others if the policy
accepts them. -/
def discovered (d : Dispatcher) (nodes : List DiscoveredNode) (now : Nat) :
    List (NodeContact × Bool) :=
  nodes.filterMap (fun node =>
    match d.routing.contact node.id with
    | some contact => some (contact, true)
    | none =>
      if d.automaticPolicy.accepts node.address then
        some (NodeContact.verified node.id node.address now, false)
      else none)

/-- A bucket probe was answered: the next incumbent is probed, or the candidate is looked at again. -/
def probeAnswered (d : Dispatcher) (incumbent : NodeContact) (remaining : List NodeContact)
    (candidate : NodeContact) (now : Nat) : Dispatcher :=
  let d := { d with bucketProbes := d.bucketProbes.erase (incumbent.id, incumbent.address) }
  match remaining with
  | [] => d.reconsider candidate now
  | next :: remaining => d.startBucketProbe next remaining candidate 1 now

/-- `finish_success`. -/
def finishSuccess (d : Dispatcher) (purpose : Purpose) (responderId : NodeId) (decoded : Validated)
    (now : Nat) : Dispatcher :=
  match purpose with
  | .fetch caller =>
    match decoded with
    | .peers nodes peers => d.reply caller (.ok (.peers nodes peers))
    | _ => d.reclaim purpose
  | .recovery id => { d with recovery := d.recovery.finished id }
  | .sampling request =>
    match decoded with
    | .samples response =>
      { d with sampler :=
        d.sampler.success request ⟨response.nodes, response.interval * 1000000000⟩ d.routing now now }
    | decoded => { d with sampler := d.sampler.nodes request decoded.nodeList d.routing now now }
  | .userPing caller => d.reply caller (.ok (.ping responderId))
  | .verification key => { d with verifications := d.verifications.erase key }
  | .bucketProbe incumbent remaining candidate _ =>
    d.probeAnswered incumbent remaining candidate now
  | .maintenanceLookup nodeId =>
    { d with maintenance := d.maintenance.mapLookup (fun lookup =>
      lookup.completeSuccess nodeId (d.discovered decoded.nodeList now) d.routing.localId) }

/-- `matches!(error, QueryError::Remote { .. })`. -/
def remoteReplied : QueryError → Bool
  | .remote .. => true
  | _ => false

/-- A failure of the remote node, unless it replied with an error. -/
def blame (d : Dispatcher) (remote : Recovery.RemoteNode) (error : QueryError) (now : Nat) :
    Dispatcher :=
  if remoteReplied error then d else d.recordExpectedFailure remote now

/-- A bucket probe failed: a bad incumbent makes room, any other one is probed a second time. -/
def probeFailed (d : Dispatcher) (incumbent : NodeContact) (remaining : List NodeContact)
    (candidate : NodeContact) (attempt now : Nat) : Dispatcher :=
  let key := (incumbent.id, incumbent.address)
  let (status, d) := d.recordFailure incumbent.id now
  if status = some .bad then
    { d with bucketProbes := d.bucketProbes.erase key }.reconsider candidate now
  else if attempt < 2 then
    d.startRpc ⟨incumbent.address, some incumbent.id⟩ .ping
      (.bucketProbe incumbent remaining candidate (attempt + 1)) now
  else { d with bucketProbes := d.bucketProbes.erase key }

/-- `finish_network_failure`. -/
def finishNetworkFailure (d : Dispatcher) (remote : Recovery.RemoteNode) (purpose : Purpose)
    (error : QueryError) (now : Nat) : Dispatcher :=
  match purpose with
  | .fetch caller => (d.blame remote error now).reply caller (.error error)
  | .recovery id => { d with recovery := d.recovery.finished id }
  | .sampling request =>
    let d := d.blame remote error now
    { d with sampler := d.sampler.failure request error now now }
  | .userPing caller => (d.blame remote error now).reply caller (.error error)
  | .verification key => { d with verifications := d.verifications.erase key }
  | .bucketProbe incumbent remaining candidate attempt =>
    d.probeFailed incumbent remaining candidate attempt now
  | .maintenanceLookup nodeId =>
    let d := d.blame remote error now
    { d with maintenance := d.maintenance.mapLookup (fun lookup => lookup.completeFailure nodeId) }

/-- A pending query is taken out and fails. -/
def failPending (d : Dispatcher) (id : TransactionId) (error : QueryError) (now : Nat) : Dispatcher :=
  match d.pending.get? id with
  | none => d
  | some p =>
    { d with pending := d.pending.erase id }.finishNetworkFailure p.remote p.purpose error now

/-- `expire_transactions`. -/
def expireTransactions (d : Dispatcher) (now : Nat) : Dispatcher :=
  (d.transactions.expire now).1.foldl (fun d transaction => d.failPending transaction.id .timeout now)
    { d with transactions := (d.transactions.expire now).2 }

/-! ## Responses -/

/-- `ReceivedMessage`. -/
structure Received where
  source : SocketAddr
  message : KrpcMessage
  encodedLen : Nat

/-- `security::observed`. -/
def observedIp (bytes : List UInt8) : Option IpAddr :=
  if (bytes.length ≠ 6 ∧ bytes.length ≠ 18) ∨ bytes.drop (bytes.length - 2) = [0, 0] then none
  else if bytes.length = 6 then some (.v4 (Octets.toWord 32 (bytes.take 4)))
  else some (.v6 (Octets.toWord 128 (bytes.take 16)))

/-- `observe_external`. -/
def observeExternal (d : Dispatcher) (source : SocketAddr) (bytes : Option (List UInt8)) (now : Nat) :
    Dispatcher :=
  match bytes.bind observedIp with
  | none => d
  | some ip =>
    if d.routing.addressFamily.accepts (.new ip 1) then
      let (found, security) := d.security.observe source.ip ip now
      { d with security := security, pendingExternalIp := found <|> d.pendingExternalIp }
    else d

/-- The check of the fields that the method of a query calls for. -/
def validate (d : Dispatcher) (purpose : Purpose) (response : ResponseArgs) (encodedLen : Nat) :
    Except QueryError Validated :=
  let nodes := (decodeFindNodeResponse d.routing.addressFamily response).map Prod.snd
  match purpose with
  | .fetch _ =>
    (decodePeers d.routing.addressFamily d.automaticPolicy d.routing.localId response).map
      (fun found => .peers found.1 found.2)
  | .maintenanceLookup _ => nodes.map .nodes
  | .sampling request => do
    let nodes ← nodes
    if request.kind = .findNodeFallback then return .nodes nodes
    match ← Krpc.decodeSample response nodes encodedLen with
    | some sample => return .samples sample
    | none => return .nodes nodes
  | _ => .ok .basic

/-- The response of a message, if its fields fit together and it comes from the expected node. -/
def acceptResponse (d : Dispatcher) (p : PendingDispatch) (received : Received) :
    Except QueryError (ResponseArgs × Validated) := do
  let m := received.message
  if m.q.isSome || m.a.isSome || m.e.isSome || m.ro.isSome then
    throw (.invalidResponse "响应消息包含互相冲突的字段")
  let response ← match m.r with
    | none => throw (.invalidResponse "响应缺少 r 字段")
    | some response => pure response
  match p.remote.expectedId with
  | some expected =>
    if response.id ≠ expected then throw (.unexpectedNodeId expected response.id)
  | none => pure ()
  let decoded ← d.validate p.purpose response received.encodedLen
  return (response, decoded)

/-- A response that was accepted. -/
def deliver (d : Dispatcher) (purpose : Purpose) (received : Received) (response : ResponseArgs)
    (decoded : Validated) (now : Nat) : Dispatcher :=
  let d := d.observeExternal received.source received.message.ip now
  let result := (d.routing.observeResponse response.id received.source now).getD
    (.rejectedFull, d.routing)
  ({ d with routing := result.2 }.finishSuccess purpose response.id decoded now).handleInsertOutcome
    result.1 now

/-- `handle_response`. -/
def handleResponse (d : Dispatcher) (received : Received) (now : Nat) : Dispatcher :=
  match d.transactions.complete received.message.t received.source now with
  | (.ok completed, transactions) =>
    let d := { d with transactions := transactions }
    match d.pending.get? completed.transaction.id with
    | none => d
    | some p =>
      let d := { d with pending := d.pending.erase p.id }
      match d.acceptResponse p received with
      | .error error => d.finishNetworkFailure p.remote p.purpose error now
      | .ok (response, decoded) => d.deliver p.purpose received response decoded now
  | (.error (.expired transaction), transactions) =>
    { d with transactions := transactions }.failPending transaction.id .timeout now
  | (.error _, transactions) => { d with transactions := transactions }

/-- The error that an error message stands for. -/
def errorOf (m : KrpcMessage) : QueryError :=
  match m.e with
  | some (code, message) => .remote code message
  | none => .invalidResponse "错误消息缺少 e 字段"

/-- `handle_error`. -/
def handleError (d : Dispatcher) (received : Received) (now : Nat) : Dispatcher :=
  let m := received.message
  match d.transactions.complete m.t received.source now with
  | (.ok completed, transactions) =>
    let d := { d with transactions := transactions }
    match d.pending.get? completed.transaction.id with
    | none => d
    | some p =>
      let d := { d with pending := d.pending.erase p.id }
      if m.q.isSome || m.a.isSome || m.r.isSome || m.ro.isSome then
        d.finishNetworkFailure p.remote p.purpose
          (.invalidResponse "错误消息包含互相冲突的字段") now
      else
        let d := if m.e.isSome then d.observeExternal received.source m.ip now else d
        d.finishNetworkFailure p.remote p.purpose (errorOf m) now
  | (.error (.expired transaction), transactions) =>
    { d with transactions := transactions }.failPending transaction.id .timeout now
  | (.error _, transactions) => { d with transactions := transactions }

end Dispatcher

end BtSniffer
