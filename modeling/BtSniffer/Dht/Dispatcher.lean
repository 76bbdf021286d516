import BtSniffer.Dht.Maintenance
import BtSniffer.Dht.Recovery
import BtSniffer.Dht.SamplerIdentity
import BtSniffer.Dht.Traffic
import BtSniffer.Krpc.Responder

/-!
# The dispatcher

Reference model of `DhtDispatcher` (`src/dht/dispatcher/runtime/state.rs`) and of the way of a query to
the socket: `start_query`, `send_rpc` and `finish_start_error` (`runtime/outbound.rs`), `start_rpc` and
`advance_outbound` (`traffic.rs`).

* A oneshot channel is the number of its caller; `Journal` records what was sent through channels and
  the socket, and the channels that were dropped because the caller had gone.
* What the encoder, the traffic budget, the socket, the output channel of the sampler and the random
  number generator answer is read from `answers`, one answer for each question.
* All clock readings of one step show the time of the step.
* Replies to queries (`Responder`), progress counters, permits and observers are left out.
-/

set_option autoImplicit false

namespace BtSniffer

open Relational

/-! ## Data -/

/-- The caller who waits at a oneshot channel. -/
abbrev Caller := Nat

/-- `PendingPurpose`. -/
inductive Purpose where
  | fetch (caller : Caller)
  | recovery (id : NodeId)
  | sampling (request : Request)
  | userPing (caller : Caller)
  | verification (key : NodeId × SocketAddr)
  | bucketProbe (incumbent : NodeContact) (remaining : List NodeContact) (candidate : NodeContact)
      (attempt : Nat)
  | maintenanceLookup (nodeId : NodeId)
  deriving DecidableEq

namespace Purpose

/-- `PendingPurpose::class`. -/
def cls : Purpose → Traffic.Class
  | .fetch _ => .collector
  | .sampling _ => .sampling
  | .verification _ => .verification
  | _ => .control

/-- The caller of a purpose. -/
def caller? : Purpose → Option Caller
  | .fetch caller => some caller
  | .userPing caller => some caller
  | _ => none

/-- The key of a bucket probe. -/
def probe? : Purpose → Option (NodeId × SocketAddr)
  | .bucketProbe incumbent _ _ _ => some (incumbent.id, incumbent.address)
  | _ => none

/-- The key of a verification. -/
def verification? : Purpose → Option (NodeId × SocketAddr)
  | .verification key => some key
  | _ => none

/-- The node of a recovery ping. -/
def recovery? : Purpose → Option NodeId
  | .recovery id => some id
  | _ => none

/-- The request of the sampler. -/
def request? : Purpose → Option Request
  | .sampling request => some request
  | _ => none

/-- The node that a lookup asks. -/
def lookup? : Purpose → Option NodeId
  | .maintenanceLookup nodeId => some nodeId
  | _ => none

end Purpose

/-- `Outbound`. -/
inductive Outbound where
  | ping
  | findNode (target : NodeId)
  | sample (target : NodeId)
  | getPeers (hash : SwarmKey)
  deriving DecidableEq

namespace Outbound

/-- `Outbound::fields`. -/
def fields : Outbound → QueryMethod × Option NodeId × Option SwarmKey
  | .ping => (.ping, none, none)
  | .findNode target => (.findNode, some target, none)
  | .sample target => (.sampleInfohashes, some target, none)
  | .getPeers hash => (.getPeers, none, some hash)

/-- `Outbound::message`. -/
def message (query : Outbound) (id : NodeId) (t : List UInt8) : KrpcMessage :=
  let (method, target, infoHash) := query.fields
  ⟨t, .query, some method, some ⟨id, target, infoHash, none, none, none, []⟩, none, none, none, none⟩

end Outbound

/-- `Queued`. -/
structure Queued where
  remote : Recovery.RemoteNode
  query : Outbound
  purpose : Purpose
  deadline : Nat
  deriving DecidableEq

/-- `PendingDispatch`, with the transaction it is stored under. -/
structure PendingDispatch where
  id : TransactionId
  remote : Recovery.RemoteNode
  purpose : Purpose
  deriving DecidableEq

/-- One answer of the environment; a question reads the fields it asks for. -/
structure Answer where
  /-- `PendingPurpose::cancelled`. -/
  cancelled : Bool
  /-- The encoder refuses the message. -/
  unencodable : Bool
  /-- The wait of `Budget::query_observed`. -/
  wait : Nat
  /-- The answer of `Budget::admit_verification`. -/
  permit : Bool
  /-- The error of `UdpTransport::try_send_to`. -/
  refused : Option UdpTransportError
  output : OutputState
  random : NodeId

/-- What a caller is told on success. -/
inductive QueryReply where
  | peers (nodes : List DiscoveredNode) (peers : List SocketAddr)
  | ping (responderId : NodeId)
  deriving DecidableEq

/-- What leaves the dispatcher, the latest first. -/
structure Journal where
  replies : List (Caller × Except QueryError QueryReply)
  /-- The channels that were dropped without a reply. -/
  reclaimed : List Caller
  /-- The queries that the socket has taken. -/
  sent : List (SocketAddr × KrpcMessage)

/-- `DhtDispatcher`. -/
structure Dispatcher where
  identityPaused : Bool
  security : AddressConsensus
  identityStore : Option LocalIdentity
  pendingExternalIp : Option IpAddr
  queued : List Queued
  queueDeadline : Option Nat
  samplingPaused : Bool
  automaticPolicy : AddressPolicy
  clock : Clock
  recovery : Recovery.Progress
  routing : RoutingTable
  transactions : TransactionManager
  pending : Table PendingDispatch PendingDispatch.id
  verifications : Table (NodeId × SocketAddr) id
  bucketProbes : Table (NodeId × SocketAddr) id
  maintenance : MaintenanceState
  sampler : Sampler
  journal : Journal
  answers : Nat → Answer

/-- `DhtDispatcherConfig`, as far as the modelled parts read it. -/
structure DispatcherConfig where
  externalIp : Option IpAddr
  addressPolicy : AddressPolicy
  maintenance : MaintenanceSettings

namespace Dispatcher

/-- `with_budget`. -/
def withBudget (routing : RoutingTable) (transactions : TransactionManager) (config : DispatcherConfig)
    (clock : Clock) (answers : Nat → Answer) (now : Nat) : Except String Dispatcher :=
  if config.maintenance.Invalid then .error "时间必须大于零，且 max_queries 不得小于 shortlist_size"
  else
    .ok {
      identityPaused := false
      security := .new config.externalIp none
      identityStore := none
      pendingExternalIp := none
      queued := []
      queueDeadline := none
      samplingPaused := false
      automaticPolicy := config.addressPolicy
      clock := clock
      recovery := ⟨[], .empty, none⟩
      routing := routing
      transactions := transactions
      pending := .empty
      verifications := .empty
      bucketProbes := .empty
      maintenance := .new config.maintenance now
      sampler := .default
      journal := ⟨[], [], []⟩
      answers := answers }

/-- `attach_storage`. -/
def attachStorage (d : Dispatcher) (clock : Clock) (identity : LocalIdentity)
    (contacts : List Recovery.SavedContact) (cooldowns : List RestoredCooldown) (policy : AddressPolicy)
    (now : Nat) : Except StorageError Dispatcher :=
  if identity.nodeId ≠ d.routing.localId ∨ identity.family ≠ d.routing.addressFamily ∨
      contacts.length > Recovery.SNAPSHOT_LIMIT then
    .error (.invalid "持久化身份与 dispatcher 不匹配")
  else
    (d.sampler.attachStorage clock identity cooldowns now).map (fun sampler => { d with
      identityStore := some identity
      sampler := sampler
      recovery := { d.recovery with
        queued := Recovery.keptContacts
          ⟨identity.nodeId, identity.family⟩ policy contacts []
        next := some now } })

end Dispatcher

/-! ## Local ends -/

/-- `transaction_query_error`. -/
def transactionQueryError : TransactionError → QueryError
  | .atCapacity limit => .atCapacity limit
  | error => .transaction error

/-- `Transport(Io(error))` with the kind `WriteZero`: the socket may have sent a part. -/
def QueryError.uncertain : QueryError → Bool
  | .transport (.io writeZero) => writeZero
  | _ => false

namespace Dispatcher

/-- The next answer of the environment. -/
def answer (d : Dispatcher) : Answer := d.answers 0

/-- The answer is used up. -/
def asked (d : Dispatcher) : Dispatcher := { d with answers := fun n => d.answers (n + 1) }

/-- `occupied`. -/
def occupied (d : Dispatcher) : Nat := d.transactions.len + d.queued.length

/-- The places that the dispatcher may use on its own. -/
def automaticLimit (d : Dispatcher) : Nat :=
  d.transactions.maxPending - d.maintenance.config.reserve

/-- `reply.send`. -/
def reply (d : Dispatcher) (caller : Caller) (result : Except QueryError QueryReply) : Dispatcher :=
  { d with journal := { d.journal with replies := (caller, result) :: d.journal.replies } }

/-- A purpose is dropped because its caller has gone. -/
def reclaim (d : Dispatcher) (purpose : Purpose) : Dispatcher :=
  { d with journal :=
    { d.journal with reclaimed := purpose.caller?.toList ++ d.journal.reclaimed } }

/-- `finish_start_error`. -/
def finishStartError (d : Dispatcher) (purpose : Purpose) (error : QueryError) (now : Nat) :
    Dispatcher :=
  match purpose with
  | .fetch caller => d.reply caller (.error error)
  | .recovery id => { d with recovery := d.recovery.finished id }
  | .sampling request =>
    if error.uncertain then { d with sampler := d.sampler.uncertainSend request now now }
    else { d with sampler := d.sampler.abandonUnsent request now }
  | .userPing caller => d.reply caller (.error error)
  | .verification key => { d with verifications := d.verifications.erase key }
  | .bucketProbe incumbent _ _ _ =>
    { d with bucketProbes := d.bucketProbes.erase (incumbent.id, incumbent.address) }
  | .maintenanceLookup nodeId =>
    { d with maintenance := d.maintenance.mapLookup (fun lookup => lookup.defer nodeId) }

/-! ## The way to the socket -/

/-- The socket has taken a message. -/
def record (d : Dispatcher) (destination : SocketAddr) (message : KrpcMessage) : Dispatcher :=
  { d with journal := { d.journal with sent := (destination, message) :: d.journal.sent } }

/-- A registered query is handed to the socket, which may refuse it. -/
def transmit (d : Dispatcher) (id : TransactionId) (q : Queued) (now : Nat) : Dispatcher :=
  let message := q.query.message d.routing.localId id.toByteBuf
  match d.answer.refused with
  | none => d.asked.record q.remote.address message
  | some error =>
    { d.asked with
      transactions := (d.transactions.cancel id).2
      pending := d.pending.erase id }.finishStartError q.purpose (.transport error) now

/-- `send_rpc`. -/
def sendRpc (d : Dispatcher) (q : Queued) (now : Nat) : Dispatcher :=
  match d.transactions.register q.remote.address q.query.fields.1 now with
  | (.error error, transactions) =>
    { d with transactions := transactions }.finishStartError q.purpose (transactionQueryError error)
      now
  | (.ok id, transactions) =>
    { d with
      transactions := transactions
      pending := d.pending.insert ⟨id, q.remote, q.purpose⟩ }.transmit id q now

/-- The earlier one of a deadline, if there is one, and a time. -/
def earlier (deadline : Option Nat) (at_ : Nat) : Option Nat :=
  some (deadline.elim at_ (fun old => min old at_))

/-- A query has to wait for the budget. -/
def postpone (d : Dispatcher) (q : Queued) (wait now : Nat) : Dispatcher :=
  { d with
    queued := d.queued ++ [q]
    queueDeadline := earlier d.queueDeadline (min (now + wait) q.deadline) }

/-- One turn of the loop of `advance_outbound`, for a query that was taken out of the queue. -/
def visit (d : Dispatcher) (q : Queued) (now : Nat) : Dispatcher :=
  let answer := d.answer
  let d := d.asked
  if q.purpose.caller?.isSome && answer.cancelled then d.reclaim q.purpose
  else if q.deadline ≤ now then d.finishStartError q.purpose .localWait now
  else if answer.unencodable then d.finishStartError q.purpose (.transport .encode) now
  else if answer.wait = 0 then d.sendRpc q now
  else d.postpone q answer.wait now

/-- The loop of `advance_outbound`: `queued` holds what was visited and waits. -/
def outboundLoop (now : Nat) : List Queued → Dispatcher → Dispatcher
  | [], d => d
  | q :: rest, d => outboundLoop now rest (d.visit q now)

/-- `advance_outbound`. -/
def advanceOutbound (d : Dispatcher) (now : Nat) : Dispatcher :=
  outboundLoop now d.queued { d with queued := [], queueDeadline := none }

/-- The places that `start_rpc` keeps free: none for a ping of the user. -/
def reserveFor (d : Dispatcher) : Purpose → Nat
  | .userPing _ => 0
  | _ => d.maintenance.config.reserve

/-- `start_rpc` once the query is admitted. -/
def enqueue (d : Dispatcher) (remote : Recovery.RemoteNode) (query : Outbound) (purpose : Purpose)
    (now : Nat) : Dispatcher :=
  let entry : Queued := ⟨remote, query, purpose, now + Recovery.QUEUE_TIMEOUT⟩
  { d with queued := d.queued ++ [entry] }.advanceOutbound now

/-- `start_rpc`; `start_query` gives it a query that fits its method. -/
def startRpc (d : Dispatcher) (remote : Recovery.RemoteNode) (query : Outbound) (purpose : Purpose)
    (now : Nat) : Dispatcher :=
  if d.identityPaused then d.finishStartError purpose .identityChanged now
  else
    let limit := d.transactions.maxPending - d.reserveFor purpose
    if d.occupied ≥ limit then d.finishStartError purpose (.atCapacity limit) now
    else if purpose.verification?.isSome then
      if d.answer.permit then d.asked.enqueue remote query purpose now
      else d.asked.finishStartError purpose .localWait now
    else d.enqueue remote query purpose now

end Dispatcher

end BtSniffer
