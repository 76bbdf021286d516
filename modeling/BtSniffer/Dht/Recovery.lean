import BtSniffer.Address
import BtSniffer.Dht.Transaction

/-!
# Recovery of saved contacts

Reference model of `Recovery`, `attach_storage`, `advance_recovery`, `saved_contacts` and
`rotate_identity` (`src/dht/dispatcher/recovery.rs`), with the queue and the pending requests that a
recovery ping goes through: `start_rpc` and `advance_outbound` (`src/dht/dispatcher/traffic.rs`),
`send_rpc`, `finish_start_error` and `clear_queries` (`src/dht/dispatcher/runtime/outbound.rs`),
`handle_response`, `handle_error` and `expire_transactions` (`src/dht/dispatcher/response/`).

* What the caller's token, the encoder, the traffic budget and the socket say of one queued request
  is an `Answer`; the results of the storage and the snapshot of the routing table are arguments.
* A purpose other than a recovery ping keeps its kind only: its own settlement is left out.
* `tried` records the contacts whose ping left the map of pending requests: it was handed to the
  socket and then answered, refused or timed out.
-/

set_option autoImplicit false

namespace BtSniffer.Recovery

open Relational

/-- The local limit of a queued request. -/
def QUEUE_TIMEOUT : Nat := 5000000000

/-- The pace of recovery pings. -/
def RECOVERY_PACE : Nat := 1000000000

/-- The bound of a snapshot. -/
def SNAPSHOT_LIMIT : Nat := 2048

/-- `SavedContact`. -/
structure SavedContact where
  id : NodeId
  address : SocketAddr
  respondedAt : Int
  deriving DecidableEq, Repr

/-- `PendingPurpose`. -/
inductive Purpose where
  | fetch
  | recovery (id : NodeId)
  | sampling
  | userPing
  | verification
  | bucketProbe
  | maintenanceLookup
  deriving DecidableEq, Repr

namespace Purpose

/-- The purposes that `PendingPurpose::cancelled` looks at. -/
def cancellable : Purpose → Bool
  | .fetch | .userPing => true
  | _ => false

/-- The node of a recovery ping. -/
def recovers : Purpose → Option NodeId
  | .recovery id => some id
  | _ => none

end Purpose

/-- `RemoteNode`. -/
structure RemoteNode where
  address : SocketAddr
  expectedId : Option NodeId
  deriving DecidableEq, Repr

/-- `Queued`. -/
structure Queued where
  remote : RemoteNode
  method : QueryMethod
  purpose : Purpose
  deadline : Nat
  deriving DecidableEq, Repr

/-- `PendingDispatch`, with the transaction it is stored under. -/
structure PendingDispatch where
  id : TransactionId
  remote : RemoteNode
  purpose : Purpose
  deriving DecidableEq, Repr

/-- What is found out about one queued request: its caller has cancelled it, it can be encoded, the
budget grants it, the socket takes it. -/
structure Answer where
  cancelled : Bool
  encodes : Bool
  granted : Bool
  sent : Bool
  deriving DecidableEq, Repr

/-- `Recovery`. -/
structure Progress where
  queued : List SavedContact
  active : Table SavedContact SavedContact.id
  next : Option Nat

namespace Progress

/-- `Recovery::deadline`. -/
def deadline (p : Progress) (capacity : Bool) : Option Nat :=
  if capacity = true ∧ p.active.rows.length < 3 ∧ p.queued ≠ [] then p.next else none

/-- `Recovery::finished`. -/
def finished (p : Progress) (id : NodeId) : Progress := { p with active := p.active.erase id }

end Progress

/-- The part of `DhtDispatcher` that recovery pings go through. -/
structure Dispatcher where
  transactions : TransactionManager
  pending : Table PendingDispatch PendingDispatch.id
  queued : List Queued
  recovery : Progress
  identityPaused : Bool
  reservedUserTransactions : Nat
  tried : List NodeId

/-- `LocalIdentity`. -/
structure LocalIdentity where
  nodeId : NodeId
  family : AddressFamily
  deriving DecidableEq, Repr

/-- The contacts that `attach_storage` keeps: not the node itself, of the right family, accepted by
the policy, and the first of each ID. -/
def keptContacts (identity : LocalIdentity) (policy : AddressPolicy) :
    List SavedContact → List NodeId → List SavedContact
  | [], _ => []
  | c :: rest, seen =>
    if c.id ≠ identity.nodeId ∧ identity.family.accepts c.address = true ∧
        policy.accepts c.address = true ∧ c.id ∉ seen then
      c :: keptContacts identity policy rest (c.id :: seen)
    else keptContacts identity policy rest seen

/-- The contacts of `saved_contacts` before they are cut: of one ID the routing table wins, then the
active ping. -/
def mergedContacts (p : Progress) (snapshot : List SavedContact) :
    Table SavedContact SavedContact.id :=
  (p.queued ++ p.active.rows ++ snapshot).foldl (fun t c => t.insert c) .empty

/-- The order of a snapshot: the latest response first, then by ID. -/
def snapshotOrder (a b : SavedContact) : Prop :=
  b.respondedAt < a.respondedAt ∨ (a.respondedAt = b.respondedAt ∧ a.id.toNat ≤ b.id.toNat)

instance : DecidableRel snapshotOrder := fun _ _ => inferInstanceAs (Decidable (_ ∨ _))

/-- `saved_contacts`, with the snapshot of the routing table. -/
def savedContacts (p : Progress) (snapshot : List SavedContact) : List SavedContact :=
  ((mergedContacts p snapshot).rows.insertionSort snapshotOrder).take SNAPSHOT_LIMIT

namespace Dispatcher

/-- A new dispatcher. -/
def new (timeout maxPending reserved : Nat) : Dispatcher where
  transactions := .new timeout maxPending
  pending := .empty
  queued := []
  recovery := ⟨[], .empty, none⟩
  identityPaused := false
  reservedUserTransactions := reserved
  tried := []

/-- `attach_storage`, for the identity and family of the routing table. -/
def attachStorage (d : Dispatcher) (routing identity : LocalIdentity)
    (contacts : List SavedContact) (policy : AddressPolicy) (now : Nat) :
    Except String Dispatcher :=
  if identity.nodeId ≠ routing.nodeId ∨ identity.family ≠ routing.family ∨
      contacts.length > SNAPSHOT_LIMIT then
    .error "持久化身份与 dispatcher 不匹配"
  else
    .ok { d with recovery := { d.recovery with
      queued := keptContacts identity policy contacts []
      next := some now } }

/-- `occupied`. -/
def occupied (d : Dispatcher) : Nat := d.transactions.len + d.queued.length

/-- The capacity without the reserve. -/
def limit (d : Dispatcher) (reserve : Nat) : Nat := d.transactions.maxPending - reserve

/-- `recovery_capacity`. -/
def recoveryCapacity (d : Dispatcher) : Bool :=
  decide (d.occupied < d.limit (max d.reservedUserTransactions 1))

/-- `finish_start_error`, as far as recovery is concerned. -/
def finishStartError (d : Dispatcher) : Purpose → Dispatcher
  | .recovery id => { d with recovery := d.recovery.finished id }
  | _ => d

/-- `send_rpc`. -/
def sendRpc (d : Dispatcher) (q : Queued) (sent : Bool) (now : Nat) : Dispatcher :=
  match d.transactions.register q.remote.address q.method now with
  | (.error _, transactions) => { d with transactions }.finishStartError q.purpose
  | (.ok id, transactions) =>
    let d := { d with
      transactions, pending := d.pending.insert ⟨id, q.remote, q.purpose⟩ }
    if sent then d
    else
      { d with
        transactions := (d.transactions.cancel id).2
        pending := d.pending.erase id }.finishStartError q.purpose

/-- One turn of the loop of `advance_outbound`; a request that has to wait stays in the queue. -/
def visit (d : Dispatcher) (now : Nat) (q : Queued) (answer : Answer) : Dispatcher :=
  if q.purpose.cancellable && answer.cancelled then d
  else if q.deadline ≤ now then d.finishStartError q.purpose
  else if !answer.encodes then d.finishStartError q.purpose
  else if answer.granted then d.sendRpc q answer.sent now
  else { d with queued := d.queued ++ [q] }

/-- The loop of `advance_outbound`: `queued` holds what was visited and stays. -/
def outboundLoop (now : Nat) (answers : Nat → Answer) : List Queued → Nat → Dispatcher → Dispatcher
  | [], _, d => d
  | q :: rest, index, d => outboundLoop now answers rest (index + 1) (d.visit now q (answers index))

/-- `advance_outbound`. -/
def advanceOutbound (d : Dispatcher) (now : Nat) (answers : Nat → Answer) : Dispatcher :=
  outboundLoop now answers d.queued 0 { d with queued := [] }

/-- The places that `start_rpc` keeps free: none for a user's ping. -/
def reserveFor (d : Dispatcher) : Purpose → Nat
  | .userPing => 0
  | _ => max d.reservedUserTransactions 1

/-- `start_rpc`; `permit` is the answer of `admit_verification`. -/
def startRpc (d : Dispatcher) (remote : RemoteNode) (method : QueryMethod) (purpose : Purpose)
    (permit : Bool) (now : Nat) (answers : Nat → Answer) : Dispatcher :=
  if d.identityPaused then d.finishStartError purpose
  else if d.limit (d.reserveFor purpose) ≤ d.occupied then d.finishStartError purpose
  else if purpose = .verification ∧ permit = false then d.finishStartError purpose
  else
    let entry : Queued := ⟨remote, method, purpose, now + QUEUE_TIMEOUT⟩
    advanceOutbound { d with queued := d.queued ++ [entry] } now answers

/-- `advance_recovery`; the loop of the dispatcher skips it while the identity is paused. -/
def advanceRecovery (d : Dispatcher) (now : Nat) (answers : Nat → Answer) : Dispatcher :=
  if d.identityPaused then d
  else if (d.recovery.deadline d.recoveryCapacity).all (fun at_ => decide (now < at_)) then d
  else
    match d.recovery.queued with
    | [] => d
    | c :: rest =>
      { d with recovery :=
        { queued := rest
          active := d.recovery.active.insert c
          next := some (now + RECOVERY_PACE) } }.startRpc
        ⟨c.address, some c.id⟩ .ping (.recovery c.id) true now answers

/-- `finish_success` and `finish_network_failure`, as far as recovery is concerned. -/
def settle (d : Dispatcher) : Purpose → Dispatcher
  | .recovery id => { d with recovery := d.recovery.finished id, tried := d.tried ++ [id] }
  | _ => d

/-- A request is taken out of the pending ones and settled. -/
def settlePending (d : Dispatcher) (id : TransactionId) : Dispatcher :=
  match d.pending.get? id with
  | none => d
  | some p => { d with pending := d.pending.erase id }.settle p.purpose

/-- `handle_response` and `handle_error`: a response that matches, or comes too late, settles. -/
def received (d : Dispatcher) (t : List UInt8) (source : SocketAddr) (now : Nat) : Dispatcher :=
  match d.transactions.complete t source now with
  | (.ok completed, transactions) =>
    { d with transactions }.settlePending completed.transaction.id
  | (.error (.expired transaction), transactions) =>
    { d with transactions }.settlePending transaction.id
  | (.error _, transactions) => { d with transactions }

/-- `expire_transactions`. -/
def expireTransactions (d : Dispatcher) (now : Nat) : Dispatcher :=
  (d.transactions.expire now).1.foldl (fun d transaction => d.settlePending transaction.id)
    { d with transactions := (d.transactions.expire now).2 }

/-- `cancel_fetch_queries`; `gone` says which callers have cancelled. -/
def cancelFetchQueries (d : Dispatcher) (gone : RemoteNode → Bool) : Dispatcher :=
  let ids := (d.pending.rows.filter (fun p => p.purpose.cancellable && gone p.remote)).map
    PendingDispatch.id
  { d with
    queued := d.queued.filter (fun q => !(q.purpose.cancellable && gone q.remote))
    transactions := ids.foldl (fun m id => (m.cancel id).2) d.transactions
    pending := ids.foldl (fun t id => t.erase id) d.pending }

/-- `discard_queued_sampling`. -/
def discardQueuedSampling (d : Dispatcher) : Dispatcher :=
  { d with queued := d.queued.filter (fun q => decide (q.purpose ≠ .sampling)) }

/-- `clear_queries`: queued requests end like failed sends, pending ones are dropped. -/
def clearQueries (d : Dispatcher) : Dispatcher :=
  let d := d.queued.foldl (fun d q => d.finishStartError q.purpose) { d with queued := [] }
  { d with
    pending := .empty
    transactions := (d.pending.rows.map PendingDispatch.id).foldl (fun m id => (m.cancel id).2)
      d.transactions }

/-- `rotate_identity`, once an external address is pending and storage is attached: the snapshot of
the routing table and the results of `prepare_identity_change` and of `bind` are given. -/
def rotateIdentity (d : Dispatcher) (snapshot : Except String (List SavedContact))
    (prepared bound : Bool) (now : Nat) : Dispatcher :=
  match snapshot with
  | .error _ => d
  | .ok snapshot =>
    let contacts := savedContacts d.recovery snapshot
    let d := { d with identityPaused := true }.clearQueries
    if prepared && bound then
      { d with recovery := ⟨contacts, .empty, some now⟩, identityPaused := false }
    else d

end Dispatcher

/-! ## Runs -/

/-- What the dispatcher does; `start` is a request of another purpose. -/
inductive Event where
  | start (remote : RemoteNode) (method : QueryMethod) (purpose : Purpose) (permit : Bool)
      (now : Nat) (answers : Nat → Answer)
  | outbound (now : Nat) (answers : Nat → Answer)
  | recover (now : Nat) (answers : Nat → Answer)
  | received (t : List UInt8) (source : SocketAddr) (now : Nat)
  | expire (now : Nat)
  | cancelFetches (gone : RemoteNode → Bool)
  | discardSampling
  | rotate (snapshot : Except String (List SavedContact)) (prepared bound : Bool) (now : Nat)
  | shutdown

namespace Dispatcher

/-- One event. -/
def step (d : Dispatcher) : Event → Dispatcher
  | .start remote method purpose permit now answers =>
    if purpose.recovers.isSome then d else d.startRpc remote method purpose permit now answers
  | .outbound now answers => d.advanceOutbound now answers
  | .recover now answers => d.advanceRecovery now answers
  | .received t source now => d.received t source now
  | .expire now => d.expireTransactions now
  | .cancelFetches gone => d.cancelFetchQueries gone
  | .discardSampling => d.discardQueuedSampling
  | .rotate snapshot prepared bound now => d.rotateIdentity snapshot prepared bound now
  | .shutdown => d.clearQueries

/-- The dispatcher after some events. -/
def run (d : Dispatcher) (events : List Event) : Dispatcher := events.foldl step d

end Dispatcher

end BtSniffer.Recovery
