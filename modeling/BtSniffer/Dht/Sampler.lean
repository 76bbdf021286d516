import BtSniffer.Dht.PeerStore
import BtSniffer.Dht.Routing
import BtSniffer.Dht.Cooldown
import BtSniffer.Clock

/-!
# The sampler

Reference model of `src/dht/dispatcher/sampler/`: the session with its candidates and requests in
flight (`state.rs`, `schedule.rs`), the outcome of requests (`outcome.rs`) and the futures that wait
for the database (`durable/mod.rs`).

* A request owns its place: it is returned once and given back once, so a caller holds it.
* Random targets, the state of the output channel and the answers of the database are arguments.
* `current` is the time that `mark_storage_fault` reads from the clock.
* The maps of the source are tables; their order is not used.
* Sample batches, observers and the error report are left out.
-/

set_option autoImplicit false

namespace BtSniffer

open Relational

/-! ## Data -/

/-- `UNSUPPORTED_FOR`: 6 hours. -/
def UNSUPPORTED_FOR : Nat := 21600 * 1000000000

/-- `DiscoveredNode`. -/
structure DiscoveredNode where
  id : NodeId
  address : SocketAddr
  deriving DecidableEq, Repr

/-- The IP of a node's address. -/
def DiscoveredNode.ip (node : DiscoveredNode) : IpAddr := node.address.ip

/-- `RequestKind`. -/
inductive RequestKind where
  | sample
  | findNodeFallback
  deriving DecidableEq, Repr

/-- `PauseReason`. -/
inductive PauseReason where
  | stopped
  | ready
  | noSeeds
  | cooldown
  | transactions
  | output
  | trackingCapacity
  | storage
  deriving DecidableEq, Repr

/-- `SamplerConfig`. -/
structure SamplerConfig where
  parallelism : Nat
  sendSpacing : Nat
  maxQueries : Nat
  shortlistSize : Nat
  candidateCapacity : Nat
  outputCapacity : Nat
  minimumInterval : Nat
  retryInitial : Nat
  retryMax : Nat
  cooldownCapacity : Nat
  addressPolicy : AddressPolicy
  deriving DecidableEq, Repr

/-- `SamplerError`. -/
inductive SamplerError where
  | storageFault
  | alreadyRunning
  | invalidConfig
  deriving DecidableEq, Repr

/-- `Semaphore::MAX_PERMITS`. -/
def MAX_PERMITS : Nat := 2 ^ 61 - 1

/-- `SamplerConfig::validate`. -/
def SamplerConfig.validate (c : SamplerConfig) (maxPending now : Nat) : Except SamplerError Unit :=
  if c.parallelism = 0 ∨ c.parallelism ≥ maxPending ∨ c.sendSpacing = 0 ∨ c.minimumInterval = 0 ∨
      c.retryInitial = 0 ∨ c.retryMax < c.retryInitial ∨ c.shortlistSize = 0 ∨
      c.maxQueries < c.shortlistSize ∨ c.candidateCapacity < c.shortlistSize ∨
      c.candidateCapacity < c.parallelism ∨ c.outputCapacity = 0 ∨
      c.outputCapacity > MAX_PERMITS ∨ c.cooldownCapacity = 0 ∨
      (checkedAdd now c.sendSpacing).isNone ∨ (checkedAdd now c.minimumInterval).isNone ∨
      (checkedAdd now c.retryMax).isNone then
    .error .invalidConfig
  else .ok ()

/-- `Request`; a reserved output slot is a `permit`. -/
structure Request where
  generation : Nat
  lease : Option CooldownLease
  node : DiscoveredNode
  target : NodeId
  kind : RequestKind
  permit : Bool
  deriving DecidableEq, Repr

/-- `Candidate`. -/
structure Candidate where
  node : DiscoveredNode
  visited : Bool
  kind : RequestKind
  deriving DecidableEq, Repr

/-- A fresh candidate. -/
def Candidate.new (node : DiscoveredNode) : Candidate := ⟨node, false, .sample⟩

/-- `Cooldown`. -/
structure Cooldown where
  until_ : Nat
  failures : Nat
  deriving DecidableEq, Repr

/-- A row of `candidates`. -/
abbrev CandidateRow := NodeId × Candidate

/-- `SamplingSession`. -/
structure SamplingSession where
  config : SamplerConfig
  readyPermit : Bool
  candidates : Table CandidateRow Prod.fst
  inFlight : Table (NodeId × IpAddr) Prod.fst
  target : NodeId
  queries : Nat
  nextSend : Nat

/-- `SamplerStatus`. -/
structure SamplerStatus where
  storageError : Option StorageError
  running : Bool
  inFlight : Nat
  candidates : Nat
  successful : Nat
  failed : Nat
  unsupported : Nat
  pause : PauseReason
  deriving DecidableEq, Repr

/-- `SamplerStatus::default`. -/
def SamplerStatus.default : SamplerStatus := ⟨none, false, 0, 0, 0, 0, 0, .stopped⟩

/-- `LocalIdentity`. -/
structure LocalIdentity where
  key : Int
  nodeId : NodeId
  family : AddressFamily
  deriving DecidableEq, Repr

/-- The future of `reserve_sampling`, which holds the request. -/
structure Reservation where
  request : Request
  identity : LocalIdentity
  at_ : Int
  durationMs : Int
  capacity : Nat
  deriving DecidableEq, Repr

/-- A future of `settling`. -/
inductive Settlement where
  | settle (lease : CooldownLease) (at_ : Except StorageError Int) (durationMs : Int)
      (failures : Nat)
  | abandon (lease : CooldownLease)

/-- `Durable`. -/
structure Durable where
  clock : Clock
  identity : LocalIdentity
  reserving : Option Reservation
  ready : Option Request
  settling : List Settlement

/-- `Sampler`. -/
structure Sampler where
  generation : Nat
  durable : Option Durable
  session : Option SamplingSession
  ids : Table (NodeId × Cooldown) Prod.fst
  ips : Table (IpAddr × Nat) Prod.fst
  status : SamplerStatus
  deadline : Option Nat

/-- `Sampler::default`. -/
def Sampler.default : Sampler := ⟨0, none, none, .empty, .empty, .default, none⟩

end BtSniffer
