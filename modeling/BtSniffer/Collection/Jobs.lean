import BtSniffer.Collection.MetadataStore

/-!
# Metadata jobs

Reference model of `src/collection/jobs/mod.rs`, `claim.rs`, `transitions.rs` and
`policy/mod.rs`: the claim query with its four classes, the claim, retry, completion and recovery
transactions, and the eight-slot rotation of `ClaimPolicy`.

* The retry delay after a remote failure is a floating-point product with a random jitter; its value
  is the argument `delayMs` of `retryTransition`.
* `claim_order` without an order is a test entry and not modelled.
* `complete_job` runs `save` of the metadata store inside its transaction.
-/

set_option autoImplicit false

namespace BtSniffer

open Relational

/-- `LOCAL_RETRY_DELAY_MS`. -/
def LOCAL_RETRY_DELAY_MS : Int := 60000

/-- `MAX_FAILED_ATTEMPTS`. -/
def MAX_FAILED_ATTEMPTS : Nat := 6

/-- `RECENT_MS`. -/
def RECENT_MS : Int := 30 * 60 * 1000

/-! ## Retry reasons -/

/-- `AttemptFailure`. -/
inductive AttemptFailure where
  | noPeers
  | peerIo
  | peerTimeout
  | protocol
  | hashMismatch
  | unsupported
  | receiveLimit
  | rejected
  | metadataUnavailable
  | taskTimeout
  deriving DecidableEq, Repr

/-- `AttemptFailure::label`. -/
def AttemptFailure.label : AttemptFailure → String
  | .noPeers => "no_peers"
  | .peerIo => "peer_io"
  | .peerTimeout => "peer_timeout"
  | .protocol => "protocol"
  | .hashMismatch => "hash_mismatch"
  | .unsupported => "unsupported"
  | .receiveLimit => "receive_limit"
  | .rejected => "rejected"
  | .metadataUnavailable => "metadata_unavailable"
  | .taskTimeout => "task_timeout"

/-- `LocalReason`. -/
inductive LocalReason where
  | identityChanged
  | resourceWait
  | noRoute
  | cancelled
  deriving DecidableEq, Repr

/-- `RetryReason`. -/
inductive RetryReason where
  | deferred
  | local (reason : LocalReason)
  | failed (failure : AttemptFailure)
  deriving DecidableEq, Repr

/-- `RetryReason::category`. -/
def RetryReason.category : RetryReason → Option String
  | .deferred => some "local_deferred"
  | .local .identityChanged => some "identity_changed"
  | .local .resourceWait => some "local_wait"
  | .local .noRoute => some "no_route"
  | .local .cancelled => some "cancelled"
  | .failed failure => some failure.label

/-- `matches!(reason, RetryReason::Failed(_))`. -/
def RetryReason.remoteFailure : RetryReason → Bool
  | .failed _ => true
  | _ => false

/-- `retry_transition`; `delayMs` is the delay computed after a remote failure. -/
def retryTransition (attempts : Nat) (reason : RetryReason) (nowMs : Int) (delayMs : Nat) :
    RetryTransition :=
  let attempts := attempts + if reason.remoteFailure then 1 else 0
  { state := if attempts ≥ MAX_FAILED_ATTEMPTS then .dormant else .retryWait
    attempts := attempts
    dueAt := saturatingAdd nowMs
      (if reason.remoteFailure then (delayMs : Int) else LOCAL_RETRY_DELAY_MS) }

/-! ## Claims -/

/-- `ClaimClass`. -/
inductive ClaimClass where
  | hint
  | recent
  | retry
  | history
  deriving DecidableEq, Repr

/-- The discriminant of a `ClaimClass`. -/
def ClaimClass.code : ClaimClass → Int
  | .hint => 0
  | .recent => 1
  | .retry => 2
  | .history => 3

/-- `ClaimClass::from_sql`. -/
def ClaimClass.fromSql (value : Int) : Except StorageError ClaimClass :=
  if value = 0 then .ok .hint
  else if value = 1 then .ok .recent
  else if value = 2 then .ok .retry
  else if value = 3 then .ok .history
  else .error (.invalid "任务类别无效")

/-- `AttemptKind`. -/
inductive AttemptKind where
  | first
  | repeated
  deriving DecidableEq, Repr

/-- `Job`. -/
structure Job where
  class_ : ClaimClass
  hadValidHint : Bool
  hash : SwarmKey
  generation : Nat
  failedAttemptsBefore : Nat
  peers : List SocketAddr
  deriving DecidableEq, Repr

/-- `Job::attempt_kind`. -/
def Job.attemptKind (job : Job) : AttemptKind :=
  if job.generation = 1 then .first else .repeated

/-- `Claim`. -/
structure Claim where
  job : Job
  dueAt : Int
  firstSeen : Int
  deriving DecidableEq, Repr

/-- `UpdateResult`. -/
inductive UpdateResult where
  | applied
  | stale
  deriving DecidableEq, Repr

/-- The parts of `VerifiedMetadata` the store reads. -/
structure VerifiedMetadata where
  infoHash : SwarmKey
  info : Bytes
  deriving DecidableEq, Repr

/-- `j.state IN ('pending', 'retry_wait') AND j.due_at <= ?1`. -/
def FetchJob.due (nowMs : Int) (j : FetchJob) : Bool :=
  (j.state == .pending || j.state == .retryWait) && decide (j.dueAt ≤ nowMs)

/-- `first_seen BETWEEN ?1 - ?3 AND ?1`. -/
def InfohashRow.recent (nowMs : Int) (i : InfohashRow) : Bool :=
  decide (nowMs - RECENT_MS ≤ i.firstSeen ∧ i.firstSeen ≤ nowMs)

/-- `observed_at >= ?1 - ?2`. -/
def PeerHint.fresh (nowMs : Int) (h : PeerHint) : Bool :=
  decide (nowMs - PEER_HINT_TTL_MS ≤ h.observedAt)

/-- `legal_peer(ip, port)` as `install_peer_policy` defines it. -/
def legalPeer (policy : AddressPolicy) (ip : IpAddr) (port : BitVec 16) : Bool :=
  policy.accepts (SocketAddr.new ip port)

/-- A candidate row of `schedule_sql`; `class_` is the value of its `CASE`. -/
structure ScheduledRow where
  hash : SwarmKey
  generation : Nat
  dueAt : Int
  class_ : Int
  firstSeen : Int
  attempts : Nat
  deriving DecidableEq, Repr

namespace Db

/-- `hash IN (SELECT h.hash FROM peer_hints h WHERE … AND legal_peer(h.ip, h.port))`. -/
def hinted (db : Db) (policy : AddressPolicy) (nowMs : Int) (hash : SwarmKey) : Bool :=
  db.peerHints.any (fun h => h.hash == hash && h.fresh nowMs && legalPeer policy h.ip h.port)

/-- The predicate `schedule_sql` adds for a preferred class. -/
def inClass (db : Db) (policy : AddressPolicy) (nowMs : Int) (j : FetchJob) (i : InfohashRow) :
    ClaimClass → Bool
  | .hint => j.generation == 0 && db.hinted policy nowMs j.hash
  | .recent => j.generation == 0 && i.recent nowMs && !db.hinted policy nowMs j.hash
  | .retry => decide (0 < j.generation)
  | .history => j.generation == 0 && !i.recent nowMs && !db.hinted policy nowMs j.hash

/-- The `CASE` of `schedule_sql`. -/
def caseClass (db : Db) (policy : AddressPolicy) (nowMs : Int) (j : FetchJob) (i : InfohashRow) :
    Int :=
  if 0 < j.generation then 2
  else if db.hinted policy nowMs j.hash then 0
  else if i.recent nowMs then 1
  else 3

/-- `ORDER BY j.due_at, j.hash`. -/
def dueRank (j : FetchJob) : Int ×ₗ Nat := toLex (j.dueAt, j.hash.toNat)

/-- `WHERE` of `schedule_sql`, with the join on `infohashes`. -/
def candidate (db : Db) (policy : AddressPolicy) (nowMs : Int) (preference : ClaimClass)
    (j : FetchJob) : Bool :=
  j.due nowMs && (db.infohashes.get? j.hash).any (fun i => db.inClass policy nowMs j i preference)

/-- `schedule_sql` for a preferred class. -/
def schedule (db : Db) (policy : AddressPolicy) (nowMs : Int) (preference : ClaimClass) :
    Option ScheduledRow :=
  (db.fetchJobs.select (db.candidate policy nowMs preference) (Table.orderBy dueRank) 1).head?.bind
    (fun j => (db.infohashes.get? j.hash).map (fun i =>
      ⟨j.hash, j.generation, j.dueAt, db.caseClass policy nowMs j i, i.firstSeen, j.attempts⟩))

/-- The addresses a claim carries: the eight most recent fresh hints, filtered by the policy. -/
def claimPeers (db : Db) (policy : AddressPolicy) (nowMs : Int) (hash : SwarmKey) :
    List SocketAddr :=
  ((db.peerHints.select (fun h => h.hash == hash && h.fresh nowMs) (Table.orderBy PeerHint.rank)
    MAX_PEER_HINTS).map (fun h => SocketAddr.new h.ip h.port)).filter policy.accepts

/-- A running job of a hash with a given generation. -/
def runningJob (db : Db) (hash : SwarmKey) (generation : Nat) : Option FetchJob :=
  (db.fetchJobs.get? hash).filter (fun j => j.generation == generation && j.state == .running)

end Db

/-- The loop of `claim_order` over the classes: the first hit ends it. -/
def selectCandidate (nowMs : Int) (policy : AddressPolicy) :
    List ClaimClass → Script (Option ScheduledRow)
  | [] => pure none
  | preference :: rest => do
    let row ← Prog.query (fun db => db.schedule policy nowMs preference)
    match row with
    | some row => pure (some row)
    | none => selectCandidate nowMs policy rest

/-- `claim_order` from the candidate on. -/
def claimRow (nowMs : Int) (policy : AddressPolicy) (row : ScheduledRow) :
    Script (Option Claim) := do
  let class_ ← Prog.queryOrFail (fun _ => ClaimClass.fromSql row.class_)
  let _ ← Prog.execute (.updateJobs (.claim row.hash nowMs))
  let peers ← Prog.query (fun db => db.claimPeers policy nowMs row.hash)
  pure (some
    { job :=
        { class_ := class_
          hadValidHint := !peers.isEmpty
          hash := row.hash
          generation := row.generation + 1
          failedAttemptsBefore := row.attempts
          peers := peers }
      dueAt := row.dueAt
      firstSeen := row.firstSeen })

/-- `claim_by_order`. -/
def claimByOrder (nowMs : Int) (order : List ClaimClass) (policy : AddressPolicy) :
    Script (Option Claim) := do
  let candidate ← selectCandidate nowMs policy order
  match candidate with
  | none => pure none
  | some row => claimRow nowMs policy row

/-! ## Transitions -/

/-- `recover_jobs`. -/
def recoverJobs (nowMs : Int) : Script Unit := do
  let _ ← Prog.execute (.updateJobs (.recoverRunning nowMs))
  let _ ← Prog.execute (.updateJobs .recoverSucceeded)

/-- `retry_job`. -/
def retryJob (job : Job) (nowMs : Int) (reason : RetryReason) (delayMs : Nat) :
    Script UpdateResult := do
  let current ← Prog.query (fun db => db.runningJob job.hash job.generation)
  match current with
  | none => pure .stale
  | some j => do
    let _ ← Prog.execute (.updateJobs (.retry job.hash job.generation
      (retryTransition j.attempts reason nowMs delayMs) nowMs reason.category))
    pure .applied

/-- `complete_job`. -/
def completeJob (M : Metainfo) (job : Job) (metadata : VerifiedMetadata) (nowMs : Int) :
    Script UpdateResult :=
  if metadata.infoHash ≠ job.hash then .fail .conflict
  else do
    let current ← Prog.query (fun db => (db.runningJob job.hash job.generation).isSome)
    if !current then pure .stale
    else do
      let _ ← save M job.hash metadata.info nowMs
      let _ ← Prog.execute (.updateJobs (.succeed job.hash nowMs))
      let _ ← Prog.execute (.deleteHints (.clear job.hash))
      pure .applied

/-! ## Rotation -/

/-- `ROTATION`. -/
def ROTATION : List ClaimClass :=
  [.hint, .recent, .retry, .hint, .history, .recent, .retry, .hint]

/-- `BORROW_ORDER`. -/
def BORROW_ORDER : List ClaimClass := [.hint, .recent, .history, .retry]

/-- `order_for`. -/
def orderFor (preferred : ClaimClass) : List ClaimClass :=
  preferred :: BORROW_ORDER.filter (fun c => c != preferred)

/-- `ClaimPolicy`; the cursor is an index of the rotation. -/
structure ClaimPolicy where
  turn : Fin 8
  deriving DecidableEq, Repr

namespace ClaimPolicy

/-- `ClaimPolicy::new`. -/
def new : ClaimPolicy := ⟨0⟩

/-- The preferred class of a slot. -/
def preferred (turn : Fin 8) : ClaimClass := ROTATION.get turn

/-- `ClaimPolicy::order`. -/
def order (p : ClaimPolicy) : List ClaimClass := orderFor (preferred p.turn)

/-- `ClaimPolicy::on_claimed`. -/
def onClaimed (p : ClaimPolicy) : ClaimPolicy := ⟨⟨(p.turn.val + 1) % 8, by omega⟩⟩

end ClaimPolicy

end BtSniffer
