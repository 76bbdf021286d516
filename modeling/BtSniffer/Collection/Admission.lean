import BtSniffer.Collection.Jobs
import Mathlib.Order.WithBot

/-!
# Admission of jobs

Reference model of `src/collection/jobs/admission.rs`, of `discover_peer` and `cleanup_expired`
(`src/collection/jobs/hints.rs`) and of `save_hashes_at` (`src/collection/records.rs`).

* `Admission` — the remaining quotas of one transaction, loaded once and decremented along it.
* `backfillPage` sweeps `infohashes` in the order of the hash, `backfillRecentPage` in the order of
  `(first_seen, hash)`; their cursors are positions in these orders, where the empty `BLOB` that
  stands for a missing hash is below every hash.
* `AdmissionConfig` holds `fetch_limit` and `RecentAdmission`.  Observation and the deferral counters
  do not influence the database and are left out.
-/

set_option autoImplicit false

namespace BtSniffer

open Relational

/-- `BACKFILL_PAGE_SIZE`. -/
def BACKFILL_PAGE_SIZE : Nat := 256

/-- `LIMIT` of `RECENT_PAGE_SQL`. -/
def RECENT_PAGE_LIMIT : Nat := 128

/-- `fetch_limit` and `RecentAdmission` of the store. -/
structure AdmissionConfig where
  fetchLimit : Nat
  recentLimit : Nat
  policy : AddressPolicy
  deriving DecidableEq, Repr

/-- The states of an admitted, unfinished job. -/
def FetchJob.active (j : FetchJob) : Bool :=
  j.state == .pending || j.state == .running || j.state == .retryWait

/-- `(now.saturating_sub(RECENT_MS)..=now).contains(&first_seen)`. -/
def recentWindow (nowMs firstSeen : Int) : Bool :=
  decide (saturatingSub nowMs RECENT_MS ≤ firstSeen ∧ firstSeen ≤ nowMs)

namespace Db

/-- `SELECT count(*) FROM fetch_jobs WHERE state IN ('pending', 'running', 'retry_wait')`. -/
def activeJobs (db : Db) : Nat := db.fetchJobs.count FetchJob.active

/-- `available`. -/
def available (db : Db) (limit : Nat) : Nat :=
  if limit = 0 then 0 else limit - db.activeJobs

/-- A row of `FIRST_ATTEMPT_SQL`. -/
def waitsFirst (db : Db) (policy : AddressPolicy) (nowMs : Int) (j : FetchJob) : Bool :=
  (db.infohashes.get? j.hash).any (InfohashRow.recent nowMs) && j.generation == 0 &&
    (j.state == .pending || j.state == .retryWait) && !db.hinted policy nowMs j.hash

/-- `first_attempt_waiting`. -/
def firstAttemptWaiting (db : Db) (policy : AddressPolicy) (nowMs : Int) : Nat :=
  db.fetchJobs.count (db.waitsFirst policy nowMs)

/-- `SELECT first_seen FROM infohashes WHERE hash=?1`. -/
def firstSeen (db : Db) (hash : SwarmKey) : Except StorageError Int :=
  match db.infohashes.get? hash with
  | some i => .ok i.firstSeen
  | none => .error (.database .noRows)

/-- `EXISTS(SELECT 1 FROM fetch_jobs WHERE hash=?1)`. -/
def hasJob (db : Db) (hash : SwarmKey) : Bool := (db.fetchJobs.get? hash).isSome

end Db

/-- `enqueue`: create or revive the job of a hash; the result is the remaining slots. -/
def enqueue (hash : SwarmKey) (nowMs : Int) (slots : Nat) : Script Nat :=
  if slots = 0 then pure 0
  else do
    let inserted ← Prog.execute (.insertJob hash nowMs)
    if inserted = 0 then do
      let revived ← Prog.execute (.updateJobs (.revive hash nowMs))
      pure (slots - (inserted + revived))
    else pure (slots - inserted)

/-- `Admission`. -/
structure Admission where
  total : Nat
  recent : Nat
  history : Nat
  enabled : Bool
  deriving DecidableEq, Repr

namespace Admission

/-- The history reserve: `recent_limit.min(limit.saturating_sub(1))`. -/
def reserve (config : AdmissionConfig) : Nat := min config.recentLimit (config.fetchLimit - 1)

/-- `Admission::load`. -/
def load (db : Db) (nowMs : Int) (config : AdmissionConfig) : Admission :=
  let total := db.available config.fetchLimit
  { total := total
    recent :=
      if config.recentLimit = 0 then total
      else config.recentLimit - db.firstAttemptWaiting config.policy nowMs
    history := total - reserve config
    enabled := config.recentLimit != 0 }

/-- `Admission::has_history_room`. -/
def hasHistoryRoom (a : Admission) : Bool :=
  decide (0 < a.total) && (!a.enabled || decide (0 < a.history))

/-- The room `Admission::enqueue` grants a hash. -/
def room (a : Admission) (recent : Bool) : Nat :=
  if a.enabled then min a.total (if recent then a.recent else a.history) else a.total

/-- The quotas after `used` slots went to a hash. -/
def spend (a : Admission) (recent : Bool) (used : Nat) : Admission :=
  { a with
    total := a.total - used
    history := a.history - used
    recent := if recent then a.recent - used else a.recent }

/-- `Admission::enqueue`; the result is the new quotas and the used slots. -/
def enqueue (a : Admission) (hash : SwarmKey) (nowMs : Int) : Script (Admission × Nat) := do
  let firstSeen ← Prog.queryOrFail (fun db => db.firstSeen hash)
  let recent := recentWindow nowMs firstSeen
  let room := a.room recent
  let left ← BtSniffer.enqueue hash nowMs room
  pure (a.spend recent (room - left), room - left)

/-- The branch of the backfill loops that enqueues a hash, or leaves it. -/
def enqueueIf (a : Admission) (wanted : Bool) (hash : SwarmKey) (nowMs : Int) :
    Script Admission :=
  if wanted then do
    let r ← a.enqueue hash nowMs
    pure r.1
  else pure a

/-- The branch of `Admission::observe` for a hash with a dormant job; only the total and the history
quota are charged. -/
def reviveIf (a : Admission) (dormant : Bool) (hash : SwarmKey) (nowMs : Int) :
    Script Admission :=
  if dormant then do
    let left ← BtSniffer.enqueue hash nowMs a.total
    pure { a with total := left, history := a.history - (a.total - left) }
  else pure a

/-- `Admission::observe`: the new quotas, and whether the hash still has neither a job nor
metadata. -/
def observe (a : Admission) (hash : SwarmKey) (nowMs : Int) : Script (Admission × Bool) :=
  if !a.enabled then do
    let r ← a.enqueue hash nowMs
    pure (r.1, false)
  else do
    let dormant ← Prog.query (fun db => (db.fetchJobs.get? hash).any (fun j => j.state == .dormant))
    let a ← a.reviveIf dormant hash nowMs
    let waiting ← Prog.query (fun db => !db.hasJob hash && !db.hasSwarm hash)
    pure (a, waiting)

end Admission

/-! ## Recent sweep -/

/-- A cursor of `backfill_recent_page`. -/
abbrev RecentCursor := Int × SwarmKey

/-- The position of a `BLOB`: the empty one comes first. -/
def blobRank (hash : Option SwarmKey) : WithBot Nat :=
  match hash with
  | none => ⊥
  | some h => (h.toNat : WithBot Nat)

/-- The order `(first_seen, hash)`. -/
def recentRank (at_ : Int) (hash : Option SwarmKey) : Int ×ₗ WithBot Nat :=
  toLex (at_, blobRank hash)

/-- The position of a row in the recent sweep. -/
def InfohashRow.recentRank (i : InfohashRow) : Int ×ₗ WithBot Nat :=
  BtSniffer.recentRank i.firstSeen (some i.hash)

/-- Where a recent sweep starts: at the cursor, unless the window has moved past it. -/
def recentStart (nowMs : Int) (cursor : Option RecentCursor) : Int × Option SwarmKey :=
  let windowStart := saturatingSub nowMs RECENT_MS
  match cursor with
  | none => (windowStart, none)
  | some (at_, hash) => if windowStart ≤ at_ then (at_, some hash) else (windowStart, none)

/-- `RECENT_PAGE_SQL`. -/
def Db.recentPage (db : Db) (nowMs : Int) (start : Int × Option SwarmKey) : List InfohashRow :=
  db.infohashes.select
    (fun i => decide (recentRank start.1 start.2 < i.recentRank) && decide (i.firstSeen ≤ nowMs))
    (Table.orderBy InfohashRow.recentRank) RECENT_PAGE_LIMIT

/-- The loop of `backfill_recent_page`; `next` is the last position examined. -/
def recentLoop (nowMs : Int) :
    List InfohashRow → Admission → Option RecentCursor → Script (Option RecentCursor)
  | [], _, next => pure next
  | i :: rest, a, _ => do
    let known ← Prog.query (fun db => db.hasJob i.hash)
    let a ← a.enqueueIf (!known) i.hash nowMs
    if a.total = 0 ∨ a.recent = 0 then pure (some (i.firstSeen, i.hash))
    else recentLoop nowMs rest a (some (i.firstSeen, i.hash))

/-- `backfill_recent_page`. -/
def backfillRecentPage (config : AdmissionConfig) (nowMs : Int) (cursor : Option RecentCursor) :
    Script (Option RecentCursor) := do
  let a ← Prog.query (fun db => Admission.load db nowMs config)
  if a.total = 0 ∨ a.recent = 0 then pure cursor
  else do
    let page ← Prog.query (fun db => db.recentPage nowMs (recentStart nowMs cursor))
    recentLoop nowMs page a none

/-! ## History sweep -/

/-- A page of the history sweep: the rows after the cursor, and whether they have neither a job nor
metadata. -/
def Db.historyPage (db : Db) (cursor : Option SwarmKey) (limit : Nat) :
    List (InfohashRow × Bool) :=
  (db.infohashes.select (fun i => decide (blobRank cursor < blobRank (some i.hash)))
    (Table.orderBy (fun i : InfohashRow => i.hash.toNat)) limit).map
      (fun i => (i, !db.hasJob i.hash && !db.hasSwarm i.hash))

/-- The loop of `backfill_page`. -/
def historyLoop (config : AdmissionConfig) (nowMs : Int) :
    List (InfohashRow × Bool) → Admission → Option SwarmKey → Script (Option SwarmKey)
  | [], _, next => pure next
  | (i, eligible) :: rest, a, next =>
    if !a.hasHistoryRoom then pure next
    else do
      let a ← a.enqueueIf
        (eligible && (config.recentLimit == 0 || !recentWindow nowMs i.firstSeen)) i.hash nowMs
      historyLoop config nowMs rest a (some i.hash)

/-- The page size of `backfill_page`. -/
def historyPageLimit (config : AdmissionConfig) : Nat :=
  if config.recentLimit = 0 then BACKFILL_PAGE_SIZE else BACKFILL_PAGE_SIZE / 2

/-- The sweep of `backfill_page`; without room the cursor stays. -/
def historySweep (config : AdmissionConfig) (nowMs : Int) (cursor : Option SwarmKey)
    (a : Admission) : Script (Option SwarmKey) :=
  if a.hasHistoryRoom then do
    let page ← Prog.query (fun db => db.historyPage cursor (historyPageLimit config))
    historyLoop config nowMs page a none
  else pure cursor

/-- `backfill_page`, with `cleanup_expired` at its end. -/
def backfillPage (config : AdmissionConfig) (nowMs : Int) (cursor : Option SwarmKey) :
    Script (Option SwarmKey) := do
  let a ← Prog.query (fun db => Admission.load db nowMs config)
  let next ← historySweep config nowMs cursor a
  let _ ← Prog.execute (.deleteHints (.expired nowMs))
  pure next

/-! ## Discovery -/

/-- `discover_peer`. -/
def discoverPeer (limit : Nat) (hash : SwarmKey) (peer : SocketAddr) (observedAtMs : Int) :
    Script Bool :=
  if peer.port = 0 ∨ observedAtMs < 0 then .fail (.invalid "peer 发现参数无效")
  else do
    let slots ← Prog.query (fun db => db.available limit)
    let active ← Prog.query (fun db => (db.fetchJobs.get? hash).any FetchJob.active)
    if slots = 0 ∧ !active then pure false
    else do
      let _ ← Prog.execute (.upsertHash hash observedAtMs)
      let _ ← enqueue hash observedAtMs slots
      let _ ← Prog.execute (.upsertHint ⟨hash, peer.ip, peer.port, observedAtMs⟩)
      let _ ← Prog.execute (.deleteHints (.trim hash))
      pure true

/-- The loop of `save_hashes_at`; the result is the number of observations waiting for backfill. -/
def saveHashesLoop (observedAt admissionAt : Int) :
    List SwarmKey → Admission → Nat → Script Nat
  | [], _, deferred => pure deferred
  | hash :: rest, a, deferred => do
    let _ ← Prog.execute (.upsertHash hash observedAt)
    let r ← a.observe hash admissionAt
    saveHashesLoop observedAt admissionAt rest r.1 (deferred + if r.2 then 1 else 0)

/-- `save_hashes_at`. -/
def saveHashesAt (config : AdmissionConfig) (hashes : List SwarmKey)
    (observedAt admissionAt : Int) : Script Nat :=
  if hashes.length > 1024 then .fail .capacity
  else if observedAt < 0 ∨ admissionAt < 0 then .fail (.invalid "观察时间无效")
  else do
    let admissionAt := if config.recentLimit = 0 then observedAt else admissionAt
    let a ← Prog.query (fun db => Admission.load db admissionAt config)
    saveHashesLoop observedAt admissionAt hashes a 0

end BtSniffer
