import BtSniffer.Collection.Admission
import BtSniffer.Collection.IdentityStore

/-!
# Runs of the collection store

The transactions of the collection store as one operation type, and their runs.

* `StoreOp`, `StoreOp.commit`, `StoreOp.replay` — the transactions, in any order and with any
  arguments; a transaction that fails leaves the database alone.
* `replay_keeps`, `replay_rel` — the induction over runs, once.
* `claimByOrder_ok`, `retryJob_ok`, `completeJob_ok` — what the three transactions of a worker can
  do.
-/

set_option autoImplicit false

namespace BtSniffer

open Relational

/-- The transactions of the collection store. -/
inductive StoreOp where
  | claim (nowMs : Int) (order : List ClaimClass) (policy : AddressPolicy)
  | retry (job : Job) (nowMs : Int) (reason : RetryReason) (delayMs : Nat)
  | complete (job : Job) (metadata : VerifiedMetadata) (nowMs : Int)
  | recover (nowMs : Int)
  | saveHashes (config : AdmissionConfig) (hashes : List SwarmKey) (observedAt admissionAt : Int)
  | discoverPeer (limit : Nat) (hash : SwarmKey) (peer : SocketAddr) (observedAtMs : Int)
  | backfillPage (config : AdmissionConfig) (nowMs : Int) (cursor : Option SwarmKey)
  | backfillRecentPage (config : AdmissionConfig) (nowMs : Int) (cursor : Option RecentCursor)
  | backfillOne (cursor : Option Int)
  | save (key : SwarmKey) (info : Bytes) (atMs : Int)

/-- What the callers of the job protocol see; the other results are not used here. -/
inductive Reply where
  | claimed (claim : Option Claim)
  | updated (result : UpdateResult)
  | done
  deriving DecidableEq, Repr

namespace StoreOp

variable (M : Metainfo)

/-- The body of a transaction. -/
def body : StoreOp → Script Reply
  | .claim nowMs order policy => do
    let claim ← claimByOrder nowMs order policy
    pure (.claimed claim)
  | .retry job nowMs reason delayMs => do
    let result ← retryJob job nowMs reason delayMs
    pure (.updated result)
  | .complete job metadata nowMs => do
    let result ← completeJob M job metadata nowMs
    pure (.updated result)
  | .recover nowMs => do
    recoverJobs nowMs
    pure .done
  | .saveHashes config hashes observedAt admissionAt => do
    let _ ← saveHashesAt config hashes observedAt admissionAt
    pure .done
  | .discoverPeer limit hash peer observedAtMs => do
    let _ ← BtSniffer.discoverPeer limit hash peer observedAtMs
    pure .done
  | .backfillPage config nowMs cursor => do
    let _ ← BtSniffer.backfillPage config nowMs cursor
    pure .done
  | .backfillRecentPage config nowMs cursor => do
    let _ ← BtSniffer.backfillRecentPage config nowMs cursor
    pure .done
  | .backfillOne cursor => do
    let _ ← BtSniffer.backfillOne M cursor
    pure .done
  | .save key info atMs => do
    let _ ← BtSniffer.save M key info atMs
    pure .done

/-- A transaction: its reply and the database after it. -/
def commit (op : StoreOp) (db : Db) : Except StorageError Reply × Db := (op.body M).commit db

/-- The database after a list of transactions. -/
def replay (ops : List StoreOp) (db : Db) : Db := ops.foldl (fun db op => (op.commit M db).2) db

variable {M}

theorem replay_append (pre post : List StoreOp) (db : Db) :
    replay M (pre ++ post) db = replay M post (replay M pre db) :=
  List.foldl_append

theorem replay_cons (op : StoreOp) (ops : List StoreOp) (db : Db) :
    replay M (op :: ops) db = replay M ops (op.commit M db).2 := rfl

/-- **Run rule**: what every transaction keeps, every run keeps. -/
theorem replay_keeps {I : Db → Prop} (hstep : ∀ op db, I db → I (commit M op db).2) :
    ∀ (ops : List StoreOp) {db : Db}, I db → I (replay M ops db)
  | [], _, h => h
  | op :: ops, db, h => replay_keeps hstep ops (hstep op db h)

/-- **Run rule** for a preorder under an invariant. -/
theorem replay_rel {I : Db → Prop} {R : Db → Db → Prop} (hrefl : ∀ db, R db db)
    (htrans : ∀ a b c, R a b → R b c → R a c) (hI : ∀ op db, I db → I (commit M op db).2)
    (hstep : ∀ op db, I db → R db (commit M op db).2) :
    ∀ (ops : List StoreOp) {db : Db}, I db → R db (replay M ops db)
  | [], db, _ => hrefl db
  | op :: ops, db, h =>
    htrans _ _ _ (hstep op db h) (replay_rel hrefl htrans hI hstep ops (hI op db h))

end StoreOp

/-! ## Claims -/

theorem selectCandidate_run (nowMs : Int) (policy : AddressPolicy) (order : List ClaimClass)
    (db : Db) : (selectCandidate nowMs policy order).run db =
      .ok (order.findSome? (db.schedule policy nowMs), db) := by
  induction order with
  | nil => rfl
  | cons preference rest ih =>
    rw [selectCandidate, Script.run, Prog.run_bind, Prog.run_query]
    cases hs : db.schedule policy nowMs preference with
    | some row => simp [hs]
    | none =>
      simp only [hs, List.findSome?_cons]
      exact ih

/-- The candidate of a class: the least due job of the class. -/
theorem schedule_some {db : Db} {policy : AddressPolicy} {nowMs : Int} {preference : ClaimClass}
    {row : ScheduledRow} (h : db.schedule policy nowMs preference = some row) :
    ∃ j i, db.fetchJobs.get? j.hash = some j ∧ db.infohashes.get? j.hash = some i ∧
      j.due nowMs = true ∧ db.inClass policy nowMs j i preference = true ∧
      (∀ x ∈ db.fetchJobs.rows, db.candidate policy nowMs preference x = true →
        x = j ∨ Db.dueRank j ≤ Db.dueRank x) ∧
      row = ⟨j.hash, j.generation, j.dueAt, db.caseClass policy nowMs j i, i.firstSeen,
        j.attempts⟩ := by
  unfold Db.schedule at h
  obtain ⟨j, hj, h⟩ := Option.bind_eq_some_iff.1 h
  obtain ⟨i, hi, rfl⟩ := Option.map_eq_some_iff.1 h
  obtain ⟨hmem, hcand, hleast⟩ := Table.select_one hj
  simp only [Db.candidate, hi, Option.any_some, Bool.and_eq_true] at hcand
  exact ⟨j, i, Table.get?_key hmem, hi, hcand.1, hcand.2, hleast, rfl⟩

theorem schedule_none {db : Db} {policy : AddressPolicy} {nowMs : Int} {preference : ClaimClass}
    (h : db.schedule policy nowMs preference = none) :
    ∀ j ∈ db.fetchJobs.rows, db.candidate policy nowMs preference j = false := by
  unfold Db.schedule at h
  cases hs : (db.fetchJobs.select (db.candidate policy nowMs preference)
    (Table.orderBy Db.dueRank) 1).head? with
  | none => exact Table.select_one_none hs
  | some j =>
    obtain ⟨-, hcand, -⟩ := Table.select_one hs
    rw [hs, Option.bind_some, Option.map_eq_none_iff] at h
    simp [Db.candidate, h] at hcand

/-- The claim a candidate becomes. -/
def claimOf (db : Db) (policy : AddressPolicy) (nowMs : Int) (class_ : ClaimClass)
    (row : ScheduledRow) : Claim where
  job :=
    { class_ := class_
      hadValidHint := !(db.claimPeers policy nowMs row.hash).isEmpty
      hash := row.hash
      generation := row.generation + 1
      failedAttemptsBefore := row.attempts
      peers := db.claimPeers policy nowMs row.hash }
  dueAt := row.dueAt
  firstSeen := row.firstSeen

/-- The database after a job update. -/
def Db.updated (db : Db) (u : JobUpdate) : Db :=
  { db with fetchJobs := db.fetchJobs.update (u.cond db) u.set u.set_hash }

theorem Db.get?_updated (db : Db) (u : JobUpdate) (k : SwarmKey) :
    (db.updated u).fetchJobs.get? k =
      (db.fetchJobs.get? k).map (fun j => if u.cond db j then u.set j else j) :=
  Table.get?_update _ _ _ u.set_hash _

/-- What a claim transaction can do. -/
theorem claimByOrder_ok {db db' : Db} {nowMs : Int} {order : List ClaimClass}
    {policy : AddressPolicy} {r : Option Claim}
    (h : (claimByOrder nowMs order policy).run db = .ok (r, db')) :
    (order.findSome? (db.schedule policy nowMs) = none ∧ r = none ∧ db' = db) ∨
      ∃ row class_ n, order.findSome? (db.schedule policy nowMs) = some row ∧
        ClaimClass.fromSql row.class_ = .ok class_ ∧
        r = some (claimOf db policy nowMs class_ row) ∧
        db.exec (.updateJobs (.claim row.hash nowMs)) = .ok (n, db') ∧
        db' = db.updated (.claim row.hash nowMs) := by
  unfold claimByOrder at h
  rw [Script.run, Prog.run_bind_of_ok (selectCandidate_run nowMs policy order db)] at h
  cases hrow : order.findSome? (db.schedule policy nowMs) with
  | none =>
    rw [hrow] at h
    cases h
    exact .inl ⟨rfl, rfl, rfl⟩
  | some row =>
    rw [hrow] at h
    simp only [claimRow] at h
    obtain ⟨class_, mid, hclass, h⟩ := Prog.run_bind_ok h
    obtain ⟨n, upd, hexec, hpeers⟩ := Prog.run_bind_ok h
    rw [Prog.run_queryOrFail] at hclass
    cases hc : ClaimClass.fromSql row.class_ with
    | error e => rw [hc] at hclass; cases hclass
    | ok c =>
      rw [hc] at hclass
      cases hclass
      rw [Prog.run_execute] at hexec
      have hupd : upd = db.updated (.claim row.hash nowMs) := (Db.updateJobRows_ok hexec).2.2
      rw [Prog.run_bind, Prog.run_query, hupd] at hpeers
      cases hpeers
      exact .inr ⟨row, class_, n, rfl, hc, rfl, hupd ▸ hexec, rfl⟩

/-! ## Retry and completion -/

theorem runningJob_some {db : Db} {hash : SwarmKey} {generation : Nat} {j : FetchJob}
    (h : db.runningJob hash generation = some j) :
    db.fetchJobs.get? hash = some j ∧ j.generation = generation ∧ j.state = .running := by
  unfold Db.runningJob at h
  obtain ⟨hget, hp⟩ := Option.filter_eq_some_iff.1 h
  simp only [Bool.and_eq_true, beq_iff_eq] at hp
  exact ⟨hget, hp.1, hp.2⟩

theorem retryJob_ok {db db' : Db} {job : Job} {nowMs : Int} {reason : RetryReason} {delayMs : Nat}
    {r : UpdateResult} (h : (retryJob job nowMs reason delayMs).run db = .ok (r, db')) :
    (db.runningJob job.hash job.generation = none ∧ r = .stale ∧ db' = db) ∨
      ∃ j n, db.runningJob job.hash job.generation = some j ∧ r = .applied ∧
        db.exec (.updateJobs (.retry job.hash job.generation
          (retryTransition j.attempts reason nowMs delayMs) nowMs reason.category)) =
            .ok (n, db') := by
  unfold retryJob at h
  rw [Script.run, Prog.run_bind, Prog.run_query] at h
  simp only at h
  cases hj : db.runningJob job.hash job.generation with
  | none =>
    rw [hj] at h
    cases h
    exact .inl ⟨rfl, rfl, rfl⟩
  | some j =>
    rw [hj] at h
    obtain ⟨n, mid, hexec, h⟩ := Prog.run_bind_ok h
    rw [Prog.run_execute] at hexec
    cases h
    exact .inr ⟨j, n, rfl, rfl, hexec⟩

theorem completeJob_ok {M : Metainfo} {db db' : Db} {job : Job} {metadata : VerifiedMetadata}
    {nowMs : Int} {r : UpdateResult}
    (h : (completeJob M job metadata nowMs).run db = .ok (r, db')) :
    metadata.infoHash = job.hash ∧
      ((db.runningJob job.hash job.generation = none ∧ r = .stale ∧ db' = db) ∨
        ∃ j id saved n mid, db.runningJob job.hash job.generation = some j ∧ r = .applied ∧
          (save M job.hash metadata.info nowMs).run db = .ok (id, saved) ∧
          saved.exec (.updateJobs (.succeed job.hash nowMs)) = .ok (n, mid) ∧
          db' = { mid with peerHints := mid.peerHints.delete (fun h => h.hash == job.hash) }) := by
  unfold completeJob at h
  split at h
  · cases h
  · rename_i hhash
    refine ⟨by simpa using hhash, ?_⟩
    rw [Script.run, Prog.run_bind, Prog.run_query] at h
    simp only at h
    cases hj : db.runningJob job.hash job.generation with
    | none =>
      rw [hj] at h
      cases h
      exact .inl ⟨rfl, rfl, rfl⟩
    | some j =>
      rw [hj] at h
      simp only [Option.isSome_some, Bool.not_true, Bool.false_eq_true, if_false] at h
      obtain ⟨id, saved, hsave, h⟩ := Prog.run_bind_ok h
      obtain ⟨n, mid, hexec, h⟩ := Prog.run_bind_ok h
      obtain ⟨m, last, hclear, h⟩ := Prog.run_bind_ok h
      rw [Prog.run_execute] at hexec hclear
      cases hclear
      cases h
      exact .inr ⟨j, id, saved, n, mid, rfl, rfl, hsave, hexec, rfl⟩

end BtSniffer
