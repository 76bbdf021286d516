import BtSniffer.Collection.JobTable

/-!
# The job table over whole runs

* `JobsInv` — the identity invariant, failure counts, references and finished jobs together.
* `job_table` — they hold after every run of the transactions the collector uses; finished jobs stay
  finished, and no `CHECK` aborts a retry.
-/

set_option autoImplicit false

namespace BtSniffer

open Relational

variable {M : Metainfo} {db db' : Db}

/-! ## The invariant over whole runs -/

/-- The transactions the collector uses; a save on its own, without a job, is not one of them. -/
def StoreOp.Collects : StoreOp → Prop
  | .save .. => False
  | _ => True

/-- The invariant of the job table. -/
structure JobsInv (M : Metainfo) (db : Db) : Prop where
  store : StoreInv M db
  rated : db.Rated
  linked : db.Linked
  settled : db.Settled

theorem JobsInv.empty (M : Metainfo) : JobsInv M Db.empty where
  store := StoreInv.empty M
  rated := fun _ h => by cases h
  linked := ⟨fun _ h => (by cases h), fun _ h => by cases h⟩
  settled := fun _ _ h => by cases h

theorem StoreOp.commit_rated (op : StoreOp) (db : Db) (h : db.Rated) : (op.commit M db).2.Rated := by
  refine Prog.transact_keeps h ?_
  intro r db' hrun
  obtain ⟨nowMs, order, policy, rfl⟩ | ⟨job, nowMs, reason, delayMs, rfl⟩ | hsteady :=
    op.body_steady M
  · obtain ⟨c, mid, hclaim, hpure⟩ := Prog.run_bind_ok hrun
    cases hpure
    obtain ⟨-, -, rfl⟩ | ⟨row, class_, n, hrow, -, -, -, rfl⟩ := claimByOrder_ok hclaim
    · exact h
    · obtain ⟨preference, -, hs⟩ := findSome?_schedule hrow
      obtain ⟨j, i, hj, -, hdue, -, -, rfl⟩ := schedule_some hs
      refine rated_updated h (fun x hx hc => ?_)
      have hash : x.hash = j.hash := by simpa [JobUpdate.cond] using hc
      rw [Table.eq_of_key hx (Table.get?_eq_some.1 hj).1 hash]
      refine rated_of_active ((h j (Table.get?_eq_some.1 hj).1).active ?_) (by simp [JobUpdate.set])
      rcases (due_state hdue).1 with hs | hs <;> simp [FetchJob.active, hs]
  · obtain ⟨c, mid, hretry, hpure⟩ := Prog.run_bind_ok hrun
    cases hpure
    obtain ⟨-, -, rfl⟩ | ⟨j, n, hj, -, hexec⟩ := retryJob_ok hretry
    · exact h
    · obtain ⟨-, -, rfl⟩ := Db.updateJobRows_ok hexec
      obtain ⟨hget, -, hrunning⟩ := runningJob_some hj
      refine rated_updated h (fun x hx hc => ?_)
      rw [runningJob_unique hj hx hc]
      exact retry_rated (h j (Table.get?_eq_some.1 hget).1) hrunning _ _ _ _ _
  · exact Prog.run_invariant (I := Db.Rated) (fun _ _ _ _ hc hi hs => exec_rated hc hi hs) hsteady h
      hrun

theorem settled_of_discovers {α : Type} {p : Script α} (hp : p.Uses Stmt.Discovers) {a : α}
    (h : db.Settled) (hrun : p.run db = .ok (a, db')) : db'.Settled :=
  Prog.run_invariant (I := Db.Settled) (fun _ _ _ _ hc hi hs => exec_settled_discovers hc hi hs) hp h
    hrun

theorem StoreOp.commit_settled {op : StoreOp} (hop : op.Collects) (hinv : StoreInv M db)
    (h : db.Settled) : (op.commit M db).2.Settled := by
  refine Prog.transact_keeps h ?_
  intro r db' hrun
  cases op with
  | claim nowMs order policy =>
    obtain ⟨a, mid, hrun, hpure⟩ := Prog.run_bind_ok hrun
    cases hpure
    exact claimByOrder_settled h hrun
  | retry job nowMs reason delayMs =>
    obtain ⟨a, mid, hrun, hpure⟩ := Prog.run_bind_ok hrun
    cases hpure
    exact retryJob_settled h hrun
  | complete job metadata nowMs =>
    obtain ⟨a, mid, hrun, hpure⟩ := Prog.run_bind_ok hrun
    cases hpure
    exact completeJob_settled hinv h hrun
  | recover nowMs =>
    obtain ⟨a, mid, hrun, hpure⟩ := Prog.run_bind_ok hrun
    cases hpure
    exact recoverJobs_settled h hrun
  | saveHashes config hashes observedAt admissionAt =>
    obtain ⟨a, mid, hrun, hpure⟩ := Prog.run_bind_ok hrun
    cases hpure
    exact settled_of_discovers
      (uses_discovers (saveHashesAt_admits config hashes observedAt admissionAt)) h hrun
  | discoverPeer limit hash peer observedAtMs =>
    obtain ⟨a, mid, hrun, hpure⟩ := Prog.run_bind_ok hrun
    cases hpure
    exact settled_of_discovers (discoverPeer_discovers limit hash peer observedAtMs) h hrun
  | backfillPage config nowMs cursor =>
    obtain ⟨a, mid, hrun, hpure⟩ := Prog.run_bind_ok hrun
    cases hpure
    exact settled_of_discovers
      (uses_discovers (backfillPage_admits config nowMs cursor)) h hrun
  | backfillRecentPage config nowMs cursor =>
    obtain ⟨a, mid, hrun, hpure⟩ := Prog.run_bind_ok hrun
    cases hpure
    exact settled_of_discovers
      (uses_discovers (backfillRecentPage_admits config nowMs cursor)) h hrun
  | backfillOne cursor =>
    obtain ⟨a, mid, hrun, hpure⟩ := Prog.run_bind_ok hrun
    cases hpure
    exact backfillOne_settled hinv h hrun
  | save key info atMs => exact hop.elim

/-- A run of transactions the collector uses. -/
def Collecting (ops : List StoreOp) : Prop := ∀ op ∈ ops, op.Collects

theorem StoreOp.commit_jobsInv {op : StoreOp} (hop : op.Collects) (h : JobsInv M db) :
    JobsInv M (op.commit M db).2 :=
  ⟨op.commit_storeInv db h.store, op.commit_rated db h.rated, op.commit_linked db h.linked,
    StoreOp.commit_settled hop h.store h.settled⟩

theorem replay_jobsInv {ops : List StoreOp} (hops : Collecting ops) {db : Db} (h : JobsInv M db) :
    JobsInv M (StoreOp.replay M ops db) := by
  induction ops generalizing db with
  | nil => exact h
  | cons op ops ih =>
    exact ih (fun o ho => hops o (List.mem_cons_of_mem op ho))
      (StoreOp.commit_jobsInv (hops op List.mem_cons_self) h)

/-- What holds of the job table in every reachable state. -/
structure Db.JobTable (db : Db) : Prop where
  attempts : ∀ j ∈ db.fetchJobs.rows, j.attempts ≤ 6
  unfinished : ∀ j ∈ db.fetchJobs.rows,
    j.state = .pending ∨ j.state = .running ∨ j.state = .retryWait → j.attempts ≤ 5
  dormant : ∀ j ∈ db.fetchJobs.rows,
    j.state = .dormant ↔ j.attempts = 6 ∧ j.state ≠ .succeeded
  succeeded : ∀ j ∈ db.fetchJobs.rows,
    j.state = .succeeded ↔ ∃ s ∈ db.swarmMetadata.rows, s.hash = j.hash
  jobHashes : ∀ j ∈ db.fetchJobs.rows, ∃ i ∈ db.infohashes.rows, i.hash = j.hash
  hintHashes : ∀ h ∈ db.peerHints.rows, ∃ i ∈ db.infohashes.rows, i.hash = h.hash
  swarmHashes : ∀ s ∈ db.swarmMetadata.rows, ∃ i ∈ db.infohashes.rows, i.hash = s.hash

theorem FetchJob.Rated.dormant_iff {j : FetchJob} (h : j.Rated) :
    j.state = .dormant ↔ j.attempts = 6 ∧ j.state ≠ .succeeded := by
  constructor
  · intro hs
    exact ⟨h.dormant hs, by rw [hs]; decide⟩
  · rintro ⟨hsix, hne⟩
    by_contra hd
    have hactive : j.active = true := by
      cases hs : j.state with
      | succeeded => exact absurd hs hne
      | dormant => exact absurd hs hd
      | _ => simp [FetchJob.active, hs]
    have := h.active hactive
    omega

theorem known_hash {k : SwarmKey} (h : (db.infohashes.get? k).isSome = true) :
    ∃ i ∈ db.infohashes.rows, i.hash = k := by
  obtain ⟨i, hi⟩ := Option.isSome_iff_exists.1 h
  exact ⟨i, Table.get?_eq_some.1 hi⟩

theorem JobsInv.table (h : JobsInv M db) : db.JobTable where
  attempts := fun j hj => (h.rated j hj).bound
  unfinished := by
    intro j hj hs
    refine (h.rated j hj).active ?_
    rcases hs with hs | hs | hs <;> simp [FetchJob.active, hs]
  dormant := fun j hj => (h.rated j hj).dormant_iff
  succeeded := by
    intro j hj
    rw [h.settled j.hash j (Table.get?_key hj), Db.hasSwarm, Table.any_eq_true]
    simp only [beq_iff_eq]
  jobHashes := fun j hj => known_hash (h.linked.jobs j hj)
  hintHashes := fun x hx => known_hash (h.linked.hints x hx)
  swarmHashes := fun s hs => known_hash (h.store.swarmRefs s hs).1

theorem saturatingAdd_nonneg {a b : Int} (ha : 0 ≤ a) (hb : 0 ≤ b) : 0 ≤ saturatingAdd a b := by
  unfold saturatingAdd I64_MIN I64_MAX
  omega

/-- The row a retry writes passes its `CHECK`s. -/
theorem retry_check {j : FetchJob} (hj : j.Rated) (hrun : j.state = .running) {nowMs : Int}
    (hnow : 0 ≤ nowMs) (hash : SwarmKey) (generation : Nat) (reason : RetryReason) (delayMs : Nat) :
    ((JobUpdate.retry hash generation (retryTransition j.attempts reason nowMs delayMs) nowMs
      reason.category).set j).check = true := by
  have hbound := (retry_rated hj hrun hash generation nowMs reason delayMs).bound
  have hdelay : 0 ≤ (if reason.remoteFailure then (delayMs : Int) else LOCAL_RETRY_DELAY_MS) := by
    split
    · omega
    · decide
  have hdue := saturatingAdd_nonneg hnow hdelay
  simp only [FetchJob.check, Bool.and_eq_true, decide_eq_true_eq]
  exact ⟨⟨hbound, hdue⟩, hnow⟩

/-- No constraint aborts a retry. -/
theorem retry_replies (h : db.Rated) (job : Job) {nowMs : Int} (hnow : 0 ≤ nowMs)
    (reason : RetryReason) (delayMs : Nat) :
    ∃ r, ((StoreOp.retry job nowMs reason delayMs).commit M db).1 = .ok (.updated r) := by
  have hrun : ∃ r db', (retryJob job nowMs reason delayMs).run db = .ok (r, db') := by
    unfold retryJob
    rw [Script.run, Prog.run_bind, Prog.run_query]
    simp only
    cases hj : db.runningJob job.hash job.generation with
    | none => exact ⟨.stale, db, rfl⟩
    | some j =>
      obtain ⟨hget, -, hrunning⟩ := runningJob_some hj
      refine ⟨.applied, _, Prog.run_execute_of_ok (Db.updateJobRows_of db _ ?_)⟩
      intro x hx hc
      rw [runningJob_unique hj hx hc]
      exact retry_check (h j (Table.get?_eq_some.1 hget).1) hrunning hnow _ _ _ _
  obtain ⟨r, db', hrun⟩ := hrun
  refine ⟨r, ?_⟩
  have hbody : ((StoreOp.retry job nowMs reason delayMs).body M).run db = .ok (.updated r, db') :=
    (Prog.run_bind_of_ok hrun).trans rfl
  rw [StoreOp.commit_of_run hbody]

/-- **The job table.**  After every run of the collector's transactions from a fresh database, with
any arguments, in any order: failure counts fit the states, a job is finished exactly when its hash
has metadata, every reference is to a known hash, a finished job stays finished, and no retry at a
non-negative time is refused by a constraint. -/
theorem job_table (M : Metainfo) (ops : List StoreOp) (h : Collecting ops) :
    (StoreOp.replay M ops Db.empty).JobTable ∧
      (∀ later, ∀ j ∈ (StoreOp.replay M ops Db.empty).fetchJobs.rows, j.state = .succeeded →
        ∃ j' ∈ (StoreOp.replay M (ops ++ later) Db.empty).fetchJobs.rows,
          j'.hash = j.hash ∧ j'.state = .succeeded) ∧
      ∀ job nowMs reason delayMs, 0 ≤ nowMs → ∃ r, ((StoreOp.retry job nowMs reason delayMs).commit M
        (StoreOp.replay M ops Db.empty)).1 = .ok (.updated r) := by
  have hinv : JobsInv M (StoreOp.replay M ops Db.empty) := replay_jobsInv h (JobsInv.empty M)
  refine ⟨hinv.table, ?_, ?_⟩
  · intro later j hj hs
    obtain ⟨j', hj', hevolves⟩ :=
      StoreOp.replay_advances (M := M) later _ j.hash j (Table.get?_key hj)
    rw [← StoreOp.replay_append] at hj'
    obtain ⟨hmem, hash⟩ := Table.get?_eq_some.1 hj'
    exact ⟨j', hmem, hash, hevolves.succeeded hs⟩
  · intro job nowMs reason delayMs hnow
    exact retry_replies hinv.rated job hnow reason delayMs

/-- One discovered hash, one claim. -/
theorem job_table_claimed : (StoreOp.replay .ofEmptyDictionary
    [.saveHashes ⟨4, 0, .publicOnly⟩ [7] 10 10, .claim 20 BORROW_ORDER .publicOnly]
      Db.empty).JobTable := by
  have hops : Collecting [.saveHashes ⟨4, 0, .publicOnly⟩ [7] 10 10,
      .claim 20 BORROW_ORDER .publicOnly] := by
    intro op hop
    rcases List.mem_pair.1 hop with rfl | rfl <;> trivial
  exact (job_table .ofEmptyDictionary _ hops).1

end BtSniffer
