import BtSniffer.Collection.JobInv
import Mathlib.Data.List.Induction

/-!
# The claim protocol

The generation of a job is a lease: a worker may retry or complete a job only while the job runs
under the generation its claim returned.

* `FetchJob.Evolves` — what a transaction may do to a job: the generation never goes back, a job
  starts to run only with a new generation, and a finished job stays finished.
* `FetchJob.Touched` — a job that is not finished and shows signs of an earlier claim.
* `commit_advances`, `commit_touches` — every transaction respects both.
* `claim_protocol` — claims of a hash have increasing generations, a lease is used at most once, a
  stale or failed call changes nothing, recovery and alias settlement end every earlier lease, and
  `attempt_kind` tells first claims from repeated ones.
-/

set_option autoImplicit false

namespace BtSniffer

open Relational

/-! ## Job rows along a run -/

/-- What a transaction may do to a job. -/
structure FetchJob.Evolves (j j' : FetchJob) : Prop where
  generation : j.generation ≤ j'.generation
  running : j'.generation = j.generation → j'.state = .running → j.state = .running
  succeeded : j.state = .succeeded → j'.state = .succeeded

theorem FetchJob.Evolves.refl (j : FetchJob) : j.Evolves j := ⟨le_refl _, fun _ h => h, fun h => h⟩

theorem FetchJob.Evolves.trans {a b c : FetchJob} (h : a.Evolves b) (k : b.Evolves c) :
    a.Evolves c := by
  refine ⟨le_trans h.generation k.generation, ?_, fun hs => k.succeeded (h.succeeded hs)⟩
  intro hg hr
  have h1 := h.generation
  have h2 := k.generation
  exact h.running (by omega) (k.running (by omega) hr)

/-- A job that is not finished and has been claimed before. -/
def FetchJob.Touched (j : FetchJob) : Prop :=
  j.state ≠ .succeeded ∧ (j.generation ≠ 0 ∨ j.state = .running)

namespace Db

/-- Every job is still there and has evolved. -/
def Advances (db db' : Db) : Prop :=
  ∀ k j, db.fetchJobs.get? k = some j → ∃ j', db'.fetchJobs.get? k = some j' ∧ j.Evolves j'

/-- Every touched job was touched before. -/
def Touches (db db' : Db) : Prop :=
  ∀ k j', db'.fetchJobs.get? k = some j' → j'.Touched → ∃ j, db.fetchJobs.get? k = some j ∧ j.Touched

theorem Advances.refl (db : Db) : db.Advances db := fun _ j h => ⟨j, h, .refl j⟩

theorem Advances.trans {a b c : Db} (h : a.Advances b) (k : b.Advances c) : a.Advances c := by
  intro key j hj
  obtain ⟨j', hj', hevolves⟩ := h key j hj
  obtain ⟨j'', hj'', hevolves'⟩ := k key j' hj'
  exact ⟨j'', hj'', hevolves.trans hevolves'⟩

theorem Touches.refl (db : Db) : db.Touches db := fun _ j h ht => ⟨j, h, ht⟩

theorem Touches.trans {a b c : Db} (h : a.Touches b) (k : b.Touches c) : a.Touches c := by
  intro key j hj ht
  obtain ⟨j', hj', ht'⟩ := k key j hj ht
  exact h key j' hj' ht'

theorem advances_updated {db : Db} {u : JobUpdate}
    (h : ∀ j ∈ db.fetchJobs.rows, u.cond db j = true → j.Evolves (u.set j)) :
    db.Advances (db.updated u) := by
  intro k j hj
  rw [get?_updated, hj, Option.map_some]
  refine ⟨_, rfl, ?_⟩
  split
  · rename_i hp
    exact h j (Table.get?_eq_some.1 hj).1 hp
  · exact .refl j

theorem touches_updated {db : Db} {u : JobUpdate}
    (h : ∀ j ∈ db.fetchJobs.rows, u.cond db j = true → (u.set j).Touched → j.Touched) :
    db.Touches (db.updated u) := by
  intro k j' hj' ht
  rw [get?_updated] at hj'
  obtain ⟨j, hj, rfl⟩ := Option.map_eq_some_iff.1 hj'
  refine ⟨j, hj, ?_⟩
  split at ht
  · rename_i hp
    exact h j (Table.get?_eq_some.1 hj).1 hp ht
  · exact ht

end Db

variable {M : Metainfo} {db db' : Db}

/-- A steady job update. -/
theorem JobUpdate.evolves {u : JobUpdate} (hu : (Stmt.updateJobs u).Steady) {j : FetchJob}
    (hc : u.cond db j = true) : j.Evolves (u.set j) ∧ ((u.set j).Touched → j.Touched) := by
  cases u with
  | revive hash nowMs =>
    simp only [JobUpdate.cond, Bool.and_eq_true, beq_iff_eq] at hc
    obtain ⟨⟨⟨-, hdormant⟩, -⟩, -⟩ := hc
    refine ⟨⟨le_refl _, fun _ h => (by cases h), fun h => (by rw [hdormant] at h; cases h)⟩, ?_⟩
    rintro ⟨-, hg | hr⟩
    · exact ⟨by rw [hdormant]; decide, .inl hg⟩
    · cases hr
  | claim hash nowMs => exact hu.elim
  | recoverRunning nowMs =>
    have hrun : j.state = .running := by simpa [JobUpdate.cond] using hc
    refine ⟨⟨Nat.le_succ _, fun _ h => (by cases h), fun h => (by rw [hrun] at h; cases h)⟩, ?_⟩
    intro _
    exact ⟨by rw [hrun]; decide, .inr hrun⟩
  | recoverSucceeded =>
    exact ⟨⟨le_refl _, fun _ h => (by cases h), fun _ => rfl⟩, fun h => absurd rfl h.1⟩
  | retry hash generation transition nowMs error => exact hu.elim
  | succeed hash nowMs =>
    exact ⟨⟨le_refl _, fun _ h => (by cases h), fun _ => rfl⟩, fun h => absurd rfl h.1⟩
  | settleAlias hash atMs =>
    exact ⟨⟨Nat.le_succ _, fun _ h => (by cases h), fun _ => rfl⟩, fun h => absurd rfl h.1⟩

/-- **A steady statement** advances every job and touches none. -/
theorem exec_advances {stmt : Stmt} {n : Nat} (hs : stmt.Steady) (h : db.exec stmt = .ok (n, db')) :
    db.Advances db' ∧ db.Touches db' := by
  by_cases ht : stmt.target = .fetchJobs
  · cases stmt with
    | insertJob hash nowMs =>
      obtain ⟨-, rfl, -⟩ | ⟨-, -, hnone, -, -, rfl⟩ := Db.insertJobRow_ok h
      · exact ⟨.refl _, .refl _⟩
      · refine ⟨?_, ?_⟩
        · intro k j hj
          refine ⟨j, ?_, .refl j⟩
          rw [Table.get?_insertNew, hj]
          rfl
        · intro k j hj htouched
          rw [Table.get?_insertNew] at hj
          cases hk : db.fetchJobs.get? k with
          | some x =>
            rw [hk] at hj
            cases hj
            exact ⟨j, rfl, htouched⟩
          | none =>
            rw [hk, Option.none_or] at hj
            split at hj
            · cases hj
              rcases htouched.2 with hg | hr
              · exact absurd rfl hg
              · cases hr
            · cases hj
    | updateJobs u =>
      obtain ⟨-, -, rfl⟩ := Db.updateJobRows_ok h
      exact ⟨Db.advances_updated (fun j _ hc => (JobUpdate.evolves hs hc).1),
        Db.touches_updated (fun j _ hc => (JobUpdate.evolves hs hc).2)⟩
    | _ => cases ht
  · have hjobs := (Db.exec_frame h).fetchJobs ht
    refine ⟨?_, ?_⟩
    · intro k j hj
      exact ⟨j, hjobs ▸ hj, .refl j⟩
    · intro k j hj htouched
      exact ⟨j, hjobs ▸ hj, htouched⟩

theorem run_advances {α : Type} {p : Script α} (hp : p.Uses Stmt.Steady) {a : α}
    (h : p.run db = .ok (a, db')) : db.Advances db' ∧ db.Touches db' :=
  Prog.run_rel (R := fun db db' => db.Advances db' ∧ db.Touches db')
    (fun db => ⟨.refl db, .refl db⟩) (fun _ _ _ h k => ⟨h.1.trans k.1, h.2.trans k.2⟩)
    (fun _ _ _ _ hc hs => exec_advances hc hs) hp h

/-! ## Claims and retries -/

/-- What a claim does to the job it takes. -/
structure Claimed (db : Db) (c : Claim) (db' : Db) : Prop where
  before : ∃ j, db.fetchJobs.get? c.job.hash = some j ∧ j.generation + 1 = c.job.generation ∧
    j.state ≠ .succeeded ∧ j.state ≠ .running
  after : ∃ j, db'.fetchJobs.get? c.job.hash = some j ∧ j.generation = c.job.generation ∧
    j.state = .running
  others : ∀ k, k ≠ c.job.hash → db'.fetchJobs.get? k = db.fetchJobs.get? k

theorem due_state {j : FetchJob} {nowMs : Int} (h : j.due nowMs = true) :
    (j.state = .pending ∨ j.state = .retryWait) ∧ j.dueAt ≤ nowMs := by
  simpa [FetchJob.due] using h

theorem findSome?_schedule {policy : AddressPolicy} {nowMs : Int} {order : List ClaimClass}
    {row : ScheduledRow} (h : order.findSome? (db.schedule policy nowMs) = some row) :
    ∃ preference ∈ order, db.schedule policy nowMs preference = some row :=
  List.exists_of_findSome?_eq_some h

theorem claimByOrder_claimed {nowMs : Int} {order : List ClaimClass} {policy : AddressPolicy}
    {c : Claim} (h : (claimByOrder nowMs order policy).run db = .ok (some c, db')) :
    Claimed db c db' := by
  obtain ⟨-, hn, -⟩ | ⟨row, class_, n, hrow, -, hc, -, rfl⟩ := claimByOrder_ok h
  · cases hn
  · obtain ⟨preference, -, hs⟩ := findSome?_schedule hrow
    obtain ⟨j, i, hj, -, hdue, -, -, rfl⟩ := schedule_some hs
    cases hc
    have hstate := (due_state hdue).1
    refine ⟨⟨j, hj, rfl, ?_, ?_⟩, ⟨(JobUpdate.claim j.hash nowMs).set j, ?_, rfl, rfl⟩, ?_⟩
    · rcases hstate with hs | hs <;> rw [hs] <;> decide
    · rcases hstate with hs | hs <;> rw [hs] <;> decide
    · show (db.updated (.claim j.hash nowMs)).fetchJobs.get? j.hash = _
      rw [Db.get?_updated, hj]
      simp [JobUpdate.cond]
    · intro k hk
      rw [Db.get?_updated]
      cases hg : db.fetchJobs.get? k with
      | none => rfl
      | some x =>
        have hx : x.hash = k := (Table.get?_eq_some.1 hg).2
        have hne : (JobUpdate.claim j.hash nowMs).cond db x = false := by
          show (x.hash == j.hash) = false
          rw [hx, beq_eq_false_iff_ne]
          exact hk
        show some (if (JobUpdate.claim j.hash nowMs).cond db x = true then _ else x) = some x
        rw [hne]
        rfl

theorem Claimed.advances {c : Claim} (h : Claimed db c db') : db.Advances db' := by
  intro k j hj
  by_cases hk : k = c.job.hash
  · subst hk
    obtain ⟨j₀, hj₀, hg, hs, -⟩ := h.before
    obtain ⟨j₁, hj₁, hg₁, -⟩ := h.after
    rw [hj] at hj₀
    cases hj₀
    exact ⟨j₁, hj₁, by omega, fun he => by omega, fun hd => absurd hd hs⟩
  · exact ⟨j, (h.others k hk).trans hj, .refl j⟩

theorem retryTransition_state (attempts : Nat) (reason : RetryReason) (nowMs : Int)
    (delayMs : Nat) : (retryTransition attempts reason nowMs delayMs).state = .dormant ∨
      (retryTransition attempts reason nowMs delayMs).state = .retryWait := by
  by_cases h : attempts + (if reason.remoteFailure then 1 else 0) ≥ MAX_FAILED_ATTEMPTS
  · exact .inl (if_pos h)
  · exact .inr (if_neg h)

/-- The row a retry is about is the running one. -/
theorem runningJob_unique {job : Job} {j x : FetchJob}
    (hj : db.runningJob job.hash job.generation = some j) (hx : x ∈ db.fetchJobs.rows)
    (hc : (x.hash == job.hash && x.generation == job.generation) = true) : x = j := by
  obtain ⟨hget, -, -⟩ := runningJob_some hj
  simp only [Bool.and_eq_true, beq_iff_eq] at hc
  have := Table.get?_key hx
  rw [hc.1, hget] at this
  cases this
  rfl

theorem retryJob_advances {job : Job} {nowMs : Int} {reason : RetryReason} {delayMs : Nat}
    {r : UpdateResult} (h : (retryJob job nowMs reason delayMs).run db = .ok (r, db')) :
    db.Advances db' ∧ db.Touches db' := by
  obtain ⟨-, -, rfl⟩ | ⟨j, n, hj, -, hexec⟩ := retryJob_ok h
  · exact ⟨.refl _, .refl _⟩
  · obtain ⟨-, -, rfl⟩ := Db.updateJobRows_ok hexec
    obtain ⟨-, -, hrun⟩ := runningJob_some hj
    have hstate := retryTransition_state j.attempts reason nowMs delayMs
    refine ⟨Db.advances_updated ?_, Db.touches_updated ?_⟩
    · intro x hx hc
      rw [runningJob_unique hj hx hc]
      refine ⟨le_refl _, fun _ _ => hrun, fun hs => ?_⟩
      rw [hrun] at hs
      cases hs
    · intro x hx hc _
      rw [runningJob_unique hj hx hc]
      exact ⟨by rw [hrun]; decide, .inr hrun⟩

/-! ## Replies -/

namespace StoreOp

/-- The reply to a transaction after a run from a fresh database. -/
def reply (M : Metainfo) (pre : List StoreOp) (op : StoreOp) : Except StorageError Reply :=
  (op.commit M (replay M pre Db.empty)).1

/-- The lease a retry or a completion presents. -/
def lease : StoreOp → Option (SwarmKey × Nat)
  | .retry job .. => some (job.hash, job.generation)
  | .complete job .. => some (job.hash, job.generation)
  | _ => none

theorem commit_run {op : StoreOp} {r : Reply} (h : (op.commit M db).1 = .ok r) :
    (op.body M).run db = .ok (r, (op.commit M db).2) :=
  Prog.transact_ok h

theorem commit_of_run {op : StoreOp} {r : Reply} (h : (op.body M).run db = .ok (r, db')) :
    op.commit M db = (.ok r, db') := by
  have hrun : Prog.run Db.exec (op.body M) db = .ok (r, db') := h
  unfold commit Script.commit Prog.transact
  rw [hrun]

theorem commit_error {op : StoreOp} {e : StorageError} (h : (op.commit M db).1 = .error e) :
    (op.commit M db).2 = db :=
  Prog.transact_error h

theorem commit_claimed {op : StoreOp} {c : Claim} (h : (op.commit M db).1 = .ok (.claimed (some c))) :
    ∃ nowMs order policy, op = .claim nowMs order policy ∧
      (claimByOrder nowMs order policy).run db = .ok (some c, (op.commit M db).2) := by
  have hrun := commit_run h
  cases op with
  | claim nowMs order policy =>
    obtain ⟨r, mid, hclaim, hpure⟩ := Prog.run_bind_ok hrun
    injection hpure with hpure
    injection hpure with hr hdb
    injection hr with hr
    exact ⟨nowMs, order, policy, rfl, by rw [← hr, ← hdb]; exact hclaim⟩
  | _ =>
    obtain ⟨r, mid, -, hpure⟩ := Prog.run_bind_ok hrun
    cases hpure

theorem commit_updated {op : StoreOp} {r : UpdateResult}
    (h : (op.commit M db).1 = .ok (.updated r)) :
    (∃ job nowMs reason delayMs, op = .retry job nowMs reason delayMs ∧
        (retryJob job nowMs reason delayMs).run db = .ok (r, (op.commit M db).2)) ∨
      ∃ job metadata nowMs, op = .complete job metadata nowMs ∧
        (completeJob M job metadata nowMs).run db = .ok (r, (op.commit M db).2) := by
  have hrun := commit_run h
  cases op with
  | retry job nowMs reason delayMs =>
    obtain ⟨r', mid, hretry, hpure⟩ := Prog.run_bind_ok hrun
    injection hpure with hpure
    injection hpure with hr hdb
    injection hr with hr
    exact .inl ⟨job, nowMs, reason, delayMs, rfl, by rw [← hr, ← hdb]; exact hretry⟩
  | complete job metadata nowMs =>
    obtain ⟨r', mid, hcomplete, hpure⟩ := Prog.run_bind_ok hrun
    injection hpure with hpure
    injection hpure with hr hdb
    injection hr with hr
    exact .inr ⟨job, metadata, nowMs, rfl, by rw [← hr, ← hdb]; exact hcomplete⟩
  | _ =>
    obtain ⟨r, mid, -, hpure⟩ := Prog.run_bind_ok hrun
    cases hpure

/-- **Every transaction advances the jobs.** -/
theorem commit_advances (op : StoreOp) (db : Db) : db.Advances (op.commit M db).2 := by
  refine Prog.transact_keeps (Db.Advances.refl db) ?_
  intro r db' hrun
  obtain ⟨nowMs, order, policy, rfl⟩ | ⟨job, nowMs, reason, delayMs, rfl⟩ | hsteady :=
    op.body_steady M
  · obtain ⟨c, mid, hclaim, hpure⟩ := Prog.run_bind_ok hrun
    cases hpure
    cases c with
    | none =>
      obtain ⟨-, -, rfl⟩ | ⟨row, class_, n, -, -, hc, -⟩ := claimByOrder_ok hclaim
      · exact .refl _
      · cases hc
    | some c => exact (claimByOrder_claimed hclaim).advances
  · obtain ⟨c, mid, hretry, hpure⟩ := Prog.run_bind_ok hrun
    cases hpure
    exact (retryJob_advances hretry).1
  · exact (run_advances hsteady hrun).1

/-- Only a claim of a hash touches its job. -/
theorem commit_touches {op : StoreOp} {k : SwarmKey} {j : FetchJob}
    (hj : (op.commit M db).2.fetchJobs.get? k = some j) (ht : j.Touched) :
    (∃ j, db.fetchJobs.get? k = some j ∧ j.Touched) ∨
      ∃ c, (op.commit M db).1 = .ok (.claimed (some c)) ∧ c.job.hash = k := by
  cases hreply : (op.commit M db).1 with
  | error e =>
    rw [commit_error hreply] at hj
    exact .inl ⟨j, hj, ht⟩
  | ok r =>
    have hrun := commit_run hreply
    obtain ⟨nowMs, order, policy, rfl⟩ | ⟨job, nowMs, reason, delayMs, rfl⟩ | hsteady :=
      op.body_steady M
    · obtain ⟨c, mid, hclaim, hpure⟩ := Prog.run_bind_ok hrun
      injection hpure with hpure
      injection hpure with hr hdb
      rw [hdb] at hclaim
      cases c with
      | none =>
        obtain ⟨-, -, hsame⟩ | ⟨row, class_, n, -, -, hc, -⟩ := claimByOrder_ok hclaim
        · rw [hsame] at hj
          exact .inl ⟨j, hj, ht⟩
        · cases hc
      | some c =>
        by_cases hk : k = c.job.hash
        · exact .inr ⟨c, by rw [hr], hk.symm⟩
        · rw [(claimByOrder_claimed hclaim).others k hk] at hj
          exact .inl ⟨j, hj, ht⟩
    · obtain ⟨c, mid, hretry, hpure⟩ := Prog.run_bind_ok hrun
      injection hpure with hpure
      injection hpure with hr hdb
      rw [hdb] at hretry
      exact .inl ((retryJob_advances hretry).2 k j hj ht)
    · exact .inl ((run_advances hsteady hrun).2 k j hj ht)

theorem replay_advances (ops : List StoreOp) (db : Db) : db.Advances (replay M ops db) :=
  replay_rel (I := fun _ => True) Db.Advances.refl (fun _ _ _ h k => h.trans k) (fun _ _ _ => trivial)
    (fun op db _ => commit_advances op db) ops trivial

/-! ## Spent leases -/

/-- A lease that no longer runs, and never will again. -/
def Spent (hash : SwarmKey) (generation : Nat) (db : Db) : Prop :=
  ∃ j, db.fetchJobs.get? hash = some j ∧ generation ≤ j.generation ∧
    (j.generation = generation → j.state ≠ .running)

variable {hash : SwarmKey} {generation : Nat}

theorem Spent.advances (h : Spent hash generation db) (ha : db.Advances db') :
    Spent hash generation db' := by
  obtain ⟨j, hj, hg, hr⟩ := h
  obtain ⟨j', hj', hevolves⟩ := ha hash j hj
  have hge := hevolves.generation
  refine ⟨j', hj', by omega, ?_⟩
  intro he hrun
  exact hr (by omega) (hevolves.running (by omega) hrun)

theorem Spent.not_running (h : Spent hash generation db) : db.runningJob hash generation = none := by
  cases hr : db.runningJob hash generation with
  | none => rfl
  | some x =>
    obtain ⟨j, hj, -, hnot⟩ := h
    obtain ⟨hx, hg, hrun⟩ := runningJob_some hr
    rw [hj] at hx
    cases hx
    exact absurd hrun (hnot hg)

/-- A worker of a lease: any retry, and any completion with metadata of the hash. -/
inductive Worker (job : Job) : StoreOp → Prop
  | retry (nowMs : Int) (reason : RetryReason) (delayMs : Nat) :
      Worker job (.retry job nowMs reason delayMs)
  | complete (metadata : VerifiedMetadata) (nowMs : Int) (same : metadata.infoHash = job.hash) :
      Worker job (.complete job metadata nowMs)

/-- A worker of a spent lease is told so. -/
theorem Spent.stale {job : Job} (h : Spent job.hash job.generation db) {op : StoreOp}
    (hw : Worker job op) : (op.commit M db).1 = .ok (.updated .stale) := by
  have hnone := h.not_running
  cases hw with
  | retry nowMs reason delayMs =>
    have hrun : (body M (.retry job nowMs reason delayMs)).run db =
        .ok (.updated .stale, db) := by
      simp [body, retryJob, hnone]
    rw [commit_of_run hrun]
  | complete metadata nowMs same =>
    have hrun : (body M (.complete job metadata nowMs)).run db =
        .ok (.updated .stale, db) := by
      simp [body, completeJob, hnone, same]
    rw [commit_of_run hrun]

theorem spent_of_succeeded {j : FetchJob} (hj : db.fetchJobs.get? hash = some j)
    (hg : generation ≤ j.generation) (hs : j.state = .succeeded) : Spent hash generation db :=
  ⟨j, hj, hg, fun _ hr => by rw [hs] at hr; cases hr⟩

/-- A lease that was used is spent. -/
theorem spent_of_applied {op : StoreOp} (hl : op.lease = some (hash, generation))
    (h : (op.commit M db).1 = .ok (.updated .applied)) : Spent hash generation (op.commit M db).2 := by
  obtain ⟨job, nowMs, reason, delayMs, rfl, hrun⟩ | ⟨job, metadata, nowMs, rfl, hrun⟩ :=
    commit_updated h
  · cases hl
    obtain ⟨-, hr, -⟩ | ⟨j, n, hj, -, hexec⟩ := retryJob_ok hrun
    · cases hr
    · obtain ⟨hget, hg, -⟩ := runningJob_some hj
      have hstate := retryTransition_state j.attempts reason nowMs delayMs
      have hdb := (Db.updateJobRows_ok hexec).2.2
      refine ⟨(JobUpdate.retry job.hash job.generation
        (retryTransition j.attempts reason nowMs delayMs) nowMs reason.category).set j, ?_, ?_, ?_⟩
      · rw [hdb]
        show (db.updated _).fetchJobs.get? job.hash = _
        rw [Db.get?_updated, hget]
        have hhash := (Table.get?_eq_some.1 hget).2
        simp [JobUpdate.cond, hhash, hg]
      · exact hg.ge
      · intro _ hr
        rcases hstate with hs | hs <;> rw [JobUpdate.set, hs] at hr <;> cases hr
  · cases hl
    obtain ⟨-, ⟨-, hr, -⟩ | ⟨j, id, saved, n, mid, hj, -, hsave, hexec, hdb⟩⟩ := completeJob_ok hrun
    · cases hr
    · obtain ⟨hget, hg, -⟩ := runningJob_some hj
      have hsteady := (save_quiet M job.hash metadata.info nowMs).mono (fun _ h => h.steady)
      obtain ⟨j', hj', hevolves⟩ := (run_advances hsteady hsave).1 job.hash j hget
      have hmid := (Db.updateJobRows_ok hexec).2.2
      have hge := hevolves.generation
      refine spent_of_succeeded (j := (JobUpdate.succeed job.hash nowMs).set j') ?_ ?_ rfl
      · rw [hdb, hmid]
        show (saved.updated _).fetchJobs.get? job.hash = _
        rw [Db.get?_updated, hj']
        have hhash := (Table.get?_eq_some.1 hj').2
        simp [JobUpdate.cond, hhash]
      · show job.generation ≤ j'.generation
        omega

/-- Recovery spends every lease handed out before it. -/
theorem spent_of_recover {nowMs : Int} {r : Reply} {j : FetchJob}
    (h : ((StoreOp.recover nowMs).commit M db).1 = .ok r) (hj : db.fetchJobs.get? hash = some j)
    (hg : generation ≤ j.generation) :
    Spent hash generation ((StoreOp.recover nowMs).commit M db).2 := by
  have hrun := commit_run h
  obtain ⟨u, mid, hrun, hpure⟩ := Prog.run_bind_ok hrun
  injection hpure with hpure
  injection hpure with _ hdb
  rw [hdb] at hrun
  obtain ⟨n, first, h1, hrun⟩ := Prog.run_bind_ok hrun
  obtain ⟨m, last, h2, hrun⟩ := Prog.run_bind_ok hrun
  rw [Prog.run_execute] at h1 h2
  injection hrun with hrun
  injection hrun with _ hlast
  rw [hlast] at h2
  refine Spent.advances ?_ (exec_advances (by trivial) h2).1
  have hfirst := (Db.updateJobRows_ok h1).2.2
  rw [hfirst]
  show Spent hash generation (db.updated (.recoverRunning nowMs))
  unfold Spent
  rw [Db.get?_updated, hj, Option.map_some]
  refine ⟨_, rfl, ?_⟩
  by_cases hs : j.state = .running
  · have hc : (JobUpdate.recoverRunning nowMs).cond db j = true := by simp [JobUpdate.cond, hs]
    rw [if_pos hc]
    exact ⟨Nat.le_succ_of_le hg, fun _ hr => by cases hr⟩
  · have hc : ¬ (JobUpdate.recoverRunning nowMs).cond db j = true := by simp [JobUpdate.cond, hs]
    rw [if_neg hc]
    exact ⟨hg, fun _ => hs⟩

end StoreOp

/-- A save finishes the jobs of the other keys of the torrent. -/
theorem save_settles {key : SwarmKey} {info : Bytes} {atMs id : Int} (hinv : StoreInv M db)
    (h : (save M key info atMs).run db = .ok (id, db')) {source i : TorrentIdentity}
    (hc : checkInfo M key info = .ok source) (hi : i ∈ M.identities info source)
    (hne : i.swarmKey ≠ key) {j : FetchJob} (hj : db'.fetchJobs.get? i.swarmKey = some j) :
    j.state = .succeeded := by
  obtain ⟨hmem, hhash⟩ := Table.get?_eq_some.1 hj
  obtain ⟨e, -, he⟩ | ⟨source', hc', ⟨he, -⟩ | ⟨-, he⟩ | ⟨-, id', db₁, hok, hsaved⟩⟩ :=
    save_run hinv key info atMs
  · rw [h] at he; cases he
  · rw [h] at he; cases he
  · rw [h] at he; cases he
  rw [hc] at hc'
  cases hc'
  rw [h] at hok
  cases hok
  obtain ⟨base, -, hframe⟩ := hsaved.based
  rw [hframe.fetchJobs (by decide)] at hmem
  exact (fold_recorded key source atMs id _ base i hi).1.jobs hne j hmem hhash

namespace StoreOp

/-- A transaction that stores the metadata of a key. -/
inductive Stores (key : SwarmKey) (info : Bytes) : StoreOp → Prop
  | save (atMs : Int) : Stores key info (.save key info atMs)
  | complete (job : Job) (metadata : VerifiedMetadata) (nowMs : Int) (hash : job.hash = key)
      (bytes : metadata.info = info) : Stores key info (.complete job metadata nowMs)

/-- A reply that says that a transaction has written. -/
def Wrote (r : Except StorageError Reply) : Prop := r = .ok .done ∨ r = .ok (.updated .applied)

/-- A committed save settles the jobs of the other keys of its torrent. -/
theorem alias_settled (hinv : StoreInv M db) {op : StoreOp} {key : SwarmKey} {info : Bytes}
    (hop : op.Stores key info) (hw : Wrote (op.commit M db).1) {source i : TorrentIdentity}
    (hc : checkInfo M key info = .ok source) (hi : i ∈ M.identities info source)
    (hne : i.swarmKey ≠ key) {j : FetchJob}
    (hj : (op.commit M db).2.fetchJobs.get? i.swarmKey = some j) : j.state = .succeeded := by
  cases hop with
  | save atMs =>
    rcases hw with hw | hw
    · obtain ⟨id, mid, hsave, hpure⟩ := Prog.run_bind_ok (commit_run hw)
      injection hpure with hpure
      injection hpure with _ hdb
      rw [hdb] at hsave
      exact save_settles hinv hsave hc hi hne hj
    · obtain ⟨id, mid, hsave, hpure⟩ := Prog.run_bind_ok (commit_run hw)
      cases hpure
  | complete job metadata nowMs hash bytes =>
    have hw : ((StoreOp.complete job metadata nowMs).commit M db).1 = .ok (.updated .applied) := by
      rcases hw with hw | hw
      · obtain ⟨r, mid, -, hpure⟩ := Prog.run_bind_ok (commit_run hw)
        cases hpure
      · exact hw
    obtain ⟨job', _, _, _, he, -⟩ | ⟨job', metadata', nowMs', he, hrun⟩ := commit_updated hw
    · cases he
    cases he
    obtain ⟨-, ⟨-, hr, -⟩ | ⟨x, id, saved, n, mid, -, -, hsave, hexec, hdb⟩⟩ := completeJob_ok hrun
    · cases hr
    rw [hash, bytes] at hsave
    rw [hdb, (Db.updateJobRows_ok hexec).2.2] at hj
    change (saved.updated _).fetchJobs.get? i.swarmKey = some j at hj
    rw [Db.get?_updated] at hj
    obtain ⟨x, hx, rfl⟩ := Option.map_eq_some_iff.1 hj
    have hs := save_settles hinv hsave hc hi hne hx
    split
    · rfl
    · exact hs

/-- A hash that was claimed in a run. -/
def ClaimedIn (M : Metainfo) (ops : List StoreOp) (hash : SwarmKey) : Prop :=
  ∃ pre op post c, ops = pre ++ op :: post ∧ reply M pre op = .ok (.claimed (some c)) ∧
    c.job.hash = hash

/-- A job is touched only after a claim of its hash. -/
theorem claimedIn_of_touched (ops : List StoreOp) : ∀ {k : SwarmKey} {j : FetchJob},
    (replay M ops Db.empty).fetchJobs.get? k = some j → j.Touched → ClaimedIn M ops k := by
  induction ops using List.reverseRecOn with
  | nil =>
    intro k j hj
    cases hj
  | append_singleton pre op ih =>
    intro k j hj ht
    rw [replay_append] at hj
    rcases commit_touches hj ht with ⟨j₀, hj₀, ht₀⟩ | ⟨c, hc, hk⟩
    · obtain ⟨pre', op', post, c, rfl, hc, hk⟩ := ih hj₀ ht₀
      exact ⟨pre', op', post ++ [op], c, by simp, hc, hk⟩
    · exact ⟨pre, op, [], c, rfl, hc, hk⟩

theorem reply_claimed {pre : List StoreOp} {op : StoreOp} {c : Claim}
    (h : reply M pre op = .ok (.claimed (some c))) :
    Claimed (replay M pre Db.empty) c (replay M (pre ++ [op]) Db.empty) := by
  obtain ⟨nowMs, order, policy, -, hrun⟩ := commit_claimed h
  rw [replay_append]
  exact claimByOrder_claimed hrun

/-- After a claim its generation has been reached. -/
theorem generation_reached {pre : List StoreOp} {op : StoreOp} {c : Claim}
    (h : reply M pre op = .ok (.claimed (some c))) (mid : List StoreOp) :
    ∃ j, (replay M (pre ++ op :: mid) Db.empty).fetchJobs.get? c.job.hash = some j ∧
      c.job.generation ≤ j.generation := by
  obtain ⟨j, hj, hg, -⟩ := (reply_claimed h).after
  have hsplit : pre ++ op :: mid = (pre ++ [op]) ++ mid := by simp
  rw [hsplit, replay_append]
  obtain ⟨j', hj', hevolves⟩ := replay_advances (M := M) mid _ c.job.hash j hj
  exact ⟨j', hj', hg ▸ hevolves.generation⟩

theorem claims_increase {pre mid : List StoreOp} {op op' : StoreOp} {c c' : Claim}
    (h : reply M pre op = .ok (.claimed (some c)))
    (h' : reply M (pre ++ op :: mid) op' = .ok (.claimed (some c')))
    (hash : c.job.hash = c'.job.hash) : c.job.generation < c'.job.generation := by
  obtain ⟨j, hj, hg⟩ := generation_reached h mid
  obtain ⟨j', hj', hg', -⟩ := (reply_claimed h').before
  rw [← hash, hj] at hj'
  cases hj'
  omega

/-- A spent lease stays spent. -/
theorem Spent.replay {job : Job} {pre : List StoreOp}
    (h : Spent job.hash job.generation (replay M pre Db.empty)) (post : List StoreOp) {op : StoreOp}
    (hw : Worker job op) : reply M (pre ++ post) op = .ok (.updated .stale) := by
  unfold reply
  rw [replay_append]
  exact (h.advances (replay_advances post _)).stale hw

theorem attemptKind_first {pre : List StoreOp} {op : StoreOp} {c : Claim}
    (h : reply M pre op = .ok (.claimed (some c))) :
    c.job.attemptKind = .first ↔ ¬ ClaimedIn M pre c.job.hash := by
  obtain ⟨j, hj, hg, hs, -⟩ := (reply_claimed h).before
  unfold Job.attemptKind
  constructor
  · rintro hfirst ⟨pre', op', post, c', rfl, hc', hash⟩
    have hlt := claims_increase hc' h hash
    obtain ⟨j', -, hg', -⟩ := (reply_claimed hc').before
    split at hfirst
    · omega
    · cases hfirst
  · intro hnot
    have hzero : j.generation = 0 := by
      by_contra hg0
      exact hnot (claimedIn_of_touched pre hj ⟨hs, .inl hg0⟩)
    rw [if_pos (by omega)]

/-- **The claim protocol.**  In every run from a fresh database, in whatever order the transactions
of the store arrive and whatever jobs the workers present:

* the generations of the claims of a hash increase;
* a lease `(hash, generation)` is applied at most once;
* an error or a stale reply leaves the database as it was;
* after a committed recovery, after a committed save of a torrent that has the hash as another key,
  and whenever the job is finished, every earlier claim of the hash is stale for good;
* `attempt_kind` is `First` for exactly the first claim of a hash. -/
theorem claim_protocol (M : Metainfo) :
    (∀ pre op mid op' c c', reply M pre op = .ok (.claimed (some c)) →
      reply M (pre ++ op :: mid) op' = .ok (.claimed (some c')) → c.job.hash = c'.job.hash →
        c.job.generation < c'.job.generation) ∧
    (∀ pre op mid op' hash generation, op.lease = some (hash, generation) →
      op'.lease = some (hash, generation) → reply M pre op = .ok (.updated .applied) →
        reply M (pre ++ op :: mid) op' ≠ .ok (.updated .applied)) ∧
    (∀ pre op, (reply M pre op = .ok (.updated .stale) ∨ ∃ e, reply M pre op = .error e) →
      replay M (pre ++ [op]) Db.empty = replay M pre Db.empty) ∧
    (∀ pre op mid c, reply M pre op = .ok (.claimed (some c)) →
      (∀ nowMs post w, reply M (pre ++ op :: mid) (.recover nowMs) = .ok .done → Worker c.job w →
        reply M (pre ++ op :: mid ++ .recover nowMs :: post) w = .ok (.updated .stale)) ∧
      (∀ key info source i saving post w, saving.Stores key info →
        Wrote (reply M (pre ++ op :: mid) saving) → checkInfo M key info = .ok source →
        i ∈ M.identities info source → i.swarmKey = c.job.hash → c.job.hash ≠ key →
        Worker c.job w →
          reply M (pre ++ op :: mid ++ saving :: post) w = .ok (.updated .stale)) ∧
      (∀ j post w, (replay M (pre ++ op :: mid) Db.empty).fetchJobs.get? c.job.hash = some j →
        j.state = .succeeded → Worker c.job w →
          reply M (pre ++ op :: mid ++ post) w = .ok (.updated .stale))) ∧
    (∀ pre op c, reply M pre op = .ok (.claimed (some c)) →
      (c.job.attemptKind = .first ↔ ¬ ClaimedIn M pre c.job.hash)) := by
  refine ⟨?_, ?_, ?_, ?_, fun pre op c h => attemptKind_first h⟩
  · intro pre op mid op' c c' h h' hash
    exact claims_increase h h' hash
  · intro pre op mid op' hash generation hl hl' happlied happlied'
    have hspent := spent_of_applied hl happlied
    have hlater : Spent hash generation (replay M (pre ++ op :: mid) Db.empty) := by
      rw [replay_append, replay_cons]
      exact hspent.advances (replay_advances mid _)
    obtain ⟨job, nowMs, reason, delayMs, rfl, hrun⟩ | ⟨job, metadata, nowMs, rfl, hrun⟩ :=
      commit_updated happlied'
    · cases hl'
      obtain ⟨-, hr, -⟩ | ⟨j, n, hj, -⟩ := retryJob_ok hrun
      · cases hr
      · rw [hlater.not_running] at hj
        cases hj
    · cases hl'
      obtain ⟨-, ⟨-, hr, -⟩ | ⟨j, _, _, _, _, hj, -⟩⟩ := completeJob_ok hrun
      · cases hr
      · rw [hlater.not_running] at hj
        cases hj
  · intro pre op h
    rw [replay_append]
    show (op.commit M (replay M pre Db.empty)).2 = replay M pre Db.empty
    rcases h with h | ⟨e, h⟩
    · obtain ⟨job, nowMs, reason, delayMs, rfl, hrun⟩ | ⟨job, metadata, nowMs, rfl, hrun⟩ :=
        commit_updated h
      · obtain ⟨-, -, hdb⟩ | ⟨j, n, -, hr, -⟩ := retryJob_ok hrun
        · exact hdb
        · cases hr
      · obtain ⟨-, ⟨-, -, hdb⟩ | ⟨j, _, _, _, _, -, hr, -⟩⟩ := completeJob_ok hrun
        · exact hdb
        · cases hr
    · exact commit_error h
  · intro pre op mid c h
    obtain ⟨j, hj, hg⟩ := generation_reached h mid
    refine ⟨?_, ?_, ?_⟩
    · intro nowMs post w hrec hw
      rw [show pre ++ op :: mid ++ .recover nowMs :: post =
        (pre ++ op :: mid ++ [.recover nowMs]) ++ post by simp]
      refine Spent.replay ?_ post hw
      rw [replay_append]
      exact spent_of_recover hrec hj hg
    · intro key info source i saving post w hstores hwrote hc hi hkey hne hw
      rw [show pre ++ op :: mid ++ saving :: post = (pre ++ op :: mid ++ [saving]) ++ post by simp]
      refine Spent.replay ?_ post hw
      rw [replay_append]
      obtain ⟨j', hj', hevolves⟩ := commit_advances (M := M) saving _ c.job.hash j hj
      have hge := hevolves.generation
      refine spent_of_succeeded hj' (by omega) ?_
      exact alias_settled (replay_storeInv M _) hstores hwrote hc hi (by rw [hkey]; exact hne)
        (hkey ▸ hj')
    · intro j' post w hj' hs hw
      rw [hj] at hj'
      cases hj'
      exact Spent.replay (spent_of_succeeded hj hg hs) post hw

end StoreOp

end BtSniffer
