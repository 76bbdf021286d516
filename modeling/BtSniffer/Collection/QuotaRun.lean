import BtSniffer.Collection.Quota

/-!
# The limits of admission

* `Db.Revives` — an observation under a first-attempt buffer creates no job.
* `admission_quotas` — the limits the four transactions of admission keep to, in every database.
-/

set_option autoImplicit false

namespace BtSniffer

open Relational

variable {db db' : Db}

/-! ## Observations under a buffer -/

/-- No job is new; a job is the same as before, or was dormant and is revived. -/
def Db.Revives (atMs : Int) (db db' : Db) : Prop :=
  ∀ k, (db.fetchJobs.get? k = none → db'.fetchJobs.get? k = none) ∧
    ∀ j, db.fetchJobs.get? k = some j → ∃ j', db'.fetchJobs.get? k = some j' ∧
      (j' = j ∨ j.state = .dormant ∧ j' = (JobUpdate.revive k atMs).set j)

theorem revives_of_jobs {atMs : Int} (h : db'.fetchJobs = db.fetchJobs) : db.Revives atMs db' := by
  intro k
  rw [h]
  exact ⟨fun hn => hn, fun j hj => ⟨j, hj, .inl rfl⟩⟩

theorem Db.Revives.trans {atMs : Int} {a b c : Db} (h : a.Revives atMs b) (k : b.Revives atMs c) :
    a.Revives atMs c := by
  intro key
  refine ⟨fun hn => (k key).1 ((h key).1 hn), ?_⟩
  intro j hj
  obtain ⟨j', hj', hfirst⟩ := (h key).2 j hj
  obtain ⟨j'', hj'', hsecond⟩ := (k key).2 j' hj'
  refine ⟨j'', hj'', ?_⟩
  rcases hfirst with rfl | ⟨hd, rfl⟩
  · exact hsecond
  · rcases hsecond with rfl | ⟨hd', -⟩
    · exact .inr ⟨hd, rfl⟩
    · cases hd'

/-- `enqueue` on a hash that has a job. -/
theorem Enqueued.revives {hash : SwarmKey} {nowMs : Int} {slots left : Nat} {j : FetchJob}
    (h : Enqueued hash nowMs slots db left db') (hj : db.fetchJobs.get? hash = some j) :
    db.Revives nowMs db' := by
  cases h with
  | full | kept => exact revives_of_jobs rfl
  | created room unknown => rw [hj] at unknown; cases unknown
  | revived =>
    intro k
    rw [Db.get?_updated]
    refine ⟨fun hn => by rw [hn]; rfl, fun x hx => ?_⟩
    rw [hx, Option.map_some]
    refine ⟨_, rfl, ?_⟩
    split
    · rename_i hc
      simp only [JobUpdate.cond, Bool.and_eq_true, beq_iff_eq] at hc
      exact .inr ⟨hc.1.1.2, rfl⟩
    · exact .inl rfl

theorem saveHashesLoop_revives {observedAt admissionAt : Int} : ∀ {hashes : List SwarmKey}
    {a : Admission} {deferred : Nat} {db : Db} {r : Nat}, a.enabled = true →
    (saveHashesLoop observedAt admissionAt hashes a deferred).run db = .ok (r, db') →
      db.Revives admissionAt db'
  | [], a, _, db, _, _, h => by
    cases h
    exact revives_of_jobs rfl
  | hash :: rest, a, _, db, _, he, h => by
    rw [saveHashesLoop] at h
    obtain ⟨n, first, hupsert, hrest⟩ := Prog.run_bind_ok h
    obtain ⟨⟨b, waiting⟩, mid, hobserve, hloop⟩ := Prog.run_bind_ok hrest
    rw [Prog.run_execute] at hupsert
    have hfirst : db.Revives admissionAt first := revives_of_jobs (upsertHash_jobs hupsert)
    have hmid : first.Revives admissionAt mid := by
      obtain ⟨hfalse, -⟩ | ⟨-, -, rfl⟩ | ⟨-, j, left, hj, -, henq, -⟩ :=
        Admission.observe_cases hobserve
      · rw [he] at hfalse
        cases hfalse
      · exact revives_of_jobs rfl
      · exact henq.revives hj
    have henabled := (Admission.observe_spends hobserve).enabled.trans he
    exact (hfirst.trans hmid).trans (saveHashesLoop_revives henabled hloop)

theorem saveHashesAt_revives {config : AdmissionConfig} {hashes : List SwarmKey}
    {observedAt admissionAt : Int} {r : Nat} (hr : config.recentLimit ≠ 0)
    (h : (saveHashesAt config hashes observedAt admissionAt).run db = .ok (r, db')) :
    db.Revives admissionAt db' := by
  unfold saveHashesAt at h
  split at h
  · cases h
  · split at h
    · cases h
    · obtain ⟨a, start, hload, hloop⟩ := Prog.run_bind_ok h
      rw [Prog.run_query] at hload
      cases hload
      exact saveHashesLoop_revives (load_enabled hr) hloop

/-! ## The quotas -/

/-- The transactions of admission, under a configuration. -/
inductive StoreOp.AdmitsUnder (config : AdmissionConfig) : StoreOp → Prop
  | saveHashes (hashes : List SwarmKey) (observedAt admissionAt : Int) :
      AdmitsUnder config (.saveHashes config hashes observedAt admissionAt)
  | discoverPeer (hash : SwarmKey) (peer : SocketAddr) (observedAtMs : Int) :
      AdmitsUnder config (.discoverPeer config.fetchLimit hash peer observedAtMs)
  | backfillPage (nowMs : Int) (cursor : Option SwarmKey) :
      AdmitsUnder config (.backfillPage config nowMs cursor)
  | backfillRecentPage (nowMs : Int) (cursor : Option RecentCursor) :
      AdmitsUnder config (.backfillRecentPage config nowMs cursor)

theorem StoreOp.commit_grows {M : Metainfo} {config : AdmissionConfig} {op : StoreOp}
    (hop : op.AdmitsUnder config) (db : Db) :
    Grows (db.available config.fetchLimit) db (op.commit M db).2 := by
  refine Prog.transact_keeps (Grows.refl _ _) ?_
  intro r db' hrun
  cases hop with
  | saveHashes hashes observedAt admissionAt =>
    obtain ⟨a, mid, hrun, hpure⟩ := Prog.run_bind_ok hrun
    cases hpure
    exact saveHashesAt_grows hrun
  | discoverPeer hash peer observedAtMs =>
    obtain ⟨a, mid, hrun, hpure⟩ := Prog.run_bind_ok hrun
    cases hpure
    exact discoverPeer_grows hrun
  | backfillPage nowMs cursor =>
    obtain ⟨a, mid, hrun, hpure⟩ := Prog.run_bind_ok hrun
    cases hpure
    exact (backfillPage_quota hrun).1
  | backfillRecentPage nowMs cursor =>
    obtain ⟨a, mid, hrun, hpure⟩ := Prog.run_bind_ok hrun
    cases hpure
    exact (backfillRecentPage_quota hrun).1

/-- **The admission quotas**, in every database, for every configuration:

* the transactions of admission leave at most `max(L, active)` active jobs, and none is added or
  removed when `L = 0`;
* with a buffer, the recent sweep leaves at most `max(R, Q)` first attempts waiting, and an
  observation creates no job: it revives dormant ones;
* with a buffer, the history sweep leaves the reserve free, as far as it was free before;
* a transaction that fails leaves the database as it was. -/
theorem admission_quotas (M : Metainfo) (config : AdmissionConfig) (db : Db) :
    (∀ op : StoreOp, op.AdmitsUnder config →
      (op.commit M db).2.activeJobs ≤ max config.fetchLimit db.activeJobs ∧
      (config.fetchLimit = 0 → (op.commit M db).2.activeJobs = db.activeJobs)) ∧
    (config.recentLimit ≠ 0 → ∀ nowMs cursor,
      ((StoreOp.backfillRecentPage config nowMs cursor).commit M db).2.firstAttemptWaiting
          config.policy nowMs ≤
        max config.recentLimit (db.firstAttemptWaiting config.policy nowMs)) ∧
    (config.recentLimit ≠ 0 → ∀ hashes observedAt admissionAt, db.Revives admissionAt
      ((StoreOp.saveHashes config hashes observedAt admissionAt).commit M db).2) ∧
    (config.recentLimit ≠ 0 → ∀ nowMs cursor,
      min (Admission.reserve config) (config.fetchLimit - db.activeJobs) ≤ config.fetchLimit -
        ((StoreOp.backfillPage config nowMs cursor).commit M db).2.activeJobs) ∧
    (∀ op : StoreOp, op.AdmitsUnder config → ∀ e, (op.commit M db).1 = .error e →
      (op.commit M db).2.fetchJobs = db.fetchJobs) := by
  refine ⟨?_, ?_, ?_, ?_, ?_⟩
  · intro op hop
    obtain ⟨hupper, hlower⟩ := StoreOp.commit_grows (M := M) hop db
    unfold Db.available at hupper
    split at hupper
    · exact ⟨by omega, fun _ => by omega⟩
    · exact ⟨by omega, fun hz => by omega⟩
  · intro hr nowMs cursor
    refine Prog.transact_keeps (I := fun d => Db.firstAttemptWaiting d config.policy nowMs ≤
      max config.recentLimit (db.firstAttemptWaiting config.policy nowMs)) (le_max_right _ _) ?_
    intro r db' hrun
    obtain ⟨a, mid, hrun, hpure⟩ := Prog.run_bind_ok hrun
    cases hpure
    exact (backfillRecentPage_quota hrun).2 hr
  · intro hr hashes observedAt admissionAt
    refine Prog.transact_keeps (revives_of_jobs rfl) ?_
    intro r db' hrun
    obtain ⟨a, mid, hrun, hpure⟩ := Prog.run_bind_ok hrun
    cases hpure
    exact saveHashesAt_revives hr hrun
  · intro hr nowMs cursor
    have hgrows : Grows (db.available config.fetchLimit - Admission.reserve config) db
        ((StoreOp.backfillPage config nowMs cursor).commit M db).2 := by
      refine Prog.transact_keeps (Grows.refl _ _) ?_
      intro r db' hrun
      obtain ⟨a, mid, hrun, hpure⟩ := Prog.run_bind_ok hrun
      cases hpure
      exact (backfillPage_quota hrun).2 hr
    have hupper := hgrows.upper
    unfold Db.available at hupper
    split at hupper <;> omega
  · intro op _ e he
    rw [StoreOp.commit_error he]

end BtSniffer
