import BtSniffer.Collection.JobLease

/-!
# The job table

The three parts of the invariant that ties `fetch_jobs` to `swarm_metadata` and `infohashes`, for
every transaction.

* `FetchJob.Rated` — the failure count fits the state of the job.
* `Db.Settled` — a job is finished exactly when its hash has metadata.
* `Db.Linked` — jobs and hints refer to known hashes.
* `fold_job`, `save_jobs` — what a save does to the jobs and the swarm relation.
-/

set_option autoImplicit false

namespace BtSniffer

open Relational

variable {M : Metainfo} {db db' : Db}

/-! ## Failure counts -/

/-- The failure count fits the state. -/
structure FetchJob.Rated (j : FetchJob) : Prop where
  bound : j.attempts ≤ 6
  active : j.active = true → j.attempts ≤ 5
  dormant : j.state = .dormant → j.attempts = 6

theorem rated_of_succeeded {j : FetchJob} (hb : j.attempts ≤ 6) (hs : j.state = .succeeded) :
    j.Rated := by
  refine ⟨hb, fun h => ?_, fun h => ?_⟩
  · simp [FetchJob.active, hs] at h
  · rw [hs] at h
    cases h

theorem rated_of_active {j : FetchJob} (hb : j.attempts ≤ 5) (hs : j.state ≠ .dormant) : j.Rated :=
  ⟨by omega, fun _ => hb, fun h => absurd h hs⟩

theorem JobUpdate.rated {u : JobUpdate} (hu : (Stmt.updateJobs u).Steady) {j : FetchJob}
    (hc : u.cond db j = true) (hj : j.Rated) : (u.set j).Rated := by
  cases u with
  | revive hash nowMs => exact rated_of_active (Nat.zero_le 5) (by simp [JobUpdate.set])
  | claim hash nowMs => exact hu.elim
  | recoverRunning nowMs =>
    have hrun : j.state = .running := by simpa [JobUpdate.cond] using hc
    exact rated_of_active (hj.active (by simp [FetchJob.active, hrun])) (by simp [JobUpdate.set])
  | recoverSucceeded => exact rated_of_succeeded hj.bound rfl
  | retry hash generation transition nowMs error => exact hu.elim
  | succeed hash nowMs => exact rated_of_succeeded hj.bound rfl
  | settleAlias hash atMs => exact rated_of_succeeded hj.bound rfl

/-- Every job of the table fits its state. -/
def Db.Rated (db : Db) : Prop := ∀ j ∈ db.fetchJobs.rows, j.Rated

theorem rated_updated {u : JobUpdate} (h : db.Rated)
    (hu : ∀ j ∈ db.fetchJobs.rows, u.cond db j = true → (u.set j).Rated) : (db.updated u).Rated := by
  intro j hj
  obtain ⟨r, hr, rfl⟩ := List.mem_map.1 hj
  split
  · rename_i hc
    exact hu r hr hc
  · exact h r hr

theorem exec_rated {stmt : Stmt} {n : Nat} (hs : stmt.Steady) (h : db.Rated)
    (hexec : db.exec stmt = .ok (n, db')) : db'.Rated := by
  by_cases ht : stmt.target = .fetchJobs
  · cases stmt with
    | insertJob hash nowMs =>
      obtain ⟨-, rfl, -⟩ | ⟨-, -, -, -, -, rfl⟩ := Db.insertJobRow_ok hexec
      · exact h
      · intro j hj
        rcases Table.mem_insertNew hj with hj | rfl
        · exact h j hj
        · exact rated_of_active (Nat.zero_le 5) (by simp [Db.newJob])
    | updateJobs u =>
      obtain ⟨-, -, rfl⟩ := Db.updateJobRows_ok hexec
      exact rated_updated h (fun j hj hc => JobUpdate.rated hs hc (h j hj))
    | _ => cases ht
  · intro j hj
    rw [(Db.exec_frame hexec).fetchJobs ht] at hj
    exact h j hj

/-- A retry keeps the count in bounds: a local deferral does not count, the sixth failure rests. -/
theorem retry_rated {j : FetchJob} (hj : j.Rated) (hrun : j.state = .running) (hash : SwarmKey)
    (generation : Nat) (nowMs : Int) (reason : RetryReason) (delayMs : Nat) :
    ((JobUpdate.retry hash generation (retryTransition j.attempts reason nowMs delayMs) nowMs
      reason.category).set j).Rated := by
  have h5 := hj.active (by simp [FetchJob.active, hrun])
  have hle : j.attempts + (if reason.remoteFailure then 1 else 0) ≤ 6 := by
    split <;> omega
  by_cases hlimit : j.attempts + (if reason.remoteFailure then 1 else 0) ≥ MAX_FAILED_ATTEMPTS
  · have hstate : (retryTransition j.attempts reason nowMs delayMs).state = .dormant := if_pos hlimit
    refine ⟨hle, fun ha => ?_, fun _ => ?_⟩
    · simp [FetchJob.active, JobUpdate.set, hstate] at ha
    · exact le_antisymm hle hlimit
  · have hstate : (retryTransition j.attempts reason nowMs delayMs).state = .retryWait :=
      if_neg hlimit
    refine rated_of_active ?_ ?_
    · unfold MAX_FAILED_ATTEMPTS at hlimit
      show j.attempts + (if reason.remoteFailure then 1 else 0) ≤ 5
      omega
    · simp [JobUpdate.set, hstate]

/-! ## References -/

/-- Jobs and hints refer to known hashes. -/
structure Db.Linked (db : Db) : Prop where
  jobs : ∀ j ∈ db.fetchJobs.rows, (db.infohashes.get? j.hash).isSome = true
  hints : ∀ h ∈ db.peerHints.rows, (db.infohashes.get? h.hash).isSome = true

theorem exec_linked {stmt : Stmt} {n : Nat} (h : db.Linked) (hexec : db.exec stmt = .ok (n, db')) :
    db'.Linked := by
  refine ⟨?_, ?_⟩
  · intro j hj
    refine exec_infohashes hexec ?_
    by_cases ht : stmt.target = .fetchJobs
    · cases stmt with
      | insertJob hash nowMs =>
        obtain ⟨-, rfl, -⟩ | ⟨-, -, -, -, hknown, rfl⟩ := Db.insertJobRow_ok hexec
        · exact h.jobs j hj
        · rcases Table.mem_insertNew hj with hj | rfl
          · exact h.jobs j hj
          · exact hknown
      | updateJobs u =>
        obtain ⟨-, -, rfl⟩ := Db.updateJobRows_ok hexec
        obtain ⟨r, hr, rfl⟩ := List.mem_map.1 hj
        have := h.jobs r hr
        split
        · rw [u.set_hash]
          exact this
        · exact this
      | _ => cases ht
    · rw [(Db.exec_frame hexec).fetchJobs ht] at hj
      exact h.jobs j hj
  · intro x hx
    refine exec_infohashes hexec ?_
    by_cases ht : stmt.target = .peerHints
    · cases stmt with
      | upsertHint hint =>
        obtain ⟨-, -, hknown, rfl⟩ := Db.upsertHintRow_ok hexec
        rcases Table.mem_upsert hx with hx | rfl | ⟨y, hy, -, rfl⟩
        · exact h.hints x hx
        · exact hknown
        · exact h.hints y hy
      | deleteHints d =>
        cases hexec
        exact h.hints x (Table.mem_delete.1 hx).1
      | _ => cases ht
    · rw [(Db.exec_frame hexec).peerHints ht] at hx
      exact h.hints x hx

theorem StoreOp.commit_linked (op : StoreOp) (db : Db) (h : db.Linked) :
    (op.commit M db).2.Linked := by
  refine Prog.transact_keeps h ?_
  intro r db' hrun
  exact Prog.run_invariant (I := Db.Linked) (fun _ _ _ _ _ hi hs => exec_linked hi hs)
    (Prog.uses_true _) h hrun

/-! ## Finished jobs and metadata -/

/-- A job is finished exactly when its hash has metadata. -/
def Db.Settled (db : Db) : Prop :=
  ∀ k j, db.fetchJobs.get? k = some j → (j.state = .succeeded ↔ db.hasSwarm k = true)

theorem settled_updated {u : JobUpdate} (h : db.Settled)
    (hu : ∀ k j, db.fetchJobs.get? k = some j → u.cond db j = true →
      ((u.set j).state = .succeeded ↔ db.hasSwarm k = true)) : (db.updated u).Settled := by
  intro k j' hj'
  rw [Db.get?_updated] at hj'
  obtain ⟨j, hj, rfl⟩ := Option.map_eq_some_iff.1 hj'
  show _ ↔ db.hasSwarm k = true
  split
  · rename_i hc
    exact hu k j hj hc
  · exact h k j hj

/-- An update between unfinished states. -/
theorem settled_unfinished {u : JobUpdate} (h : db.Settled)
    (hu : ∀ j ∈ db.fetchJobs.rows, u.cond db j = true →
      j.state ≠ .succeeded ∧ (u.set j).state ≠ .succeeded) : (db.updated u).Settled := by
  refine settled_updated h (fun k j hj hc => ?_)
  obtain ⟨h1, h2⟩ := hu j (Table.get?_eq_some.1 hj).1 hc
  have := h k j hj
  constructor
  · exact fun hs => absurd hs h2
  · exact fun hs => absurd (this.2 hs) h1

theorem settled_congr (h : db.Settled) (hj : db'.fetchJobs = db.fetchJobs)
    (hs : db'.swarmMetadata = db.swarmMetadata) : db'.Settled := by
  intro k j hk
  unfold Db.hasSwarm
  rw [hs]
  exact h k j (hj ▸ hk)

theorem exec_settled_admits {stmt : Stmt} {n : Nat} (ha : stmt.Admits) (h : db.Settled)
    (hexec : db.exec stmt = .ok (n, db')) : db'.Settled := by
  cases ha with
  | upsertHash hash atMs =>
    obtain ⟨-, rfl⟩ := Db.upsertHashRow_ok hexec
    exact settled_congr h rfl rfl
  | insertJob hash nowMs =>
    obtain ⟨-, rfl, -⟩ | ⟨-, hswarm, hnone, -, -, rfl⟩ := Db.insertJobRow_ok hexec
    · exact h
    · intro k j hj
      rw [Table.get?_insertNew] at hj
      show _ ↔ db.hasSwarm k = true
      cases hk : db.fetchJobs.get? k with
      | some x =>
        rw [hk] at hj
        cases hj
        exact h k j hk
      | none =>
        rw [hk, Option.none_or] at hj
        split at hj
        · rename_i hash'
          cases hj
          rw [← hash']
          constructor
          · intro hs
            cases hs
          · intro hs
            rw [show (Db.newJob hash nowMs).hash = hash from rfl, hswarm] at hs
            cases hs
        · cases hj
  | revive hash nowMs =>
    obtain ⟨-, -, rfl⟩ := Db.updateJobRows_ok hexec
    refine settled_unfinished h (fun j _ hc => ?_)
    simp only [JobUpdate.cond, Bool.and_eq_true, beq_iff_eq] at hc
    obtain ⟨⟨⟨-, hdormant⟩, -⟩, -⟩ := hc
    exact ⟨by rw [hdormant]; decide, by simp [JobUpdate.set]⟩
  | deleteHints d =>
    cases hexec
    exact settled_congr h rfl rfl

theorem exec_settled_discovers {stmt : Stmt} {n : Nat} (hd : stmt.Discovers) (h : db.Settled)
    (hexec : db.exec stmt = .ok (n, db')) : db'.Settled := by
  cases hd with
  | admits ha => exact exec_settled_admits ha h hexec
  | upsertHint hint =>
    obtain ⟨-, -, -, rfl⟩ := Db.upsertHintRow_ok hexec
    exact settled_congr h rfl rfl

theorem recoverJobs_settled {nowMs : Int} {a : Unit} (h : db.Settled)
    (hrun : (recoverJobs nowMs).run db = .ok (a, db')) : db'.Settled := by
  obtain ⟨n, mid, h1, hrun⟩ := Prog.run_bind_ok hrun
  obtain ⟨m, last, h2, hrun⟩ := Prog.run_bind_ok hrun
  rw [Prog.run_execute] at h1 h2
  cases hrun
  obtain ⟨-, -, rfl⟩ := Db.updateJobRows_ok h1
  obtain ⟨-, -, rfl⟩ := Db.updateJobRows_ok h2
  have hmid : (db.updated (.recoverRunning nowMs)).Settled := by
    refine settled_unfinished h (fun j _ hc => ?_)
    have hrun : j.state = .running := by simpa [JobUpdate.cond] using hc
    exact ⟨by rw [hrun]; decide, by simp [JobUpdate.set]⟩
  refine settled_updated hmid (fun k j hj hc => ?_)
  have hash := (Table.get?_eq_some.1 hj).2
  exact ⟨fun _ => hash ▸ hc, fun _ => rfl⟩

theorem claimByOrder_settled {nowMs : Int} {order : List ClaimClass} {policy : AddressPolicy}
    {r : Option Claim} (h : db.Settled)
    (hrun : (claimByOrder nowMs order policy).run db = .ok (r, db')) : db'.Settled := by
  obtain ⟨-, -, rfl⟩ | ⟨row, class_, n, hrow, -, -, -, rfl⟩ := claimByOrder_ok hrun
  · exact h
  · obtain ⟨preference, -, hs⟩ := findSome?_schedule hrow
    obtain ⟨j, i, hj, -, hdue, -, -, rfl⟩ := schedule_some hs
    refine settled_unfinished h (fun x hx hc => ?_)
    have hxj : x = j := by
      have hash : x.hash = j.hash := by simpa [JobUpdate.cond] using hc
      exact Table.eq_of_key hx (Table.get?_eq_some.1 hj).1 hash
    rw [hxj]
    refine ⟨?_, by simp [JobUpdate.set]⟩
    rcases (due_state hdue).1 with hs | hs <;> rw [hs] <;> decide

theorem retryJob_settled {job : Job} {nowMs : Int} {reason : RetryReason} {delayMs : Nat}
    {r : UpdateResult} (h : db.Settled)
    (hrun : (retryJob job nowMs reason delayMs).run db = .ok (r, db')) : db'.Settled := by
  obtain ⟨-, -, rfl⟩ | ⟨j, n, hj, -, hexec⟩ := retryJob_ok hrun
  · exact h
  · obtain ⟨-, -, rfl⟩ := Db.updateJobRows_ok hexec
    obtain ⟨-, -, hrunning⟩ := runningJob_some hj
    refine settled_unfinished h (fun x hx hc => ?_)
    rw [runningJob_unique hj hx hc]
    refine ⟨by rw [hrunning]; decide, ?_⟩
    rcases retryTransition_state j.attempts reason nowMs delayMs with hs | hs <;>
      simp [JobUpdate.set, hs]

/-! ## Saves -/

theorem hasSwarm_iff {k : SwarmKey} :
    db.hasSwarm k = true ↔ ∃ id, (db.swarmMetadata.get? (k, id)).isSome = true := by
  unfold Db.hasSwarm
  rw [Table.any_eq_true]
  constructor
  · rintro ⟨s, hs, hk⟩
    refine ⟨s.metadataId, ?_⟩
    have := Table.get?_key hs
    rw [SwarmMetadata.key, beq_iff_eq.1 hk] at this
    rw [this]
    rfl
  · rintro ⟨id, hs⟩
    obtain ⟨s, hs⟩ := Option.isSome_iff_exists.1 hs
    obtain ⟨hmem, hkey⟩ := Table.get?_eq_some.1 hs
    exact ⟨s, hmem, by rw [beq_iff_eq]; exact congrArg Prod.fst hkey⟩

/-- The job of another key of a saved torrent. -/
def settleJob (atMs : Int) (j : FetchJob) : FetchJob :=
  if j.state = .succeeded then j else (JobUpdate.settleAlias j.hash atMs).set j

theorem settleJob_succeeded (atMs : Int) (j : FetchJob) : (settleJob atMs j).state = .succeeded := by
  unfold settleJob
  split
  · assumption
  · rfl

theorem settleJob_settleJob (atMs : Int) (j : FetchJob) :
    settleJob atMs (settleJob atMs j) = settleJob atMs j :=
  if_pos (settleJob_succeeded atMs j)

theorem recordOne_job (key : SwarmKey) (source : TorrentIdentity) (atMs id : Int) (db : Db)
    (i : TorrentIdentity) (k : SwarmKey) :
    (recordOne key source atMs id db i).fetchJobs.get? k =
      if k ≠ key ∧ i.swarmKey = k then (db.fetchJobs.get? k).map (settleJob atMs)
      else db.fetchJobs.get? k := by
  show (if i.swarmKey = key then db.fetchJobs
    else (db.updated (.settleAlias i.swarmKey atMs)).fetchJobs).get? k = _
  by_cases hkey : i.swarmKey = key
  · rw [if_pos hkey, if_neg]
    rintro ⟨hne, rfl⟩
    exact hne hkey
  · rw [if_neg hkey, Db.get?_updated]
    cases hg : db.fetchJobs.get? k with
    | none => simp
    | some j =>
      have hash : j.hash = k := (Table.get?_eq_some.1 hg).2
      by_cases hk : i.swarmKey = k
      · rw [if_pos ⟨fun he => hkey (hk.trans he), hk⟩]
        by_cases hs : j.state = .succeeded <;>
          simp [JobUpdate.cond, settleJob, hs, hash, hk]
      · rw [if_neg (fun h => hk h.2)]
        have hne : ¬ j.hash = i.swarmKey := fun he => hk (he.symm.trans hash)
        simp [JobUpdate.cond, hne]

/-- **What the loop of `save` does to the job of a hash.** -/
theorem fold_job (key : SwarmKey) (source : TorrentIdentity) (atMs id : Int) (k : SwarmKey) :
    ∀ (L : List TorrentIdentity) (db : Db),
    (L.foldl (recordOne key source atMs id) db).fetchJobs.get? k =
      if k ≠ key ∧ ∃ i ∈ L, i.swarmKey = k then (db.fetchJobs.get? k).map (settleJob atMs)
      else db.fetchJobs.get? k
  | [], db => by simp
  | i :: rest, db => by
    rw [List.foldl_cons, fold_job key source atMs id k rest, recordOne_job]
    by_cases hkey : k = key
    · simp [hkey]
    · by_cases hi : i.swarmKey = k
      · have hex : ∃ x ∈ i :: rest, x.swarmKey = k := ⟨i, List.mem_cons_self, hi⟩
        rw [if_pos (show k ≠ key ∧ i.swarmKey = k from ⟨hkey, hi⟩),
          if_pos (show k ≠ key ∧ ∃ x ∈ i :: rest, x.swarmKey = k from ⟨hkey, hex⟩)]
        split
        · rw [Option.map_map]
          congr 1
          funext j
          exact settleJob_settleJob atMs j
        · rfl
      · have hiff : (∃ x ∈ i :: rest, x.swarmKey = k) ↔ ∃ x ∈ rest, x.swarmKey = k := by
          simp [hi]
        simp only [hi, and_false, if_false, hiff]

/-- What a save does to the jobs and to the swarm relation: every key of the torrent gets metadata,
and the jobs of its keys other than the saved one are settled. -/
theorem save_jobs {key : SwarmKey} {info : Bytes} {atMs id : Int} (hinv : StoreInv M db)
    (h : (save M key info atMs).run db = .ok (id, db')) :
    ∃ L : List TorrentIdentity, (∃ i ∈ L, i.swarmKey = key) ∧
      (∀ k, db'.fetchJobs.get? k =
        if k ≠ key ∧ ∃ i ∈ L, i.swarmKey = k then (db.fetchJobs.get? k).map (settleJob atMs)
        else db.fetchJobs.get? k) ∧
      ∀ k, db'.hasSwarm k = true ↔ db.hasSwarm k = true ∨ ∃ i ∈ L, i.swarmKey = k := by
  obtain ⟨e, -, he⟩ | ⟨source, hc, ⟨he, -⟩ | ⟨-, he⟩ | ⟨-, id', db₁, hok, hsaved⟩⟩ :=
    save_run hinv key info atMs
  · rw [h] at he; cases he
  · rw [h] at he; cases he
  · rw [h] at he; cases he
  rw [h] at hok
  cases hok
  obtain ⟨base, hbase, hframe⟩ := hsaved.based
  obtain ⟨-, hjobs, -, -, hswarm⟩ := hbase.tables
  have hmatch := (checkInfo_ok hc).2
  refine ⟨M.identities info source, ⟨source, Metainfo.source_mem_identities hmatch,
    Metainfo.matchIdentity_swarmKey hmatch⟩, ?_, ?_⟩
  · intro k
    rw [hframe.fetchJobs (by decide), fold_job, hjobs]
  · intro k
    simp only [hasSwarm_iff, hframe.swarm (by decide), fold_swarm, hswarm]
    constructor
    · rintro ⟨id', hs | ⟨-, hi⟩⟩
      · exact .inl ⟨id', hs⟩
      · exact .inr hi
    · rintro (⟨id', hs⟩ | hi)
      · exact ⟨id', .inl hs⟩
      · exact ⟨id, .inr ⟨rfl, hi⟩⟩

/-- After a save the jobs of all other hashes fit the swarm relation. -/
theorem save_settled {key : SwarmKey} {info : Bytes} {atMs id : Int} (hinv : StoreInv M db)
    (hset : db.Settled) (h : (save M key info atMs).run db = .ok (id, db')) :
    db'.hasSwarm key = true ∧ db'.fetchJobs.get? key = db.fetchJobs.get? key ∧
      ∀ k j, k ≠ key → db'.fetchJobs.get? k = some j →
        (j.state = .succeeded ↔ db'.hasSwarm k = true) := by
  obtain ⟨L, hkey, hjobs, hswarm⟩ := save_jobs hinv h
  refine ⟨(hswarm key).2 (.inr hkey), ?_, ?_⟩
  · rw [hjobs, if_neg (fun h => h.1 rfl)]
  · intro k j hne hj
    rw [hjobs] at hj
    split at hj
    · rename_i hk
      obtain ⟨x, hx, rfl⟩ := Option.map_eq_some_iff.1 hj
      exact ⟨fun _ => (hswarm k).2 (.inr hk.2), fun _ => settleJob_succeeded atMs x⟩
    · rename_i hk
      rw [hset k j hj, hswarm]
      constructor
      · exact .inl
      · rintro (hs | hi)
        · exact hs
        · exact absurd ⟨hne, hi⟩ hk

theorem completeJob_settled {job : Job} {metadata : VerifiedMetadata} {nowMs : Int}
    {r : UpdateResult} (hinv : StoreInv M db) (hset : db.Settled)
    (h : (completeJob M job metadata nowMs).run db = .ok (r, db')) : db'.Settled := by
  obtain ⟨-, ⟨-, -, rfl⟩ | ⟨x, id, saved, n, mid, -, -, hsave, hexec, rfl⟩⟩ := completeJob_ok h
  · exact hset
  · obtain ⟨hswarm, -, hothers⟩ := save_settled hinv hset hsave
    obtain ⟨-, -, rfl⟩ := Db.updateJobRows_ok hexec
    intro k j hj
    change (saved.updated (.succeed job.hash nowMs)).fetchJobs.get? k = some j at hj
    show _ ↔ saved.hasSwarm k = true
    rw [Db.get?_updated] at hj
    obtain ⟨y, hy, rfl⟩ := Option.map_eq_some_iff.1 hj
    have hash : y.hash = k := (Table.get?_eq_some.1 hy).2
    by_cases hk : k = job.hash
    · have hc : (JobUpdate.succeed job.hash nowMs).cond saved y = true := by
        simp [JobUpdate.cond, hash, hk]
      rw [if_pos hc, hk]
      exact ⟨fun _ => hswarm, fun _ => rfl⟩
    · have hc : ¬ (JobUpdate.succeed job.hash nowMs).cond saved y = true := by
        simp [JobUpdate.cond, hash, hk]
      rw [if_neg hc]
      exact hothers k y hk hy

/-- The backfill saves under a key that has metadata already. -/
theorem backfillOne_settled {cursor : Option Int} {r : BackfillStep} (hinv : StoreInv M db)
    (hset : db.Settled) (h : (backfillOne M cursor).run db = .ok (r, db')) : db'.Settled := by
  obtain ⟨-, rfl, -⟩ | ⟨m, hm, -, ⟨id, hsave⟩ | ⟨b, n, mid, hens, hmark⟩⟩ := backfillOne_cases h
  · exact hset
  · have hmem : m ∈ db.metadata.rows := (Table.mem_of_mem_select (List.mem_of_mem_head? hm)).1
    have hbefore : db.hasSwarm m.hash.swarmKey = true :=
      hasSwarm_iff.2 ⟨m.id, hinv.swarm m hmem m.hash (hash_mem_own hinv hmem)⟩
    obtain ⟨hswarm, hown, hothers⟩ := save_settled hinv hset hsave
    intro k j hj
    by_cases hk : k = m.hash.swarmKey
    · rw [hk, hown] at hj
      rw [hk, hset _ j hj]
      exact ⟨fun _ => hswarm, fun _ => hbefore⟩
    · exact hothers k j hk hj
  · have hmem : m ∈ db.metadata.rows := (Table.mem_of_mem_select (List.mem_of_mem_head? hm)).1
    obtain ⟨x, hx⟩ : ∃ x, db.metadataByHash m.hash = some x :=
      Option.isSome_iff_exists.1 (List.find?_isSome.2 ⟨m, hmem, by simp⟩)
    obtain ⟨b', mid', hens', -, hframe, -⟩ := ensureCatalog_run (M := M) hinv.counted hx []
    rw [hens] at hens'
    cases hens'
    have hframe' := hframe.trans (Db.exec_frame hmark)
    exact settled_congr hset (hframe'.fetchJobs (by decide)) (hframe'.swarm (by decide))

end BtSniffer
