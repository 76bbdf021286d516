import BtSniffer.Collection.JobOps

/-!
# What every transaction keeps

The statements the transactions of the collection store are made of, and the identity invariant over
whole runs.

* `Stmt.Admits`, `Stmt.Discovers` — the statements of admission, and of a discovery, which records a
  hint too; `…_admits` says that a transaction uses no others.
* `Stmt.Steady` — the statements that neither claim nor retry a job; `StoreOp.body_steady` says that
  only the claim and the retry transaction use others.  `Stmt.Quiet` ones record no hint either.
* `StoreOp.replay_storeInv` — the identity invariant holds after every run.
-/

set_option autoImplicit false

namespace BtSniffer

open Relational

/-! ## Statements of the transactions -/

/-- The statements of admission. -/
inductive Stmt.Admits : Stmt → Prop
  | upsertHash (hash : SwarmKey) (atMs : Int) : Admits (.upsertHash hash atMs)
  | insertJob (hash : SwarmKey) (nowMs : Int) : Admits (.insertJob hash nowMs)
  | revive (hash : SwarmKey) (nowMs : Int) : Admits (.updateJobs (.revive hash nowMs))
  | deleteHints (d : HintDelete) : Admits (.deleteHints d)

/-- The statements of a discovery. -/
inductive Stmt.Discovers : Stmt → Prop
  | admits {stmt : Stmt} (h : stmt.Admits) : Discovers stmt
  | upsertHint (hint : PeerHint) : Discovers (.upsertHint hint)

theorem uses_discovers {α : Type} {p : Script α} (h : p.Uses Stmt.Admits) :
    p.Uses Stmt.Discovers :=
  h.mono (fun _ hs => .admits hs)

theorem enqueue_admits (hash : SwarmKey) (nowMs : Int) (slots : Nat) :
    (enqueue hash nowMs slots).Uses Stmt.Admits := by
  unfold enqueue
  split
  · exact Prog.uses_pure _
  · refine (Prog.uses_execute (.insertJob hash nowMs)).bind (fun inserted => ?_)
    split
    · exact (Prog.uses_execute (.revive hash nowMs)).bind (fun _ => Prog.uses_pure _)
    · exact Prog.uses_pure _

theorem Admission.enqueue_admits (a : Admission) (hash : SwarmKey) (nowMs : Int) :
    (a.enqueue hash nowMs).Uses Stmt.Admits :=
  (Prog.uses_queryOrFail _).bind (fun _ =>
    (BtSniffer.enqueue_admits hash nowMs _).bind (fun _ => Prog.uses_pure _))

theorem Admission.enqueueIf_admits (a : Admission) (wanted : Bool) (hash : SwarmKey)
    (nowMs : Int) : (a.enqueueIf wanted hash nowMs).Uses Stmt.Admits := by
  unfold Admission.enqueueIf
  split
  · exact (a.enqueue_admits hash nowMs).bind (fun _ => Prog.uses_pure _)
  · exact Prog.uses_pure _

theorem Admission.observe_admits (a : Admission) (hash : SwarmKey) (nowMs : Int) :
    (a.observe hash nowMs).Uses Stmt.Admits := by
  have hrevive : ∀ dormant, (a.reviveIf dormant hash nowMs).Uses Stmt.Admits := by
    intro dormant
    unfold Admission.reviveIf
    split
    · exact (BtSniffer.enqueue_admits hash nowMs _).bind (fun _ => Prog.uses_pure _)
    · exact Prog.uses_pure _
  unfold Admission.observe
  split
  · exact (a.enqueue_admits hash nowMs).bind (fun _ => Prog.uses_pure _)
  · exact (Prog.uses_query _).bind (fun dormant => (hrevive dormant).bind (fun _ =>
      (Prog.uses_query _).bind (fun _ => Prog.uses_pure _)))

theorem recentLoop_admits (nowMs : Int) : ∀ (page : List InfohashRow) (a : Admission)
    (next : Option RecentCursor), (recentLoop nowMs page a next).Uses Stmt.Admits
  | [], _, _ => Prog.uses_pure _
  | i :: rest, a, _ => by
    rw [recentLoop]
    refine (Prog.uses_query _).bind (fun known =>
      (a.enqueueIf_admits (!known) i.hash nowMs).bind (fun a' => ?_))
    split
    · exact Prog.uses_pure _
    · exact recentLoop_admits nowMs rest a' _

theorem backfillRecentPage_admits (config : AdmissionConfig) (nowMs : Int)
    (cursor : Option RecentCursor) :
    (backfillRecentPage config nowMs cursor).Uses Stmt.Admits := by
  unfold backfillRecentPage
  refine (Prog.uses_query _).bind (fun a => ?_)
  split
  · exact Prog.uses_pure _
  · exact (Prog.uses_query _).bind (fun page => recentLoop_admits nowMs page a none)

theorem historyLoop_admits (config : AdmissionConfig) (nowMs : Int) :
    ∀ (page : List (InfohashRow × Bool)) (a : Admission) (next : Option SwarmKey),
    (historyLoop config nowMs page a next).Uses Stmt.Admits
  | [], _, _ => Prog.uses_pure _
  | (i, eligible) :: rest, a, next => by
    rw [historyLoop]
    split
    · exact Prog.uses_pure _
    · exact (a.enqueueIf_admits _ i.hash nowMs).bind
        (fun a' => historyLoop_admits config nowMs rest a' _)

theorem backfillPage_admits (config : AdmissionConfig) (nowMs : Int) (cursor : Option SwarmKey) :
    (backfillPage config nowMs cursor).Uses Stmt.Admits := by
  have hsweep : ∀ a, (historySweep config nowMs cursor a).Uses Stmt.Admits := by
    intro a
    unfold historySweep
    split
    · exact (Prog.uses_query _).bind (fun page => historyLoop_admits config nowMs page a none)
    · exact Prog.uses_pure _
  exact (Prog.uses_query _).bind (fun a => (hsweep a).bind (fun _ =>
    (Prog.uses_execute (Stmt.Admits.deleteHints _)).bind (fun _ => Prog.uses_pure _)))

theorem discoverPeer_discovers (limit : Nat) (hash : SwarmKey) (peer : SocketAddr)
    (observedAtMs : Int) : (discoverPeer limit hash peer observedAtMs).Uses Stmt.Discovers := by
  unfold discoverPeer
  split
  · exact Prog.uses_fail _
  · refine (Prog.uses_query _).bind (fun slots => (Prog.uses_query _).bind (fun active => ?_))
    split
    · exact Prog.uses_pure _
    · exact (Prog.uses_execute (.admits (.upsertHash _ _))).bind (fun _ =>
        (uses_discovers (enqueue_admits hash observedAtMs slots)).bind (fun _ =>
          (Prog.uses_execute (.upsertHint _)).bind (fun _ =>
            (Prog.uses_execute (.admits (.deleteHints _))).bind (fun _ => Prog.uses_pure _))))

theorem saveHashesLoop_admits (observedAt admissionAt : Int) : ∀ (hashes : List SwarmKey)
    (a : Admission) (deferred : Nat),
    (saveHashesLoop observedAt admissionAt hashes a deferred).Uses Stmt.Admits
  | [], _, _ => Prog.uses_pure _
  | hash :: rest, a, _ =>
    (Prog.uses_execute (.upsertHash hash observedAt)).bind (fun _ =>
      (a.observe_admits hash admissionAt).bind (fun r =>
        saveHashesLoop_admits observedAt admissionAt rest r.1 _))

theorem saveHashesAt_admits (config : AdmissionConfig) (hashes : List SwarmKey)
    (observedAt admissionAt : Int) :
    (saveHashesAt config hashes observedAt admissionAt).Uses Stmt.Admits := by
  unfold saveHashesAt
  split
  · exact Prog.uses_fail _
  · split
    · exact Prog.uses_fail _
    · exact (Prog.uses_query _).bind (fun a => saveHashesLoop_admits observedAt _ hashes a 0)

/-- The statements that neither claim nor retry a job. -/
def Stmt.Steady : Stmt → Prop
  | .updateJobs (.claim ..) => False
  | .updateJobs (.retry ..) => False
  | _ => True

/-- The statements that neither claim nor retry a job nor record a hint. -/
def Stmt.Quiet : Stmt → Prop
  | .updateJobs (.claim ..) => False
  | .updateJobs (.retry ..) => False
  | .upsertHint _ => False
  | _ => True

theorem Stmt.Quiet.steady {stmt : Stmt} (h : stmt.Quiet) : stmt.Steady := by
  cases stmt with
  | updateJobs u => cases u <;> exact h
  | _ => trivial

theorem Stmt.Admits.quiet {stmt : Stmt} (h : stmt.Admits) : stmt.Quiet := by
  cases h <;> trivial

theorem Stmt.Admits.steady {stmt : Stmt} (h : stmt.Admits) : stmt.Steady := h.quiet.steady

theorem Stmt.Discovers.steady {stmt : Stmt} (h : stmt.Discovers) : stmt.Steady := by
  cases h with
  | admits h => exact h.steady
  | upsertHint hint => trivial

section Saves

variable (M : Metainfo)

theorem writeCatalog_quiet (hash : TorrentIdentity) (info : Bytes) (rowExists : Bool) :
    (writeCatalog M hash info rowExists).Uses Stmt.Quiet := by
  unfold writeCatalog
  cases rowExists with
  | true =>
    exact (Prog.uses_execute (P := Stmt.Quiet) (by trivial)).bind (fun _ =>
      (Prog.uses_execute (P := Stmt.Quiet) (by trivial)).bind (fun _ => Prog.uses_pure _))
  | false =>
    exact (Prog.uses_execute (P := Stmt.Quiet) (by trivial)).bind (fun _ =>
      (Prog.uses_execute (P := Stmt.Quiet) (by trivial)).bind (fun _ => Prog.uses_pure _))

theorem ensureCatalog_quiet (hash : TorrentIdentity) (info : Bytes) :
    (ensureCatalog M hash info).Uses Stmt.Quiet := by
  unfold ensureCatalog
  refine (Prog.uses_query _).bind (fun row => ?_)
  cases row with
  | none => exact (writeCatalog_quiet M hash info false).bind (fun _ => Prog.uses_pure _)
  | some c =>
    simp only
    split
    · exact Prog.uses_pure _
    · exact (writeCatalog_quiet M hash info true).bind (fun _ => Prog.uses_pure _)

theorem mergeIdentical_quiet (keep remove : Int) :
    (mergeIdentical keep remove).Uses Stmt.Quiet := by
  unfold mergeIdentical
  iterate 6 refine (Prog.uses_execute (P := Stmt.Quiet) (by trivial)).bind (fun _ => ?_)
  exact Prog.uses_pure _

theorem findExisting_quiet (info : Bytes) : ∀ (L : List TorrentIdentity) (found : Option Int),
    (findExisting info L found).Uses Stmt.Quiet
  | [], _ => Prog.uses_pure _
  | identity :: rest, found => by
    rw [findExisting]
    refine (Prog.uses_query _).bind (fun row => ?_)
    cases row with
    | none => exact findExisting_quiet info rest found
    | some entry =>
      obtain ⟨id, same⟩ := entry
      simp only
      split
      · exact Prog.uses_fail _
      · cases found with
        | none => exact findExisting_quiet info rest (some id)
        | some keep =>
          simp only
          split
          · exact findExisting_quiet info rest (some keep)
          · exact (mergeIdentical_quiet keep id).bind
              (fun _ => findExisting_quiet info rest (some keep))

theorem recordIdentities_quiet (key : SwarmKey) (source : TorrentIdentity) (atMs id : Int) :
    ∀ L : List TorrentIdentity, (recordIdentities key source atMs id L).Uses Stmt.Quiet
  | [] => Prog.uses_pure _
  | identity :: rest => by
    have hsettle : (settleAlias key identity.swarmKey atMs).Uses Stmt.Quiet := by
      unfold settleAlias
      split
      · exact Prog.uses_pure _
      · iterate 2 refine (Prog.uses_execute (P := Stmt.Quiet) (by trivial)).bind (fun _ => ?_)
        exact Prog.uses_pure _
    rw [recordIdentities]
    iterate 3 refine (Prog.uses_execute (P := Stmt.Quiet) (by trivial)).bind (fun _ => ?_)
    exact hsettle.bind (fun _ => recordIdentities_quiet key source atMs id rest)

theorem save_quiet (key : SwarmKey) (info : Bytes) (atMs : Int) :
    (save M key info atMs).Uses Stmt.Quiet := by
  unfold save
  split
  · exact Prog.uses_fail _
  · rename_i source hsource
    refine (findExisting_quiet info _ none).bind (fun existing => Prog.Uses.bind ?_ (fun id =>
      Prog.Uses.bind ?_ (fun _ => (recordIdentities_quiet key source atMs id _).bind (fun _ =>
        (Prog.uses_queryOrFail _).bind (fun current =>
          (ensureCatalog_quiet M current info).bind (fun _ => Prog.uses_pure _))))))
    · cases existing with
      | some id => exact Prog.uses_pure _
      | none =>
        exact (Prog.uses_execute (P := Stmt.Quiet) (by trivial)).bind (fun _ => Prog.uses_query _)
    · refine (Prog.uses_queryOrFail _).bind (fun current => ?_)
      split
      · exact Prog.uses_pure _
      · iterate 2 refine (Prog.uses_execute (P := Stmt.Quiet) (by trivial)).bind (fun _ => ?_)
        exact Prog.uses_pure _

theorem backfillOne_quiet (cursor : Option Int) : (backfillOne M cursor).Uses Stmt.Quiet := by
  unfold backfillOne
  refine (Prog.uses_query _).bind (fun row => ?_)
  cases row with
  | none => exact (Prog.uses_query _).bind (fun _ => Prog.uses_pure _)
  | some m =>
    simp only
    split
    · exact (save_quiet M _ _ _).bind (fun _ => Prog.uses_pure _)
    · exact (ensureCatalog_quiet M m.hash []).bind (fun _ =>
        (Prog.uses_execute (P := Stmt.Quiet) (by trivial)).bind (fun _ => Prog.uses_pure _))

end Saves

theorem recoverJobs_quiet (nowMs : Int) : (recoverJobs nowMs).Uses Stmt.Quiet :=
  (Prog.uses_execute (P := Stmt.Quiet) (by trivial)).bind (fun _ =>
    (Prog.uses_execute (P := Stmt.Quiet) (by trivial)).bind (fun _ => Prog.uses_pure _))

theorem completeJob_quiet (M : Metainfo) (job : Job) (metadata : VerifiedMetadata) (nowMs : Int) :
    (completeJob M job metadata nowMs).Uses Stmt.Quiet := by
  unfold completeJob
  split
  · exact Prog.uses_fail _
  · refine (Prog.uses_query _).bind (fun current => ?_)
    split
    · exact Prog.uses_pure _
    · exact (save_quiet M _ _ _).bind (fun _ =>
        (Prog.uses_execute (P := Stmt.Quiet) (by trivial)).bind (fun _ =>
          (Prog.uses_execute (P := Stmt.Quiet) (by trivial)).bind (fun _ => Prog.uses_pure _)))

/-- Every transaction but a claim, a retry and a discovery is quiet. -/
theorem StoreOp.body_quiet (M : Metainfo) (op : StoreOp) :
    (∃ nowMs order policy, op = .claim nowMs order policy) ∨
      (∃ job nowMs reason delayMs, op = .retry job nowMs reason delayMs) ∨
      (∃ limit hash peer observedAtMs, op = .discoverPeer limit hash peer observedAtMs) ∨
      (op.body M).Uses Stmt.Quiet := by
  have hquiet : ∀ {α : Type} {p : Script α} {f : α → Reply}, p.Uses Stmt.Quiet →
      (p >>= fun a => pure (f a) : Script Reply).Uses Stmt.Quiet := by
    intro α p f hp
    exact hp.bind (fun _ => Prog.uses_pure _)
  have hadmits : ∀ {α : Type} {p : Script α}, p.Uses Stmt.Admits →
      (p >>= fun _ => pure Reply.done : Script Reply).Uses Stmt.Quiet := by
    intro α p hp
    exact hquiet (hp.mono (fun _ h => h.quiet))
  cases op with
  | claim nowMs order policy => exact .inl ⟨nowMs, order, policy, rfl⟩
  | retry job nowMs reason delayMs => exact .inr (.inl ⟨job, nowMs, reason, delayMs, rfl⟩)
  | discoverPeer limit hash peer observedAtMs =>
    exact .inr (.inr (.inl ⟨limit, hash, peer, observedAtMs, rfl⟩))
  | complete job metadata nowMs =>
    exact .inr (.inr (.inr (hquiet (completeJob_quiet M job metadata nowMs))))
  | recover nowMs => exact .inr (.inr (.inr (hquiet (recoverJobs_quiet nowMs))))
  | saveHashes config hashes observedAt admissionAt =>
    exact .inr (.inr (.inr (hadmits (saveHashesAt_admits config hashes observedAt admissionAt))))
  | backfillPage config nowMs cursor =>
    exact .inr (.inr (.inr (hadmits (backfillPage_admits config nowMs cursor))))
  | backfillRecentPage config nowMs cursor =>
    exact .inr (.inr (.inr (hadmits (backfillRecentPage_admits config nowMs cursor))))
  | backfillOne cursor => exact .inr (.inr (.inr (hquiet (backfillOne_quiet M cursor))))
  | save key info atMs => exact .inr (.inr (.inr (hquiet (save_quiet M key info atMs))))

/-- Every transaction but a claim and a retry is steady. -/
theorem StoreOp.body_steady (M : Metainfo) (op : StoreOp) :
    (∃ nowMs order policy, op = .claim nowMs order policy) ∨
      (∃ job nowMs reason delayMs, op = .retry job nowMs reason delayMs) ∨
      (op.body M).Uses Stmt.Steady := by
  obtain h | h | ⟨limit, hash, peer, observedAtMs, rfl⟩ | h := op.body_quiet M
  · exact .inl h
  · exact .inr (.inl h)
  · refine .inr (.inr (Prog.Uses.bind ?_ (fun _ => Prog.uses_pure _)))
    exact (discoverPeer_discovers limit hash peer observedAtMs).mono (fun _ h => h.steady)
  · exact .inr (.inr (h.mono (fun _ h => h.steady)))

/-! ## The identity invariant over whole runs -/

theorem exec_infohashes {db db' : Db} {stmt : Stmt} {n : Nat} (h : db.exec stmt = .ok (n, db'))
    {k : SwarmKey} (hk : (db.infohashes.get? k).isSome = true) :
    (db'.infohashes.get? k).isSome = true := by
  by_cases ht : stmt.target = .infohashes
  · cases stmt <;> cases ht
    obtain ⟨-, rfl⟩ := Db.upsertHashRow_ok h
    rw [Table.get?_upsert]
    split
    · rfl
    · exact hk
  · rw [(Db.exec_frame h).infohashes ht]
    exact hk

theorem exec_jobs_check {db db' : Db} {stmt : Stmt} {n : Nat} (h : db.exec stmt = .ok (n, db'))
    (hj : ∀ j ∈ db.fetchJobs.rows, j.check = true) : ∀ j ∈ db'.fetchJobs.rows, j.check = true := by
  by_cases ht : stmt.target = .fetchJobs
  · intro j hmem
    cases stmt <;> cases ht
    · obtain ⟨-, rfl, -⟩ | ⟨-, -, -, hnow, -, rfl⟩ := Db.insertJobRow_ok h
      · exact hj j hmem
      · rcases Table.mem_insertNew hmem with hmem | rfl
        · exact hj j hmem
        · simp [FetchJob.check, Db.newJob, hnow]
    · obtain ⟨-, hcheck, rfl⟩ := Db.updateJobRows_ok h
      obtain ⟨r, hr, rfl⟩ := List.mem_map.1 hmem
      split
      · rename_i hc
        exact hcheck r hr hc
      · exact hj r hr
  · rw [(Db.exec_frame h).fetchJobs ht]
    exact hj

/-- A statement on hashes, jobs or hints keeps the identity invariant. -/
theorem exec_storeInv {M : Metainfo} {db db' : Db} {stmt : Stmt} {n : Nat}
    (ht : stmt.target = .infohashes ∨ stmt.target = .fetchJobs ∨ stmt.target = .peerHints)
    (hi : StoreInv M db) (h : db.exec stmt = .ok (n, db')) : StoreInv M db' := by
  have hf := Db.exec_frame h
  have hmeta : db'.metadata = db.metadata := by
    refine hf.metadata (fun he => ?_)
    rcases ht with ht | ht | ht <;> rw [ht] at he <;> cases he
  have hids : db'.torrentIdentities = db.torrentIdentities := by
    refine hf.identities (fun he => ?_)
    rcases ht with ht | ht | ht <;> rw [ht] at he <;> cases he
  have hswarm : db'.swarmMetadata = db.swarmMetadata := by
    refine hf.swarm (fun he => ?_)
    rcases ht with ht | ht | ht <;> rw [ht] at he <;> cases he
  refine ⟨Db.exec_counted hi.counted h, ?_, ?_, ?_, ?_, ?_, ?_, exec_jobs_check h hi.jobs⟩
  · rw [hmeta]; exact hi.digest
  · rw [hmeta]; exact hi.canonical
  · rw [hmeta, hids]; exact hi.identities
  · rw [hmeta, hswarm]; exact hi.swarm
  · rw [hmeta, hswarm]
    intro s hs
    obtain ⟨h1, h2⟩ := hi.swarmRefs s hs
    exact ⟨exec_infohashes h h1, h2⟩
  · rw [hmeta]; exact hi.rows

theorem Stmt.Admits.target {stmt : Stmt} (h : stmt.Admits) :
    stmt.target = .infohashes ∨ stmt.target = .fetchJobs ∨ stmt.target = .peerHints := by
  cases h <;> simp [Stmt.target]

theorem Stmt.Discovers.target {stmt : Stmt} (h : stmt.Discovers) :
    stmt.target = .infohashes ∨ stmt.target = .fetchJobs ∨ stmt.target = .peerHints := by
  cases h with
  | admits h => exact h.target
  | upsertHint hint => exact .inr (.inr rfl)

theorem storeInv_of_discovers {M : Metainfo} {α : Type} {p : Script α}
    (hp : p.Uses Stmt.Discovers) {db db' : Db} {a : α} (hi : StoreInv M db)
    (h : p.run db = .ok (a, db')) : StoreInv M db' :=
  Prog.run_invariant (I := StoreInv M) (fun _ _ _ _ hc hi hs => exec_storeInv hc.target hi hs) hp hi h

theorem completeJob_storeInv {M : Metainfo} {db db' : Db} {job : Job} {metadata : VerifiedMetadata}
    {nowMs : Int} {r : UpdateResult} (hi : StoreInv M db)
    (h : (completeJob M job metadata nowMs).run db = .ok (r, db')) : StoreInv M db' := by
  obtain ⟨-, ⟨-, -, rfl⟩ | ⟨j, id, saved, n, mid, -, -, hsave, hexec, rfl⟩⟩ := completeJob_ok h
  · exact hi
  · have hmid := exec_storeInv (.inr (.inl rfl)) (save_keeps hi hsave).1 hexec
    have htarget : (Stmt.deleteHints (.clear job.hash)).target = .peerHints := rfl
    exact exec_storeInv (.inr (.inr htarget)) hmid rfl

/-- **Every transaction keeps the identity invariant.** -/
theorem StoreOp.commit_storeInv {M : Metainfo} (op : StoreOp) (db : Db) (hi : StoreInv M db) :
    StoreInv M (op.commit M db).2 := by
  refine Prog.transact_keeps hi ?_
  intro r db' hrun
  have hdone : ∀ {α : Type} {p : Script α} {f : α → Reply},
      (p >>= fun a => pure (f a) : Script Reply).run db = .ok (r, db') →
        ∃ a, p.run db = .ok (a, db') := by
    intro α p f hp
    obtain ⟨a, mid, hp, hpure⟩ := Prog.run_bind_ok hp
    cases hpure
    exact ⟨a, hp⟩
  cases op with
  | claim nowMs order policy =>
    obtain ⟨a, hrun⟩ := hdone hrun
    obtain ⟨-, -, rfl⟩ | ⟨row, class_, n, -, -, -, hexec, -⟩ := claimByOrder_ok hrun
    · exact hi
    · exact exec_storeInv (.inr (.inl rfl)) hi hexec
  | retry job nowMs reason delayMs =>
    obtain ⟨a, hrun⟩ := hdone hrun
    obtain ⟨-, -, rfl⟩ | ⟨j, n, -, -, hexec⟩ := retryJob_ok hrun
    · exact hi
    · exact exec_storeInv (.inr (.inl rfl)) hi hexec
  | complete job metadata nowMs =>
    obtain ⟨a, hrun⟩ := hdone hrun
    exact completeJob_storeInv hi hrun
  | recover nowMs =>
    obtain ⟨a, hrun⟩ := hdone (f := fun _ => .done) hrun
    obtain ⟨n, mid, h1, hrun⟩ := Prog.run_bind_ok hrun
    obtain ⟨m, last, h2, hrun⟩ := Prog.run_bind_ok hrun
    rw [Prog.run_execute] at h1 h2
    cases hrun
    exact exec_storeInv (.inr (.inl rfl)) (exec_storeInv (.inr (.inl rfl)) hi h1) h2
  | saveHashes config hashes observedAt admissionAt =>
    obtain ⟨a, hrun⟩ := hdone (f := fun _ => .done) hrun
    exact storeInv_of_discovers
      (uses_discovers (saveHashesAt_admits config hashes observedAt admissionAt)) hi hrun
  | discoverPeer limit hash peer observedAtMs =>
    obtain ⟨a, hrun⟩ := hdone (f := fun _ => .done) hrun
    exact storeInv_of_discovers (discoverPeer_discovers limit hash peer observedAtMs) hi hrun
  | backfillPage config nowMs cursor =>
    obtain ⟨a, hrun⟩ := hdone (f := fun _ => .done) hrun
    exact storeInv_of_discovers
      (uses_discovers (backfillPage_admits config nowMs cursor)) hi hrun
  | backfillRecentPage config nowMs cursor =>
    obtain ⟨a, hrun⟩ := hdone (f := fun _ => .done) hrun
    exact storeInv_of_discovers
      (uses_discovers (backfillRecentPage_admits config nowMs cursor)) hi hrun
  | backfillOne cursor =>
    obtain ⟨a, hrun⟩ := hdone (f := fun _ => .done) hrun
    exact (backfillOne_keeps hi hrun).1
  | save key info atMs =>
    obtain ⟨a, hrun⟩ := hdone (f := fun _ => .done) hrun
    exact (save_keeps hi hrun).1

theorem StoreOp.replay_storeInv (M : Metainfo) (ops : List StoreOp) :
    StoreInv M (replay M ops Db.empty) :=
  replay_keeps (fun op db h => op.commit_storeInv db h) ops (StoreInv.empty M)

end BtSniffer
