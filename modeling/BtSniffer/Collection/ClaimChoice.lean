import BtSniffer.Collection.JobRun

/-!
# The choice of a claim

Which job a claim takes, under which class, with which addresses.

* `Db.Capped` — a hash has at most `MAX_PEER_HINTS` hints, after every transaction.  The addresses a
  claim reads are then all its fresh hints, so its filter agrees with the `legal_peer` of the class
  predicates (`claimPeers_isEmpty`).
* `inClass_iff`, `caseClass_eq` — the class predicates divide the jobs, and the `CASE` agrees with
  them.
* `claim_cases` — what a claim does; `Taken` says which job it takes and what it leaves alone.
-/

set_option autoImplicit false

namespace BtSniffer

open Relational

variable {M : Metainfo} {db db' : Db} {policy : AddressPolicy} {nowMs : Int}

/-! ## The hint cap -/

/-- `h.hash = hash`. -/
def PeerHint.ofHash (hash : SwarmKey) (h : PeerHint) : Bool := h.hash == hash

/-- No hash has more hints than a claim reads. -/
def Db.Capped (db : Db) : Prop :=
  ∀ hash, db.peerHints.count (PeerHint.ofHash hash) ≤ MAX_PEER_HINTS

theorem capped_delete (h : db.Capped) (p : PeerHint → Bool) :
    ({ db with peerHints := db.peerHints.delete p } : Db).Capped :=
  fun hash => le_trans (Table.count_delete_le _ _ _) (h hash)

theorem capped_congr (h : db.Capped) (he : db'.peerHints = db.peerHints) : db'.Capped := by
  intro hash
  rw [he]
  exact h hash

/-- A statement that records no hint keeps the cap. -/
theorem exec_capped {stmt : Stmt} {n : Nat} (hq : stmt.Quiet) (h : db.Capped)
    (hexec : db.exec stmt = .ok (n, db')) : db'.Capped := by
  by_cases ht : stmt.target = .peerHints
  · cases stmt with
    | upsertHint hint => exact hq.elim
    | deleteHints d =>
      cases hexec
      exact capped_delete h _
    | _ => cases ht
  · exact capped_congr h ((Db.exec_frame hexec).peerHints ht)

/-- What a trim leaves of its hash was kept by it. -/
theorem trim_kept {hash : SwarmKey} {h : PeerHint}
    (hh : h ∈ (db.peerHints.delete ((HintDelete.trim hash).cond db)).rows)
    (hash' : PeerHint.ofHash hash h = true) : h ∈ db.keptHints hash := by
  obtain ⟨hmem, hcond⟩ := Table.mem_delete.1 hh
  unfold PeerHint.ofHash at hash'
  simp only [HintDelete.cond, hash', Bool.true_and, Bool.not_eq_false'] at hcond
  obtain ⟨k, hk, hsame⟩ := List.any_eq_true.1 hcond
  simp only [Bool.and_eq_true, beq_iff_eq] at hsame
  obtain ⟨hkmem, hkhash⟩ := Table.mem_of_mem_select hk
  have hkey : k.key = h.key := by
    rw [beq_iff_eq] at hash' hkhash
    simp [PeerHint.key, hash', hkhash, hsame.1, hsame.2]
  rwa [← Table.eq_of_key hkmem hmem hkey]

/-- A trim brings its hash under the cap. -/
theorem trim_count (hash : SwarmKey) :
    (db.peerHints.delete ((HintDelete.trim hash).cond db)).count (PeerHint.ofHash hash) ≤
      MAX_PEER_HINTS :=
  le_trans (Table.count_le_length (fun _ hh hash' => trim_kept hh hash'))
    (Table.length_select_le _ _ _ _)

/-- `discover_peer` trims the hash whose hints it adds to. -/
theorem discoverPeer_capped {limit : Nat} {hash : SwarmKey} {peer : SocketAddr}
    {observedAtMs : Int} {r : Bool} (h : db.Capped)
    (hrun : (discoverPeer limit hash peer observedAtMs).run db = .ok (r, db')) : db'.Capped := by
  unfold discoverPeer at hrun
  split at hrun
  · cases hrun
  · rw [Script.run, Prog.run_bind, Prog.run_query] at hrun
    simp only at hrun
    rw [Prog.run_bind, Prog.run_query] at hrun
    simp only at hrun
    split at hrun
    · cases hrun
      exact h
    · obtain ⟨n₁, first, hupsert, hrun⟩ := Prog.run_bind_ok hrun
      obtain ⟨left, second, henq, hrun⟩ := Prog.run_bind_ok hrun
      obtain ⟨n₂, third, hhint, hrun⟩ := Prog.run_bind_ok hrun
      obtain ⟨n₃, last, htrim, hpure⟩ := Prog.run_bind_ok hrun
      rw [Prog.run_execute] at hupsert hhint htrim
      cases hpure
      have hquiet : (Stmt.upsertHash hash observedAtMs).Quiet := trivial
      have hfirst : first.Capped := exec_capped hquiet h hupsert
      have hsecond : second.Capped := Prog.run_invariant (I := Db.Capped)
        (fun _ _ _ _ ha hi hs => exec_capped (Stmt.Admits.quiet ha) hi hs)
        (enqueue_admits hash observedAtMs _) hfirst henq
      obtain ⟨-, -, -, hthird⟩ := Db.upsertHintRow_ok hhint
      cases htrim
      intro k
      by_cases hk : hash = k
      · subst hk
        exact trim_count hash
      · -- only hints of `hash` were added
        refine le_trans (Table.count_delete_le _ _ _) ?_
        rw [hthird]
        refine le_of_eq_of_le (Table.count_upsert_eq ?_ (fun _ => rfl)) (hsecond k)
        simp [PeerHint.ofHash, hk]

theorem StoreOp.commit_capped (op : StoreOp) (db : Db) (h : db.Capped) :
    (op.commit M db).2.Capped := by
  refine Prog.transact_keeps h ?_
  intro r db' hrun
  obtain ⟨nowMs, order, policy, rfl⟩ | ⟨job, nowMs, reason, delayMs, rfl⟩ |
    ⟨limit, hash, peer, observedAtMs, rfl⟩ | hquiet := op.body_quiet M
  · obtain ⟨c, mid, hclaim, hpure⟩ := Prog.run_bind_ok hrun
    cases hpure
    obtain ⟨-, -, rfl⟩ | ⟨row, class_, n, -, -, -, -, rfl⟩ := claimByOrder_ok hclaim
    · exact h
    · exact capped_congr h rfl
  · obtain ⟨c, mid, hretry, hpure⟩ := Prog.run_bind_ok hrun
    cases hpure
    obtain ⟨-, -, rfl⟩ | ⟨j, n, -, -, hexec⟩ := retryJob_ok hretry
    · exact h
    · obtain ⟨-, -, rfl⟩ := Db.updateJobRows_ok hexec
      exact capped_congr h rfl
  · obtain ⟨b, mid, hdiscover, hpure⟩ := Prog.run_bind_ok hrun
    cases hpure
    exact discoverPeer_capped h hdiscover
  · exact Prog.run_invariant (I := Db.Capped) (fun _ _ _ _ hc hi hs => exec_capped hc hi hs) hquiet h
      hrun

/-! ## What a claim relies on -/

/-- The part of the store's invariant a claim relies on. -/
structure ClaimInv (db : Db) : Prop where
  linked : db.Linked
  capped : db.Capped
  checked : ∀ j ∈ db.fetchJobs.rows, j.check = true

theorem replay_claimInv (M : Metainfo) (ops : List StoreOp) :
    ClaimInv (StoreOp.replay M ops Db.empty) where
  linked := StoreOp.replay_keeps (fun op db h => op.commit_linked db h) ops
    (JobsInv.empty M).linked
  capped := StoreOp.replay_keeps (fun op db h => op.commit_capped db h) ops
    (fun _ => Nat.zero_le _)
  checked := (StoreOp.replay_storeInv M ops).jobs

theorem ClaimInv.joined (h : ClaimInv db) {j : FetchJob} (hj : j ∈ db.fetchJobs.rows) :
    ∃ i, db.infohashes.get? j.hash = some i :=
  Option.isSome_iff_exists.1 (h.linked.jobs j hj)

/-! ## Classes -/

/-- The class of a job. -/
def Db.classOf (db : Db) (policy : AddressPolicy) (nowMs : Int) (j : FetchJob) (i : InfohashRow) :
    ClaimClass :=
  if 0 < j.generation then .retry
  else if db.hinted policy nowMs j.hash then .hint
  else if i.recent nowMs then .recent
  else .history

/-- The class predicates divide the jobs. -/
theorem inClass_iff {j : FetchJob} {i : InfohashRow} {c : ClaimClass} :
    db.inClass policy nowMs j i c = true ↔ c = db.classOf policy nowMs j i := by
  unfold Db.classOf
  by_cases hg : 0 < j.generation
  · have hne : ¬ j.generation = 0 := by omega
    rw [if_pos hg]
    cases c <;> simp [Db.inClass, hg, hne]
  · have hzero : j.generation = 0 := by omega
    rw [if_neg hg]
    cases hh : db.hinted policy nowMs j.hash <;> cases hr : i.recent nowMs <;>
      cases c <;> simp [Db.inClass, hzero, hh, hr]

/-- The `CASE` is the code of the class. -/
theorem caseClass_eq (db : Db) (policy : AddressPolicy) (nowMs : Int) (j : FetchJob)
    (i : InfohashRow) :
    db.caseClass policy nowMs j i = (db.classOf policy nowMs j i).code := by
  unfold Db.caseClass Db.classOf
  split
  · rfl
  · split
    · rfl
    · split <;> rfl

theorem fromSql_code (c : ClaimClass) : ClaimClass.fromSql c.code = .ok c := by
  cases c <;> rfl

/-! ## Addresses -/

/-- With the cap, the eight rows a claim reads are all the fresh hints of its hash: the in-memory
filter and the `legal_peer` of the class predicates see the same hints. -/
theorem claimPeers_isEmpty (h : db.Capped) (policy : AddressPolicy) (nowMs : Int)
    (hash : SwarmKey) :
    (db.claimPeers policy nowMs hash).isEmpty = !db.hinted policy nowMs hash := by
  have hcount : db.peerHints.count (fun h => h.hash == hash && h.fresh nowMs) ≤ MAX_PEER_HINTS := by
    refine le_trans (List.countP_mono_left (fun x _ hx => ?_)) (h hash)
    exact (Bool.and_eq_true_iff.1 hx).1
  cases hh : db.hinted policy nowMs hash with
  | true =>
    obtain ⟨x, hx, hp⟩ := Table.any_eq_true.1 hh
    simp only [Bool.and_eq_true] at hp
    have hsel : x ∈ db.peerHints.select (fun h => h.hash == hash && h.fresh nowMs)
        (Table.orderBy PeerHint.rank) MAX_PEER_HINTS :=
      Table.mem_select_of_count_le hcount hx (by simp [hp.1.1, hp.1.2])
    have hpeer : SocketAddr.new x.ip x.port ∈ db.claimPeers policy nowMs hash :=
      List.mem_filter.2 ⟨List.mem_map.2 ⟨x, hsel, rfl⟩, hp.2⟩
    cases hpeers : db.claimPeers policy nowMs hash with
    | nil => rw [hpeers] at hpeer; cases hpeer
    | cons a l => rfl
  | false =>
    have hnone := Table.any_eq_false.1 hh
    show (db.claimPeers policy nowMs hash).isEmpty = true
    rw [List.isEmpty_iff, Db.claimPeers, List.filter_eq_nil_iff]
    intro a ha haccept
    obtain ⟨x, hx, rfl⟩ := List.mem_map.1 ha
    obtain ⟨hmem, hp⟩ := Table.mem_of_mem_select hx
    have := hnone x hmem
    simp only [Bool.and_eq_true] at hp
    rw [hp.1, hp.2, Bool.true_and, Bool.true_and, legalPeer, haccept] at this
    cases this

/-! ## The claim transaction -/

/-- The four classes. -/
def ClaimClass.all : List ClaimClass := [.hint, .recent, .retry, .history]

theorem ClaimClass.mem_all (c : ClaimClass) : c ∈ all := by
  cases c <;> simp [all]

/-- A class has a due job. -/
def Db.DueIn (db : Db) (policy : AddressPolicy) (nowMs : Int) (c : ClaimClass) : Prop :=
  ∃ j ∈ db.fetchJobs.rows, db.candidate policy nowMs c j = true

theorem schedule_eq_none {c : ClaimClass} :
    db.schedule policy nowMs c = none ↔ ¬ db.DueIn policy nowMs c := by
  constructor
  · rintro h ⟨j, hj, hc⟩
    rw [schedule_none h j hj] at hc
    cases hc
  · intro h
    cases hs : db.schedule policy nowMs c with
    | none => rfl
    | some row =>
      obtain ⟨j, i, hj, hi, hdue, hin, -, -⟩ := schedule_some hs
      refine absurd ⟨j, (Table.get?_eq_some.1 hj).1, ?_⟩ h
      simp [Db.candidate, hdue, hi, hin]

/-- A due job is a candidate of its class, and of no other. -/
theorem ClaimInv.candidate_iff (h : ClaimInv db) {j : FetchJob} (hj : j ∈ db.fetchJobs.rows)
    {c : ClaimClass} : db.candidate policy nowMs c j = true ↔ j.due nowMs = true ∧
      ∃ i, db.infohashes.get? j.hash = some i ∧ c = db.classOf policy nowMs j i := by
  obtain ⟨i, hi⟩ := h.joined hj
  simp only [Db.candidate, hi, Option.any_some, Bool.and_eq_true, inClass_iff, Option.some.injEq,
    exists_eq_left']

/-- What a claim of class `c` did: it took the job `j`. -/
structure Taken (policy : AddressPolicy) (nowMs : Int) (c : ClaimClass) (j : FetchJob)
    (claim : Claim) (db db' : Db) : Prop where
  member : j ∈ db.fetchJobs.rows
  candidate : db.candidate policy nowMs c j = true
  least : ∀ x ∈ db.fetchJobs.rows, db.candidate policy nowMs c x = true →
    Db.dueRank j ≤ Db.dueRank x
  class_ : claim.job.class_ = c
  hash : claim.job.hash = j.hash
  generation : claim.job.generation = j.generation + 1
  failures : claim.job.failedAttemptsBefore = j.attempts
  peers : claim.job.peers = db.claimPeers policy nowMs j.hash
  dueAt : claim.dueAt = j.dueAt
  row : db'.fetchJobs.get? j.hash =
    some { j with state := .running, generation := j.generation + 1, updatedAt := nowMs }
  others : ∀ k, k ≠ j.hash → db'.fetchJobs.get? k = db.fetchJobs.get? k
  tables : db' = { db with fetchJobs := db'.fetchJobs }

/-- The candidate of a class is claimed; no `CHECK` is in the way. -/
theorem claimRow_run (h : ClaimInv db) {c : ClaimClass} {row : ScheduledRow}
    (hrow : db.schedule policy nowMs c = some row) :
    ∃ j claim db', (claimRow nowMs policy row).run db = .ok (some claim, db') ∧
      Taken policy nowMs c j claim db db' := by
  obtain ⟨j, i, hj, hi, hdue, hin, hleast, rfl⟩ := schedule_some hrow
  obtain ⟨hmem, -⟩ := Table.get?_eq_some.1 hj
  have hclass : ClaimClass.fromSql (db.caseClass policy nowMs j i) = .ok c := by
    rw [caseClass_eq, ← inClass_iff.1 hin]
    exact fromSql_code c
  have hexec : db.exec (.updateJobs (.claim j.hash nowMs)) =
      .ok (db.fetchJobs.count ((JobUpdate.claim j.hash nowMs).cond db),
        db.updated (.claim j.hash nowMs)) := by
    refine Db.updateJobRows_of db _ (fun x hx hc => ?_)
    have hxj : x = j := Table.eq_of_key hx hmem (by simpa [JobUpdate.cond] using hc)
    have hcheck := h.checked j hmem
    have hlate : j.dueAt ≤ nowMs := by simpa [FetchJob.due] using (Bool.and_eq_true_iff.1 hdue).2
    simp only [hxj, FetchJob.check, JobUpdate.set, Bool.and_eq_true, decide_eq_true_eq] at hcheck ⊢
    omega
  refine ⟨j, claimOf db policy nowMs c ⟨j.hash, j.generation, j.dueAt,
    db.caseClass policy nowMs j i, i.firstSeen, j.attempts⟩, db.updated (.claim j.hash nowMs), ?_,
    ?_⟩
  · unfold claimRow
    rw [Script.run, Prog.run_bind, Prog.run_queryOrFail, hclass]
    exact Prog.run_execute_of_ok hexec
  · refine ⟨hmem, ?_, ?_, rfl, rfl, rfl, rfl, rfl, rfl, ?_, ?_, rfl⟩
    · simp [Db.candidate, hdue, hi, hin]
    · intro x hx hc
      rcases hleast x hx hc with rfl | hle
      · exact le_refl _
      · exact hle
    · rw [Db.get?_updated, hj]
      simp [JobUpdate.cond, JobUpdate.set]
    · intro k hk
      rw [Db.get?_updated]
      cases hx : db.fetchJobs.get? k with
      | none => rfl
      | some x =>
        have hxk := (Table.get?_eq_some.1 hx).2
        have hne : ¬ x.hash = j.hash := by
          rw [hxk]
          exact hk
        simp [JobUpdate.cond, hne]

/-- **The choice of a claim**: nothing when no class of the order has a due job, else the first due
job of the first class that has one. -/
theorem claim_cases (h : ClaimInv db) (order : List ClaimClass) (policy : AddressPolicy)
    (nowMs : Int) :
    ((StoreOp.claim nowMs order policy).commit M db = (.ok (.claimed none), db) ∧
      ∀ c ∈ order, ¬ db.DueIn policy nowMs c) ∨
    ∃ pre c post j claim db', order = pre ++ c :: post ∧
      (∀ c' ∈ pre, ¬ db.DueIn policy nowMs c') ∧
      (StoreOp.claim nowMs order policy).commit M db = (.ok (.claimed (some claim)), db') ∧
      Taken policy nowMs c j claim db db' := by
  cases hrow : order.findSome? (db.schedule policy nowMs) with
  | none =>
    left
    have hrun : (claimByOrder nowMs order policy).run db = .ok (none, db) := by
      unfold claimByOrder
      rw [Script.run, Prog.run_bind_of_ok (selectCandidate_run nowMs policy order db), hrow]
      rfl
    refine ⟨StoreOp.commit_of_run ((Prog.run_bind_of_ok hrun).trans rfl), fun c hc => ?_⟩
    exact schedule_eq_none.1 (List.findSome?_eq_none_iff.1 hrow c hc)
  | some row =>
    right
    obtain ⟨pre, c, post, hsplit, hc, hpre⟩ := List.findSome?_eq_some_iff.1 hrow
    obtain ⟨j, claim, db', hrun, htaken⟩ := claimRow_run h hc
    have hclaim : (claimByOrder nowMs order policy).run db = .ok (some claim, db') := by
      unfold claimByOrder
      rw [Script.run, Prog.run_bind_of_ok (selectCandidate_run nowMs policy order db), hrow]
      exact hrun
    exact ⟨pre, c, post, j, claim, db', hsplit, fun c' hc' => schedule_eq_none.1 (hpre c' hc'),
      StoreOp.commit_of_run ((Prog.run_bind_of_ok hclaim).trans rfl), htaken⟩

/-- A successful claim took a job. -/
theorem claim_taken (h : ClaimInv db) {order : List ClaimClass} {claim : Claim}
    (hcommit : (StoreOp.claim nowMs order policy).commit M db =
      (.ok (.claimed (some claim)), db')) :
    ∃ pre c post j, order = pre ++ c :: post ∧ (∀ c' ∈ pre, ¬ db.DueIn policy nowMs c') ∧
      Taken policy nowMs c j claim db db' := by
  obtain ⟨hnone, -⟩ | ⟨pre, c, post, j, claim', last, hsplit, hpre, hsome, htaken⟩ :=
    claim_cases (M := M) h order policy nowMs
  · rw [hcommit] at hnone
    cases hnone
  · rw [hcommit] at hsome
    cases hsome
    exact ⟨pre, c, post, j, hsplit, hpre, htaken⟩

/-- A first class with a due job is the class of the claim. -/
theorem claim_first (h : ClaimInv db) {c : ClaimClass} {rest : List ClaimClass}
    (hdue : db.DueIn policy nowMs c) {claim : Claim}
    (hcommit : (StoreOp.claim nowMs (c :: rest) policy).commit M db =
      (.ok (.claimed (some claim)), db')) : claim.job.class_ = c := by
  obtain ⟨pre, c', post, j, hsplit, hpre, htaken⟩ := claim_taken h hcommit
  cases pre with
  | nil =>
    cases hsplit
    exact htaken.class_
  | cons a pre =>
    cases hsplit
    exact absurd hdue (hpre c List.mem_cons_self)

/-- A due job is due in a class, so an order of all classes misses none. -/
theorem due_class (h : ClaimInv db) {order : List ClaimClass} (horder : order.Perm ClaimClass.all)
    {j : FetchJob} (hj : j ∈ db.fetchJobs.rows) (hdue : j.due nowMs = true) :
    ∃ c ∈ order, db.DueIn policy nowMs c := by
  obtain ⟨i, hi⟩ := h.joined hj
  have hc : db.candidate policy nowMs (db.classOf policy nowMs j i) j = true :=
    (h.candidate_iff hj).2 ⟨hdue, i, hi, rfl⟩
  exact ⟨_, horder.symm.subset (ClaimClass.mem_all _), j, hj, hc⟩

/-- A claim carries addresses exactly when the class predicates see a hint. -/
theorem Taken.peers_iff (h : ClaimInv db) {c : ClaimClass} {j : FetchJob} {claim : Claim}
    (ht : Taken policy nowMs c j claim db db') :
    claim.job.peers ≠ [] ↔ db.hinted policy nowMs claim.job.hash = true := by
  rw [ne_eq, ht.peers, ht.hash, ← List.isEmpty_iff, claimPeers_isEmpty h.capped]
  simp

/-- A claim has the class `Hint` exactly when its job is new and it carries addresses. -/
theorem Taken.hint_iff (h : ClaimInv db) {c : ClaimClass} {j : FetchJob} {claim : Claim}
    (ht : Taken policy nowMs c j claim db db') :
    claim.job.class_ = .hint ↔ claim.job.attemptKind = .first ∧ claim.job.peers ≠ [] := by
  obtain ⟨-, i, -, hc⟩ := (h.candidate_iff ht.member).1 ht.candidate
  have hkind : claim.job.attemptKind = .first ↔ j.generation = 0 := by
    rw [Job.attemptKind, ht.generation]
    by_cases hg : j.generation = 0 <;> simp [hg]
  rw [ht.class_, hc, ht.peers_iff h, ht.hash, hkind]
  unfold Db.classOf
  by_cases hg : 0 < j.generation
  · have hne : ¬ j.generation = 0 := by omega
    simp [hg, hne]
  · have hzero : j.generation = 0 := by omega
    cases hh : db.hinted policy nowMs j.hash <;> cases hr : i.recent nowMs <;> simp [hzero]

end BtSniffer
