import BtSniffer.Collection.ClaimChoice

/-!
# The rotation of the classes

The scheduler claims with the order of its `ClaimPolicy` and moves the cursor of the rotation after
every successful claim, while other transactions go on.

* `Scheduler.served` — the successful claims of a run.
* `served_rotation` — the preferred classes of consecutive claims are consecutive slots of the
  rotation, whatever happens between the claims.
* `claim_classification` — classes, choice and shares.
-/

set_option autoImplicit false

namespace BtSniffer

open Relational

variable {M : Metainfo}

/-! ## Runs of the scheduler -/

/-- A step of a run. -/
inductive SchedulerStep where
  /-- `claim_workers` asks for a job. -/
  | claim (nowMs : Int) (policy : AddressPolicy)
  /-- Any other transaction, also a claim whose reply the scheduler does not wait for. -/
  | other (op : StoreOp)

/-- The store, and the rotation the scheduler keeps in memory. -/
structure Scheduler where
  db : Db
  claimPolicy : ClaimPolicy

/-- A successful claim, with the state it was made in. -/
structure Served where
  db : Db
  claimPolicy : ClaimPolicy
  nowMs : Int
  policy : AddressPolicy
  claim : Claim

/-- The class whose slot a claim was made in. -/
def Served.preferred (x : Served) : ClaimClass := ClaimPolicy.preferred x.claimPolicy.turn

namespace Scheduler

variable (M)

/-- One step; `on_claimed` follows a successful claim only. -/
def step (s : Scheduler) : SchedulerStep → Option Served × Scheduler
  | .claim nowMs policy =>
    match (StoreOp.claim nowMs s.claimPolicy.order policy).commit M s.db with
    | (.ok (.claimed (some claim)), db') =>
      (some ⟨s.db, s.claimPolicy, nowMs, policy, claim⟩, ⟨db', s.claimPolicy.onClaimed⟩)
    | (_, db') => (none, { s with db := db' })
  | .other op => (none, { s with db := (op.commit M s.db).2 })

/-- The successful claims of a run. -/
def served (s : Scheduler) : List SchedulerStep → List Served
  | [] => []
  | t :: rest => (s.step M t).1.toList ++ (s.step M t).2.served rest

end Scheduler

/-- The preferred classes of the next `n` slots. -/
def ClaimPolicy.rotation : ClaimPolicy → Nat → List ClaimClass
  | _, 0 => []
  | p, n + 1 => preferred p.turn :: p.onClaimed.rotation n

/-- The slots a class has in the rotation. -/
def ClaimClass.slots : ClaimClass → Nat
  | .hint => 3
  | .recent => 2
  | .retry => 2
  | .history => 1

/-- Every turn of the rotation gives each class its slots. -/
theorem rotation_count : ∀ (p : Fin 8) (c : ClaimClass),
    ((ClaimPolicy.mk p).rotation 8).count c = c.slots := by
  intro p c
  cases c <;> revert p <;> decide

theorem length_rotation (p : ClaimPolicy) (n : Nat) : (p.rotation n).length = n := by
  induction n generalizing p with
  | zero => rfl
  | succ n ih => rw [ClaimPolicy.rotation, List.length_cons, ih]

theorem rotation_append (p : ClaimPolicy) (m n : Nat) :
    ∃ q : ClaimPolicy, p.rotation (m + n) = p.rotation m ++ q.rotation n := by
  induction m generalizing p with
  | zero => exact ⟨p, by simp [ClaimPolicy.rotation]⟩
  | succ m ih =>
    obtain ⟨q, hq⟩ := ih p.onClaimed
    refine ⟨q, ?_⟩
    rw [Nat.succ_add, ClaimPolicy.rotation, hq]
    rfl

/-- The order of a slot is an order of all classes, its own class first. -/
theorem orderFor_perm (c : ClaimClass) : (orderFor c).Perm ClaimClass.all := by
  cases c <;> decide

/-! ## What a step does -/

/-- A step serves a claim and moves the cursor, or does neither. -/
theorem step_cases (s : Scheduler) (t : SchedulerStep) :
    (∃ op, s.step M t = (none, ⟨(StoreOp.commit M op s.db).2, s.claimPolicy⟩)) ∨
    ∃ nowMs policy claim db', (StoreOp.claim nowMs s.claimPolicy.order policy).commit M s.db =
        (.ok (.claimed (some claim)), db') ∧
      s.step M t =
        (some ⟨s.db, s.claimPolicy, nowMs, policy, claim⟩, ⟨db', s.claimPolicy.onClaimed⟩) := by
  cases t with
  | other op => exact .inl ⟨op, rfl⟩
  | claim nowMs policy =>
    unfold Scheduler.step
    simp only
    split
    · rename_i claim db' hcommit
      exact .inr ⟨nowMs, policy, claim, db', hcommit, rfl⟩
    · rename_i r db' _ hcommit
      refine .inl ⟨.claim nowMs s.claimPolicy.order policy, ?_⟩
      rw [hcommit]

/-- **Consecutive claims use consecutive slots.** -/
theorem served_rotation (s : Scheduler) (steps : List SchedulerStep) :
    (s.served M steps).map Served.preferred =
      s.claimPolicy.rotation (s.served M steps).length := by
  induction steps generalizing s with
  | nil => rfl
  | cons t rest ih =>
    obtain ⟨op, hstep⟩ | ⟨nowMs, policy, claim, db', -, hstep⟩ := step_cases (M := M) s t
    · rw [Scheduler.served, hstep]
      exact ih _
    · rw [Scheduler.served, hstep]
      simp only [Option.toList_some, List.cons_append, List.nil_append, List.map_cons,
        List.length_cons, ClaimPolicy.rotation, ih]
      rfl

/-- Every served claim is a transaction of the store, in a reachable database. -/
theorem served_commit {s : Scheduler} {ops : List StoreOp}
    (hs : s.db = StoreOp.replay M ops Db.empty) (steps : List SchedulerStep) {x : Served}
    (hx : x ∈ s.served M steps) :
    (∃ ops', x.db = StoreOp.replay M ops' Db.empty) ∧
      ∃ db', (StoreOp.claim x.nowMs x.claimPolicy.order x.policy).commit M x.db =
        (.ok (.claimed (some x.claim)), db') := by
  induction steps generalizing s ops with
  | nil => cases hx
  | cons t rest ih =>
    have hnext : ∀ op, (StoreOp.commit M op s.db).2 = StoreOp.replay M (ops ++ [op]) Db.empty := by
      intro op
      rw [StoreOp.replay_append, ← hs]
      rfl
    obtain ⟨op, hstep⟩ | ⟨nowMs, policy, claim, db', hcommit, hstep⟩ := step_cases (M := M) s t
    · rw [Scheduler.served, hstep] at hx
      exact ih (hnext op) hx
    · rw [Scheduler.served, hstep] at hx
      rcases List.mem_cons.1 hx with rfl | hx
      · exact ⟨⟨ops, hs⟩, db', hcommit⟩
      · have hdb : db' = StoreOp.replay M (ops ++ [.claim nowMs s.claimPolicy.order policy])
            Db.empty := (congrArg Prod.snd hcommit).symm.trans (hnext _)
        exact ih hdb hx

/-! ## Shares -/

/-- A claim in the slot of a class that has a due job is a claim of that class. -/
theorem served_preferred {x : Served} (h : ClaimInv x.db) {db' : Db}
    (hcommit : (StoreOp.claim x.nowMs x.claimPolicy.order x.policy).commit M x.db =
      (.ok (.claimed (some x.claim)), db'))
    (hdue : x.db.DueIn x.policy x.nowMs x.preferred) : x.claim.job.class_ = x.preferred :=
  claim_first h hdue hcommit

/-- **A class that always has a due job gets its slots** in eight consecutive claims. -/
theorem served_share (s : Scheduler) {ops : List StoreOp}
    (hs : s.db = StoreOp.replay M ops Db.empty) {steps : List SchedulerStep}
    {pre window post : List Served} (hserved : s.served M steps = pre ++ (window ++ post))
    (hlen : window.length = 8) {c : ClaimClass}
    (hdue : ∀ x ∈ window, x.db.DueIn x.policy x.nowMs c) :
    c.slots ≤ (window.map (fun x => x.claim.job.class_)).count c := by
  -- the window is one turn of the rotation
  obtain ⟨q, hq⟩ : ∃ q : ClaimPolicy, window.map Served.preferred = q.rotation 8 := by
    have hall := served_rotation (M := M) s steps
    rw [hserved] at hall
    simp only [List.map_append, List.length_append] at hall
    obtain ⟨q, hq⟩ := rotation_append s.claimPolicy pre.length (window.length + post.length)
    obtain ⟨r, hr⟩ := rotation_append q window.length post.length
    rw [hq, hr] at hall
    have htail := List.append_inj_right hall (by rw [List.length_map, length_rotation])
    have hwindow := List.append_inj_left htail (by rw [List.length_map, length_rotation])
    rw [hlen] at hwindow
    exact ⟨q, hwindow⟩
  have hcount : (window.map Served.preferred).count c = c.slots := by
    rw [hq]
    exact rotation_count q.turn c
  rw [← hcount, List.count_eq_countP, List.count_eq_countP, List.countP_map, List.countP_map]
  refine List.countP_mono_left (fun x hx hpref => ?_)
  have hc : x.preferred = c := by simpa using hpref
  have hmem : x ∈ s.served M steps := by
    rw [hserved]
    exact List.mem_append_right _ (List.mem_append_left _ hx)
  obtain ⟨⟨ops', hops⟩, db', hcommit⟩ := served_commit hs steps hmem
  have hinv : ClaimInv x.db := hops ▸ replay_claimInv M ops'
  have := served_preferred hinv hcommit (hc ▸ hdue x hx)
  simp [this, hc]

/-! ## Classes, choice and shares -/

/-- **Classification and choice of claims.**  In every database the transactions of the store can
reach, at every time, under every policy:

* a due job satisfies exactly one class predicate, and the `CASE` names that class;
* under an order of all four classes a claim finds nothing exactly when no job is due, and otherwise
  takes the job with the least `(due_at, hash)` of the first class that has a due job, and no other
  row changes;
* a claim has the class `Hint` exactly when it is the first claim of its hash and carries addresses,
  and it carries addresses exactly when the SQL predicate sees a legal fresh hint;
* of eight consecutive claims made with the orders of the rotation, with any transactions between
  them, a class that has a due job at each of them gets at least its slots. -/
theorem claim_classification (M : Metainfo) :
    (∀ ops policy nowMs, ∀ j ∈ (StoreOp.replay M ops Db.empty).fetchJobs.rows,
      j.due nowMs = true → ∃ i, (StoreOp.replay M ops Db.empty).infohashes.get? j.hash = some i ∧
        ∃ c, (∀ c', (StoreOp.replay M ops Db.empty).inClass policy nowMs j i c' = true ↔ c' = c) ∧
          ClaimClass.fromSql ((StoreOp.replay M ops Db.empty).caseClass policy nowMs j i) =
            .ok c) ∧
    (∀ ops policy nowMs order, order.Perm ClaimClass.all →
      (StoreOp.reply M ops (.claim nowMs order policy) = .ok (.claimed none) ↔
        ∀ j ∈ (StoreOp.replay M ops Db.empty).fetchJobs.rows, j.due nowMs = false) ∧
      ((∃ j ∈ (StoreOp.replay M ops Db.empty).fetchJobs.rows, j.due nowMs = true) →
        ∃ pre c post j claim, order = pre ++ c :: post ∧
          (∀ c' ∈ pre, ¬ (StoreOp.replay M ops Db.empty).DueIn policy nowMs c') ∧
          StoreOp.reply M ops (.claim nowMs order policy) = .ok (.claimed (some claim)) ∧
          Taken policy nowMs c j claim (StoreOp.replay M ops Db.empty)
            (StoreOp.replay M (ops ++ [.claim nowMs order policy]) Db.empty))) ∧
    (∀ ops policy nowMs order claim,
      StoreOp.reply M ops (.claim nowMs order policy) = .ok (.claimed (some claim)) →
        (claim.job.class_ = .hint ↔
          ¬ StoreOp.ClaimedIn M ops claim.job.hash ∧ claim.job.peers ≠ []) ∧
        (claim.job.peers ≠ [] ↔
          (StoreOp.replay M ops Db.empty).hinted policy nowMs claim.job.hash = true)) ∧
    (∀ ops start steps pre window post c,
      (Scheduler.mk (StoreOp.replay M ops Db.empty) start).served M steps =
        pre ++ (window ++ post) → window.length = 8 →
          (∀ x ∈ window, x.db.DueIn x.policy x.nowMs c) →
            c.slots ≤ (window.map (fun x => x.claim.job.class_)).count c) := by
  refine ⟨?_, ?_, ?_, ?_⟩
  · intro ops policy nowMs j hj _
    obtain ⟨i, hi⟩ := (replay_claimInv M ops).joined hj
    refine ⟨i, hi, _, fun c' => inClass_iff, ?_⟩
    rw [caseClass_eq]
    exact fromSql_code _
  · intro ops policy nowMs order horder
    have hinv := replay_claimInv M ops
    have hnone : (∀ c ∈ order, ¬ (StoreOp.replay M ops Db.empty).DueIn policy nowMs c) →
        ∀ j ∈ (StoreOp.replay M ops Db.empty).fetchJobs.rows, j.due nowMs = false := by
      intro hfree j hj
      by_contra hdue
      obtain ⟨c, hc, hin⟩ := due_class hinv horder hj (by simpa using hdue)
      exact hfree c hc hin
    obtain ⟨hcommit, hfree⟩ | ⟨pre, c, post, j, claim, db', hsplit, hpre, hcommit, htaken⟩ :=
      claim_cases (M := M) hinv order policy nowMs
    · refine ⟨⟨fun _ => hnone hfree, fun _ => congrArg Prod.fst hcommit⟩, ?_⟩
      rintro ⟨j, hj, hdue⟩
      rw [hnone hfree j hj] at hdue
      cases hdue
    · have hreply : StoreOp.reply M ops (.claim nowMs order policy) =
          .ok (.claimed (some claim)) := congrArg Prod.fst hcommit
      have hdb : db' = StoreOp.replay M (ops ++ [.claim nowMs order policy]) Db.empty := by
        rw [StoreOp.replay_append]
        exact (congrArg Prod.snd hcommit).symm
      have hdue := ((hinv.candidate_iff htaken.member).1 htaken.candidate).1
      refine ⟨⟨fun hr => ?_, fun hall => ?_⟩, fun _ =>
        ⟨pre, c, post, j, claim, hsplit, hpre, hreply, hdb ▸ htaken⟩⟩
      · rw [hreply] at hr
        cases hr
      · rw [hall j htaken.member] at hdue
        cases hdue
  · intro ops policy nowMs order claim hreply
    have hinv := replay_claimInv M ops
    have hcommit : (StoreOp.claim nowMs order policy).commit M (StoreOp.replay M ops Db.empty) =
        (.ok (.claimed (some claim)),
          ((StoreOp.claim nowMs order policy).commit M (StoreOp.replay M ops Db.empty)).2) :=
      Prod.ext hreply rfl
    obtain ⟨pre, c, post, j, -, -, htaken⟩ := claim_taken hinv hcommit
    refine ⟨?_, htaken.peers_iff hinv⟩
    rw [htaken.hint_iff hinv, StoreOp.attemptKind_first hreply]
  · intro ops start steps pre window post c hserved hlen hdue
    exact served_share _ rfl hserved hlen hdue

end BtSniffer
