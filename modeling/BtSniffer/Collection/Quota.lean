import BtSniffer.Collection.JobLease

/-!
# Admission quotas

Every slot a transaction of admission takes from its quotas is one more active job, so the remaining
quota and the number of active jobs add up to a constant along each loop.

* `Enqueued`, `enqueue_ok` — the four outcomes of `enqueue`.
* `Spends`, `Grows` — what the loops keep: active jobs and the total quota add up, and active jobs
  are only added.
* `historyLoop_quota`, `recentLoop_quota` — the history quota and the first-attempt buffer.
* `discoverPeer_grows`, `saveHashesAt_grows`, `backfillPage_quota`, `backfillRecentPage_quota` — the
  four transactions.
-/

set_option autoImplicit false

namespace BtSniffer

open Relational

variable {db db' : Db}

/-! ## The outcomes of `enqueue` -/

/-- The outcomes of `enqueue` with a number of slots: the remaining slots and the database. -/
inductive Enqueued (hash : SwarmKey) (nowMs : Int) (slots : Nat) (db : Db) : Nat → Db → Prop
  | full (none : slots = 0) : Enqueued hash nowMs slots db slots db
  | kept (room : 0 < slots) (known : db.hasSwarm hash = true ∨ db.hasJob hash = true) :
      Enqueued hash nowMs slots db slots db
  | created (room : 0 < slots) (unknown : db.fetchJobs.get? hash = none) :
      Enqueued hash nowMs slots db (slots - 1)
        { db with fetchJobs := db.fetchJobs.insertNew (Db.newJob hash nowMs) }
  | revived (j : FetchJob) (room : 0 < slots) (job : db.fetchJobs.get? hash = some j)
      (dormant : j.state = .dormant)
      (one : db.fetchJobs.count ((JobUpdate.revive hash nowMs).cond db) = 1) :
      Enqueued hash nowMs slots db (slots - 1) (db.updated (.revive hash nowMs))

theorem enqueue_ok {hash : SwarmKey} {nowMs : Int} {slots left : Nat}
    (h : (enqueue hash nowMs slots).run db = .ok (left, db')) :
    Enqueued hash nowMs slots db left db' := by
  unfold enqueue at h
  split at h
  · rename_i hzero
    cases h
    subst hzero
    exact .full rfl
  · rename_i hpos
    have hroom : 0 < slots := by omega
    obtain ⟨inserted, mid, hinsert, hrest⟩ := Prog.run_bind_ok h
    rw [Prog.run_execute] at hinsert
    obtain ⟨rfl, rfl, hknown⟩ | ⟨rfl, -, hnone, -, -, rfl⟩ := Db.insertJobRow_ok hinsert
    · simp only [if_true] at hrest
      obtain ⟨revived, last, hrevive, hpure⟩ := Prog.run_bind_ok hrest
      rw [Prog.run_execute] at hrevive
      obtain ⟨hcount, -, hlast⟩ := Db.updateJobRows_ok hrevive
      cases hpure
      by_cases hz : mid.fetchJobs.count ((JobUpdate.revive hash nowMs).cond mid) = 0
      · have hsame : db' = mid := by
          rw [hlast, Table.update_eq_self]
          intro r hr hc
          rw [Table.count_eq_zero.1 hz r hr] at hc
          cases hc
        rw [hsame, hcount, hz]
        exact .kept hroom hknown
      · obtain ⟨j, hj, hc⟩ := Table.count_pos.1 (Nat.pos_of_ne_zero hz)
        have hle : mid.fetchJobs.count ((JobUpdate.revive hash nowMs).cond mid) ≤ 1 := by
          refine Table.count_key_le_one (k := hash) (fun r hr => ?_)
          simp only [JobUpdate.cond, Bool.and_eq_true, beq_iff_eq] at hr
          exact hr.1.1.1
        have hone : revived = 1 := by omega
        simp only [JobUpdate.cond, Bool.and_eq_true, beq_iff_eq] at hc
        obtain ⟨⟨⟨hash', hdormant⟩, -⟩, -⟩ := hc
        rw [hlast, hone]
        exact .revived j hroom (hash' ▸ Table.get?_key hj) hdormant (by omega)
    · simp only [Nat.one_ne_zero, if_false] at hrest
      cases hrest
      exact .created hroom hnone

theorem Enqueued.left_le {hash : SwarmKey} {nowMs : Int} {slots left : Nat}
    (h : Enqueued hash nowMs slots db left db') : left ≤ slots := by
  cases h <;> omega

/-- `enqueue` touches the job table only. -/
theorem Enqueued.frame {hash : SwarmKey} {nowMs : Int} {slots left : Nat}
    (h : Enqueued hash nowMs slots db left db') : Frame .fetchJobs db db' := by
  cases h with
  | full | kept => exact Frame.refl _ _
  | created | revived =>
    exact ⟨fun _ => rfl, fun k => absurd rfl k, fun _ => rfl, fun _ => rfl, fun _ => rfl,
      fun _ => rfl⟩

/-- Every slot `enqueue` takes is one more active job. -/
theorem Enqueued.active {hash : SwarmKey} {nowMs : Int} {slots left : Nat}
    (h : Enqueued hash nowMs slots db left db') :
    db'.activeJobs + left = db.activeJobs + slots ∧ db.activeJobs ≤ db'.activeJobs := by
  cases h with
  | full | kept => exact ⟨rfl, le_refl _⟩
  | created room unknown =>
    have hone : (db.fetchJobs.insertNew (Db.newJob hash nowMs)).count FetchJob.active =
        db.activeJobs + 1 := Table.count_insertNew unknown _
    show (db.fetchJobs.insertNew _).count _ + _ = _ ∧ _ ≤ (db.fetchJobs.insertNew _).count _
    omega
  | revived j room job dormant one =>
    have hone : (db.updated (.revive hash nowMs)).activeJobs = db.activeJobs + 1 := by
      rw [← one]
      refine Table.count_update_enter (JobUpdate.set_hash _) (fun r hr => ?_)
      simp only [JobUpdate.cond, Bool.and_eq_true, beq_iff_eq] at hr
      obtain ⟨⟨⟨-, hd⟩, -⟩, -⟩ := hr
      exact ⟨by simp [FetchJob.active, hd], by simp [FetchJob.active, JobUpdate.set]⟩
    omega

/-- A job `enqueue` creates is at most one more first attempt waiting. -/
theorem Enqueued.waiting {hash : SwarmKey} {nowMs : Int} {slots left : Nat}
    (h : Enqueued hash nowMs slots db left db') (hnone : db.fetchJobs.get? hash = none)
    (policy : AddressPolicy) (atMs : Int) :
    db'.firstAttemptWaiting policy atMs + left ≤ db.firstAttemptWaiting policy atMs + slots := by
  cases h with
  | full | kept => exact le_refl _
  | created room unknown =>
    have hone : (db.fetchJobs.insertNew (Db.newJob hash nowMs)).count (db.waitsFirst policy atMs) ≤
        db.firstAttemptWaiting policy atMs + 1 := by
      rw [Table.count_insertNew unknown]
      show _ + (if _ then 1 else 0) ≤ db.fetchJobs.count _ + 1
      split <;> omega
    show (db.fetchJobs.insertNew _).count (db.waitsFirst policy atMs) + _ ≤ _
    omega
  | revived j room job => rw [hnone] at job; cases job

/-- A database with at most `n` more active jobs, and no fewer. -/
structure Grows (n : Nat) (db db' : Db) : Prop where
  upper : db'.activeJobs ≤ db.activeJobs + n
  lower : db.activeJobs ≤ db'.activeJobs

theorem Grows.refl (n : Nat) (db : Db) : Grows n db db := ⟨Nat.le_add_right _ _, le_refl _⟩

theorem Grows.of_jobs {n : Nat} {a b c : Db} (h : Grows n a b) (hj : c.fetchJobs = b.fetchJobs) :
    Grows n a c := by
  have he : c.activeJobs = b.activeJobs := by
    unfold Db.activeJobs
    rw [hj]
  exact ⟨he ▸ h.upper, he ▸ h.lower⟩

/-- What a call charges to the total quota becomes active jobs. -/
structure Spends (a : Admission) (db : Db) (a' : Admission) (db' : Db) : Prop where
  total : db'.activeJobs + a'.total = db.activeJobs + a.total
  grows : db.activeJobs ≤ db'.activeJobs
  enabled : a'.enabled = a.enabled

theorem Spends.refl (a : Admission) (db : Db) : Spends a db a db := ⟨rfl, le_refl _, rfl⟩

theorem Spends.then {a a' : Admission} {mid : Db} (h : Spends a db a' mid)
    (k : Grows a'.total mid db') : Grows a.total db db' := by
  have h1 := h.total
  have h2 := k.upper
  exact ⟨by omega, le_trans h.grows k.lower⟩

theorem Spends.done {a a' : Admission} (h : Spends a db a' db') : Grows a.total db db' :=
  h.then (Grows.refl _ _)

namespace Admission

variable {a a' : Admission} {hash : SwarmKey} {nowMs : Int}

theorem room_le (a : Admission) (recent : Bool) : a.room recent ≤ a.total := by
  unfold room
  split <;> omega

theorem enqueue_ok {used : Nat} (h : (a.enqueue hash nowMs).run db = .ok ((a', used), db')) :
    ∃ i left, db.infohashes.get? hash = some i ∧
      Enqueued hash nowMs (a.room (recentWindow nowMs i.firstSeen)) db left db' ∧
      used = a.room (recentWindow nowMs i.firstSeen) - left ∧
      a' = a.spend (recentWindow nowMs i.firstSeen) used := by
  unfold enqueue at h
  obtain ⟨firstSeen, mid, hseen, hrest⟩ := Prog.run_bind_ok h
  obtain ⟨left, last, hleft, hpure⟩ := Prog.run_bind_ok hrest
  rw [Prog.run_queryOrFail] at hseen
  unfold Db.firstSeen at hseen
  cases hi : db.infohashes.get? hash with
  | none =>
    rw [hi] at hseen
    cases hseen
  | some i =>
    rw [hi] at hseen
    cases hseen
    cases hpure
    exact ⟨i, left, rfl, BtSniffer.enqueue_ok hleft, rfl, rfl⟩

theorem enqueue_spends {used : Nat} (h : (a.enqueue hash nowMs).run db = .ok ((a', used), db')) :
    Spends a db a' db' := by
  obtain ⟨i, left, -, henq, hused, rfl⟩ := enqueue_ok h
  have hle := henq.left_le
  have hroom := a.room_le (recentWindow nowMs i.firstSeen)
  obtain ⟨hactive, hgrows⟩ := henq.active
  refine ⟨?_, hgrows, rfl⟩
  show _ + (a.total - used) = _
  omega

theorem enqueueIf_cases {wanted : Bool}
    (h : (a.enqueueIf wanted hash nowMs).run db = .ok (a', db')) :
    (wanted = false ∧ a' = a ∧ db' = db) ∨
      (wanted = true ∧ ∃ used, (a.enqueue hash nowMs).run db = .ok ((a', used), db')) := by
  unfold enqueueIf at h
  cases wanted with
  | false =>
    cases h
    exact .inl ⟨rfl, rfl, rfl⟩
  | true =>
    obtain ⟨⟨b, used⟩, mid, henq, hpure⟩ := Prog.run_bind_ok h
    cases hpure
    exact .inr ⟨rfl, used, henq⟩

theorem enqueueIf_spends {wanted : Bool}
    (h : (a.enqueueIf wanted hash nowMs).run db = .ok (a', db')) : Spends a db a' db' := by
  obtain ⟨-, rfl, rfl⟩ | ⟨-, used, henq⟩ := enqueueIf_cases h
  · exact .refl _ _
  · exact enqueue_spends henq

theorem enqueueIf_frame {wanted : Bool}
    (h : (a.enqueueIf wanted hash nowMs).run db = .ok (a', db')) : Frame .fetchJobs db db' := by
  obtain ⟨-, -, rfl⟩ | ⟨-, used, henq⟩ := enqueueIf_cases h
  · exact Frame.refl _ _
  · obtain ⟨i, left, -, henq, -⟩ := enqueue_ok henq
    exact henq.frame

/-- The three results of `observe`: without a buffer the hash is enqueued; with one a dormant job is
enqueued, any other hash is left alone. -/
theorem observe_cases {waiting : Bool}
    (h : (a.observe hash nowMs).run db = .ok ((a', waiting), db')) :
    (a.enabled = false ∧ ∃ used, (a.enqueue hash nowMs).run db = .ok ((a', used), db')) ∨
      (a.enabled = true ∧ a' = a ∧ db' = db) ∨
      (a.enabled = true ∧ ∃ j left, db.fetchJobs.get? hash = some j ∧ j.state = .dormant ∧
        Enqueued hash nowMs a.total db left db' ∧
        a' = { a with total := left, history := a.history - (a.total - left) }) := by
  unfold observe at h
  cases he : a.enabled with
  | false =>
    simp only [he, Bool.not_false, if_true] at h
    obtain ⟨⟨b, used⟩, mid, henq, hpure⟩ := Prog.run_bind_ok h
    cases hpure
    exact .inl ⟨rfl, used, henq⟩
  | true =>
    simp only [he, Bool.not_true, Bool.false_eq_true, if_false] at h
    obtain ⟨dormant, mid, hq, hrest⟩ := Prog.run_bind_ok h
    obtain ⟨b, last, hrevive, hrest⟩ := Prog.run_bind_ok hrest
    obtain ⟨w, final, hw, hpure⟩ := Prog.run_bind_ok hrest
    rw [Prog.run_query] at hq hw
    cases hq
    cases hw
    cases hpure
    unfold reviveIf at hrevive
    split at hrevive
    · rename_i hd
      obtain ⟨left, mid, henq, hpure⟩ := Prog.run_bind_ok hrevive
      cases hpure
      obtain ⟨j, hj, hdorm⟩ := (Option.any_eq_true _ _).1 hd
      exact .inr (.inr ⟨rfl, j, left, hj, by simpa using hdorm, BtSniffer.enqueue_ok henq,
        by rw [he]⟩)
    · cases hrevive
      exact .inr (.inl ⟨rfl, rfl, rfl⟩)

theorem observe_spends {waiting : Bool}
    (h : (a.observe hash nowMs).run db = .ok ((a', waiting), db')) : Spends a db a' db' := by
  obtain ⟨-, used, henq⟩ | ⟨-, rfl, rfl⟩ | ⟨-, j, left, -, -, henq, rfl⟩ := observe_cases h
  · exact enqueue_spends henq
  · exact .refl _ _
  · obtain ⟨hactive, hgrows⟩ := henq.active
    exact ⟨hactive, hgrows, rfl⟩

end Admission

/-! ## The loops -/

theorem upsertHash_jobs {hash : SwarmKey} {atMs : Int} {n : Nat}
    (h : db.exec (.upsertHash hash atMs) = .ok (n, db')) : db'.fetchJobs = db.fetchJobs :=
  (Db.exec_frame h).fetchJobs (fun he => by cases he)

theorem saveHashesLoop_grows {observedAt admissionAt : Int} : ∀ {hashes : List SwarmKey}
    {a : Admission} {deferred : Nat} {db : Db} {r : Nat},
    (saveHashesLoop observedAt admissionAt hashes a deferred).run db = .ok (r, db') →
      Grows a.total db db'
  | [], a, _, db, _, h => by
    cases h
    exact .refl _ _
  | hash :: rest, a, _, db, _, h => by
    rw [saveHashesLoop] at h
    obtain ⟨n, first, hupsert, hrest⟩ := Prog.run_bind_ok h
    obtain ⟨⟨b, waiting⟩, mid, hobserve, hrest⟩ := Prog.run_bind_ok hrest
    rw [Prog.run_execute] at hupsert
    have hjobs : first.activeJobs = db.activeJobs := by
      unfold Db.activeJobs
      rw [upsertHash_jobs hupsert]
    obtain ⟨hupper, hlower⟩ :=
      (Admission.observe_spends hobserve).then (saveHashesLoop_grows hrest)
    exact ⟨hjobs ▸ hupper, hjobs ▸ hlower⟩

/-- The rows of a page, as the loops still find them. -/
def Db.Holds (db : Db) (page : List InfohashRow) : Prop :=
  ∀ i ∈ page, db.infohashes.get? i.hash = some i

theorem Db.Holds.frame {page : List InfohashRow} (h : db.Holds page)
    (hf : Frame .fetchJobs db db') : db'.Holds page := by
  intro i hi
  rw [hf.infohashes (by decide)]
  exact h i hi

/-- The recent sweep keeps to the total quota, and with a buffer to the recent one. -/
theorem recentLoop_quota (policy : AddressPolicy) {nowMs : Int} : ∀ {page : List InfohashRow}
    {a : Admission} {next r : Option RecentCursor} {db : Db}, db.Holds page →
    (∀ i ∈ page, recentWindow nowMs i.firstSeen = true) →
    (recentLoop nowMs page a next).run db = .ok (r, db') →
      Grows a.total db db' ∧ (a.enabled = true →
        db'.firstAttemptWaiting policy nowMs ≤ db.firstAttemptWaiting policy nowMs + a.recent)
  | [], a, _, _, db, _, _, h => by
    cases h
    exact ⟨.refl _ _, fun _ => Nat.le_add_right _ _⟩
  | i :: rest, a, _, r, db, hold, hwin, h => by
    rw [recentLoop] at h
    obtain ⟨known, start, hq, hread⟩ := Prog.run_bind_ok h
    rw [Prog.run_query] at hq
    cases hq
    obtain ⟨b, mid, henq, hrest⟩ := Prog.run_bind_ok hread
    have hspends := Admission.enqueueIf_spends henq
    have hframe := Admission.enqueueIf_frame henq
    -- what this row adds to the waiting first attempts it takes from the recent quota
    have hwait : a.enabled = true → mid.firstAttemptWaiting policy nowMs + b.recent ≤
        db.firstAttemptWaiting policy nowMs + a.recent := by
      intro he
      obtain ⟨-, rfl, rfl⟩ | ⟨hnone, used, henq⟩ := Admission.enqueueIf_cases henq
      · exact le_refl _
      · obtain ⟨x, left, hx, hdone, hused, rfl⟩ := Admission.enqueue_ok henq
        rw [hold i List.mem_cons_self] at hx
        cases hx
        have hnone : db.fetchJobs.get? i.hash = none := by simpa [Db.hasJob] using hnone
        have hw := hdone.waiting hnone policy nowMs
        have hle := hdone.left_le
        have hr := hwin i List.mem_cons_self
        have hroom : a.room (recentWindow nowMs i.firstSeen) ≤ a.recent := by
          simp [Admission.room, he, hr]
        have hb : (a.spend (recentWindow nowMs i.firstSeen) used).recent = a.recent - used := by
          simp [Admission.spend, hr]
        omega
    split at hrest
    · cases hrest
      exact ⟨hspends.done, fun he => by have := hwait he; omega⟩
    · obtain ⟨hgrows, hwaits⟩ := recentLoop_quota policy
        (fun x hx => hold.frame hframe x (List.mem_cons_of_mem _ hx))
        (fun x hx => hwin x (List.mem_cons_of_mem _ hx)) hrest
      refine ⟨hspends.then hgrows, fun he => ?_⟩
      have h1 := hwait he
      have h2 := hwaits (hspends.enabled.trans he)
      omega

/-- The history sweep keeps to the total quota, and with a buffer to the history one. -/
theorem historyLoop_quota {config : AdmissionConfig} {nowMs : Int} :
    ∀ {page : List (InfohashRow × Bool)} {a : Admission} {next r : Option SwarmKey} {db : Db},
    db.Holds (page.map Prod.fst) →
    (historyLoop config nowMs page a next).run db = .ok (r, db') →
      Grows a.total db db' ∧ (config.recentLimit ≠ 0 → a.enabled = true → Grows a.history db db')
  | [], a, _, _, db, _, h => by
    cases h
    exact ⟨.refl _ _, fun _ _ => .refl _ _⟩
  | (i, eligible) :: rest, a, next, r, db, hold, h => by
    rw [historyLoop] at h
    split at h
    · cases h
      exact ⟨.refl _ _, fun _ _ => .refl _ _⟩
    · obtain ⟨b, mid, henq, hrest⟩ := Prog.run_bind_ok h
      have hspends := Admission.enqueueIf_spends henq
      have hframe := Admission.enqueueIf_frame henq
      obtain ⟨hgrows, hhistory⟩ := historyLoop_quota
        (fun x hx => hold.frame hframe x (List.mem_cons_of_mem _ hx)) hrest
      refine ⟨hspends.then hgrows, fun hr he => ?_⟩
      have hrest := hhistory hr (hspends.enabled.trans he)
      -- a row outside the window is charged to the history quota
      have hcharge : mid.activeJobs + b.history ≤ db.activeJobs + a.history := by
        obtain ⟨-, rfl, rfl⟩ | ⟨hwanted, used, henq⟩ := Admission.enqueueIf_cases henq
        · exact le_refl _
        · obtain ⟨x, left, hx, hdone, hused, rfl⟩ := Admission.enqueue_ok henq
          rw [hold i List.mem_cons_self] at hx
          cases hx
          have hwin : recentWindow nowMs i.firstSeen = false := by
            simp only [Bool.and_eq_true, Bool.or_eq_true, beq_iff_eq, hr, false_or] at hwanted
            simpa using hwanted.2
          have hroom : a.room (recentWindow nowMs i.firstSeen) ≤ a.history := by
            simp [Admission.room, he, hwin]
          have hle := hdone.left_le
          have hactive := hdone.active.1
          show mid.activeJobs + (a.history - used) ≤ _
          omega
      have h1 := hrest.upper
      exact ⟨by omega, le_trans hspends.grows hrest.lower⟩

/-! ## The transactions -/

theorem discoverPeer_grows {limit : Nat} {hash : SwarmKey} {peer : SocketAddr} {observedAtMs : Int}
    {r : Bool} (h : (discoverPeer limit hash peer observedAtMs).run db = .ok (r, db')) :
    Grows (db.available limit) db db' := by
  unfold discoverPeer at h
  split at h
  · cases h
  · obtain ⟨slots, start, hslots, hread⟩ := Prog.run_bind_ok h
    rw [Prog.run_query] at hslots
    cases hslots
    obtain ⟨active, start, hactive, hread⟩ := Prog.run_bind_ok hread
    rw [Prog.run_query] at hactive
    cases hactive
    split at hread
    · cases hread
      exact .refl _ _
    · obtain ⟨n, first, hupsert, hread⟩ := Prog.run_bind_ok hread
      obtain ⟨left, mid, henq, hread⟩ := Prog.run_bind_ok hread
      obtain ⟨m, hinted, hhint, hread⟩ := Prog.run_bind_ok hread
      obtain ⟨k, trimmed, htrim, hread⟩ := Prog.run_bind_ok hread
      rw [Prog.run_execute] at hupsert hhint htrim
      cases hread
      obtain ⟨hsum, hgrow⟩ := (enqueue_ok henq).active
      have hjobs : first.activeJobs = db.activeJobs := by
        unfold Db.activeJobs
        rw [upsertHash_jobs hupsert]
      have hlast : db'.activeJobs = mid.activeJobs := by
        unfold Db.activeJobs
        rw [(Db.exec_frame htrim).fetchJobs (fun he => by cases he),
          (Db.exec_frame hhint).fetchJobs (fun he => by cases he)]
      exact ⟨by omega, by omega⟩

theorem saveHashesAt_grows {config : AdmissionConfig} {hashes : List SwarmKey}
    {observedAt admissionAt : Int} {r : Nat}
    (h : (saveHashesAt config hashes observedAt admissionAt).run db = .ok (r, db')) :
    Grows (db.available config.fetchLimit) db db' := by
  unfold saveHashesAt at h
  split at h
  · cases h
  · split at h
    · cases h
    · obtain ⟨a, start, hload, hloop⟩ := Prog.run_bind_ok h
      rw [Prog.run_query] at hload
      cases hload
      exact saveHashesLoop_grows hloop

/-- A page of the recent sweep: stored rows of the window. -/
theorem recentPage_spec (db : Db) (nowMs : Int) (cursor : Option RecentCursor) :
    db.Holds (db.recentPage nowMs (recentStart nowMs cursor)) ∧
      ∀ i ∈ db.recentPage nowMs (recentStart nowMs cursor),
        recentWindow nowMs i.firstSeen = true := by
  have hstart : saturatingSub nowMs RECENT_MS ≤ (recentStart nowMs cursor).1 := by
    unfold recentStart
    split
    · exact le_refl _
    · simp only
      split
      · assumption
      · exact le_refl _
  refine ⟨?_, ?_⟩
  · intro i hi
    exact Table.get?_key (Table.mem_of_mem_select hi).1
  · intro i hi
    have hp := (Table.mem_of_mem_select hi).2
    simp only [Bool.and_eq_true, decide_eq_true_eq] at hp
    obtain ⟨hlt, hnow⟩ := hp
    have hle : (recentStart nowMs cursor).1 ≤ i.firstSeen := by
      unfold recentRank InfohashRow.recentRank BtSniffer.recentRank at hlt
      rcases Prod.Lex.toLex_lt_toLex.1 hlt with hlt | ⟨he, -⟩
      · exact le_of_lt hlt
      · exact le_of_eq he
    simp only [recentWindow, decide_eq_true_eq]
    exact ⟨le_trans hstart hle, hnow⟩

theorem load_enabled {db : Db} {nowMs : Int} {config : AdmissionConfig}
    (h : config.recentLimit ≠ 0) : (Admission.load db nowMs config).enabled = true := by
  simpa [Admission.load] using h

theorem backfillRecentPage_quota {config : AdmissionConfig} {nowMs : Int}
    {cursor r : Option RecentCursor}
    (h : (backfillRecentPage config nowMs cursor).run db = .ok (r, db')) :
    Grows (db.available config.fetchLimit) db db' ∧ (config.recentLimit ≠ 0 →
      db'.firstAttemptWaiting config.policy nowMs ≤
        max config.recentLimit (db.firstAttemptWaiting config.policy nowMs)) := by
  unfold backfillRecentPage at h
  obtain ⟨a, start, hload, hread⟩ := Prog.run_bind_ok h
  rw [Prog.run_query] at hload
  cases hload
  split at hread
  · cases hread
    exact ⟨.refl _ _, fun _ => le_max_right _ _⟩
  · obtain ⟨page, start, hpage, hloop⟩ := Prog.run_bind_ok hread
    rw [Prog.run_query] at hpage
    cases hpage
    obtain ⟨hold, hwin⟩ := recentPage_spec db nowMs cursor
    obtain ⟨hgrows, hwait⟩ := recentLoop_quota config.policy hold hwin hloop
    refine ⟨hgrows, fun hr => ?_⟩
    have hle := hwait (load_enabled hr)
    have hrecent : (Admission.load db nowMs config).recent =
        config.recentLimit - db.firstAttemptWaiting config.policy nowMs := if_neg hr
    omega

theorem historyPage_holds (db : Db) (cursor : Option SwarmKey) (limit : Nat) :
    db.Holds ((db.historyPage cursor limit).map Prod.fst) := by
  intro i hi
  unfold Db.historyPage at hi
  rw [List.map_map] at hi
  obtain ⟨x, hx, rfl⟩ := List.mem_map.1 hi
  exact Table.get?_key (Table.mem_of_mem_select hx).1

theorem backfillPage_quota {config : AdmissionConfig} {nowMs : Int} {cursor r : Option SwarmKey}
    (h : (backfillPage config nowMs cursor).run db = .ok (r, db')) :
    Grows (db.available config.fetchLimit) db db' ∧ (config.recentLimit ≠ 0 →
      Grows (db.available config.fetchLimit - Admission.reserve config) db db') := by
  unfold backfillPage at h
  obtain ⟨a, start, hload, hread⟩ := Prog.run_bind_ok h
  rw [Prog.run_query] at hload
  cases hload
  obtain ⟨next, mid, hsweep, hread⟩ := Prog.run_bind_ok hread
  obtain ⟨n, last, hclean, hpure⟩ := Prog.run_bind_ok hread
  rw [Prog.run_execute] at hclean
  cases hpure
  have hjobs := (Db.exec_frame hclean).fetchJobs (fun he => by cases he)
  unfold historySweep at hsweep
  split at hsweep
  · obtain ⟨page, start, hpage, hloop⟩ := Prog.run_bind_ok hsweep
    rw [Prog.run_query] at hpage
    cases hpage
    obtain ⟨hgrows, hhistory⟩ := historyLoop_quota (historyPage_holds db cursor _) hloop
    exact ⟨hgrows.of_jobs hjobs, fun hr => (hhistory hr (load_enabled hr)).of_jobs hjobs⟩
  · cases hsweep
    exact ⟨(Grows.refl _ _).of_jobs hjobs, fun _ => (Grows.refl _ _).of_jobs hjobs⟩

end BtSniffer
