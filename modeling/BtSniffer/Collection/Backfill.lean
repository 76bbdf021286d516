import BtSniffer.Collection.QuotaRun
import BtSniffer.Lib.Sweep
import Mathlib

/-!
# The backfill cursors

A page of a backfill may be cut by the quotas at any row; the cursor then stands at the last row the
loop has dealt with.

* `historyLoop_done`, `recentLoop_done` — a loop deals with an initial part of its page and returns
  the last row of it.
* `backfillPage_sweeps`, `backfillRecentPage_sweeps` — one call: it is blocked, or everything between
  the two cursors has been admitted, or nothing is left.
* `backfill_cursors` — single calls, and sweeps over a table that does not change: they end, and no
  row is left out.
-/

set_option autoImplicit false

namespace BtSniffer

open Relational

variable {db db' : Db}

/-- A hash has a job or metadata. -/
def Db.Known (db : Db) (hash : SwarmKey) : Prop := db.hasJob hash = true ∨ db.hasSwarm hash = true

theorem admits_swarm {α : Type} {p : Script α} (hp : p.Uses Stmt.Admits) {a : α}
    (h : p.run db = .ok (a, db')) : db'.swarmMetadata = db.swarmMetadata := by
  refine Prog.run_rel (R := fun db db' => Db.swarmMetadata db' = Db.swarmMetadata db)
    (fun _ => rfl) (fun _ _ _ h k => k.trans h) ?_ hp h
  intro stmt s n s' ha hexec
  refine (Db.exec_frame hexec).swarm (fun he => ?_)
  rcases ha.target with ht | ht | ht <;> rw [ht] at he <;> cases he

/-- What is known stays known. -/
theorem Db.Known.run {α : Type} {p : Script α} (hp : p.Uses Stmt.Admits) {a : α}
    (h : p.run db = .ok (a, db')) {hash : SwarmKey} (hk : db.Known hash) : db'.Known hash := by
  rcases hk with hjob | hswarm
  · obtain ⟨j, hj⟩ := Option.isSome_iff_exists.1 hjob
    obtain ⟨j', hj', -⟩ := (run_advances (hp.mono (fun _ h => h.steady)) h).1 hash j hj
    exact .inl (Option.isSome_iff_exists.2 ⟨j', hj'⟩)
  · right
    unfold Db.hasSwarm
    rw [admits_swarm hp h]
    exact hswarm

/-- With a free slot `enqueue` leaves the hash known. -/
theorem Enqueued.known {hash : SwarmKey} {nowMs : Int} {slots left : Nat}
    (h : Enqueued hash nowMs slots db left db') (hroom : 0 < slots) : db'.Known hash := by
  cases h with
  | full none => omega
  | kept room known => exact known.symm
  | created room unknown =>
    left
    show ((db.fetchJobs.insertNew (Db.newJob hash nowMs)).get? hash).isSome = true
    rw [Table.get?_insertNew]
    simp [Db.newJob]
  | revived j room job =>
    left
    unfold Db.hasJob
    rw [Db.get?_updated, job]
    rfl

/-! ## The loops -/

/-- A row is dealt with: it is known, or it is left to the recent sweep. -/
def Db.Covers (db : Db) (config : AdmissionConfig) (nowMs : Int) (i : InfohashRow) : Prop :=
  db.Known i.hash ∨ (config.recentLimit ≠ 0 ∧ recentWindow nowMs i.firstSeen = true)

theorem Admission.room_pos_of_history {a : Admission} (h : a.hasHistoryRoom = true)
    {recent : Bool} (hr : a.enabled = true → recent = false) : 0 < a.room recent := by
  simp only [Admission.hasHistoryRoom, Bool.and_eq_true, Bool.or_eq_true, decide_eq_true_eq,
    Bool.not_eq_true'] at h
  unfold Admission.room
  cases he : a.enabled with
  | false => exact h.1
  | true =>
    have hhistory := h.2.resolve_left (by simp [he])
    simp only [hr he, if_true, Bool.false_eq_true, if_false]
    omega

/-- **The history loop** deals with an initial part of its page. -/
theorem historyLoop_done {config : AdmissionConfig} {nowMs : Int} :
    ∀ {page : List (InfohashRow × Bool)} {a : Admission} {next r : Option SwarmKey} {db : Db},
    db.Holds (page.map Prod.fst) → (∀ x ∈ page, x.2 = false → db.Known x.1.hash) →
    (a.enabled = true ↔ config.recentLimit ≠ 0) →
    (historyLoop config nowMs page a next).run db = .ok (r, db') →
      ∃ done rest, page = done ++ rest ∧
        r = (done.getLast?.map (fun x => x.1.hash)).or next ∧
        (∀ x ∈ done, db'.Covers config nowMs x.1) ∧
        (a.hasHistoryRoom = true → page ≠ [] → done ≠ [])
  | [], a, next, _, db, _, _, _, h => by
    cases h
    exact ⟨[], [], rfl, rfl, fun x hx => (by cases hx), fun _ hne => absurd rfl hne⟩
  | (i, eligible) :: rest, a, next, r, db, hold, hflag, hen, h => by
    rw [historyLoop] at h
    split at h
    · rename_i hno
      cases h
      exact ⟨[], (i, eligible) :: rest, rfl, rfl, fun x hx => (by cases hx),
        fun hroom => by simp [hroom] at hno⟩
    · rename_i hroom
      obtain ⟨b, mid, henq, hloop⟩ := Prog.run_bind_ok h
      have hframe := Admission.enqueueIf_frame henq
      have hspends := Admission.enqueueIf_spends henq
      obtain ⟨done, left, rfl, rfl, hdone, -⟩ := historyLoop_done
        (fun x hx => hold.frame hframe x (List.mem_cons_of_mem _ hx))
        (fun x hx he => (hflag x (List.mem_cons_of_mem _ hx) he).run
          (a.enqueueIf_admits _ i.hash nowMs) henq)
        (by rw [hspends.enabled]; exact hen) hloop
      have hfirst : mid.Covers config nowMs i := by
        obtain ⟨hwanted, -, rfl⟩ | ⟨hwanted, used, henq⟩ := Admission.enqueueIf_cases henq
        · cases eligible with
          | false => exact .inl (hflag (i, false) List.mem_cons_self rfl)
          | true =>
            right
            simpa using hwanted
        · obtain ⟨x, spent, hx, hdone, -, -⟩ := Admission.enqueue_ok henq
          rw [hold i List.mem_cons_self] at hx
          cases hx
          refine .inl (hdone.known (Admission.room_pos_of_history (by simpa using hroom) ?_))
          intro he
          simp only [Bool.and_eq_true, Bool.or_eq_true, beq_iff_eq, hen.1 he, false_or,
            Bool.not_eq_true'] at hwanted
          exact hwanted.2
      refine ⟨(i, eligible) :: done, left, rfl, ?_, ?_, fun _ _ => List.cons_ne_nil _ _⟩
      · rw [List.getLast?_cons]
        cases done.getLast? <;> rfl
      · intro x hx
        rcases List.mem_cons.1 hx with rfl | hx
        · exact hfirst.imp_left (fun hk => hk.run (historyLoop_admits config nowMs _ b _) hloop)
        · exact hdone x hx

/-- **The recent loop** deals with an initial part of its page. -/
theorem recentLoop_done {nowMs : Int} : ∀ {page : List InfohashRow} {a : Admission}
    {next r : Option RecentCursor} {db : Db}, db.Holds page →
    (∀ i ∈ page, recentWindow nowMs i.firstSeen = true) → 0 < a.total → 0 < a.recent →
    (recentLoop nowMs page a next).run db = .ok (r, db') →
      ∃ done rest, page = done ++ rest ∧
        r = (done.getLast?.map (fun i => (i.firstSeen, i.hash))).or next ∧
        (∀ i ∈ done, db'.Known i.hash) ∧ (page ≠ [] → done ≠ [])
  | [], a, next, _, db, _, _, _, _, h => by
    cases h
    exact ⟨[], [], rfl, rfl, fun x hx => (by cases hx), fun hne => absurd rfl hne⟩
  | i :: rest, a, next, r, db, hold, hwin, htotal, hrecent, h => by
    rw [recentLoop] at h
    obtain ⟨known, start, hq, hread⟩ := Prog.run_bind_ok h
    rw [Prog.run_query] at hq
    cases hq
    obtain ⟨b, mid, henq, hloop⟩ := Prog.run_bind_ok hread
    have hframe := Admission.enqueueIf_frame henq
    have hfirst : mid.Known i.hash := by
      obtain ⟨hknown, -, rfl⟩ | ⟨-, used, henq⟩ := Admission.enqueueIf_cases henq
      · exact .inl (by simpa using hknown)
      · obtain ⟨x, left, hx, hdone, -, -⟩ := Admission.enqueue_ok henq
        rw [hold i List.mem_cons_self] at hx
        cases hx
        refine hdone.known ?_
        unfold Admission.room
        rw [hwin i List.mem_cons_self, if_pos rfl]
        split <;> omega
    split at hloop
    · cases hloop
      refine ⟨[i], rest, rfl, rfl, fun x hx => ?_, fun _ => List.cons_ne_nil _ _⟩
      rw [List.mem_singleton.1 hx]
      exact hfirst
    · rename_i hleft
      obtain ⟨done, left, rfl, rfl, hdone, -⟩ := recentLoop_done
        (fun x hx => hold.frame hframe x (List.mem_cons_of_mem _ hx))
        (fun x hx => hwin x (List.mem_cons_of_mem _ hx)) (by omega) (by omega) hloop
      refine ⟨i :: done, left, rfl, ?_, ?_, fun _ => List.cons_ne_nil _ _⟩
      · rw [List.getLast?_cons]
        cases done.getLast? <;> rfl
      · intro x hx
        rcases List.mem_cons.1 hx with rfl | hx
        · exact hfirst.run (recentLoop_admits nowMs _ b _) hloop
        · exact hdone x hx

/-! ## One call -/

/-- `backfill_page` does not sweep: no total slot, or with a buffer no history slot. -/
def historyBlocked (config : AdmissionConfig) (db : Db) : Prop :=
  db.available config.fetchLimit = 0 ∨
    config.recentLimit ≠ 0 ∧ db.available config.fetchLimit ≤ Admission.reserve config

/-- `backfill_recent_page` does not sweep: no total slot, or a full first-attempt buffer. -/
def recentBlocked (config : AdmissionConfig) (nowMs : Int) (db : Db) : Prop :=
  db.available config.fetchLimit = 0 ∨ config.recentLimit ≠ 0 ∧
    config.recentLimit ≤ db.firstAttemptWaiting config.policy nowMs

theorem load_historyRoom (config : AdmissionConfig) (db : Db) (nowMs : Int) :
    (Admission.load db nowMs config).hasHistoryRoom = true ↔ ¬ historyBlocked config db := by
  unfold historyBlocked Admission.hasHistoryRoom Admission.load
  by_cases hr : config.recentLimit = 0
  · simp [hr, Nat.pos_iff_ne_zero]
  · simp only [Bool.and_eq_true, Bool.or_eq_true, decide_eq_true_eq, Bool.not_eq_true', bne_eq_false_iff_eq,
      hr, false_or]
    omega

theorem load_recentRoom (config : AdmissionConfig) (db : Db) (nowMs : Int) :
    ((Admission.load db nowMs config).total = 0 ∨ (Admission.load db nowMs config).recent = 0) ↔
      recentBlocked config nowMs db := by
  unfold recentBlocked Admission.load
  by_cases hr : config.recentLimit = 0
  · simp [hr]
  · simp only [hr, if_false]
    omega

theorem exec_expired_jobs {nowMs : Int} {n : Nat}
    (h : db.exec (.deleteHints (.expired nowMs)) = .ok (n, db')) :
    db'.fetchJobs = db.fetchJobs ∧ db'.swarmMetadata = db.swarmMetadata := by
  cases h
  exact ⟨rfl, rfl⟩

theorem toNat_inj {a b : SwarmKey} (h : a.toNat = b.toNat) : a = b := BitVec.eq_of_toNat_eq h

theorem blobRank_le {a b : SwarmKey} : blobRank (some a) ≤ blobRank (some b) ↔ a.toNat ≤ b.toNat :=
  WithBot.coe_le_coe

/-- **One call of the history sweep**: blocked, it keeps the cursor and the jobs; otherwise all rows
up to the new cursor are dealt with, or there is no row after the cursor. -/
theorem backfillPage_sweeps {config : AdmissionConfig} {nowMs : Int} {cursor r : Option SwarmKey}
    (h : (backfillPage config nowMs cursor).run db = .ok (r, db')) :
    (historyBlocked config db → r = cursor ∧ db'.fetchJobs = db.fetchJobs) ∧
    (¬ historyBlocked config db →
      (∀ c, r = some c → blobRank cursor < blobRank (some c) ∧
        (∃ i ∈ db.infohashes.rows, i.hash = c) ∧
        ∀ i ∈ db.infohashes.rows, blobRank cursor < blobRank (some i.hash) →
          blobRank (some i.hash) ≤ blobRank (some c) → db'.Covers config nowMs i) ∧
      (r = none → ∀ i ∈ db.infohashes.rows, ¬ blobRank cursor < blobRank (some i.hash))) := by
  unfold backfillPage at h
  obtain ⟨a, start, hload, hread⟩ := Prog.run_bind_ok h
  rw [Prog.run_query] at hload
  cases hload
  obtain ⟨next, mid, hsweep, hread⟩ := Prog.run_bind_ok hread
  obtain ⟨n, last, hclean, hpure⟩ := Prog.run_bind_ok hread
  rw [Prog.run_execute] at hclean
  cases hpure
  obtain ⟨hjobs, hswarm⟩ := exec_expired_jobs hclean
  unfold historySweep at hsweep
  split at hsweep
  · rename_i hroom
    refine ⟨fun hb => absurd hb ((load_historyRoom config db nowMs).1 hroom), fun _ => ?_⟩
    obtain ⟨page, start, hpage, hloop⟩ := Prog.run_bind_ok hsweep
    rw [Prog.run_query] at hpage
    cases hpage
    have hflag : ∀ x ∈ db.historyPage cursor (historyPageLimit config),
        x.2 = false → db.Known x.1.hash := by
      intro x hx he
      obtain ⟨i, -, rfl⟩ := List.mem_map.1 hx
      simp only [Bool.and_eq_false_imp, Bool.not_eq_true', Bool.not_eq_false'] at he
      unfold Db.Known
      cases hj : db.hasJob i.hash with
      | true => exact .inl rfl
      | false => exact .inr (he hj)
    obtain ⟨done, rest, hsplit, hr, hdone, hne⟩ := historyLoop_done (historyPage_holds db cursor _)
      hflag ⟨fun he => by simpa [Admission.load] using he, load_enabled⟩ hloop
    rw [Option.or_none] at hr
    -- the page without its flags is a page of the table
    have hpage : db.infohashes.select
        (fun i => decide (blobRank cursor < blobRank (some i.hash)))
        (Table.orderBy (fun i : InfohashRow => i.hash.toNat)) (historyPageLimit config) =
          done.map Prod.fst ++ rest.map Prod.fst := by
      have := congrArg (List.map Prod.fst) hsplit
      rw [Db.historyPage, List.map_map, List.map_append] at this
      simpa [Function.comp_def] using this
    refine ⟨?_, ?_⟩
    · intro c hc
      rw [hr] at hc
      obtain ⟨x, hx, rfl⟩ := Option.map_eq_some_iff.1 hc
      obtain ⟨front, rfl⟩ := List.getLast?_eq_some_iff.1 hx
      rw [List.map_append, List.map_singleton, List.append_assoc, List.singleton_append] at hpage
      have hmem := Table.mem_of_mem_select (t := db.infohashes)
        (hpage ▸ List.mem_append_right _ List.mem_cons_self)
      refine ⟨of_decide_eq_true hmem.2, ⟨x.1, hmem.1, rfl⟩, ?_⟩
      intro i hi hlt hle
      have hin := Table.mem_of_select_le hpage hi (decide_eq_true hlt) (blobRank_le.1 hle)
        (fun hge => Table.eq_of_key hi hmem.1 (toNat_inj (le_antisymm (blobRank_le.1 hle) hge)))
      have hcov : ∀ y ∈ front ++ [x], mid.Covers config nowMs y.1 := hdone
      have hi : mid.Covers config nowMs i := by
        rcases List.mem_append.1 hin with hin | hin
        · obtain ⟨y, hy, rfl⟩ := List.mem_map.1 hin
          exact hcov y (List.mem_append_left _ hy)
        · rw [List.mem_singleton.1 hin]
          exact hcov x (List.mem_append_right _ (List.mem_singleton.2 rfl))
      unfold Db.Covers Db.Known Db.hasJob Db.hasSwarm at hi ⊢
      rw [hjobs, hswarm]
      exact hi
    · intro hnone i hi hlt
      rw [hr, Option.map_eq_none_iff, List.getLast?_eq_none_iff] at hnone
      have hempty : db.historyPage cursor (historyPageLimit config) = [] := by
        by_contra hp
        exact hne hroom hp hnone
      have hlimit : 0 < historyPageLimit config := by
        unfold historyPageLimit BACKFILL_PAGE_SIZE
        split <;> omega
      have := Table.select_eq_nil hlimit (List.map_eq_nil_iff.1 hempty) i hi
      rw [decide_eq_true hlt] at this
      cases this
  · rename_i hroom
    cases hsweep
    refine ⟨fun _ => ⟨rfl, hjobs⟩, fun hb => absurd ((load_historyRoom config db nowMs).2 hb) hroom⟩

/-! ## One call of the recent sweep -/

theorem recentRank_lt {at₁ at₂ : Int} {h₁ h₂ : Option SwarmKey} :
    recentRank at₁ h₁ < recentRank at₂ h₂ ↔ at₁ < at₂ ∨ at₁ = at₂ ∧ blobRank h₁ < blobRank h₂ :=
  Prod.Lex.toLex_lt_toLex

/-- Where a recent sweep starts: `max(cursor, (now - RECENT_MS, empty))`. -/
def recentFrom (nowMs : Int) (cursor : Option RecentCursor) : Int ×ₗ WithBot Nat :=
  match cursor with
  | none => recentRank (saturatingSub nowMs RECENT_MS) none
  | some c => max (recentRank c.1 (some c.2)) (recentRank (saturatingSub nowMs RECENT_MS) none)

theorem recentStart_rank (nowMs : Int) (cursor : Option RecentCursor) :
    recentRank (recentStart nowMs cursor).1 (recentStart nowMs cursor).2 =
      recentFrom nowMs cursor := by
  cases cursor with
  | none => rfl
  | some c =>
    unfold recentStart recentFrom
    by_cases hw : saturatingSub nowMs RECENT_MS ≤ c.1
    · simp only [hw, if_true]
      refine (max_eq_left (le_of_lt (recentRank_lt.2 ?_))).symm
      rcases lt_or_eq_of_le hw with hlt | he
      · exact .inl hlt
      · exact .inr ⟨he, WithBot.bot_lt_coe _⟩
    · simp only [hw, if_false]
      exact (max_eq_right (le_of_lt (recentRank_lt.2 (.inl (not_le.1 hw))))).symm

/-- A row of the window is after the start of the window. -/
theorem windowStart_lt {nowMs : Int} {i : InfohashRow}
    (h : saturatingSub nowMs RECENT_MS ≤ i.firstSeen) :
    recentRank (saturatingSub nowMs RECENT_MS) none < i.recentRank := by
  refine recentRank_lt.2 ?_
  rcases lt_or_eq_of_le h with hlt | he
  · exact .inl hlt
  · exact .inr ⟨he, WithBot.bot_lt_coe _⟩

theorem recentRank_inj {i j : InfohashRow} (h : i.recentRank = j.recentRank) : i.hash = j.hash := by
  unfold InfohashRow.recentRank recentRank at h
  have h2 : blobRank (some i.hash) = blobRank (some j.hash) :=
    congrArg (fun x => (ofLex x).2) h
  exact toNat_inj (WithBot.coe_injective h2)

/-- **One call of the recent sweep**: blocked, it keeps the cursor; otherwise all rows of the window
up to the new cursor are known, or there is no row of the window after the start. -/
theorem backfillRecentPage_sweeps {config : AdmissionConfig} {nowMs : Int}
    {cursor r : Option RecentCursor}
    (h : (backfillRecentPage config nowMs cursor).run db = .ok (r, db')) :
    (recentBlocked config nowMs db → r = cursor ∧ db' = db) ∧
    (¬ recentBlocked config nowMs db →
      (∀ c, r = some c → recentFrom nowMs cursor < recentRank c.1 (some c.2) ∧ c.1 ≤ nowMs ∧
        (∃ i ∈ db.infohashes.rows, i.recentRank = recentRank c.1 (some c.2)) ∧
        ∀ i ∈ db.infohashes.rows, recentFrom nowMs cursor < i.recentRank →
          i.recentRank ≤ recentRank c.1 (some c.2) → i.firstSeen ≤ nowMs → db'.Known i.hash) ∧
      (r = none → ∀ i ∈ db.infohashes.rows, recentFrom nowMs cursor < i.recentRank →
        ¬ i.firstSeen ≤ nowMs)) := by
  unfold backfillRecentPage at h
  obtain ⟨a, start, hload, hread⟩ := Prog.run_bind_ok h
  rw [Prog.run_query] at hload
  cases hload
  split at hread
  · rename_i hfull
    cases hread
    exact ⟨fun _ => ⟨rfl, rfl⟩, fun hb => absurd ((load_recentRoom config db nowMs).1 hfull) hb⟩
  · rename_i hroom
    refine ⟨fun hb => absurd ((load_recentRoom config db nowMs).2 hb) hroom, fun _ => ?_⟩
    obtain ⟨page, start, hpage, hloop⟩ := Prog.run_bind_ok hread
    rw [Prog.run_query] at hpage
    cases hpage
    obtain ⟨hold, hwin⟩ := recentPage_spec db nowMs cursor
    obtain ⟨done, rest, hsplit, hr, hdone, hne⟩ :=
      recentLoop_done hold hwin (by omega) (by omega) hloop
    rw [Option.or_none] at hr
    have hmatch : ∀ i : InfohashRow, recentFrom nowMs cursor < i.recentRank → i.firstSeen ≤ nowMs →
        (decide (recentRank (recentStart nowMs cursor).1 (recentStart nowMs cursor).2 <
          i.recentRank) && decide (i.firstSeen ≤ nowMs)) = true := by
      intro i hlt hnow
      rw [recentStart_rank]
      simp [hlt, hnow]
    refine ⟨?_, ?_⟩
    · intro c hc
      rw [hr] at hc
      obtain ⟨x, hx, rfl⟩ := Option.map_eq_some_iff.1 hc
      obtain ⟨front, rfl⟩ := List.getLast?_eq_some_iff.1 hx
      rw [List.append_assoc, List.singleton_append] at hsplit
      have hmem := Table.mem_of_mem_select (t := db.infohashes)
        (hsplit ▸ List.mem_append_right _ List.mem_cons_self)
      have hp := hmem.2
      rw [recentStart_rank] at hp
      simp only [Bool.and_eq_true, decide_eq_true_eq] at hp
      refine ⟨hp.1, hp.2, ⟨x, hmem.1, rfl⟩, ?_⟩
      intro i hi hlt hle hnow
      have hin := Table.mem_of_select_le hsplit hi (hmatch i hlt hnow) hle
        (fun hge => Table.eq_of_key hi hmem.1 (recentRank_inj (le_antisymm hle hge)))
      exact hdone i hin
    · intro hnone i hi hlt hnow
      rw [hr, Option.map_eq_none_iff, List.getLast?_eq_none_iff] at hnone
      have hempty : db.recentPage nowMs (recentStart nowMs cursor) = [] := by
        by_contra hp
        exact hne hp hnone
      have := Table.select_eq_nil (by decide) hempty i hi
      rw [hmatch i hlt hnow] at this
      cases this

/-! ## Whole sweeps -/

/-- A call of a sweep: its time and the databases before and after it. -/
structure BackfillCall where
  nowMs : Int
  before : Db
  after : Db

/-- A call of the history sweep that was not blocked and returned a cursor; the table of hashes is
`table`, the other tables are as they happen to be at the time of the call. -/
structure HistoryMove (config : AdmissionConfig) (table : Table InfohashRow InfohashRow.hash)
    (k : BackfillCall) (c c' : Option SwarmKey) : Prop where
  table : k.before.infohashes = table
  free : ¬ historyBlocked config k.before
  returned : c' ≠ none
  run : (backfillPage config k.nowMs c).run k.before = .ok (c', k.after)

/-- A call of the recent sweep that was not blocked and returned a cursor. -/
structure RecentMove (config : AdmissionConfig) (table : Table InfohashRow InfohashRow.hash)
    (k : BackfillCall) (c c' : Option RecentCursor) : Prop where
  table : k.before.infohashes = table
  free : ¬ recentBlocked config k.nowMs k.before
  returned : c' ≠ none
  run : (backfillRecentPage config k.nowMs c).run k.before = .ok (c', k.after)

variable {config : AdmissionConfig} {table : Table InfohashRow InfohashRow.hash}

theorem HistoryMove.spec {k : BackfillCall} {c c' : Option SwarmKey}
    (h : HistoryMove config table k c c') : blobRank c < blobRank c' ∧
      (∃ i ∈ table.rows, blobRank (some i.hash) = blobRank c') ∧
      ∀ i ∈ table.rows, blobRank c < blobRank (some i.hash) → blobRank (some i.hash) ≤ blobRank c' →
        k.after.Covers config k.nowMs i := by
  obtain ⟨htable, hfree, hreturned, hrun⟩ := h
  obtain ⟨x, rfl⟩ := Option.ne_none_iff_exists'.1 hreturned
  obtain ⟨hlt, ⟨i, hi, hash⟩, hcov⟩ := ((backfillPage_sweeps hrun).2 hfree).1 x rfl
  rw [htable] at hi hcov
  exact ⟨hlt, ⟨i, hi, by rw [hash]⟩, hcov⟩

/-- The position of a recent cursor; the missing one comes first. -/
def recentCursorRank (c : Option RecentCursor) : WithBot (Int ×ₗ WithBot Nat) :=
  match c with
  | none => ⊥
  | some c => (recentRank c.1 (some c.2) : Int ×ₗ WithBot Nat)

theorem le_recentFrom (nowMs : Int) (c : Option RecentCursor) :
    recentCursorRank c ≤ (recentFrom nowMs c : WithBot (Int ×ₗ WithBot Nat)) := by
  cases c with
  | none => exact bot_le
  | some c => exact WithBot.coe_le_coe.2 (le_max_left _ _)

/-- The start of a call is the cursor, or the start of the window. -/
theorem recentFrom_lt {nowMs : Int} {c : Option RecentCursor} {x : Int ×ₗ WithBot Nat}
    (hc : recentCursorRank c < (x : WithBot (Int ×ₗ WithBot Nat)))
    (hw : recentRank (saturatingSub nowMs RECENT_MS) none < x) : recentFrom nowMs c < x := by
  cases c with
  | none => exact hw
  | some c => exact max_lt (WithBot.coe_lt_coe.1 hc) hw

theorem RecentMove.spec {k : BackfillCall} {c c' : Option RecentCursor}
    (h : RecentMove config table k c c') : recentCursorRank c < recentCursorRank c' ∧
      (∃ i ∈ table.rows, (i.recentRank : WithBot (Int ×ₗ WithBot Nat)) = recentCursorRank c') ∧
      ∀ i ∈ table.rows, recentFrom k.nowMs c < i.recentRank →
        (i.recentRank : WithBot (Int ×ₗ WithBot Nat)) ≤ recentCursorRank c' →
          k.after.Known i.hash := by
  obtain ⟨htable, hfree, hreturned, hrun⟩ := h
  obtain ⟨x, rfl⟩ := Option.ne_none_iff_exists'.1 hreturned
  obtain ⟨hlt, hnow, ⟨i, hi, hash⟩, hcov⟩ := ((backfillRecentPage_sweeps hrun).2 hfree).1 x rfl
  rw [htable] at hi hcov
  refine ⟨lt_of_le_of_lt (le_recentFrom k.nowMs c) (WithBot.coe_lt_coe.2 hlt),
    ⟨i, hi, by rw [hash]; rfl⟩, ?_⟩
  intro y hy hfrom hle
  have hle : y.recentRank ≤ recentRank x.1 (some x.2) := WithBot.coe_le_coe.1 hle
  refine hcov y hy hfrom hle ?_
  -- the returned cursor is a row of the window, and the rows before it were seen earlier
  have hseen : y.firstSeen ≤ x.1 := by
    rcases lt_or_eq_of_le hle with hlt' | he
    · rcases recentRank_lt.1 hlt' with hlt' | ⟨he, -⟩
      · exact le_of_lt hlt'
      · exact le_of_eq he
    · exact le_of_eq (congrArg (fun z => (ofLex z).1) he)
  exact le_trans hseen hnow

theorem countP_le_rows {ι : Type} (rows : List InfohashRow) (f : InfohashRow → ι) (p : ι → Bool) :
    (rows.map f).countP p ≤ rows.length := by
  have := List.countP_le_length (p := p) (l := rows.map f)
  rwa [List.length_map] at this

/-- **A history sweep ends and leaves no row out.** -/
theorem history_sweep {calls : List BackfillCall} {c : Option SwarmKey}
    (h : Sweep (HistoryMove config table) none calls c) : calls.length ≤ table.rows.length ∧
      ∀ last : BackfillCall, last.before.infohashes = table → ¬ historyBlocked config last.before →
        (backfillPage config last.nowMs c).run last.before = .ok (none, last.after) →
          ∀ i ∈ table.rows, ∃ k ∈ calls, k.after.Covers config k.nowMs i := by
  refine ⟨?_, ?_⟩
  · refine le_trans (h.length_le blobRank (table.rows.map (fun i => blobRank (some i.hash))) ?_)
      (countP_le_rows _ _ _)
    intro k c c' hmove
    obtain ⟨hlt, ⟨i, hi, he⟩, -⟩ := hmove.spec
    exact ⟨hlt, List.mem_map.2 ⟨i, hi, he⟩⟩
  · intro last htable hfree hrun i hi
    have hend := ((backfillPage_sweeps hrun).2 hfree).2 rfl i (htable ▸ hi)
    obtain ⟨k, hk, c₀, c₁, hmove, hlt, hle⟩ :=
      h.covered blobRank (WithBot.bot_lt_coe i.hash.toNat) (not_lt.1 hend)
    exact ⟨k, hk, hmove.spec.2.2 i hi hlt hle⟩

/-- **A recent sweep ends and leaves no row of the last window out.** -/
theorem recent_sweep {calls : List BackfillCall} {c : Option RecentCursor}
    (h : Sweep (RecentMove config table) none calls c) : calls.length ≤ table.rows.length ∧
      ∀ last : BackfillCall, (∀ k ∈ calls, k.nowMs ≤ last.nowMs) → last.before.infohashes = table →
        ¬ recentBlocked config last.nowMs last.before →
        (backfillRecentPage config last.nowMs c).run last.before = .ok (none, last.after) →
          ∀ i ∈ table.rows, recentWindow last.nowMs i.firstSeen = true →
            ∃ k ∈ calls, k.after.Known i.hash := by
  refine ⟨?_, ?_⟩
  · refine le_trans (h.length_le recentCursorRank (table.rows.map
      (fun i => (i.recentRank : WithBot (Int ×ₗ WithBot Nat)))) ?_) (countP_le_rows _ _ _)
    intro k c c' hmove
    obtain ⟨hlt, ⟨i, hi, he⟩, -⟩ := hmove.spec
    exact ⟨hlt, List.mem_map.2 ⟨i, hi, he⟩⟩
  · intro last htimes htable hfree hrun i hi hwin
    obtain ⟨hstart, hnow⟩ : saturatingSub last.nowMs RECENT_MS ≤ i.firstSeen ∧
        i.firstSeen ≤ last.nowMs := of_decide_eq_true hwin
    -- the row is not after the start of the last call, so it is not after its cursor
    have hle : (i.recentRank : WithBot (Int ×ₗ WithBot Nat)) ≤ recentCursorRank c := by
      by_contra hgt
      exact ((backfillRecentPage_sweeps hrun).2 hfree).2 rfl i (htable ▸ hi)
        (recentFrom_lt (not_le.1 hgt) (windowStart_lt hstart)) hnow
    obtain ⟨k, hk, c₀, c₁, hmove, hlt, hle⟩ :=
      h.covered recentCursorRank (WithBot.bot_lt_coe i.recentRank) hle
    have hwindow : saturatingSub k.nowMs RECENT_MS ≤ i.firstSeen := by
      have := htimes k hk
      unfold saturatingSub at hstart ⊢
      omega
    exact ⟨k, hk, hmove.spec.2.2 i hi (recentFrom_lt hlt (windowStart_lt hwindow)) hle⟩

/-- The window of the source is `[now - RECENT_MS, now]`. -/
theorem recentWindow_iff {nowMs firstSeen : Int} (hmin : I64_MIN + RECENT_MS ≤ nowMs)
    (hmax : nowMs ≤ I64_MAX) : recentWindow nowMs firstSeen = true ↔
      nowMs - RECENT_MS ≤ firstSeen ∧ firstSeen ≤ nowMs := by
  unfold recentWindow saturatingSub
  rw [decide_eq_true_iff]
  unfold I64_MIN I64_MAX RECENT_MS at *
  omega

/-- **The backfill cursors never skip a hash.**

* A call of the history sweep that is blocked keeps cursor and jobs; one that is not moves to a later
  cursor with every row in between dealt with, or there is no row after the cursor.
* The same for the recent sweep in the order of `(first_seen, hash)`, from
  `max(cursor, (now - RECENT_MS, empty))`.
* Over a table of hashes that does not change, a sweep from the start makes at most as many moves as
  there are rows, and when a call then returns no cursor, every row (of the window of that call) has
  been dealt with by one of the calls, whatever happened to the other tables between them. -/
theorem backfill_cursors (config : AdmissionConfig) :
    (∀ (db db' : Db) nowMs cursor r, (backfillPage config nowMs cursor).run db = .ok (r, db') →
      (historyBlocked config db → r = cursor ∧ db'.fetchJobs = db.fetchJobs) ∧
      (¬ historyBlocked config db →
        (∀ c, r = some c → blobRank cursor < blobRank (some c) ∧
          ∀ i ∈ db.infohashes.rows, blobRank cursor < blobRank (some i.hash) →
            blobRank (some i.hash) ≤ blobRank (some c) →
              db'.Known i.hash ∨ config.recentLimit ≠ 0 ∧ recentWindow nowMs i.firstSeen = true) ∧
        (r = none → ∀ i ∈ db.infohashes.rows, ¬ blobRank cursor < blobRank (some i.hash)))) ∧
    (∀ (db db' : Db) nowMs cursor r, (backfillRecentPage config nowMs cursor).run db = .ok (r, db') →
      (recentBlocked config nowMs db → r = cursor ∧ db' = db) ∧
      (¬ recentBlocked config nowMs db →
        (∀ c, r = some c → recentFrom nowMs cursor < recentRank c.1 (some c.2) ∧
          ∀ i ∈ db.infohashes.rows, recentFrom nowMs cursor < i.recentRank →
            i.recentRank ≤ recentRank c.1 (some c.2) → i.firstSeen ≤ nowMs → db'.Known i.hash) ∧
        (r = none → ∀ i ∈ db.infohashes.rows, recentFrom nowMs cursor < i.recentRank →
          ¬ i.firstSeen ≤ nowMs))) ∧
    (∀ table calls c, Sweep (HistoryMove config table) none calls c →
      calls.length ≤ table.rows.length ∧
      ∀ last : BackfillCall, last.before.infohashes = table → ¬ historyBlocked config last.before →
        (backfillPage config last.nowMs c).run last.before = .ok (none, last.after) →
          ∀ i ∈ table.rows, ∃ k ∈ calls, k.after.Covers config k.nowMs i) ∧
    (∀ table calls c, Sweep (RecentMove config table) none calls c →
      calls.length ≤ table.rows.length ∧
      ∀ last : BackfillCall, (∀ k ∈ calls, k.nowMs ≤ last.nowMs) → last.before.infohashes = table →
        ¬ recentBlocked config last.nowMs last.before →
        (backfillRecentPage config last.nowMs c).run last.before = .ok (none, last.after) →
          ∀ i ∈ table.rows, recentWindow last.nowMs i.firstSeen = true →
            ∃ k ∈ calls, k.after.Known i.hash) := by
  refine ⟨?_, ?_, fun _ _ _ h => history_sweep h, fun _ _ _ h => recent_sweep h⟩
  · intro db db' nowMs cursor r h
    obtain ⟨hblocked, hfree⟩ := backfillPage_sweeps h
    refine ⟨hblocked, fun hb => ⟨fun c hc => ?_, (hfree hb).2⟩⟩
    obtain ⟨hlt, -, hcov⟩ := (hfree hb).1 c hc
    exact ⟨hlt, hcov⟩
  · intro db db' nowMs cursor r h
    obtain ⟨hblocked, hfree⟩ := backfillRecentPage_sweeps h
    refine ⟨hblocked, fun hb => ⟨fun c hc => ?_, (hfree hb).2⟩⟩
    obtain ⟨hlt, -, -, hcov⟩ := (hfree hb).1 c hc
    exact ⟨hlt, hcov⟩

end BtSniffer
