import BtSniffer.Collection.JobOps
import Mathlib.Order.Bounds.Basic

/-!
# Observations of hashes

`upsert_hash` merges an observation into the row of its hash.

* `upsertAll` — a list of observations, one `upsert_hash` after the other.
* `upsertAll_row` — the row of a hash: the least and the greatest time of its observations and of the
  row that was there.
* `upsertAll_same` — lists with the same members give the same rows.
* `Db.Seen` — a row covers an observation; no transaction of the store takes that back.
* `saveHashes_rows`, `saveHashes_again` — `save_hashes_at` is such a list, and repeating one that was
  committed changes no row.
-/

set_option autoImplicit false

namespace BtSniffer

open Relational

/-- A hash and the time of its observation. -/
abbrev Observation := SwarmKey × Int

/-- `upsert_hash` for each observation. -/
def upsertAll : List Observation → Db → Except StorageError Db
  | [], db => .ok db
  | o :: rest, db =>
    match db.exec (.upsertHash o.1 o.2) with
    | .ok (_, db') => upsertAll rest db'
    | .error e => .error e

/-- The row of a hash covers an observation. -/
def Db.Seen (db : Db) (hash : SwarmKey) (atMs : Int) : Prop :=
  ∃ row, db.infohashes.get? hash = some row ∧ row.firstSeen ≤ atMs ∧ atMs ≤ row.lastSeen

/-- The times of the observations of a hash. -/
def timesOf (observations : List Observation) (hash : SwarmKey) : Set Int :=
  {t | (hash, t) ∈ observations}

/-- The `first_seen` of the row of a hash, if there is one. -/
def Db.firstOf (db : Db) (hash : SwarmKey) : Set Int :=
  {t | ∃ row, db.infohashes.get? hash = some row ∧ t = row.firstSeen}

/-- The `last_seen` of the row of a hash, if there is one. -/
def Db.lastOf (db : Db) (hash : SwarmKey) : Set Int :=
  {t | ∃ row, db.infohashes.get? hash = some row ∧ t = row.lastSeen}

section OldRow

variable {db : Db} {hash : SwarmKey}

theorem firstOf_none (h : db.infohashes.get? hash = none) : db.firstOf hash = ∅ := by
  ext t
  simp [Db.firstOf, h]

theorem lastOf_none (h : db.infohashes.get? hash = none) : db.lastOf hash = ∅ := by
  ext t
  simp [Db.lastOf, h]

theorem firstOf_some {row : InfohashRow} (h : db.infohashes.get? hash = some row) :
    db.firstOf hash = {row.firstSeen} := by
  ext t
  simp [Db.firstOf, h]

theorem lastOf_some {row : InfohashRow} (h : db.infohashes.get? hash = some row) :
    db.lastOf hash = {row.lastSeen} := by
  ext t
  simp [Db.lastOf, h]

end OldRow

/-! ## Bounds of unions -/

theorem isLeast_absorb {α : Type} [Preorder α] {A B : Set α} {a x : α} (ha : IsLeast A a)
    (hx : IsLeast (B ∪ {a}) x) : IsLeast (B ∪ A) x := by
  constructor
  · rcases hx.1 with hb | rfl
    · exact .inl hb
    · exact .inr ha.1
  · intro t ht
    rcases ht with hb | hA
    · exact hx.2 (.inl hb)
    · exact (hx.2 (.inr rfl)).trans (ha.2 hA)

theorem isGreatest_absorb {α : Type} [Preorder α] {A B : Set α} {a x : α} (ha : IsGreatest A a)
    (hx : IsGreatest (B ∪ {a}) x) : IsGreatest (B ∪ A) x := by
  constructor
  · rcases hx.1 with hb | rfl
    · exact .inl hb
    · exact .inr ha.1
  · intro t ht
    rcases ht with hb | hA
    · exact hx.2 (.inl hb)
    · exact (ha.2 hA).trans (hx.2 (.inr rfl))

/-! ## One observation -/

theorem upsertHash_exec (db : Db) (hash : SwarmKey) {atMs : Int} (h : 0 ≤ atMs) :
    ∃ db', db.exec (.upsertHash hash atMs) = .ok (1, db') ∧
      db'.infohashes =
        db.infohashes.upsert ⟨hash, atMs, atMs⟩ (Db.touch atMs) (Db.touch_hash atMs) :=
  ⟨_, if_neg (not_lt.2 h), rfl⟩

theorem upsertHash_get? {db db' : Db} {hash : SwarmKey} {atMs : Int} {n : Nat}
    (h : db.exec (.upsertHash hash atMs) = .ok (n, db')) (k : SwarmKey) :
    db'.infohashes.get? k = if hash = k then
        some (((db.infohashes.get? k).map (Db.touch atMs)).getD ⟨hash, atMs, atMs⟩)
      else db.infohashes.get? k := by
  obtain ⟨-, rfl⟩ := Db.upsertHashRow_ok h
  exact Table.get?_upsert _ _ _ _ k

/-- An observation changes the row of its hash only. -/
theorem upsertHash_other {db db' : Db} {hash k : SwarmKey} {atMs : Int} {n : Nat}
    (h : db.exec (.upsertHash hash atMs) = .ok (n, db')) (hk : hash ≠ k) :
    db'.infohashes.get? k = db.infohashes.get? k := by
  rw [upsertHash_get? h, if_neg hk]

/-- The row of the hash afterwards. -/
theorem upsertHash_row {db db' : Db} {hash : SwarmKey} {atMs : Int} {n : Nat}
    (h : db.exec (.upsertHash hash atMs) = .ok (n, db')) :
    ∃ row, db'.infohashes.get? hash = some row ∧
      IsLeast ({atMs} ∪ db.firstOf hash) row.firstSeen ∧
      IsGreatest ({atMs} ∪ db.lastOf hash) row.lastSeen := by
  rw [upsertHash_get? h, if_pos rfl]
  refine ⟨_, rfl, ?_⟩
  cases hold : db.infohashes.get? hash with
  | none =>
    rw [firstOf_none hold, lastOf_none hold]
    simp [isLeast_singleton, isGreatest_singleton]
  | some old =>
    rw [firstOf_some hold, lastOf_some hold]
    simp only [Option.map_some, Option.getD_some, Db.touch]
    rw [min_comm, max_comm]
    exact ⟨isLeast_pair, isGreatest_pair⟩

/-! ## Lists of observations -/

theorem upsertAll_cons {o : Observation} {rest : List Observation} {db db' : Db}
    (h : upsertAll (o :: rest) db = .ok db') :
    ∃ n mid, db.exec (.upsertHash o.1 o.2) = .ok (n, mid) ∧ upsertAll rest mid = .ok db' := by
  rw [upsertAll] at h
  split at h
  · rename_i n mid hexec
    exact ⟨n, mid, hexec, h⟩
  · cases h

/-- Observations at representable times are accepted. -/
theorem upsertAll_total : ∀ (observations : List Observation) (db : Db),
    (∀ o ∈ observations, 0 ≤ o.2) → ∃ db', upsertAll observations db = .ok db'
  | [], db, _ => ⟨db, rfl⟩
  | o :: rest, db, h => by
    obtain ⟨mid, hexec, -⟩ := upsertHash_exec db o.1 (h o List.mem_cons_self)
    obtain ⟨db', hrest⟩ := upsertAll_total rest mid (fun x hx => h x (List.mem_cons_of_mem o hx))
    refine ⟨db', ?_⟩
    rw [upsertAll, hexec]
    exact hrest

theorem timesOf_cons_self (hash : SwarmKey) (atMs : Int) (rest : List Observation) :
    timesOf ((hash, atMs) :: rest) hash = timesOf rest hash ∪ {atMs} := by
  ext t
  simp [timesOf]

theorem timesOf_cons_other {hash k : SwarmKey} (atMs : Int) (rest : List Observation)
    (hk : hash ≠ k) : timesOf ((hash, atMs) :: rest) k = timesOf rest k := by
  ext t
  simp [timesOf, Ne.symm hk]

/-- **The row of a hash after any observations.**  Its `first_seen` is the least and its `last_seen`
the greatest of the times of its observations and of the row before them. -/
theorem upsertAll_row {k : SwarmKey} : ∀ {observations : List Observation} {db db' : Db},
    upsertAll observations db = .ok db' →
    (∀ row, db'.infohashes.get? k = some row →
      IsLeast (timesOf observations k ∪ db.firstOf k) row.firstSeen ∧
        IsGreatest (timesOf observations k ∪ db.lastOf k) row.lastSeen) ∧
      (db'.infohashes.get? k = none → timesOf observations k ∪ db.firstOf k = ∅)
  | [], db, db', h => by
    cases h
    constructor
    · intro row hrow
      rw [firstOf_some hrow, lastOf_some hrow]
      simp [timesOf, isLeast_singleton, isGreatest_singleton]
    · intro hnone
      simp [timesOf, Db.firstOf, hnone]
  | (hash, atMs) :: rest, db, db', h => by
    obtain ⟨n, mid, hexec, hrest⟩ := upsertAll_cons h
    obtain ⟨hsome, hnone⟩ := upsertAll_row (k := k) hrest
    by_cases hk : hash = k
    · subst hk
      obtain ⟨seen, hseen, hleast, hgreatest⟩ := upsertHash_row hexec
      rw [firstOf_some hseen, lastOf_some hseen] at hsome
      rw [firstOf_some hseen] at hnone
      rw [timesOf_cons_self, Set.union_assoc, Set.union_assoc]
      constructor
      · intro row hrow
        exact ⟨isLeast_absorb hleast (hsome row hrow).1,
          isGreatest_absorb hgreatest (hsome row hrow).2⟩
      · intro hrow
        have hmem : seen.firstSeen ∈ timesOf rest hash ∪ {seen.firstSeen} := .inr rfl
        rw [hnone hrow] at hmem
        exact absurd hmem (Set.notMem_empty _)
    · have hsame := upsertHash_other hexec hk
      have hfirst : mid.firstOf k = db.firstOf k := by
        unfold Db.firstOf
        rw [hsame]
      have hlast : mid.lastOf k = db.lastOf k := by
        unfold Db.lastOf
        rw [hsame]
      rw [timesOf_cons_other atMs rest hk, ← hfirst, ← hlast]
      exact ⟨hsome, hnone⟩

/-- **Order and repetition do not matter.** -/
theorem upsertAll_same {xs ys : List Observation} {db dx dy : Db} (hsame : ∀ o, o ∈ xs ↔ o ∈ ys)
    (hx : upsertAll xs db = .ok dx) (hy : upsertAll ys db = .ok dy) (k : SwarmKey) :
    dx.infohashes.get? k = dy.infohashes.get? k := by
  have htimes : timesOf xs k = timesOf ys k := by
    ext t
    exact hsame (k, t)
  obtain ⟨hxsome, hxnone⟩ := upsertAll_row (k := k) hx
  obtain ⟨hysome, hynone⟩ := upsertAll_row (k := k) hy
  rw [htimes] at hxsome hxnone
  cases hdx : dx.infohashes.get? k with
  | none =>
    cases hdy : dy.infohashes.get? k with
    | none => rfl
    | some row =>
      have hmem := (hysome row hdy).1.1
      rw [hxnone hdx] at hmem
      exact absurd hmem (Set.notMem_empty _)
  | some rx =>
    cases hdy : dy.infohashes.get? k with
    | none =>
      have hmem := (hxsome rx hdx).1.1
      rw [hynone hdy] at hmem
      exact absurd hmem (Set.notMem_empty _)
    | some ry =>
      have hhash : rx.hash = ry.hash :=
        (Table.get?_eq_some.1 hdx).2.trans (Table.get?_eq_some.1 hdy).2.symm
      have hfirst := (hxsome rx hdx).1.unique (hysome ry hdy).1
      have hlast := (hxsome rx hdx).2.unique (hysome ry hdy).2
      cases rx
      cases ry
      simp only at hhash hfirst hlast
      rw [hhash, hfirst, hlast]

/-! ## Rows that cover an observation -/

theorem Db.Seen.congr {db db' : Db} {hash : SwarmKey} {atMs : Int} (h : db.Seen hash atMs)
    (hsame : db'.infohashes.get? hash = db.infohashes.get? hash) : db'.Seen hash atMs := by
  obtain ⟨row, hrow, hbounds⟩ := h
  exact ⟨row, hsame.trans hrow, hbounds⟩

/-- An observation is covered once it is stored. -/
theorem upsertHash_seen {db db' : Db} {hash : SwarmKey} {atMs : Int} {n : Nat}
    (h : db.exec (.upsertHash hash atMs) = .ok (n, db')) : db'.Seen hash atMs := by
  obtain ⟨row, hrow, hleast, hgreatest⟩ := upsertHash_row h
  exact ⟨row, hrow, hleast.2 (.inl rfl), hgreatest.2 (.inl rfl)⟩

theorem upsertAll_seen {observations : List Observation} {db db' : Db}
    (h : upsertAll observations db = .ok db') {o : Observation} (ho : o ∈ observations) :
    db'.Seen o.1 o.2 := by
  obtain ⟨hsome, hnone⟩ := upsertAll_row (k := o.1) h
  cases hrow : db'.infohashes.get? o.1 with
  | none =>
    have hmem : o.2 ∈ timesOf observations o.1 ∪ db.firstOf o.1 := .inl ho
    rw [hnone hrow] at hmem
    exact absurd hmem (Set.notMem_empty _)
  | some row => exact ⟨row, hrow, (hsome row hrow).1.2 (.inl ho), (hsome row hrow).2.2 (.inl ho)⟩

/-- An observation that is covered changes no row. -/
theorem upsertHash_again {db db' : Db} {hash : SwarmKey} {atMs : Int} {n : Nat}
    (hseen : db.Seen hash atMs) (h : db.exec (.upsertHash hash atMs) = .ok (n, db'))
    (k : SwarmKey) : db'.infohashes.get? k = db.infohashes.get? k := by
  by_cases hk : hash = k
  · subst hk
    obtain ⟨row, hrow, hfirst, hlast⟩ := hseen
    rw [upsertHash_get? h, if_pos rfl, hrow]
    simp [Db.touch, min_eq_left hfirst, max_eq_left hlast]
  · exact upsertHash_other h hk

theorem upsertAll_again : ∀ {observations : List Observation} {db db' : Db},
    (∀ o ∈ observations, db.Seen o.1 o.2) → upsertAll observations db = .ok db' →
    ∀ k, db'.infohashes.get? k = db.infohashes.get? k
  | [], _, _, _, h, _ => by
    cases h
    rfl
  | o :: rest, _, _, hseen, h, k => by
    obtain ⟨n, mid, hexec, hrest⟩ := upsertAll_cons h
    have hmid := upsertHash_again (hseen o List.mem_cons_self) hexec
    have hkept : ∀ x ∈ rest, mid.Seen x.1 x.2 := fun x hx =>
      (hseen x (List.mem_cons_of_mem o hx)).congr (hmid x.1)
    exact (upsertAll_again hkept hrest k).trans (hmid k)

/-- No statement uncovers an observation. -/
theorem exec_seen {db db' : Db} {stmt : Stmt} {hash : SwarmKey} {atMs : Int} {n : Nat}
    (hseen : db.Seen hash atMs) (h : db.exec stmt = .ok (n, db')) : db'.Seen hash atMs := by
  by_cases htarget : stmt.target = .infohashes
  · cases stmt with
    | upsertHash k t =>
      by_cases hk : k = hash
      · subst hk
        obtain ⟨old, hold, hfirst, hlast⟩ := hseen
        obtain ⟨row, hrow, hleast, hgreatest⟩ := upsertHash_row h
        exact ⟨row, hrow, (hleast.2 (.inr ⟨old, hold, rfl⟩)).trans hfirst,
          hlast.trans (hgreatest.2 (.inr ⟨old, hold, rfl⟩))⟩
      · exact hseen.congr (upsertHash_other h hk)
    | _ => cases htarget
  · exact hseen.congr (by rw [(Db.exec_frame h).infohashes htarget])

/-- **No transaction uncovers an observation.** -/
theorem commit_seen {M : Metainfo} (op : StoreOp) {db : Db} {hash : SwarmKey} {atMs : Int}
    (hseen : db.Seen hash atMs) : (op.commit M db).2.Seen hash atMs := by
  refine Prog.transact_keeps (I := fun d : Db => d.Seen hash atMs) hseen (fun _ _ hrun => ?_)
  exact Prog.run_invariant (fun _ _ _ _ _ hs hexec => exec_seen hs hexec) (Prog.uses_true _)
    hseen hrun

/-! ## `save_hashes_at` as a list of observations -/

/-- A statement about `fetch_jobs`. -/
def Stmt.OnJobs (stmt : Stmt) : Prop := stmt.target = .fetchJobs

theorem enqueue_jobs (hash : SwarmKey) (nowMs : Int) (slots : Nat) :
    (enqueue hash nowMs slots).Uses Stmt.OnJobs := by
  unfold enqueue
  split
  · exact Prog.uses_pure _
  · have hinsert : (Stmt.insertJob hash nowMs).OnJobs := rfl
    have hrevive : (Stmt.updateJobs (.revive hash nowMs)).OnJobs := rfl
    refine (Prog.uses_execute hinsert).bind (fun inserted => ?_)
    split
    · exact (Prog.uses_execute hrevive).bind (fun _ => Prog.uses_pure _)
    · exact Prog.uses_pure _

/-- Admission writes `fetch_jobs` only. -/
theorem Admission.observe_jobs (a : Admission) (hash : SwarmKey) (nowMs : Int) :
    (a.observe hash nowMs).Uses Stmt.OnJobs := by
  have hrevive : ∀ dormant,
      (a.reviveIf dormant hash nowMs).Uses Stmt.OnJobs := by
    intro dormant
    unfold Admission.reviveIf
    split
    · exact (enqueue_jobs hash nowMs _).bind (fun _ => Prog.uses_pure _)
    · exact Prog.uses_pure _
  have henqueue : (a.enqueue hash nowMs).Uses Stmt.OnJobs :=
    (Prog.uses_queryOrFail _).bind (fun _ =>
      (enqueue_jobs hash nowMs _).bind (fun _ => Prog.uses_pure _))
  unfold Admission.observe
  split
  · exact henqueue.bind (fun _ => Prog.uses_pure _)
  · exact (Prog.uses_query _).bind (fun dormant => (hrevive dormant).bind (fun _ =>
      (Prog.uses_query _).bind (fun _ => Prog.uses_pure _)))

theorem Admission.observe_infohashes {a : Admission} {hash : SwarmKey} {nowMs : Int} {db db' : Db}
    {r : Admission × Bool} (h : (a.observe hash nowMs).run db = .ok (r, db')) :
    db'.infohashes = db.infohashes := by
  refine Prog.run_rel (R := fun s s' : Db => s'.infohashes = s.infohashes) (fun _ => rfl)
    (fun _ _ _ hab hbc => hbc.trans hab) (fun stmt s n s' ht hexec => ?_)
    (a.observe_jobs hash nowMs) h
  refine (Db.exec_frame hexec).infohashes (fun he => ?_)
  cases ht.symm.trans he

/-- What the observations do depends on `infohashes` only. -/
theorem upsertAll_congr : ∀ {observations : List Observation} {db e db' : Db},
    e.infohashes = db.infohashes → upsertAll observations e = .ok db' →
    ∃ d, upsertAll observations db = .ok d ∧ d.infohashes = db'.infohashes
  | [], db, e, db', hsame, h => by
    cases h
    exact ⟨db, rfl, hsame.symm⟩
  | o :: rest, db, e, db', hsame, h => by
    obtain ⟨n, mid, hexec, hrest⟩ := upsertAll_cons h
    obtain ⟨hat, rfl⟩ := Db.upsertHashRow_ok hexec
    obtain ⟨first, hfirst, htable⟩ := upsertHash_exec db o.1 hat
    obtain ⟨d, hd, hlast⟩ := @upsertAll_congr rest first _ _ (by rw [htable, ← hsame]) hrest
    refine ⟨d, ?_, hlast⟩
    rw [upsertAll, hfirst]
    exact hd

theorem saveHashesLoop_rows {observedAt admissionAt : Int} : ∀ {hashes : List SwarmKey}
    {a : Admission} {deferred : Nat} {db db' : Db} {r : Nat},
    (saveHashesLoop observedAt admissionAt hashes a deferred).run db = .ok (r, db') →
    ∃ d, upsertAll (hashes.map (fun hash => (hash, observedAt))) db = .ok d ∧
      d.infohashes = db'.infohashes
  | [], _, _, db, db', _, h => by
    cases h
    exact ⟨db, rfl, rfl⟩
  | hash :: rest, a, deferred, db, db', r, h => by
    rw [saveHashesLoop] at h
    obtain ⟨n, first, hexec, h⟩ := Prog.run_bind_ok h
    obtain ⟨q, second, hobserve, hrest⟩ := Prog.run_bind_ok h
    rw [Prog.run_execute] at hexec
    obtain ⟨d, hd, hrows⟩ := saveHashesLoop_rows hrest
    obtain ⟨last, hlast, hsame⟩ := upsertAll_congr (Admission.observe_infohashes hobserve) hd
    refine ⟨last, ?_, hsame.trans hrows⟩
    rw [List.map_cons, upsertAll, hexec]
    exact hlast

section SaveHashes

variable {M : Metainfo} {config : AdmissionConfig} {hashes : List SwarmKey}
  {observedAt admissionAt : Int} {db : Db}

/-- A transaction of `save_hashes_at` that commits makes the rows of its observations. -/
theorem saveHashes_rows {reply : Reply}
    (h : ((StoreOp.saveHashes config hashes observedAt admissionAt).commit M db).1 = .ok reply) :
    ∃ d, upsertAll (hashes.map (fun hash => (hash, observedAt))) db = .ok d ∧
      d.infohashes =
        ((StoreOp.saveHashes config hashes observedAt admissionAt).commit M db).2.infohashes := by
  have hrun := Prog.transact_ok h
  obtain ⟨r, mid, hsave, hpure⟩ := Prog.run_bind_ok hrun
  have hmid : mid = ((StoreOp.saveHashes config hashes observedAt admissionAt).commit M db).2 :=
    congrArg Prod.snd (Except.ok.inj hpure)
  rw [← hmid]
  unfold saveHashesAt at hsave
  split at hsave
  · cases hsave
  · split at hsave
    · cases hsave
    · obtain ⟨a, start, hload, hloop⟩ := Prog.run_bind_ok hsave
      rw [Prog.run_query] at hload
      cases hload
      exact saveHashesLoop_rows hloop

/-- **A committed segment covers its observations.** -/
theorem saveHashes_seen {reply : Reply}
    (h : ((StoreOp.saveHashes config hashes observedAt admissionAt).commit M db).1 = .ok reply)
    {hash : SwarmKey} (hmem : hash ∈ hashes) :
    ((StoreOp.saveHashes config hashes observedAt admissionAt).commit M db).2.Seen hash
      observedAt := by
  obtain ⟨d, hd, hrows⟩ := saveHashes_rows h
  have hseen := upsertAll_seen hd (List.mem_map_of_mem hmem)
  exact hseen.congr (by rw [hrows])

/-- **A segment that is covered changes no row**, whether it commits or fails. -/
theorem saveHashes_again (hseen : ∀ hash ∈ hashes, db.Seen hash observedAt) (k : SwarmKey) :
    ((StoreOp.saveHashes config hashes observedAt admissionAt).commit M db).2.infohashes.get? k =
      db.infohashes.get? k := by
  cases hreply : ((StoreOp.saveHashes config hashes observedAt admissionAt).commit M db).1 with
  | error e =>
    have hsame := Prog.transact_error hreply
    exact congrArg (fun d : Db => d.infohashes.get? k) hsame
  | ok reply =>
    obtain ⟨d, hd, hrows⟩ := saveHashes_rows hreply
    rw [← hrows]
    refine upsertAll_again (fun o ho => ?_) hd k
    obtain ⟨hash, hmem, rfl⟩ := List.mem_map.1 ho
    exact hseen hash hmem

end SaveHashes

end BtSniffer
