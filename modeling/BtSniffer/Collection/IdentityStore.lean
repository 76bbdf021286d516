import BtSniffer.Collection.IdentityRun

/-!
# The identity store over whole runs

Runs of `save` and `backfill_one` from a fresh database, with arbitrary digests and an arbitrary
parser.

* `recordOne_settled`, `recordOne_repeat` — an iteration of the loop of `save` is idempotent;
* `save_repeat` — so is `save`;
* `backfillOne_inv` — the backfill keeps the identity invariant;
* `identity_store` — identities are digests, canonical hashes, no constraint violation, nothing is
  lost, and repetition changes nothing.
-/

set_option autoImplicit false

namespace BtSniffer

open Relational

variable {M : Metainfo}

/-! ## Repeating an iteration -/

/-- Nothing is left to record for an identity, apart from the observation times of its key. -/
structure Recorded (key : SwarmKey) (source : TorrentIdentity) (id : Int) (i : TorrentIdentity)
    (db : Db) : Prop where
  identity : (db.torrentIdentities.get? i).isSome = true
  swarm : ∃ s, db.swarmMetadata.get? (i.swarmKey, id) = some s ∧
    (i = source → s.verification = verificationOf source source)
  jobs : i.swarmKey ≠ key → ∀ j ∈ db.fetchJobs.rows, j.hash = i.swarmKey → j.state = .succeeded
  hints : i.swarmKey ≠ key → ∀ h ∈ db.peerHints.rows, h.hash ≠ i.swarmKey

/-- The observation times of the key of an identity include a time. -/
def Seen (atMs : Int) (i : TorrentIdentity) (db : Db) : Prop :=
  ∃ r, db.infohashes.get? i.swarmKey = some r ∧ r.firstSeen ≤ atMs ∧ atMs ≤ r.lastSeen

theorem verificationOf_of_ne {source i : TorrentIdentity} (h : i ≠ source) :
    verificationOf source i = .hybridDerived := by
  simp [verificationOf, h]

theorem verificationOf_self (source : TorrentIdentity) :
    verificationOf source source ≠ .hybridDerived := by
  cases source <;> simp [verificationOf]

theorem mergeVerification_stable {source i : TorrentIdentity} {s : SwarmMetadata}
    (h : i = source → s.verification = verificationOf source source) :
    Db.mergeVerification (verificationOf source i) s = s := by
  unfold Db.mergeVerification
  by_cases hi : i = source
  · rw [hi, if_neg (verificationOf_self source), ← h hi]
  · rw [if_pos (verificationOf_of_ne hi)]

/-- An upsert that finds its row and would not change it. -/
theorem upsert_eq_self {ρ κ : Type} [DecidableEq κ] {key : ρ → κ} {t : Table ρ key} {r x : ρ}
    {f : ρ → ρ} {hf : ∀ y, key (f y) = key y} (hx : t.get? (key r) = some x) (hfx : f x = x) :
    t.upsert r f hf = t := by
  unfold Table.upsert
  simp only [hx]
  refine Table.update_eq_self (fun y hy hp => ?_)
  have : y = x := Table.eq_of_key hy (Table.get?_eq_some.1 hx).1
    ((by simpa using hp : key y = key r).trans (Table.get?_eq_some.1 hx).2.symm)
  rw [this, hfx]

variable {key : SwarmKey} {source : TorrentIdentity} {atMs id : Int} {db : Db}

/-- One iteration records its identity. -/
theorem recordOne_recorded (i : TorrentIdentity) :
    Recorded key source id i (recordOne key source atMs id db i) := by
  refine ⟨?_, ?_, ?_, ?_⟩
  · show ((db.torrentIdentities.insertNew ⟨i, id⟩).get? i).isSome = true
    rw [Table.get?_insertNew]
    simp
  · show ∃ s, (db.swarmMetadata.upsert ⟨i.swarmKey, id, verificationOf source i⟩
      (Db.mergeVerification (verificationOf source i)) (Db.mergeVerification_key _)).get?
        (i.swarmKey, id) = some s ∧ _
    rw [Table.get?_upsert, if_pos (by simp [SwarmMetadata.key])]
    refine ⟨_, rfl, ?_⟩
    intro hi
    subst hi
    cases db.swarmMetadata.get? (i.swarmKey, id) with
    | none => rfl
    | some s =>
      show (Db.mergeVerification (verificationOf i i) s).verification = _
      simp [Db.mergeVerification, verificationOf_self]
  · intro hk j hj hh
    unfold recordOne at hj
    simp only [if_neg hk] at hj
    obtain ⟨r, hr, rfl⟩ := Table.mem_update.1 hj
    split
    · rfl
    · rename_i hc
      rw [if_neg hc] at hh
      simpa [JobUpdate.cond, hh] using hc
  · intro hk h hh
    unfold recordOne at hh
    simp only [if_neg hk] at hh
    simpa using (Table.mem_delete.1 hh).2

/-- Further iterations keep what is recorded. -/
theorem Recorded.step {i : TorrentIdentity} (h : Recorded key source id i db)
    (j : TorrentIdentity) : Recorded key source id i (recordOne key source atMs id db j) := by
  refine ⟨?_, ?_, ?_, ?_⟩
  · show ((db.torrentIdentities.insertNew ⟨j, id⟩).get? i).isSome = true
    obtain ⟨r, hr⟩ := Option.isSome_iff_exists.1 h.identity
    rw [Table.get?_insertNew, hr]
    rfl
  · obtain ⟨s, hs, hv⟩ := h.swarm
    show ∃ s, (db.swarmMetadata.upsert ⟨j.swarmKey, id, verificationOf source j⟩
      (Db.mergeVerification (verificationOf source j)) (Db.mergeVerification_key _)).get?
        (i.swarmKey, id) = some s ∧ _
    rw [Table.get?_upsert, hs]
    by_cases hk : j.swarmKey = i.swarmKey
    · rw [if_pos (by simp [SwarmMetadata.key, hk])]
      refine ⟨_, rfl, ?_⟩
      intro hi
      show (if verificationOf source j = .hybridDerived then s.verification
        else verificationOf source j) = verificationOf source source
      by_cases hj : j = source
      · rw [hj, if_neg (verificationOf_self source)]
      · rw [if_pos (verificationOf_of_ne hj)]
        exact hv hi
    · rw [if_neg (by simp [SwarmMetadata.key, hk])]
      exact ⟨s, rfl, hv⟩
  · intro hk r hr hh
    unfold recordOne at hr
    simp only at hr
    split at hr
    · exact h.jobs hk r hr hh
    · obtain ⟨x, hx, rfl⟩ := Table.mem_update.1 hr
      split
      · rfl
      · rename_i hc
        rw [if_neg hc] at hh
        exact h.jobs hk x hx hh
  · intro hk r hr
    unfold recordOne at hr
    simp only at hr
    split at hr
    · exact h.hints hk r hr
    · exact h.hints hk r (Table.mem_delete.1 hr).1

/-- Repeating an iteration only merges the observation time. -/
theorem recordOne_repeat {i : TorrentIdentity} (h : Recorded key source id i db) :
    recordOne key source atMs id db i = { db with
      infohashes := db.infohashes.upsert ⟨i.swarmKey, atMs, atMs⟩ (Db.touch atMs)
        (Db.touch_hash atMs) } := by
  have hid : db.torrentIdentities.insertNew ⟨i, id⟩ = db.torrentIdentities := by
    obtain ⟨r, hr⟩ := Option.isSome_iff_exists.1 h.identity
    exact Table.insertNew_of_some hr
  have hswarm : db.swarmMetadata.upsert ⟨i.swarmKey, id, verificationOf source i⟩
      (Db.mergeVerification (verificationOf source i)) (Db.mergeVerification_key _) =
        db.swarmMetadata := by
    obtain ⟨s, hs, hv⟩ := h.swarm
    exact upsert_eq_self hs (mergeVerification_stable hv)
  have hjobs : (if i.swarmKey = key then db.fetchJobs
      else db.fetchJobs.update ((JobUpdate.settleAlias i.swarmKey atMs).cond db)
        (JobUpdate.settleAlias i.swarmKey atMs).set (JobUpdate.set_hash _)) = db.fetchJobs := by
    split
    · rfl
    · rename_i hk
      refine Table.update_eq_self (fun r hr hp => ?_)
      simp only [JobUpdate.cond, Bool.and_eq_true, beq_iff_eq, bne_iff_ne] at hp
      exact absurd (h.jobs hk r hr hp.1) hp.2
  have hhints : (if i.swarmKey = key then db.peerHints
      else db.peerHints.delete (fun h => h.hash == i.swarmKey)) = db.peerHints := by
    split
    · rfl
    · rename_i hk
      refine Table.delete_eq_self (fun r hr => ?_)
      simpa using h.hints hk r hr
  unfold recordOne
  rw [hid, hswarm, hjobs, hhints]

theorem recordOne_seen (i : TorrentIdentity) : Seen atMs i (recordOne key source atMs id db i) := by
  unfold Seen
  show ∃ r, (db.infohashes.upsert ⟨i.swarmKey, atMs, atMs⟩ (Db.touch atMs)
    (Db.touch_hash atMs)).get? i.swarmKey = some r ∧ _
  rw [Table.get?_upsert, if_pos rfl]
  refine ⟨_, rfl, ?_⟩
  cases db.infohashes.get? i.swarmKey with
  | none => exact ⟨le_refl atMs, le_refl atMs⟩
  | some r => exact ⟨min_le_right _ _, le_max_right _ _⟩

theorem Seen.step {i : TorrentIdentity} (h : Seen atMs i db) (j : TorrentIdentity) :
    Seen atMs i (recordOne key source atMs id db j) := by
  obtain ⟨r, hr, h1, h2⟩ := h
  unfold Seen
  show ∃ r, (db.infohashes.upsert ⟨j.swarmKey, atMs, atMs⟩ (Db.touch atMs)
    (Db.touch_hash atMs)).get? i.swarmKey = some r ∧ _
  rw [Table.get?_upsert, hr]
  split
  · exact ⟨_, rfl, min_le_right _ _, le_max_right _ _⟩
  · exact ⟨r, rfl, h1, h2⟩

theorem fold_keeps {P : Db → Prop} (hP : ∀ d j, P d → P (recordOne key source atMs id d j)) :
    ∀ (L : List TorrentIdentity) {db : Db}, P db → P (L.foldl (recordOne key source atMs id) db)
  | [], _, h => h
  | j :: rest, _, h => fold_keeps hP rest (hP _ j h)

/-- After the loop every identity is recorded and its key seen. -/
theorem fold_recorded (key : SwarmKey) (source : TorrentIdentity) (atMs id : Int) :
    ∀ (L : List TorrentIdentity) (db : Db), ∀ i ∈ L,
    Recorded key source id i (L.foldl (recordOne key source atMs id) db) ∧
      Seen atMs i (L.foldl (recordOne key source atMs id) db)
  | [], _, i, hi => by cases hi
  | j :: rest, db, i, hi => by
    rw [List.foldl_cons]
    rcases List.mem_cons.1 hi with rfl | hi
    · exact fold_keeps (fun d j h => ⟨h.1.step j, h.2.step j⟩) rest
        (P := fun d => Recorded key source id i d ∧ Seen atMs i d)
        ⟨recordOne_recorded i, recordOne_seen i⟩
    · exact fold_recorded key source atMs id rest (recordOne key source atMs id db j) i hi

/-- Repeating the loop only merges observation times. -/
theorem fold_repeat (atMs : Int) (L : List TorrentIdentity) {db : Db}
    (h : ∀ i ∈ L, Recorded key source id i db) :
    L.foldl (recordOne key source atMs id) db = { db with
      infohashes := (L.foldl (recordOne key source atMs id) db).infohashes } := by
  induction L generalizing db with
  | nil => rfl
  | cons j rest ih =>
    have hstep : recordOne key source atMs id db j = { db with
        infohashes := (recordOne key source atMs id db j).infohashes } :=
      (recordOne_repeat (h j List.mem_cons_self)).trans rfl
    have hrest : ∀ i ∈ rest, Recorded key source id i (recordOne key source atMs id db j) :=
      fun i hi => (h i (List.mem_cons_of_mem _ hi)).step j
    rw [List.foldl_cons, ih hrest]
    generalize (rest.foldl (recordOne key source atMs id)
      (recordOne key source atMs id db j)).infohashes = hashes
    rw [hstep]

/-- At the same time, repeating the loop changes nothing. -/
theorem fold_repeat_same : ∀ (L : List TorrentIdentity) {db : Db},
    (∀ i ∈ L, Recorded key source id i db ∧ Seen atMs i db) →
      L.foldl (recordOne key source atMs id) db = db
  | [], _, _ => rfl
  | j :: rest, db, h => by
    have hstep : recordOne key source atMs id db j = db := by
      obtain ⟨hrec, r, hr, h1, h2⟩ := h j List.mem_cons_self
      rw [recordOne_repeat hrec]
      have htouch : Db.touch atMs r = r := by
        unfold Db.touch
        rw [min_eq_left h1, max_eq_left h2]
      rw [upsert_eq_self hr htouch]
    rw [List.foldl_cons, hstep]
    exact fold_repeat_same rest (fun i hi => h i (List.mem_cons_of_mem _ hi))

/-! ## Repeating a save -/

/-- **`save` is idempotent**: repeated on the result with any valid time it returns the same id and
merges at most observation times; repeated with the same time it changes nothing. -/
theorem save_repeat {db db' : Db} (h : StoreInv M db) {info : Bytes}
    (hs : (save M key info atMs).run db = .ok (id, db')) (atMs' : Int) (hat' : 0 ≤ atMs') :
    ∃ db'', (save M key info atMs').run db' = .ok (id, db'') ∧
      db'' = { db' with infohashes := db''.infohashes } ∧ (atMs' = atMs → db'' = db') := by
  obtain ⟨e, -, he⟩ | ⟨source, hc, hcase⟩ := save_run h key info atMs
  · rw [he] at hs
    cases hs
  obtain ⟨he, -⟩ | ⟨-, he⟩ | ⟨hat, id₁, db₁, hok, hsaved⟩ := hcase
  · rw [he] at hs
    cases hs
  · rw [he] at hs
    cases hs
  rw [hs] at hok
  cases hok
  have h' := hsaved.inv h hc hat
  obtain ⟨⟨base, hb, hframe⟩, hcounted, hcatalog⟩ := hsaved
  -- the saved row, in the database after the first save
  obtain ⟨m, hm, hinfo, -, hown⟩ := (hb.ready h).row
  obtain ⟨hmeta, hcat, -, -⟩ := fold_rest key source atMs id (M.identities info source) base
  have hrow : m ∈ db'.metadata.rows := by
    rw [hframe.metadata (by decide), hmeta]
    exact (Table.get?_eq_some.1 hm).1
  have hmid : m.id = id := (Table.get?_eq_some.1 hm).2
  have hrec : ∀ i ∈ M.identities info source, Recorded key source id i db' ∧ Seen atMs i db' := by
    intro i hi
    obtain ⟨h1, h2⟩ := fold_recorded key source atMs id (M.identities info source) base i hi
    refine ⟨⟨?_, ?_, ?_, ?_⟩, ?_⟩
    · rw [hframe.identities (by decide)]; exact h1.identity
    · rw [hframe.swarm (by decide)]; exact h1.swarm
    · rw [hframe.fetchJobs (by decide)]; exact h1.jobs
    · rw [hframe.peerHints (by decide)]; exact h1.hints
    · unfold Seen
      rw [hframe.infohashes (by decide)]
      exact h2
  obtain ⟨e, he, -⟩ | ⟨source', hc', hcase⟩ := save_run h' key info atMs'
  · rw [hc] at he
    cases he
  rw [hc] at hc'
  cases hc'
  obtain ⟨-, m', hm', hne, i, hi, hi'⟩ | ⟨hneg, -⟩ | ⟨-, id₂, db'', hok, hsaved'⟩ := hcase
  · rw [h'.owner hm' hrow hi' (hown ▸ hi)] at hne
    exact absurd hinfo hne
  · omega
  obtain ⟨⟨base', hb', hframe'⟩, hcounted', hcatalog'⟩ := hsaved'
  obtain ⟨canonical, hhead⟩ : ∃ c, (M.identities info source).head? = some c :=
    ⟨m.hash, hown ▸ h'.canonical m hrow⟩
  have hcan := List.mem_of_mem_head? hhead
  cases hb' with
  | @stored m' mem bytes own =>
    have hsame : m' = m := h'.owner mem hrow (own ▸ hcan) (hown ▸ hcan)
    have hid : m'.id = id := by rw [hsame, hmid]
    rw [hid] at hok hframe'
    have hfold := fold_repeat atMs' (M.identities info source) (fun i hi => (hrec i hi).1)
    have hcatsame : db''.torrentCatalog = db'.torrentCatalog :=
      (hcatalog' canonical hhead).2 (hcatalog canonical hhead).1
    refine ⟨db'', hok, ?_, ?_⟩
    · refine Db.Counted.ext (h'.counted.congr rfl rfl rfl rfl) hcounted' rfl ?_ ?_ ?_ ?_ ?_ hcatsame
      · rw [hframe'.fetchJobs (by decide), hfold]
      · rw [hframe'.peerHints (by decide), hfold]
      · rw [hframe'.metadata (by decide), hfold]
      · rw [hframe'.identities (by decide), hfold]
      · rw [hframe'.swarm (by decide), hfold]
    · intro hat
      subst hat
      have hid' := fold_repeat_same (M.identities info source) hrec
      refine Db.Counted.ext h'.counted hcounted' ?_ ?_ ?_ ?_ ?_ ?_ hcatsame
      · rw [hframe'.infohashes (by decide), hid']
      · rw [hframe'.fetchJobs (by decide), hid']
      · rw [hframe'.peerHints (by decide), hid']
      · rw [hframe'.metadata (by decide), hid']
      · rw [hframe'.identities (by decide), hid']
      · rw [hframe'.swarm (by decide), hid']
  | fresh head new counted => exact absurd (hown ▸ hcan) (new canonical hcan m hrow)

/-! ## The backfill -/

/-- The invariant speaks about the catalog only through its counters. -/
theorem StoreInv.congr {db db' : Db} (h : StoreInv M db) (hf : Frame .catalog db db')
    (hc : db'.Counted) : StoreInv M db' := by
  have hm := hf.metadata (by decide)
  refine ⟨hc, ?_, ?_, ?_, ?_, ?_, ?_, ?_⟩
  · rw [hm]; exact h.digest
  · rw [hm]; exact h.canonical
  · rw [hm, hf.identities (by decide)]; exact h.identities
  · rw [hm, hf.swarm (by decide)]; exact h.swarm
  · rw [hm, hf.swarm (by decide), hf.infohashes (by decide)]; exact h.swarmRefs
  · rw [hm]; exact h.rows
  · rw [hf.fetchJobs (by decide)]; exact h.jobs

/-- A successful save keeps the invariant and every stored row. -/
theorem save_keeps {db db' : Db} (h : StoreInv M db) {info : Bytes}
    (hs : (save M key info atMs).run db = .ok (id, db')) :
    StoreInv M db' ∧ ∀ m ∈ db.metadata.rows, m ∈ db'.metadata.rows := by
  obtain ⟨e, -, he⟩ | ⟨source, hc, hcase⟩ := save_run h key info atMs
  · rw [he] at hs
    cases hs
  obtain ⟨he, -⟩ | ⟨-, he⟩ | ⟨hat, id₁, db₁, hok, hsaved⟩ := hcase
  · rw [he] at hs
    cases hs
  · rw [he] at hs
    cases hs
  rw [hs] at hok
  cases hok
  refine ⟨hsaved.inv h hc hat, ?_⟩
  intro m hm
  obtain ⟨⟨base, hb, hframe⟩, -, -⟩ := hsaved
  rw [hframe.metadata (by decide), (fold_rest key source atMs id _ base).1]
  exact hb.kept hm

/-- The row the backfill works on. -/
def Db.nextBackfill (db : Db) (cursor : Option Int) : Option MetadataRow :=
  (db.metadata.select (fun m => decide (cursor.getD 0 < m.id) && db.needsCatalog m)
    (Table.orderBy MetadataRow.id) 1).head?

/-- The three paths of `backfill_one`. -/
theorem backfillOne_cases {db db' : Db} {cursor : Option Int} {r : BackfillStep}
    (h : (backfillOne M cursor).run db = .ok (r, db')) :
    (db.nextBackfill cursor = none ∧ db' = db ∧ r = ⟨cursor, (indexState db).complete⟩) ∨
      ∃ m, db.nextBackfill cursor = some m ∧ r = ⟨some m.id, false⟩ ∧
        ((∃ id, (save M m.hash.swarmKey m.boundedInfo m.fetchedAt).run db = .ok (id, db')) ∨
          ∃ b n mid, (ensureCatalog M m.hash []).run db = .ok (b, mid) ∧
            mid.exec (.markMismatch m.hash) = .ok (n, db')) := by
  unfold backfillOne at h
  obtain ⟨row, mid, hq, h⟩ := Prog.run_bind_ok h
  rw [Prog.run_query] at hq
  cases hq
  cases hrow : db.nextBackfill cursor with
  | none =>
    rw [Db.nextBackfill] at hrow
    rw [hrow] at h
    cases h
    exact .inl ⟨rfl, rfl, rfl⟩
  | some m =>
    refine .inr ⟨m, rfl, ?_⟩
    rw [Db.nextBackfill] at hrow
    simp only [hrow] at h
    split at h
    · obtain ⟨id, mid, hsave, h⟩ := Prog.run_bind_ok h
      cases h
      exact ⟨rfl, .inl ⟨id, hsave⟩⟩
    · obtain ⟨b, mid, hens, h⟩ := Prog.run_bind_ok h
      obtain ⟨n, mid', hmark, h⟩ := Prog.run_bind_ok h
      cases h
      rw [Prog.run_execute] at hmark
      exact ⟨rfl, .inr ⟨b, n, mid, hens, hmark⟩⟩

/-- The backfill keeps the invariant and every stored row. -/
theorem backfillOne_keeps {db db' : Db} (h : StoreInv M db) {cursor : Option Int}
    {r : BackfillStep} (hrun : (backfillOne M cursor).run db = .ok (r, db')) :
    StoreInv M db' ∧ ∀ m ∈ db.metadata.rows, m ∈ db'.metadata.rows := by
  obtain ⟨-, rfl, -⟩ | ⟨m, hm, -, ⟨id, hsave⟩ | ⟨b, n, mid, hens, hmark⟩⟩ := backfillOne_cases hrun
  · exact ⟨h, fun _ hm => hm⟩
  · exact save_keeps h hsave
  · have hmem : m ∈ db.metadata.rows := (Table.mem_of_mem_select (List.mem_of_mem_head? hm)).1
    obtain ⟨x, hx⟩ : ∃ x, db.metadataByHash m.hash = some x :=
      Option.isSome_iff_exists.1 (List.find?_isSome.2 ⟨m, hmem, by simp⟩)
    obtain ⟨b', mid', hens', hcounted, hframe, -⟩ := ensureCatalog_run (M := M) h.counted hx []
    rw [hens] at hens'
    cases hens'
    have hframe' := hframe.trans (Db.exec_frame hmark)
    refine ⟨h.congr hframe' (Db.exec_counted hcounted hmark), ?_⟩
    rw [hframe'.metadata (by decide)]
    exact fun _ hm => hm

/-! ## Runs -/

/-- The transactions of the identity store. -/
inductive IdentityOp where
  | save (key : SwarmKey) (info : Bytes) (atMs : Int)
  | backfillOne (cursor : Option Int)

/-- One transaction: committed on success, rolled back on error. -/
def IdentityOp.commit (M : Metainfo) : IdentityOp → Db → Db
  | .save key info atMs, db => ((BtSniffer.save M key info atMs).commit db).2
  | .backfillOne cursor, db => ((BtSniffer.backfillOne M cursor).commit db).2

/-- The state after a list of transactions. -/
def IdentityOp.replay (M : Metainfo) (ops : List IdentityOp) (db : Db) : Db :=
  ops.foldl (fun db op => op.commit M db) db

theorem IdentityOp.commit_keeps {db : Db} (h : StoreInv M db) (op : IdentityOp) :
    StoreInv M (op.commit M db) ∧ ∀ m ∈ db.metadata.rows, m ∈ (op.commit M db).metadata.rows := by
  cases op with
  | save key info atMs =>
    exact Prog.transact_keeps (I := fun d => StoreInv M d ∧ ∀ m ∈ db.metadata.rows,
      m ∈ d.metadata.rows) ⟨h, fun _ hm => hm⟩ (fun _ _ hrun => save_keeps h hrun)
  | backfillOne cursor =>
    exact Prog.transact_keeps (I := fun d => StoreInv M d ∧ ∀ m ∈ db.metadata.rows,
      m ∈ d.metadata.rows) ⟨h, fun _ hm => hm⟩ (fun _ _ hrun => backfillOne_keeps h hrun)

theorem IdentityOp.replay_keeps (ops : List IdentityOp) {db : Db} (h : StoreInv M db) :
    StoreInv M (replay M ops db) ∧ ∀ m ∈ db.metadata.rows, m ∈ (replay M ops db).metadata.rows := by
  induction ops generalizing db with
  | nil => exact ⟨h, fun _ hm => hm⟩
  | cons op rest ih =>
    obtain ⟨hinv, hkeep⟩ := op.commit_keeps h
    obtain ⟨hinv', hkeep'⟩ := ih hinv
    exact ⟨hinv', fun m hm => hkeep' m (hkeep m hm)⟩

/-- Every run from a fresh database keeps the invariant. -/
theorem IdentityOp.replay_inv (ops : List IdentityOp) : StoreInv M (replay M ops Db.empty) :=
  (replay_keeps ops (StoreInv.empty M)).1

/-- The errors of `save`. -/
theorem save_error {db : Db} (h : StoreInv M db) {info : Bytes} {e : StorageError}
    (he : (save M key info atMs).run db = .error e) :
    e = .conflict ∨ (∃ message, e = .invalid message) ∨ (atMs < 0 ∧ e = .database .check) := by
  obtain ⟨e', hc, he'⟩ | ⟨source, -, ⟨he', -⟩ | ⟨hat, he'⟩ | ⟨-, id, db', hok, -⟩⟩ :=
    save_run h key info atMs
  · rw [he] at he'
    cases he'
    rcases checkInfo_error hc with h | h
    · exact .inl h
    · exact .inr (.inl h)
  · rw [he] at he'
    cases he'
    exact .inl rfl
  · rw [he] at he'
    cases he'
    exact .inr (.inr ⟨hat, rfl⟩)
  · rw [he] at hok
    cases hok

/-- Other bytes under a stored identity are refused. -/
theorem save_conflict {db : Db} (atMs : Int) (h : StoreInv M db) {info : Bytes} {m : MetadataRow}
    {i : TorrentIdentity} (hc : checkInfo M key info = .ok source) (hm : m ∈ db.metadata.rows)
    (hne : m.info ≠ info) (hi : i ∈ M.identities info source) (hown : i ∈ m.own M) :
    (save M key info atMs).run db = .error .conflict := by
  have hfind : (findExisting info (M.identities info source) none).run db = .error .conflict := by
    obtain ⟨hrun, -⟩ | ⟨m', hm', hinfo, hown', -⟩ | ⟨-, hnew⟩ := findExisting_spec h info source
    · exact hrun
    · rw [h.owner hm hm' hown (hown' ▸ hi)] at hne
      exact absurd hinfo hne
    · exact absurd hown (hnew i hi m hm)
  simp only [save, hc, saveMatched]
  exact Prog.run_bind_of_error hfind

/-- **The identity store.**  In every state reached from a fresh database by committed saves and
catalog backfills, for arbitrary digests and an arbitrary parser:
identities are digests of the stored bytes; every row has an identity, and its canonical hash is
the first digest of a valid hybrid or else its only identity; a save never violates a unique or
foreign key, and with a valid time it fails only with `Conflict` or `Invalid`; rows are never lost
or changed and other bytes under a stored identity are refused; a repeated save returns the same id
and changes at most observation times, nothing at all if the time is the same. -/
theorem identity_store (M : Metainfo) (ops : List IdentityOp) :
    (∀ r ∈ (IdentityOp.replay M ops Db.empty).torrentIdentities.rows, ∃ m,
      (IdentityOp.replay M ops Db.empty).metadata.get? r.metadataId = some m ∧
        r.identity = M.digest m.info r.identity.kind) ∧
    (∀ m ∈ (IdentityOp.replay M ops Db.empty).metadata.rows,
      (⟨m.hash, m.id⟩ : IdentityRow) ∈
        (IdentityOp.replay M ops Db.empty).torrentIdentities.rows ∧
      (M.validHybrid m.info = true → m.hash = .v1 (M.sha1 m.info)) ∧
      (M.validHybrid m.info = false →
        ∀ r ∈ (IdentityOp.replay M ops Db.empty).torrentIdentities.rows,
          r.metadataId = m.id → r.identity = m.hash)) ∧
    (∀ key info atMs e, (save M key info atMs).run (IdentityOp.replay M ops Db.empty) = .error e →
      e ≠ .database .unique ∧ e ≠ .database .foreignKey ∧
        (0 ≤ atMs → e = .conflict ∨ ∃ message, e = .invalid message)) ∧
    (∀ later, ∀ m ∈ (IdentityOp.replay M ops Db.empty).metadata.rows,
      m ∈ (IdentityOp.replay M (ops ++ later) Db.empty).metadata.rows) ∧
    (∀ key info atMs source m i, M.matchIdentity info key = some source →
      m ∈ (IdentityOp.replay M ops Db.empty).metadata.rows → m.info ≠ info →
      i ∈ M.identities info source →
      (⟨i, m.id⟩ : IdentityRow) ∈ (IdentityOp.replay M ops Db.empty).torrentIdentities.rows →
      ∃ e, (save M key info atMs).commit (IdentityOp.replay M ops Db.empty) =
          (.error e, IdentityOp.replay M ops Db.empty) ∧
        (checkInfo M key info = .ok source → e = .conflict)) ∧
    (∀ key info atMs id db',
      (save M key info atMs).run (IdentityOp.replay M ops Db.empty) = .ok (id, db') →
      ∀ atMs', 0 ≤ atMs' → ∃ db'', (save M key info atMs').run db' = .ok (id, db'') ∧
        db'' = { db' with infohashes := db''.infohashes } ∧ (atMs' = atMs → db'' = db')) := by
  have h : StoreInv M (IdentityOp.replay M ops Db.empty) := IdentityOp.replay_inv ops
  generalize hdb : IdentityOp.replay M ops Db.empty = db at *
  refine ⟨?_, ?_, ?_, ?_, ?_, ?_⟩
  · intro r hr
    obtain ⟨m, hm, hid, hi⟩ := (h.identities r.identity r.metadataId).1 (Table.get?_key hr)
    refine ⟨m, by rw [← hid]; exact Table.get?_key hm, ?_⟩
    unfold MetadataRow.own Metainfo.identities at hi
    split at hi
    · simp only [List.mem_cons, List.not_mem_nil, or_false] at hi
      rcases hi with hi | hi <;> rw [hi] <;> rfl
    · rw [List.mem_singleton] at hi
      rw [hi]
      exact h.digest m hm
  · intro m hm
    refine ⟨?_, ?_, ?_⟩
    · exact (Table.get?_eq_some.1 ((h.identities m.hash m.id).2 ⟨m, hm, rfl, hash_mem_own h hm⟩)).1
    · intro hv
      have := h.canonical m hm
      simp only [MetadataRow.own, Metainfo.identities, hv, if_true, List.head?_cons] at this
      injection this with he
      exact he.symm
    · intro hv r hr hid
      obtain ⟨m', hm', hid', hi⟩ := (h.identities r.identity r.metadataId).1 (Table.get?_key hr)
      rw [Table.eq_of_key hm' hm (hid'.trans hid)] at hi
      simpa [MetadataRow.own, Metainfo.identities, hv] using hi
  · intro key info atMs e he
    rcases save_error h he with rfl | ⟨message, rfl⟩ | ⟨hat, rfl⟩
    · exact ⟨by simp, by simp, fun _ => .inl rfl⟩
    · exact ⟨by simp, by simp, fun _ => .inr ⟨message, rfl⟩⟩
    · exact ⟨by simp, by simp, fun hpos => by omega⟩
  · intro later m hm
    unfold IdentityOp.replay at hdb ⊢
    rw [List.foldl_append, hdb]
    exact (IdentityOp.replay_keeps later h).2 m hm
  · intro key info atMs source m i hmatch hm hne hi hrow
    have hown : i ∈ m.own M := by
      obtain ⟨m', hm', hid', hi'⟩ := (h.identities i m.id).1 (Table.get?_key hrow)
      rw [Table.eq_of_key hm' hm hid'] at hi'
      exact hi'
    cases hc : checkInfo M key info with
    | ok source' =>
      have hs := (checkInfo_ok hc).2
      rw [hmatch] at hs
      cases hs
      have hrun := save_conflict atMs h hc hm hne hi hown
      rw [Script.run] at hrun
      refine ⟨.conflict, ?_, fun _ => rfl⟩
      simp [Script.commit, Prog.transact, hrun]
    | error e =>
      have hrun : (save M key info atMs).run db = .error e := by simp [save, hc, Script.run]
      rw [Script.run] at hrun
      refine ⟨e, ?_, fun hok => by cases hok⟩
      simp [Script.commit, Prog.transact, hrun]
  · intro key info atMs id db' hs atMs' hat'
    exact save_repeat h hs atMs' hat'

end BtSniffer
