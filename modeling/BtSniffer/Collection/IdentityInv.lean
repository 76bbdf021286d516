import BtSniffer.Collection.MetadataStore
import BtSniffer.Storage.CatalogCounters
import BtSniffer.Storage.Frame

/-!
# The identity invariant of the metadata store

`StoreInv` describes every database reached from a fresh one: a metadata row owns exactly the
identities its bytes determine (both digests for a valid hybrid, else the one identity it was saved
under), `torrent_identities` holds exactly the owned identities, and every owned identity has its
swarm relation.  Under it the look-up of `save` finds at most one row, so the merge and the rename
never run.

* `findExisting_spec` — the three outcomes of the look-up;
* `recordIdentities_run` — the loop over the identities as a fold of `recordOne`;
* `ensureCatalog_run` — the catalog row is written and complete.
-/

set_option autoImplicit false

namespace BtSniffer

open Relational

/-- The identities a stored row stands for. -/
def MetadataRow.own (M : Metainfo) (m : MetadataRow) : List TorrentIdentity :=
  M.identities m.info m.hash

/-- The metadata tables determine each other. -/
structure StoreInv (M : Metainfo) (db : Db) : Prop where
  counted : db.Counted
  digest : ∀ m ∈ db.metadata.rows, m.hash = M.digest m.info m.hash.kind
  canonical : ∀ m ∈ db.metadata.rows, (m.own M).head? = some m.hash
  identities : ∀ i id, db.torrentIdentities.get? i = some ⟨i, id⟩ ↔
    ∃ m ∈ db.metadata.rows, m.id = id ∧ i ∈ m.own M
  swarm : ∀ m ∈ db.metadata.rows, ∀ i ∈ m.own M,
    (db.swarmMetadata.get? (i.swarmKey, m.id)).isSome = true
  swarmRefs : ∀ s ∈ db.swarmMetadata.rows, (db.infohashes.get? s.hash).isSome = true ∧
    (db.metadata.get? s.metadataId).isSome = true
  rows : ∀ m ∈ db.metadata.rows, m.check = true
  jobs : ∀ j ∈ db.fetchJobs.rows, j.check = true

theorem StoreInv.empty (M : Metainfo) : StoreInv M Db.empty where
  counted := Db.empty_counted
  digest := fun _ h => by cases h
  canonical := fun _ h => by cases h
  identities := by
    intro i id
    constructor
    · intro h
      cases h
    · rintro ⟨m, hm, -⟩
      cases hm
  swarm := fun _ h => by cases h
  swarmRefs := fun _ h => by cases h
  rows := fun _ h => by cases h
  jobs := fun _ h => by cases h

variable {M : Metainfo} {db : Db}

/-! ## Rows and their identities -/

theorem hash_mem_own (h : StoreInv M db) {m : MetadataRow} (hm : m ∈ db.metadata.rows) :
    m.hash ∈ m.own M :=
  List.mem_of_mem_head? (h.canonical m hm)

/-- An identity belongs to one row. -/
theorem StoreInv.owner (h : StoreInv M db) {m m' : MetadataRow} (hm : m ∈ db.metadata.rows)
    (hm' : m' ∈ db.metadata.rows) {i : TorrentIdentity} (hi : i ∈ m.own M) (hi' : i ∈ m'.own M) :
    m = m' := by
  have h1 := (h.identities i m.id).2 ⟨m, hm, rfl, hi⟩
  have h2 := (h.identities i m'.id).2 ⟨m', hm', rfl, hi'⟩
  rw [h1] at h2
  injection h2 with h2
  injection h2 with _ hid
  exact Table.eq_of_key hm hm' hid

/-- The identity table names a row or there is none. -/
theorem StoreInv.get?_identity (h : StoreInv M db) (i : TorrentIdentity) :
    (db.torrentIdentities.get? i = none ∧ ∀ m ∈ db.metadata.rows, i ∉ m.own M) ∨
      ∃ m ∈ db.metadata.rows, i ∈ m.own M ∧ db.torrentIdentities.get? i = some ⟨i, m.id⟩ := by
  cases hg : db.torrentIdentities.get? i with
  | none =>
    refine .inl ⟨rfl, ?_⟩
    intro m hm hi
    have := (h.identities i m.id).2 ⟨m, hm, rfl, hi⟩
    rw [hg] at this
    cases this
  | some r =>
    obtain ⟨-, hr⟩ := Table.get?_eq_some.1 hg
    obtain ⟨identity, id⟩ := r
    simp only at hr
    subst hr
    obtain ⟨m, hm, rfl, hi⟩ := (h.identities _ _).1 hg
    exact .inr ⟨m, hm, hi, rfl⟩

/-- The look-up of `save` finds exactly the owner. -/
theorem findIdentity_eq (h : StoreInv M db) (i : TorrentIdentity) (info : Bytes) :
    (db.findIdentity i info = none ∧ ∀ m ∈ db.metadata.rows, i ∉ m.own M) ∨
      ∃ m ∈ db.metadata.rows, i ∈ m.own M ∧ db.findIdentity i info = some (m.id, m.info == info) := by
  obtain ⟨hnone, hno⟩ | ⟨m, hm, hi, hsome⟩ := h.get?_identity i
  · refine .inl ⟨?_, hno⟩
    have hby : db.metadataByHash i = none := by
      cases hb : db.metadataByHash i with
      | none => rfl
      | some m =>
        obtain ⟨hm, hh⟩ := Db.mem_of_metadataByHash hb
        exact absurd (hh ▸ hash_mem_own h hm) (hno m hm)
    simp [Db.findIdentity, hnone, hby]
  · refine .inr ⟨m, hm, hi, ?_⟩
    simp [Db.findIdentity, hsome, Table.get?_key hm]

/-- Equal bytes and a common identity: the row owns exactly the identities to be saved. -/
theorem own_eq_identities {m : MetadataRow} {info : Bytes} {source i : TorrentIdentity}
    (hinfo : m.info = info) (hi : i ∈ m.own M) (hs : i ∈ M.identities info source) :
    m.own M = M.identities info source := by
  unfold MetadataRow.own Metainfo.identities at *
  rw [hinfo] at hi ⊢
  split
  · rfl
  · rename_i hv
    rw [if_neg hv, List.mem_singleton] at hi hs
    rw [← hi, ← hs]

/-! ## The look-up -/

theorem findExisting_cons (info : Bytes) (i : TorrentIdentity) (rest : List TorrentIdentity)
    (found : Option Int) (db : Db) :
    (findExisting info (i :: rest) found).run db =
      match db.findIdentity i info with
      | none => (findExisting info rest found).run db
      | some (id, same) =>
        if !same then .error .conflict
        else
          match found with
          | none => (findExisting info rest (some id)).run db
          | some keep =>
            if keep = id then (findExisting info rest (some keep)).run db
            else (mergeIdentical keep id >>= fun _ => findExisting info rest (some keep)).run db := by
  rw [findExisting]
  simp only [Script.run, Prog.run_bind, Prog.run_query]
  cases db.findIdentity i info with
  | none => rfl
  | some r =>
    obtain ⟨id, same⟩ := r
    cases same with
    | false => rfl
    | true =>
      cases found with
      | none => rfl
      | some keep =>
        simp only [Bool.not_true, Bool.false_eq_true, if_false]
        split
        · rfl
        · rw [Prog.run_bind]

/-- Once the owner is found, the other identities lead to it again. -/
theorem findExisting_found (h : StoreInv M db) {info : Bytes} {m : MetadataRow}
    (hm : m ∈ db.metadata.rows) (hinfo : m.info = info) : ∀ {L : List TorrentIdentity},
    (∀ i ∈ L, i ∈ m.own M) → (findExisting info L (some m.id)).run db = .ok (some m.id, db)
  | [], _ => rfl
  | i :: rest, hL => by
    rw [findExisting_cons]
    have hi := hL i List.mem_cons_self
    obtain ⟨-, hno⟩ | ⟨m', hm', hi', hfind⟩ := findIdentity_eq h i info
    · exact absurd hi (hno m hm)
    · rw [h.owner hm' hm hi' hi] at hfind
      simp only [hfind, hinfo, beq_self_eq_true, Bool.not_true, Bool.false_eq_true, if_false, if_true]
      exact findExisting_found h hm hinfo (fun i hi => hL i (List.mem_cons_of_mem _ hi))

/-- **The three outcomes of the look-up**: a stored row with other bytes, the stored row of this
torrent, or none. -/
theorem findExisting_spec (h : StoreInv M db) (info : Bytes) (source : TorrentIdentity) :
    ((findExisting info (M.identities info source) none).run db = .error .conflict ∧
        ∃ m ∈ db.metadata.rows, m.info ≠ info ∧ ∃ i ∈ M.identities info source, i ∈ m.own M) ∨
      (∃ m ∈ db.metadata.rows, m.info = info ∧ m.own M = M.identities info source ∧
        (findExisting info (M.identities info source) none).run db = .ok (some m.id, db)) ∨
      ((findExisting info (M.identities info source) none).run db = .ok (none, db) ∧
        ∀ i ∈ M.identities info source, ∀ m ∈ db.metadata.rows, i ∉ m.own M) := by
  -- induction over a suffix of the identities none of which has been found so far
  have loop : ∀ L : List TorrentIdentity, (∀ i ∈ L, i ∈ M.identities info source) →
      ((findExisting info L none).run db = .error .conflict ∧
        ∃ m ∈ db.metadata.rows, m.info ≠ info ∧ ∃ i ∈ M.identities info source, i ∈ m.own M) ∨
      (∃ m ∈ db.metadata.rows, m.info = info ∧ m.own M = M.identities info source ∧
        (findExisting info L none).run db = .ok (some m.id, db)) ∨
      ((findExisting info L none).run db = .ok (none, db) ∧
        ∀ i ∈ L, ∀ m ∈ db.metadata.rows, i ∉ m.own M) := by
    intro L hL
    induction L with
    | nil => exact .inr (.inr ⟨rfl, fun _ hi => by cases hi⟩)
    | cons i rest ih =>
      rw [findExisting_cons]
      have hmem := hL i List.mem_cons_self
      have hrest := fun j hj => hL j (List.mem_cons_of_mem i hj)
      obtain ⟨hfind, hno⟩ | ⟨m, hm, hi, hfind⟩ := findIdentity_eq h i info
      · rw [hfind]
        obtain hc | hs | ⟨hr, hn⟩ := ih hrest
        · exact .inl hc
        · exact .inr (.inl hs)
        · refine .inr (.inr ⟨hr, ?_⟩)
          intro j hj
          rcases List.mem_cons.1 hj with rfl | hj
          · exact hno
          · exact hn j hj
      · rw [hfind]
        by_cases hinfo : m.info = info
        · have hown := own_eq_identities hinfo hi hmem
          refine .inr (.inl ⟨m, hm, hinfo, hown, ?_⟩)
          simp only [hinfo, beq_self_eq_true, Bool.not_true, Bool.false_eq_true, if_false]
          exact findExisting_found h hm hinfo (fun j hj => hown ▸ hrest j hj)
        · refine .inl ⟨?_, m, hm, hinfo, i, hmem, hi⟩
          simp [hinfo]
  exact loop _ (fun _ hi => hi)

/-! ## The loop over the identities -/

/-- The effect of one iteration of the loop of `save`. -/
def recordOne (key : SwarmKey) (source : TorrentIdentity) (atMs : Int) (id : Int) (db : Db)
    (i : TorrentIdentity) : Db :=
  { db with
    torrentIdentities := db.torrentIdentities.insertNew ⟨i, id⟩
    infohashes := db.infohashes.upsert ⟨i.swarmKey, atMs, atMs⟩ (Db.touch atMs) (Db.touch_hash atMs)
    swarmMetadata := db.swarmMetadata.upsert ⟨i.swarmKey, id, verificationOf source i⟩
      (Db.mergeVerification (verificationOf source i)) (Db.mergeVerification_key _)
    fetchJobs :=
      if i.swarmKey = key then db.fetchJobs
      else db.fetchJobs.update ((JobUpdate.settleAlias i.swarmKey atMs).cond db)
        (JobUpdate.settleAlias i.swarmKey atMs).set (JobUpdate.set_hash _)
    peerHints :=
      if i.swarmKey = key then db.peerHints
      else db.peerHints.delete (fun h => h.hash == i.swarmKey) }

/-- No identity of the list is in the way: it is recorded already, or the row has none of its
kind. -/
def Db.Free (db : Db) (id : Int) (L : List TorrentIdentity) : Prop :=
  (L.map TorrentIdentity.kind).Nodup ∧ ∀ i ∈ L, (db.torrentIdentities.get? i).isSome = true ∨
    ∀ r ∈ db.torrentIdentities.rows, r.metadataId = id → r.identity.kind ≠ i.kind

theorem Db.Free.tail {db : Db} {id : Int} {i : TorrentIdentity} {L : List TorrentIdentity}
    (h : db.Free id (i :: L)) {db' : Db}
    (hdb : db'.torrentIdentities = db.torrentIdentities.insertNew ⟨i, id⟩) : db'.Free id L := by
  obtain ⟨hnd, hfree⟩ := h
  rw [List.map_cons, List.nodup_cons] at hnd
  refine ⟨hnd.2, ?_⟩
  intro j hj
  rw [hdb]
  rcases hfree j (List.mem_cons_of_mem _ hj) with hs | hk
  · left
    rw [Table.get?_insertNew]
    obtain ⟨r, hr⟩ := Option.isSome_iff_exists.1 hs
    simp [hr]
  · right
    intro r hr hid
    rcases Table.mem_insertNew hr with hr | rfl
    · exact hk r hr hid
    · intro he
      exact hnd.1 (List.mem_map.2 ⟨j, hj, he.symm⟩)

theorem exec_insertIdentity {db : Db} {i : TorrentIdentity} {id : Int}
    (hm : (db.metadata.get? id).isSome = true)
    (hfree : (db.torrentIdentities.get? i).isSome = true ∨
      ∀ r ∈ db.torrentIdentities.rows, r.metadataId = id → r.identity.kind ≠ i.kind) :
    ∃ n, db.insertIdentityRow i id = .ok (n, { db with
      torrentIdentities := db.torrentIdentities.insertNew ⟨i, id⟩ }) := by
  unfold Db.insertIdentityRow
  cases hg : db.torrentIdentities.get? i with
  | some r =>
    refine ⟨0, ?_⟩
    have hsame : db.torrentIdentities.insertNew ⟨i, id⟩ = db.torrentIdentities :=
      Table.insertNew_of_some hg
    rw [hsame]
    rfl
  | none =>
    refine ⟨1, ?_⟩
    have hk : db.torrentIdentities.any
        (fun r => r.metadataId == id && r.identity.kind == i.kind) = false := by
      rw [Table.any_eq_false]
      intro r hr
      rcases hfree with hs | hk
      · rw [hg] at hs
        cases hs
      · have := hk r hr
        simpa using this
    have hn : (db.metadata.get? id).isNone = false := by
      rw [← Option.not_isSome, hm]
      rfl
    simp only [hk, hn, Option.isSome_none, Bool.false_eq_true, if_false]

theorem settle_check {j : FetchJob} (h : j.check = true) (hash : SwarmKey) (atMs : Int) :
    ((JobUpdate.settleAlias hash atMs).set j).check = true := by
  simp only [FetchJob.check, Bool.and_eq_true, decide_eq_true_eq] at h ⊢
  exact ⟨h.1, le_trans h.2 (le_max_left j.updatedAt atMs)⟩

theorem settleAlias_run {db : Db} (hjobs : ∀ j ∈ db.fetchJobs.rows, j.check = true)
    (key swarm : SwarmKey) (atMs : Int) :
    (settleAlias key swarm atMs).run db = .ok ((), { db with
      fetchJobs :=
        if swarm = key then db.fetchJobs
        else db.fetchJobs.update ((JobUpdate.settleAlias swarm atMs).cond db)
          (JobUpdate.settleAlias swarm atMs).set (JobUpdate.set_hash _)
      peerHints :=
        if swarm = key then db.peerHints
        else db.peerHints.delete (fun h => h.hash == swarm) }) := by
  unfold settleAlias
  by_cases hk : swarm = key
  · simp [hk, Script.run]
  · have hupd := Db.updateJobRows_of db (.settleAlias swarm atMs)
      (fun j hj _ => settle_check (hjobs j hj) swarm atMs)
    simp only [hk, if_false, Script.run, Prog.run_bind, Prog.run_execute, Db.exec, hupd,
      Prog.run_pure]
    rfl

theorem recordOne_jobs {db : Db} (hjobs : ∀ j ∈ db.fetchJobs.rows, j.check = true) (key : SwarmKey)
    (source : TorrentIdentity) (atMs id : Int) (i : TorrentIdentity) :
    ∀ j ∈ (recordOne key source atMs id db i).fetchJobs.rows, j.check = true := by
  intro j hj
  unfold recordOne at hj
  simp only at hj
  split at hj
  · exact hjobs j hj
  · obtain ⟨r, hr, rfl⟩ := Table.mem_update.1 hj
    split
    · exact settle_check (hjobs r hr) _ _
    · exact hjobs r hr

/-- **The loop succeeds and is the fold of its iterations.** -/
theorem recordIdentities_run {key : SwarmKey} {source : TorrentIdentity} {atMs id : Int}
    (hat : 0 ≤ atMs) : ∀ {L : List TorrentIdentity} {db : Db},
    (db.metadata.get? id).isSome = true → (∀ j ∈ db.fetchJobs.rows, j.check = true) →
    db.Free id L →
    (recordIdentities key source atMs id L).run db =
      .ok ((), L.foldl (recordOne key source atMs id) db)
  | [], db, _, _, _ => rfl
  | i :: rest, db, hm, hjobs, hfree => by
    obtain ⟨n, hins⟩ := exec_insertIdentity hm (hfree.2 i List.mem_cons_self)
    have hhash : ∀ d : Db, d.upsertHashRow i.swarmKey atMs = .ok (1, { d with
        infohashes := d.infohashes.upsert ⟨i.swarmKey, atMs, atMs⟩ (Db.touch atMs)
          (Db.touch_hash atMs) }) := by
      intro d
      unfold Db.upsertHashRow
      rw [if_neg (by omega)]
    have hswarm : ∀ d : Db, (d.infohashes.get? i.swarmKey).isSome = true →
        (d.metadata.get? id).isSome = true →
        d.upsertSwarmRow ⟨i.swarmKey, id, verificationOf source i⟩ = .ok (1, { d with
          swarmMetadata := d.swarmMetadata.upsert ⟨i.swarmKey, id, verificationOf source i⟩
            (Db.mergeVerification (verificationOf source i)) (Db.mergeVerification_key _) }) := by
      intro d h1 h2
      unfold Db.upsertSwarmRow
      rw [if_neg (by simp [← Option.not_isSome, h1, h2])]
    have hkey : ((db.infohashes.upsert ⟨i.swarmKey, atMs, atMs⟩ (Db.touch atMs)
        (Db.touch_hash atMs)).get? i.swarmKey).isSome = true := by
      rw [Table.get?_upsert]
      simp
    rw [recordIdentities]
    refine (Prog.run_execute_of_ok hins).trans ?_
    refine (Prog.run_execute_of_ok (hhash _)).trans ?_
    refine (Prog.run_execute_of_ok (hswarm _ ?_ ?_)).trans ?_
    · exact hkey
    · exact hm
    refine (Prog.run_bind_of_ok (settleAlias_run ?_ key i.swarmKey atMs)).trans ?_
    · exact hjobs
    exact recordIdentities_run hat hm (recordOne_jobs hjobs key source atMs id i) (hfree.tail rfl)

/-! ## The tables after the loop -/

section Fold

variable (key : SwarmKey) (source : TorrentIdentity) (atMs id : Int)

/-- The loop does not touch the metadata rows or the catalog. -/
theorem fold_rest (L : List TorrentIdentity) (db : Db) :
    (L.foldl (recordOne key source atMs id) db).metadata = db.metadata ∧
      (L.foldl (recordOne key source atMs id) db).torrentCatalog = db.torrentCatalog ∧
      (L.foldl (recordOne key source atMs id) db).catalogState = db.catalogState ∧
      (L.foldl (recordOne key source atMs id) db).catalogFts = db.catalogFts := by
  induction L generalizing db with
  | nil => exact ⟨rfl, rfl, rfl, rfl⟩
  | cons i rest ih => exact ih (recordOne key source atMs id db i)

theorem fold_identities (L : List TorrentIdentity) (db : Db) (k : TorrentIdentity) :
    (L.foldl (recordOne key source atMs id) db).torrentIdentities.get? k =
      (db.torrentIdentities.get? k).or (if k ∈ L then some ⟨k, id⟩ else none) := by
  induction L generalizing db with
  | nil => simp
  | cons i rest ih =>
    rw [List.foldl_cons, ih]
    change ((db.torrentIdentities.insertNew ⟨i, id⟩).get? k).or _ = _
    rw [Table.get?_insertNew, Option.or_assoc]
    congr 1
    by_cases hk : i = k
    · subst hk
      simp
    · have hk' : k ≠ i := Ne.symm hk
      simp [hk, hk']

theorem fold_infohashes (L : List TorrentIdentity) (db : Db) (k : SwarmKey) :
    ((L.foldl (recordOne key source atMs id) db).infohashes.get? k).isSome = true ↔
      (db.infohashes.get? k).isSome = true ∨ ∃ i ∈ L, i.swarmKey = k := by
  induction L generalizing db with
  | nil => simp
  | cons i rest ih =>
    rw [List.foldl_cons, ih]
    change ((db.infohashes.upsert ⟨i.swarmKey, atMs, atMs⟩ (Db.touch atMs)
      (Db.touch_hash atMs)).get? k).isSome = true ∨ _ ↔ _
    rw [Table.get?_upsert]
    by_cases hk : i.swarmKey = k
    · simp [hk]
    · simp [hk]

theorem fold_swarm (L : List TorrentIdentity) (db : Db) (k : SwarmKey) (id' : Int) :
    ((L.foldl (recordOne key source atMs id) db).swarmMetadata.get? (k, id')).isSome = true ↔
      (db.swarmMetadata.get? (k, id')).isSome = true ∨ id' = id ∧ ∃ i ∈ L, i.swarmKey = k := by
  induction L generalizing db with
  | nil => simp
  | cons i rest ih =>
    rw [List.foldl_cons, ih]
    change ((db.swarmMetadata.upsert ⟨i.swarmKey, id, verificationOf source i⟩
      (Db.mergeVerification (verificationOf source i))
      (Db.mergeVerification_key _)).get? (k, id')).isSome = true ∨ _ ↔ _
    rw [Table.get?_upsert]
    simp only [SwarmMetadata.key, Prod.mk.injEq]
    by_cases hk : i.swarmKey = k ∧ id = id'
    · obtain ⟨rfl, rfl⟩ := hk
      simp
    · rw [if_neg hk]
      constructor
      · rintro (h | ⟨h, j, hj, hjk⟩)
        · exact .inl h
        · exact .inr ⟨h, j, List.mem_cons_of_mem _ hj, hjk⟩
      · rintro (h | ⟨rfl, j, hj, hjk⟩)
        · exact .inl h
        · rcases List.mem_cons.1 hj with rfl | hj
          · exact absurd ⟨hjk, rfl⟩ hk
          · exact .inr ⟨rfl, j, hj, hjk⟩

theorem fold_jobs_check (L : List TorrentIdentity) {db : Db}
    (h : ∀ j ∈ db.fetchJobs.rows, j.check = true) :
    ∀ j ∈ (L.foldl (recordOne key source atMs id) db).fetchJobs.rows, j.check = true := by
  induction L generalizing db with
  | nil => exact h
  | cons i rest ih => exact ih (recordOne_jobs h key source atMs id i)

end Fold

/-! ## The catalog row -/

/-- The columns are what the analysis gives. -/
structure CatalogRow.Computed (M : Metainfo) (info : Bytes) (c : CatalogRow) : Prop where
  fields : c.fields = (catalogFields (M.analyze info)).1
  coverage : c.searchIncomplete = some (catalogFields (M.analyze info)).2
  semantic : c.semantic = semanticFields (M.analyze info)

/-- The catalog row is in place: its coverage is known, or it is what the analysis gives. -/
def CatalogDone (M : Metainfo) (db : Db) (hash : TorrentIdentity) (info : Bytes) : Prop :=
  ∃ c, db.torrentCatalog.get? hash = some c ∧ (c.coverage.isSome = true ∨ c.Computed M info)

theorem get?_update_row {t : Table CatalogRow CatalogRow.hash} {hash : TorrentIdentity}
    {c : CatalogRow} (hc : t.get? hash = some c) (set : CatalogRow → CatalogRow)
    (hset : ∀ c, (set c).hash = c.hash) :
    (t.update (fun r => decide (r.hash = hash)) set hset).get? hash = some (set c) := by
  rw [Table.get?_update, hc]
  simp [(Table.get?_eq_some.1 hc).2]

/-- The second statement of `ensure_catalog`, on an existing row. -/
theorem updateSemantics_run {db : Db} (h : db.Counted) {hash : TorrentIdentity} {c : CatalogRow}
    (hc : db.torrentCatalog.get? hash = some c) (semantic : SemanticFields) :
    ∃ db', db.exec (.updateSemantics hash semantic) = .ok (1, db') ∧ db'.Counted ∧
      db'.torrentCatalog.get? hash = some { c with semantic := semantic } ∧
      (c.semantic = semantic → db'.torrentCatalog = db.torrentCatalog) := by
  obtain ⟨db', hok, hcounted, hcat⟩ := Db.updateCatalogRow_ok h false hc
    (fun c => { c with semantic := semantic }) (fun _ => rfl) (fun _ _ => rfl)
  refine ⟨db', ?_, hcounted, ?_, ?_⟩
  · simp only [Db.exec]
    exact hok
  · rw [hcat]
    exact get?_update_row hc _ _
  · intro hsem
    rw [hcat]
    refine Table.update_eq_self (fun r hr hp => ?_)
    have hrc : r = c := Table.eq_of_key hr (Table.get?_eq_some.1 hc).1
      ((by simpa using hp : r.hash = hash).trans (Table.get?_eq_some.1 hc).2.symm)
    rw [hrc, ← hsem]

/-- The statements of `ensure_catalog` that write the row. -/
theorem writeCatalog_run {db : Db} (h : db.Counted) (hash : TorrentIdentity) (info : Bytes)
    (rowExists : Bool) (hrow : match db.torrentCatalog.get? hash with
      | some _ => rowExists = true
      | none => rowExists = false ∧ ∃ m, db.metadataByHash hash = some m) :
    ∃ db', (writeCatalog M hash info rowExists).run db = .ok ((), db') ∧ db'.Counted ∧
      Frame .catalog db db' ∧ CatalogDone M db' hash info ∧
      ((∃ c, db.torrentCatalog.get? hash = some c ∧ c.Computed M info) →
        db'.torrentCatalog = db.torrentCatalog) := by
  generalize hf : catalogFields (M.analyze info) = f at *
  obtain ⟨fields, cov⟩ := f
  -- the first statement leaves a row with the computed display columns
  have first : ∃ mid c, (if rowExists then db.exec (.updateCatalog hash fields cov)
        else db.exec (.insertCatalog hash fields (some cov))) = .ok (1, mid) ∧ mid.Counted ∧
      Frame .catalog db mid ∧ mid.torrentCatalog.get? hash = some c ∧ c.fields = fields ∧
      c.searchIncomplete = some cov ∧
      ((∃ c, db.torrentCatalog.get? hash = some c ∧ c.Computed M info) →
        mid.torrentCatalog = db.torrentCatalog ∧ c.semantic = semanticFields (M.analyze info)) := by
    cases hg : db.torrentCatalog.get? hash with
    | some c =>
      rw [hg] at hrow
      obtain ⟨mid, hok, hcounted, hcat⟩ := Db.updateCatalogRow_ok h true hg
        (fun c => { c with fields := fields, searchIncomplete := some cov }) (fun _ => rfl)
        (fun hfalse => by cases hfalse)
      refine ⟨mid, { c with fields := fields, searchIncomplete := some cov }, ?_, hcounted,
        Db.updateCatalogRow_frame hok, ?_, rfl, rfl, ?_⟩
      · rw [hrow]
        exact hok
      · rw [hcat]
        exact get?_update_row hg _ _
      · rintro ⟨c', hc', hcomp⟩
        cases hc'
        refine ⟨?_, hcomp.semantic⟩
        rw [hcat]
        refine Table.update_eq_self (fun r hr hp => ?_)
        have hrc : r = c := Table.eq_of_key hr (Table.get?_eq_some.1 hg).1
          ((by simpa using hp : r.hash = hash).trans (Table.get?_eq_some.1 hg).2.symm)
        have h1 : c.fields = fields := by rw [hcomp.fields, hf]
        have h2 : c.searchIncomplete = some cov := by rw [hcomp.coverage, hf]
        rw [hrc, ← h1, ← h2]
    | none =>
      rw [hg] at hrow
      obtain ⟨rfl, m, hm⟩ := hrow
      obtain ⟨mid, hok, hcounted, -, hcat⟩ := Db.insertCatalogRow_ok h hg hm fields (some cov)
      refine ⟨mid, db.newCatalogRow hash fields (some cov), hok, hcounted,
        Db.insertCatalogRow_frame hok, ?_, rfl, rfl, ?_⟩
      · rw [hcat, Table.get?_insertNew, hg]
        simp [Db.newCatalogRow]
      · rintro ⟨c, hc, -⟩
        cases hc
  obtain ⟨mid, c, hok, hcounted, hframe, hget, hfields, hcov, hsame⟩ := first
  obtain ⟨db', hsem, hcounted', hget', hsame'⟩ :=
    updateSemantics_run hcounted hget (semanticFields (M.analyze info))
  refine ⟨db', ?_, hcounted', hframe.trans (Db.exec_frame hsem), ⟨_, hget', .inr ?_⟩, ?_⟩
  · unfold writeCatalog
    rw [hf]
    cases rowExists with
    | true =>
      refine (Prog.run_execute_of_ok hok).trans ?_
      exact (Prog.run_execute_of_ok hsem).trans rfl
    | false =>
      refine (Prog.run_execute_of_ok hok).trans ?_
      exact (Prog.run_execute_of_ok hsem).trans rfl
  · exact ⟨by rw [hf]; exact hfields, by rw [hf]; exact hcov, rfl⟩
  · intro hcomp
    obtain ⟨h1, h2⟩ := hsame hcomp
    rw [hsame' h2, h1]

/-- **`ensure_catalog` succeeds** for a stored row and leaves its catalog row in place; a row that
is in place already stays as it is. -/
theorem ensureCatalog_run {db : Db} (h : db.Counted) {hash : TorrentIdentity} {m : MetadataRow}
    (hm : db.metadataByHash hash = some m) (info : Bytes) :
    ∃ b db', (ensureCatalog M hash info).run db = .ok (b, db') ∧ db'.Counted ∧
      Frame .catalog db db' ∧ CatalogDone M db' hash info ∧
      (CatalogDone M db hash info → db'.torrentCatalog = db.torrentCatalog) := by
  unfold ensureCatalog
  cases hg : db.torrentCatalog.get? hash with
  | some c =>
    by_cases hc : c.coverage.isSome = true
    · refine ⟨false, db, ?_, h, Frame.refl _ _, ⟨c, hg, .inl hc⟩, fun _ => rfl⟩
      simp [Script.run, hg, hc]
    · obtain ⟨db', hrun, hcounted, hframe, hdone, hsame⟩ := writeCatalog_run (M := M) h hash info true
        (by rw [hg])
      refine ⟨true, db', ?_, hcounted, hframe, hdone, ?_⟩
      · rw [Script.run] at hrun
        simp [Script.run, hg, hc, hrun]
      · rintro ⟨c', hc', hcov | hcomp⟩
        · rw [hg] at hc'
          cases hc'
          exact absurd hcov hc
        · exact hsame ⟨c', hc', hcomp⟩
  | none =>
    obtain ⟨db', hrun, hcounted, hframe, hdone, -⟩ := writeCatalog_run (M := M) h hash info false
      (by rw [hg]; exact ⟨rfl, m, hm⟩)
    refine ⟨true, db', ?_, hcounted, hframe, hdone, ?_⟩
    · rw [Script.run] at hrun
      simp [Script.run, hg, hrun]
    · rintro ⟨c, hc, -⟩
      rw [hg] at hc
      cases hc

end BtSniffer
