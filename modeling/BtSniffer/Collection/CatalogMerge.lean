import BtSniffer.Collection.IdentityStore

/-!
# Merging stored rows

The backfill saves a stored torrent once more, so that rows of one torrent that were saved under
different identities are merged.  `StoreInv` does not hold of such a database: its rows may have been
saved by an earlier analysis, and their bytes may have been damaged since.

* `Stored` — what `save` and the migration leave behind; `original` gives the bytes a row was saved
  with.
* `Reshaped` — what a backfill does to the other rows: nothing.
* `mergeIdentical_run` — a merge succeeds and moves the identities.
* `findExisting_merges` — the look-up of `save` merges all rows of the torrent into one.
-/

set_option autoImplicit false

namespace BtSniffer

open Relational

/-- A database whose rows were written by `save` or by the migration.  The identities of a row are
digests of its original bytes, and its own hash is one of them.  Bytes may have been damaged in rows
whose hash is not a digest of the bytes of another row; bytes that match the hash of their row are a
dictionary. -/
structure Stored (M : Metainfo) (original : Int → Bytes) (db : Db) : Prop where
  counted : db.Counted
  rows : ∀ m ∈ db.metadata.rows, m.check = true
  jobs : ∀ j ∈ db.fetchJobs.rows, j.check = true
  positive : ∀ m ∈ db.metadata.rows, 0 < m.id
  own : ∀ m ∈ db.metadata.rows, db.torrentIdentities.get? m.hash = some ⟨m.hash, m.id⟩
  refs : ∀ r ∈ db.torrentIdentities.rows, (db.metadata.get? r.metadataId).isSome = true
  digests : ∀ r ∈ db.torrentIdentities.rows,
    r.identity = M.digest (original r.metadataId) r.identity.kind
  dictionary : ∀ m ∈ db.metadata.rows, M.matchIdentity m.info m.hash.swarmKey = some m.hash →
    M.dictionaryPrefix m.info 64 = some m.info.length
  damaged : ∀ m ∈ db.metadata.rows, m.info ≠ original m.id → ∀ m' ∈ db.metadata.rows, m' ≠ m →
    ∀ kind, M.digest m'.info kind ≠ m.hash

/-- No collision between the bytes of a row and the original bytes of a row. -/
def NoCollision (M : Metainfo) (original : Int → Bytes) (db : Db) : Prop :=
  ∀ m ∈ db.metadata.rows, ∀ m' ∈ db.metadata.rows, ∀ kind,
    M.digest m.info kind = M.digest (original m'.id) kind → m.info = original m'.id

/-- A change for the sake of the row `keep`, whose bytes are `info`: the other rows stay, with their
identities and catalog rows, but for copies of `info`, whose identities go to `keep`. -/
structure Reshaped (info : Bytes) (keep : Int) (db db' : Db) : Prop where
  bytes : ∀ m ∈ db'.metadata.rows, ∃ m₀ ∈ db.metadata.rows, m₀.id = m.id ∧ m₀.info = m.info ∧
    (m.id ≠ keep → m₀.hash = m.hash)
  lost : ∀ m₀ ∈ db.metadata.rows, (∃ m ∈ db'.metadata.rows, m.id = m₀.id) ∨ m₀.info = info
  moved : ∀ i r, db.torrentIdentities.get? i = some r →
    ∃ r', db'.torrentIdentities.get? i = some r' ∧ (r'.metadataId = r.metadataId ∨
      r'.metadataId = keep ∧ ∀ m ∈ db.metadata.rows, m.id = r.metadataId → m.info = info)
  catalog : ∀ m ∈ db'.metadata.rows, m.id ≠ keep →
    db'.torrentCatalog.get? m.hash = db.torrentCatalog.get? m.hash

/-- The row `keep` is intact and its bytes are `info`. -/
def Db.Intact (db : Db) (original : Int → Bytes) (info : Bytes) (keep : Int) : Prop :=
  original keep = info ∧ ∃ m ∈ db.metadata.rows, m.id = keep ∧ m.info = info

variable {M : Metainfo} {original : Int → Bytes} {info : Bytes} {keep : Int} {db db' db'' : Db}

theorem Reshaped.refl (info : Bytes) (keep : Int) (db : Db) : Reshaped info keep db db where
  bytes m hm := ⟨m, hm, rfl, rfl, fun _ => rfl⟩
  lost m hm := .inl ⟨m, hm, rfl⟩
  moved _ r hr := ⟨r, hr, .inl rfl⟩
  catalog _ _ _ := rfl

theorem Reshaped.trans (h : Reshaped info keep db db') (k : Reshaped info keep db' db'') :
    Reshaped info keep db db'' where
  bytes m hm := by
    obtain ⟨m₁, hm₁, hid₁, hinfo₁, hhash₁⟩ := k.bytes m hm
    obtain ⟨m₀, hm₀, hid₀, hinfo₀, hhash₀⟩ := h.bytes m₁ hm₁
    refine ⟨m₀, hm₀, hid₀.trans hid₁, hinfo₀.trans hinfo₁, fun hne => ?_⟩
    rw [hhash₀ (hid₁ ▸ hne), hhash₁ hne]
  lost m₀ hm₀ := by
    rcases h.lost m₀ hm₀ with ⟨m₁, hm₁, hid₁⟩ | hinfo
    · rcases k.lost m₁ hm₁ with ⟨m, hm, hid⟩ | hinfo
      · exact .inl ⟨m, hm, hid.trans hid₁⟩
      · obtain ⟨m₂, hm₂, hid₂, hinfo₂, -⟩ := h.bytes m₁ hm₁
        rw [Table.eq_of_key hm₀ hm₂ (hid₁.symm.trans hid₂.symm), hinfo₂]
        exact .inr hinfo
    · exact .inr hinfo
  moved i r hr := by
    obtain ⟨r₁, hr₁, hid₁⟩ := h.moved i r hr
    obtain ⟨r₂, hr₂, hid₂⟩ := k.moved i r₁ hr₁
    refine ⟨r₂, hr₂, ?_⟩
    rcases hid₁ with hid₁ | ⟨hid₁, hinfo⟩
    · rw [hid₁] at hid₂
      refine hid₂.imp id (fun ⟨hid, hinfo⟩ => ⟨hid, fun m hm hmid => ?_⟩)
      rcases h.lost m hm with ⟨m₁, hm₁, hmid₁⟩ | hlost
      · obtain ⟨m₀, hm₀, hid₀, hinfo₀, -⟩ := h.bytes m₁ hm₁
        rw [Table.eq_of_key hm hm₀ (hmid₁.symm.trans hid₀.symm), hinfo₀]
        exact hinfo m₁ hm₁ (hmid₁.trans hmid)
      · exact hlost
    · exact .inr ⟨hid₂.elim (fun hid => hid.trans hid₁) And.left, hinfo⟩
  catalog m hm hne := by
    obtain ⟨m₁, hm₁, hid₁, -, hhash₁⟩ := k.bytes m hm
    rw [k.catalog m hm hne, ← hhash₁ hne]
    exact h.catalog m₁ hm₁ (hid₁ ▸ hne)

/-- Rows that keep their id and their bytes keep apart. -/
theorem NoCollision.of_rows (h : NoCollision M original db)
    (hrows : ∀ m ∈ db'.metadata.rows, ∃ m₀ ∈ db.metadata.rows, m₀.id = m.id ∧ m₀.info = m.info) :
    NoCollision M original db' := by
  intro m hm m' hm' kind he
  obtain ⟨m₀, hm₀, -, hinfo₀⟩ := hrows m hm
  obtain ⟨m₁, hm₁, hid₁, -⟩ := hrows m' hm'
  rw [← hinfo₀, ← hid₁] at he ⊢
  exact h m₀ hm₀ m₁ hm₁ kind he

theorem NoCollision.reshaped (h : NoCollision M original db) (k : Reshaped info keep db db') :
    NoCollision M original db' := by
  refine h.of_rows fun m hm => ?_
  obtain ⟨m₀, hm₀, hid, hinfo, -⟩ := k.bytes m hm
  exact ⟨m₀, hm₀, hid, hinfo⟩

/-! ## Rows of one torrent -/

/-- An identity names a row. -/
theorem Stored.row (h : Stored M original db) {i : TorrentIdentity} {r : IdentityRow}
    (hr : db.torrentIdentities.get? i = some r) :
    r = ⟨i, r.metadataId⟩ ∧ ∃ m ∈ db.metadata.rows, m.id = r.metadataId ∧
      i = M.digest (original m.id) i.kind := by
  obtain ⟨hmem, hi⟩ := Table.get?_eq_some.1 hr
  obtain ⟨m, hm⟩ := Option.isSome_iff_exists.1 (h.refs r hmem)
  obtain ⟨hrow, hid⟩ := Table.get?_eq_some.1 hm
  refine ⟨by rw [← hi], m, hrow, hid, ?_⟩
  have hd := h.digests r hmem
  rw [hi] at hd
  rw [hid]
  exact hd

theorem Stored.hash_digest (h : Stored M original db) {m : MetadataRow}
    (hm : m ∈ db.metadata.rows) : m.hash = M.digest (original m.id) m.hash.kind :=
  h.digests ⟨m.hash, m.id⟩ (Table.get?_eq_some.1 (h.own m hm)).1

/-- A row that is named by a digest of intact bytes has these bytes. -/
theorem Stored.same (h : Stored M original db) (hc : NoCollision M original db)
    (hk : db.Intact original info keep) {m : MetadataRow} (hm : m ∈ db.metadata.rows)
    {i : TorrentIdentity} (hi : i = M.digest info i.kind) (hd : i = M.digest (original m.id) i.kind) :
    m.info = info ∧ original m.id = info := by
  obtain ⟨horig, k, hkm, hkid, hkinfo⟩ := hk
  have hsame : info = original m.id := by
    rw [← hkinfo]
    refine hc k hkm m hm i.kind ?_
    rw [hkinfo, ← hi]
    exact hd
  refine ⟨?_, hsame.symm⟩
  by_contra hne
  by_cases heq : m = k
  · exact hne (heq ▸ hkinfo)
  · refine h.damaged m hm (by rw [← hsame]; exact hne) k hkm (Ne.symm heq) m.hash.kind ?_
    rw [hkinfo, hsame]
    exact (h.hash_digest hm).symm

/-- A row whose bytes match its hash is intact. -/
theorem Stored.intact (h : Stored M original db) (hc : NoCollision M original db) {m : MetadataRow}
    (hm : m ∈ db.metadata.rows) (hmatch : M.matchIdentity m.info m.hash.swarmKey = some m.hash) :
    db.Intact original m.info m.id := by
  refine ⟨(hc m hm m hm m.hash.kind ?_).symm, m, hm, rfl, rfl⟩
  rw [← (Metainfo.matchIdentity_some hmatch).1]
  exact h.hash_digest hm

/-- The look-up of `save` finds the row that the identity table names. -/
theorem Stored.findIdentity (h : Stored M original db) (hc : NoCollision M original db)
    (hk : db.Intact original info keep) {i : TorrentIdentity} (hi : i = M.digest info i.kind) :
    (db.findIdentity i info = none ∧ db.torrentIdentities.get? i = none) ∨
      ∃ id, db.findIdentity i info = some (id, true) ∧
        db.torrentIdentities.get? i = some ⟨i, id⟩ ∧ db.Intact original info id := by
  cases hg : db.torrentIdentities.get? i with
  | none =>
    left
    have hby : db.metadataByHash i = none := by
      cases hb : db.metadataByHash i with
      | none => rfl
      | some m =>
        obtain ⟨hm, rfl⟩ := Db.mem_of_metadataByHash hb
        rw [h.own m hm] at hg
        cases hg
    exact ⟨by simp [Db.findIdentity, hg, hby], rfl⟩
  | some r =>
    right
    obtain ⟨hr, m, hm, hid, hd⟩ := h.row hg
    obtain ⟨hinfo, horig⟩ := h.same hc hk hm hi hd
    refine ⟨m.id, ?_, by rw [hr, hid], horig, m, hm, rfl, hinfo⟩
    simp [Db.findIdentity, hg, ← hid, Table.get?_key hm, hinfo]

/-! ## A merge -/

/-- The result of a merge of `remove`, a row with hash `hash`, into `keep`. -/
structure Merged (keep remove : Int) (hash : TorrentIdentity) (fetchedAt : Int) (db db' : Db) :
    Prop where
  counted : db'.Counted
  jobs : db'.fetchJobs = db.fetchJobs
  metadata : db'.metadata = (db.metadata.update (fun m => decide (m.id = keep))
    (fun m => { m with fetchedAt := min m.fetchedAt fetchedAt }) (fun _ => rfl)).delete
      (fun m => decide (m.id = remove))
  identities : db'.torrentIdentities = db.torrentIdentities.update
    (fun i => i.metadataId == remove) (fun i => { i with metadataId := keep }) (fun _ => rfl)
  catalog : db'.torrentCatalog = db.torrentCatalog.delete (fun c => decide (c.hash = hash))

/-- The last statement of a merge: nothing refers to the row any more. -/
theorem deleteMetadata_run {db : Db} (h : db.Counted) {m : MetadataRow}
    (hm : db.metadata.get? m.id = some m)
    (hids : ∀ i ∈ db.torrentIdentities.rows, i.metadataId ≠ m.id)
    (hswarm : ∀ s ∈ db.swarmMetadata.rows, s.metadataId ≠ m.id) :
    ∃ n db', db.exec (.deleteMetadata m.id) = .ok (n, db') ∧ db'.Counted ∧
      db'.fetchJobs = db.fetchJobs ∧
      db'.metadata = db.metadata.delete (fun r => decide (r.id = m.id)) ∧
      db'.torrentIdentities = db.torrentIdentities ∧
      db'.torrentCatalog = db.torrentCatalog.delete (fun c => decide (c.hash = m.hash)) := by
  have hsound := Db.deleteMetadataRow_sound h m.id
  have hi : db.torrentIdentities.any (fun i => i.metadataId == m.id) = false := by
    rw [Table.any_eq_false]
    intro i hi
    simpa using hids i hi
  have hs : db.swarmMetadata.any (fun s => s.metadataId == m.id) = false := by
    rw [Table.any_eq_false]
    intro s hs
    simpa using hswarm s hs
  obtain ⟨n, mid, hdel, -, hmeta, hcat⟩ := Db.deleteCatalogRow_spec h m.hash
  have hframe := Db.deleteCatalogRow_frame .metadata hdel
  cases hexec : db.deleteMetadataRow m.id with
  | error e =>
    rw [hexec] at hsound
    unfold Db.deleteMetadataRow at hexec
    simp only [hm, hi, hs, Bool.or_self, Bool.false_eq_true, if_false, hdel] at hexec
    split at hexec
    · rename_i e' he'
      unfold CatalogState.checked at he'
      split at he'
      · cases he'
      · cases he'
        cases hexec
        exact absurd rfl hsound
    · cases hexec
  | ok r =>
    rw [hexec] at hsound
    have hexec' := hexec
    unfold Db.deleteMetadataRow at hexec
    simp only [hm, hi, hs, Bool.or_self, Bool.false_eq_true, if_false, hdel] at hexec
    split at hexec
    · cases hexec
    · cases hexec
      refine ⟨1, _, hexec', hsound, hframe.fetchJobs (by decide), ?_, hframe.identities (by decide),
        hcat⟩
      show mid.metadata.delete _ = _
      rw [hmeta]

theorem moveIdentities_run {db : Db} {keep remove : Int}
    (hkeep : (db.metadata.get? keep).isSome = true)
    (hkinds : ∀ i ∈ db.torrentIdentities.rows, ∀ k ∈ db.torrentIdentities.rows,
      i.metadataId = remove → k.metadataId = keep → k.identity.kind ≠ i.identity.kind) :
    ∃ n, db.exec (.moveIdentities keep remove) = .ok (n, { db with
      torrentIdentities := db.torrentIdentities.update (fun i => i.metadataId == remove)
        (fun i => { i with metadataId := keep }) (fun _ => rfl) }) := by
  have hany : db.torrentIdentities.any (fun i => i.metadataId == remove &&
      db.torrentIdentities.any (fun k => k.metadataId == keep &&
        k.identity.kind == i.identity.kind)) = false := by
    rw [Table.any_eq_false]
    intro i hi
    rw [Bool.and_eq_false_iff]
    by_cases hid : i.metadataId = remove
    · right
      rw [Table.any_eq_false]
      intro k hk
      by_cases hkid : k.metadataId = keep
      · simp [hkinds i hi k hk hid hkid]
      · simp [hkid]
    · left
      simpa using hid
  have hnone : (db.metadata.get? keep).isNone = false := by
    rw [← Option.not_isSome, hkeep]
    rfl
  refine ⟨db.torrentIdentities.count (fun i => i.metadataId == remove), ?_⟩
  simp only [Db.exec, Db.moveIdentityRows, hany, hnone, Bool.and_false, Bool.false_eq_true, if_false]

/-- **A merge succeeds** if the two rows have no identities of the same kind. -/
theorem mergeIdentical_run {db : Db} (h : db.Counted) {keep : Int} {m : MetadataRow}
    (hm : m ∈ db.metadata.rows) (hne : keep ≠ m.id)
    (hkeep : (db.metadata.get? keep).isSome = true)
    (hkinds : ∀ i ∈ db.torrentIdentities.rows, ∀ k ∈ db.torrentIdentities.rows,
      i.metadataId = m.id → k.metadataId = keep → k.identity.kind ≠ i.identity.kind) :
    ∃ db', (mergeIdentical keep m.id).run db = .ok ((), db') ∧
      Merged keep m.id m.hash m.fetchedAt db db' := by
  obtain ⟨k, hk⟩ := Option.isSome_iff_exists.1 hkeep
  have hget : db.metadata.get? m.id = some m := Table.get?_key hm
  obtain ⟨n₁, hmove⟩ := moveIdentities_run hkeep hkinds
  generalize hd₁ : ({ db with
    torrentIdentities := db.torrentIdentities.update (fun i => i.metadataId == m.id)
      (fun i => { i with metadataId := keep }) (fun _ => rfl) } : Db) = d₁ at hmove
  have hc₁ := Db.exec_counted h hmove
  -- the relations of the row become relations of the other one
  generalize ht : (db.swarmMetadata.rows.filter (fun s => s.metadataId == m.id)).foldl
    (fun t s => t.insertNew ⟨s.hash, keep, s.verification⟩) db.swarmMetadata = t
  have hcopy : ∃ n, d₁.exec (.copySwarm keep m.id) = .ok (n, { d₁ with swarmMetadata := t }) := by
    have hnone : (d₁.metadata.get? keep).isNone = false := by
      rw [← hd₁, ← Option.not_isSome]
      show (!(db.metadata.get? keep).isSome) = false
      rw [hkeep]
      rfl
    have hswarm : d₁.swarmMetadata = db.swarmMetadata := by rw [← hd₁]
    refine ⟨t.rows.length - db.swarmMetadata.rows.length, ?_⟩
    simp only [Db.exec, Db.copySwarmRows, hnone, hswarm, ht, Bool.and_false, Bool.false_eq_true,
      if_false]
  obtain ⟨n₂, hcopy⟩ := hcopy
  have hc₂ := Db.exec_counted hc₁ hcopy
  have hdelete : (Db.exec (.deleteSwarm m.id) { d₁ with swarmMetadata := t }) =
      .ok (t.count (fun s => s.metadataId == m.id), { d₁ with
        swarmMetadata := t.delete (fun s => s.metadataId == m.id) }) := rfl
  have hc₃ := Db.exec_counted hc₂ hdelete
  generalize hd₃ : ({ d₁ with swarmMetadata := t.delete (fun s => s.metadataId == m.id) } : Db) = d₃
    at hdelete hc₃
  have hmeta₃ : d₃.metadata = db.metadata := by rw [← hd₃, ← hd₁]
  have hfetch : d₃.exec (.mergeFetchedAt keep m.id) = .ok (1, { d₃ with
      metadata := d₃.metadata.update (fun r => decide (r.id = keep))
        (fun r => { r with fetchedAt := min r.fetchedAt m.fetchedAt }) (fun _ => rfl) }) := by
    simp only [Db.exec, Db.mergeFetchedAtRow]
    rw [hmeta₃, hk, hget]
  have hc₄ := Db.exec_counted hc₃ hfetch
  generalize hd₄ : ({ d₃ with
      metadata := d₃.metadata.update (fun r => decide (r.id = keep))
        (fun r => { r with fetchedAt := min r.fetchedAt m.fetchedAt }) (fun _ => rfl) } : Db) = d₄
    at hfetch hc₄
  have hmeta₄ : d₄.metadata = db.metadata.update (fun r => decide (r.id = keep))
      (fun r => { r with fetchedAt := min r.fetchedAt m.fetchedAt }) (fun _ => rfl) := by
    rw [← hd₄, ← hmeta₃]
  have hm₄ : d₄.metadata.get? m.id = some m := by
    rw [hmeta₄, Table.get?_update, hget, Option.map_some, if_neg (by simpa using Ne.symm hne)]
  obtain ⟨n₅, d₅, hcat, hc₅, hmeta₅, hcat₅⟩ := Db.deleteCatalogRow_spec hc₄ m.hash
  have hframe₅ := Db.deleteCatalogRow_frame .catalog hcat
  have hcat' : d₄.exec (.deleteCatalogOf m.id) = .ok (n₅, d₅) := by
    simp only [Db.exec, hm₄]
    exact hcat
  have hids₅ : d₅.torrentIdentities = db.torrentIdentities.update (fun i => i.metadataId == m.id)
      (fun i => { i with metadataId := keep }) (fun _ => rfl) := by
    rw [hframe₅.identities (by decide), ← hd₄, ← hd₃, ← hd₁]
  have hswarm₅ : d₅.swarmMetadata = t.delete (fun s => s.metadataId == m.id) := by
    rw [hframe₅.swarm (by decide), ← hd₄, ← hd₃]
  obtain ⟨n₆, db', hlast, hc₆, hjobs₆, hmeta₆, hids₆, hcat₆⟩ := deleteMetadata_run hc₅
    (by rw [hmeta₅]; exact hm₄)
    (by
      intro i hi
      rw [hids₅] at hi
      obtain ⟨r, hr, rfl⟩ := Table.mem_update.1 hi
      split
      · exact hne
      · rename_i hid
        simpa using hid)
    (by
      intro s hs
      rw [hswarm₅] at hs
      simpa using (Table.mem_delete.1 hs).2)
  refine ⟨db', ?_, hc₆, ?_, ?_, hids₆.trans hids₅, ?_⟩
  · unfold mergeIdentical
    refine (Prog.run_execute_of_ok hmove).trans ?_
    refine (Prog.run_execute_of_ok hcopy).trans ?_
    refine (Prog.run_execute_of_ok hdelete).trans ?_
    refine (Prog.run_execute_of_ok hfetch).trans ?_
    refine (Prog.run_execute_of_ok hcat').trans ?_
    exact (Prog.run_execute_of_ok hlast).trans rfl
  · rw [hjobs₆, hframe₅.fetchJobs (by decide), ← hd₄, ← hd₃, ← hd₁]
  · rw [hmeta₆, hmeta₅, hmeta₄]
  · have hcat₄ : d₄.torrentCatalog = db.torrentCatalog := by rw [← hd₄, ← hd₃, ← hd₁]
    rw [hcat₆, hcat₅, hcat₄]
    refine Table.delete_eq_self (fun c hc => ?_)
    exact (Table.mem_delete.1 hc).2

section Merged

variable {remove fetchedAt : Int} {hash : TorrentIdentity}

theorem Merged.mem (h : Merged keep remove hash fetchedAt db db') {m : MetadataRow}
    (hm : m ∈ db'.metadata.rows) : ∃ r ∈ db.metadata.rows, r.id = m.id ∧ r.hash = m.hash ∧
      r.info = m.info ∧ r.id ≠ remove ∧ min r.fetchedAt fetchedAt ≤ m.fetchedAt := by
  rw [h.metadata] at hm
  obtain ⟨hm, hid⟩ := Table.mem_delete.1 hm
  obtain ⟨r, hr, rfl⟩ := Table.mem_update.1 hm
  rw [decide_eq_false_iff_not] at hid
  refine ⟨r, hr, ?_⟩
  split
  · rename_i hkeep
    rw [if_pos hkeep] at hid
    exact ⟨rfl, rfl, rfl, hid, le_rfl⟩
  · rename_i hkeep
    rw [if_neg hkeep] at hid
    exact ⟨rfl, rfl, rfl, hid, min_le_left _ _⟩

theorem Merged.mem_of (h : Merged keep remove hash fetchedAt db db') {r : MetadataRow}
    (hr : r ∈ db.metadata.rows) (hne : r.id ≠ remove) : ∃ m ∈ db'.metadata.rows, m.id = r.id ∧
      m.hash = r.hash ∧ m.info = r.info := by
  rw [h.metadata]
  by_cases hk : r.id = keep
  · refine ⟨{ r with fetchedAt := min r.fetchedAt fetchedAt }, Table.mem_delete.2 ⟨?_, ?_⟩, rfl, rfl,
      rfl⟩
    · exact Table.mem_update.2 ⟨r, hr, if_pos (by simpa using hk)⟩
    · simpa using hne
  · refine ⟨r, Table.mem_delete.2 ⟨?_, ?_⟩, rfl, rfl, rfl⟩
    · exact Table.mem_update.2 ⟨r, hr, if_neg (by simpa using hk)⟩
    · simpa using hne

theorem Merged.identity (h : Merged keep remove hash fetchedAt db db') (i : TorrentIdentity) :
    db'.torrentIdentities.get? i = (db.torrentIdentities.get? i).map
      (fun r => if r.metadataId = remove then { r with metadataId := keep } else r) := by
  rw [h.identities, Table.get?_update]
  simp only [beq_iff_eq]

end Merged

/-- Two rows do not have the same hash. -/
theorem Stored.hash_inj (h : Stored M original db) {m m' : MetadataRow}
    (hm : m ∈ db.metadata.rows) (hm' : m' ∈ db.metadata.rows) (he : m.hash = m'.hash) : m = m' := by
  have h1 := h.own m hm
  rw [he, h.own m' hm', Option.some.injEq, IdentityRow.mk.injEq] at h1
  exact Table.eq_of_key hm hm' h1.2.symm

/-- **A merge of two intact rows of one torrent** keeps what is known of the others. -/
theorem Stored.merge (h : Stored M original db) (hk : db.Intact original info keep)
    {remove : Int} (hr : db.Intact original info remove) (hne : keep ≠ remove) :
    ∃ db', (mergeIdentical keep remove).run db = .ok ((), db') ∧ Stored M original db' ∧
      Reshaped info keep db db' ∧ db'.Intact original info keep ∧
      ∀ i, db'.torrentIdentities.get? i = (db.torrentIdentities.get? i).map
        (fun r => if r.metadataId = remove then { r with metadataId := keep } else r) := by
  obtain ⟨hko, k, hkm, hkid, hkinfo⟩ := hk
  obtain ⟨hro, m, hm, rfl, hminfo⟩ := hr
  have hkeep : (db.metadata.get? keep).isSome = true := by
    rw [← hkid, Table.get?_key hkm]
    rfl
  obtain ⟨db', hrun, hmerged⟩ := mergeIdentical_run h.counted hm hne hkeep (by
    -- identities of one kind would be the same digest
    intro i hi j hj himid hjid hkind
    have hsame : i = j := by
      refine Table.eq_of_key hi hj ?_
      rw [h.digests i hi, h.digests j hj, himid, hjid, hko, hro, hkind]
    rw [← hsame, himid] at hjid
    exact hne hjid.symm)
  obtain ⟨k', hk', hk'id, -, hk'info⟩ := hmerged.mem_of hkm (by rw [hkid]; exact hne)
  refine ⟨db', hrun, ?_, ?_, ⟨hko, k', hk', hk'id.trans hkid, hk'info.trans hkinfo⟩,
    hmerged.identity⟩
  · constructor
    case counted => exact hmerged.counted
    case rows =>
      intro x hx
      obtain ⟨r, hr, -, -, hinfo, -, hmin⟩ := hmerged.mem hx
      have hrc := h.rows r hr
      have hmc := h.rows m hm
      simp only [MetadataRow.check, Bool.and_eq_true, decide_eq_true_eq] at hrc hmc ⊢
      rw [← hinfo]
      refine ⟨hrc.1, le_trans (le_min hrc.2 hmc.2) hmin⟩
    case jobs =>
      rw [hmerged.jobs]
      exact h.jobs
    case positive =>
      intro x hx
      obtain ⟨r, hr, hid, -⟩ := hmerged.mem hx
      exact hid ▸ h.positive r hr
    case own =>
      intro x hx
      obtain ⟨r, hr, hid, hhash, -, hrne, -⟩ := hmerged.mem hx
      rw [hmerged.identity, ← hhash, h.own r hr, Option.map_some, if_neg hrne, hid]
    case refs =>
      intro i hi
      rw [hmerged.identities] at hi
      obtain ⟨r, hr, rfl⟩ := Table.mem_update.1 hi
      split
      · show (db'.metadata.get? keep).isSome = true
        rw [← hkid, ← hk'id, Table.get?_key hk']
        rfl
      · rename_i hrid
        obtain ⟨x, hx⟩ := Option.isSome_iff_exists.1 (h.refs r hr)
        obtain ⟨hxm, hxid⟩ := Table.get?_eq_some.1 hx
        obtain ⟨y, hy, hyid, -⟩ := hmerged.mem_of hxm (by
          rw [hxid]
          simpa using hrid)
        rw [← hxid, ← hyid, Table.get?_key hy]
        rfl
    case digests =>
      intro i hi
      rw [hmerged.identities] at hi
      obtain ⟨r, hr, rfl⟩ := Table.mem_update.1 hi
      split
      · rename_i hrid
        have hd := h.digests r hr
        rw [beq_iff_eq.1 hrid, hro, ← hko] at hd
        exact hd
      · exact h.digests r hr
    case dictionary =>
      intro x hx hmatch
      obtain ⟨r, hr, -, hhash, hinfo, -⟩ := hmerged.mem hx
      rw [← hhash, ← hinfo] at hmatch
      rw [← hinfo]
      exact h.dictionary r hr hmatch
    case damaged =>
      intro x hx hdamaged y hy hxy kind
      obtain ⟨r, hr, hid, hhash, hinfo, -⟩ := hmerged.mem hx
      obtain ⟨q, hq, hid', -, hinfo', -⟩ := hmerged.mem hy
      rw [← hhash, ← hinfo']
      refine h.damaged r hr (by rw [hinfo, hid]; exact hdamaged) q hq ?_ kind
      rintro rfl
      exact hxy (Table.eq_of_key hy hx (hid'.symm.trans hid))
  · constructor
    case bytes =>
      intro x hx
      obtain ⟨r, hr, hid, hhash, hinfo, -⟩ := hmerged.mem hx
      exact ⟨r, hr, hid, hinfo, fun _ => hhash⟩
    case lost =>
      intro r hr
      by_cases hid : r.id = m.id
      · rw [Table.eq_of_key hr hm hid]
        exact .inr hminfo
      · obtain ⟨x, hx, hxid, -⟩ := hmerged.mem_of hr hid
        exact .inl ⟨x, hx, hxid⟩
    case moved =>
      intro i r hr
      rw [hmerged.identity, hr, Option.map_some]
      refine ⟨_, rfl, ?_⟩
      split
      · rename_i hrid
        refine .inr ⟨rfl, fun x hx hxid => ?_⟩
        rw [Table.eq_of_key hx hm (hxid.trans hrid)]
        exact hminfo
      · exact .inl rfl
    case catalog =>
      intro x hx _
      obtain ⟨r, hr, hid, hhash, -, hrne, -⟩ := hmerged.mem hx
      rw [hmerged.catalog, Table.get?_delete]
      cases hc : db.torrentCatalog.get? x.hash with
      | none => rfl
      | some c =>
        have hcx := (Table.get?_eq_some.1 hc).2
        rw [Option.filter_some, if_pos]
        simp only [Bool.not_eq_true', decide_eq_false_iff_not]
        intro he
        refine hrne (congrArg MetadataRow.id (h.hash_inj hr hm ?_))
        rw [hhash, ← hcx, he]

/-! ## The look-up -/

/-- The rows that the identities of a list name have been merged into `keep`. -/
structure Gathered (M : Metainfo) (original : Int → Bytes) (info : Bytes) (keep : Int)
    (L : List TorrentIdentity) (db db' : Db) : Prop where
  stored : Stored M original db'
  reshaped : Reshaped info keep db db'
  intact : db'.Intact original info keep
  named : ∀ i ∈ L, db'.torrentIdentities.get? i = none ∨
    db'.torrentIdentities.get? i = some ⟨i, keep⟩
  missing : ∀ i, db.torrentIdentities.get? i = none → db'.torrentIdentities.get? i = none
  kept : ∀ i, db.torrentIdentities.get? i = some ⟨i, keep⟩ →
    db'.torrentIdentities.get? i = some ⟨i, keep⟩

theorem Gathered.cons {L : List TorrentIdentity} {i : TorrentIdentity}
    (h : Gathered M original info keep L db db')
    (hi : db.torrentIdentities.get? i = none ∨ db.torrentIdentities.get? i = some ⟨i, keep⟩) :
    Gathered M original info keep (i :: L) db db' where
  stored := h.stored
  reshaped := h.reshaped
  intact := h.intact
  named j hj := by
    rcases List.mem_cons.1 hj with rfl | hj
    · exact hi.imp (h.missing j) (h.kept j)
    · exact h.named j hj
  missing := h.missing
  kept := h.kept

/-- Once a row is found, the other rows of the torrent are merged into it. -/
theorem findExisting_rest : ∀ {L : List TorrentIdentity} {db : Db}, Stored M original db →
    NoCollision M original db → db.Intact original info keep →
    (∀ i ∈ L, i = M.digest info i.kind) →
    ∃ db', (findExisting info L (some keep)).run db = .ok (some keep, db') ∧
      Gathered M original info keep L db db'
  | [], db, h, _, hk, _ =>
    ⟨db, rfl, h, Reshaped.refl _ _ _, hk, fun _ hi => absurd hi List.not_mem_nil, fun _ hi => hi,
      fun _ hi => hi⟩
  | i :: rest, db, h, hc, hk, hL => by
    rw [findExisting_cons]
    have hrest := fun j hj => hL j (List.mem_cons_of_mem i hj)
    obtain ⟨hfind, hnone⟩ | ⟨id, hfind, hsome, hid⟩ :=
      h.findIdentity hc hk (hL i List.mem_cons_self)
    · obtain ⟨db', hrun, hg⟩ := findExisting_rest h hc hk hrest
      rw [hfind]
      exact ⟨db', hrun, hg.cons (.inl hnone)⟩
    · rw [hfind]
      simp only [Bool.not_true, Bool.false_eq_true, if_false]
      by_cases hne : keep = id
      · obtain ⟨db', hrun, hg⟩ := findExisting_rest h hc hk hrest
        rw [if_pos hne]
        exact ⟨db', hrun, hg.cons (.inr (by rw [hsome, hne]))⟩
      · rw [if_neg hne]
        obtain ⟨mid, hmerge, hstored, hreshaped, hkeep, hids⟩ := h.merge hk hid hne
        obtain ⟨db', hrun, hg⟩ :=
          findExisting_rest hstored (hc.reshaped hreshaped) hkeep hrest
        refine ⟨db', (Prog.run_bind_of_ok hmerge).trans hrun, ?_⟩
        have hi : mid.torrentIdentities.get? i = some ⟨i, keep⟩ := by
          rw [hids, hsome, Option.map_some, if_pos rfl]
        have hcons := hg.cons (.inr hi)
        refine ⟨hg.stored, hreshaped.trans hg.reshaped, hg.intact, hcons.named, ?_, ?_⟩
        · intro j hj
          exact hg.missing j (by rw [hids, hj, Option.map_none])
        · intro j hj
          refine hg.kept j ?_
          rw [hids, hj, Option.map_some, if_neg hne]

/-- **The look-up of `save`** for a stored row: all rows of the torrent are merged into one. -/
theorem findExisting_merges : ∀ {L : List TorrentIdentity} {db : Db} {m : MetadataRow},
    Stored M original db → NoCollision M original db → m ∈ db.metadata.rows →
    db.Intact original m.info m.id → m.hash ∈ L → (∀ i ∈ L, i = M.digest m.info i.kind) →
    ∃ keep db', (findExisting m.info L none).run db = .ok (some keep, db') ∧
      Gathered M original m.info keep L db db'
  | [], _, _, _, _, _, _, hmem, _ => absurd hmem List.not_mem_nil
  | i :: rest, db, m, h, hc, hm, hk, hmem, hL => by
    rw [findExisting_cons]
    have hrest := fun j hj => hL j (List.mem_cons_of_mem i hj)
    obtain ⟨hfind, hnone⟩ | ⟨id, hfind, hsome, hid⟩ :=
      h.findIdentity hc hk (hL i List.mem_cons_self)
    · have hne : m.hash ∈ rest := by
        rcases List.mem_cons.1 hmem with rfl | hmem
        · rw [h.own m hm] at hnone
          cases hnone
        · exact hmem
      obtain ⟨keep, db', hrun, hg⟩ := findExisting_merges h hc hm hk hne hrest
      rw [hfind]
      exact ⟨keep, db', hrun, hg.cons (.inl hnone)⟩
    · obtain ⟨db', hrun, hg⟩ := findExisting_rest h hc hid hrest
      rw [hfind]
      exact ⟨id, db', hrun, hg.cons (.inr hsome)⟩

end BtSniffer
