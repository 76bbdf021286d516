import BtSniffer.Storage.CatalogCounters
import Mathlib.Data.List.Induction

/-!
# Migration of the catalog tables

Reference model of `upgrade_v4` and `upgrade_v5` (`src/storage/schema.rs`) for the tables the
collection store uses.  `upgrade_v4` runs on a version 3 database and once more inside `upgrade_v5`,
on the freshly created catalog tables; both uses are `upgradeV4State`.  The old full-text index is
dropped unread, so versions 3 and 4 are modelled without it.

* `upgradeV4_ok`, `upgradeV5_ok` — a consistent database of the older version migrates, and the
  result has exact counters.
-/

set_option autoImplicit false

namespace BtSniffer

open Relational

/-- A row of `metadata` up to version 4. -/
structure MetadataV4 where
  hash : SwarmKey
  info : Bytes
  fetchedAt : Int
  deriving DecidableEq, Repr

/-- A row of `torrent_catalog` in version 3. -/
structure CatalogV3 where
  id : Int
  hash : SwarmKey
  fields : CatalogFields
  deriving DecidableEq, Repr

/-- A row of `torrent_catalog` in version 4. -/
structure CatalogV4 where
  id : Int
  hash : SwarmKey
  fields : CatalogFields
  searchIncomplete : Option Bool
  deriving DecidableEq, Repr

/-- A version 3 database. -/
structure DbV3 where
  infohashes : Table InfohashRow InfohashRow.hash
  fetchJobs : Table FetchJob FetchJob.hash
  peerHints : Table PeerHint PeerHint.key
  metadata : Table MetadataV4 MetadataV4.hash
  torrentCatalog : Table CatalogV3 CatalogV3.hash
  indexed : Int
  total : Int

/-- A version 4 database. -/
structure DbV4 where
  infohashes : Table InfohashRow InfohashRow.hash
  fetchJobs : Table FetchJob FetchJob.hash
  peerHints : Table PeerHint PeerHint.key
  metadata : Table MetadataV4 MetadataV4.hash
  torrentCatalog : Table CatalogV4 CatalogV4.hash
  catalogState : CatalogState

/-- The `UPDATE torrent_catalog_state` of `upgrade_v4`: recount the coverage column. -/
def upgradeV4State (coverage : List (Option Bool)) (total : Int) :
    Except StorageError CatalogState :=
  CatalogState.checked
    ⟨coverage.countP Option.isSome, total, coverage.countP (fun c => c.isNone || c == some true)⟩

/-- `upgrade_v4` on a version 3 database: the new column is `NULL` in every row. -/
def upgradeV4 (db : DbV3) : Except StorageError DbV4 :=
  let catalog : Table CatalogV4 CatalogV4.hash :=
    db.torrentCatalog.mapRows (fun c => ⟨c.id, c.hash, c.fields, none⟩) (fun _ => rfl)
  match upgradeV4State (catalog.rows.map CatalogV4.searchIncomplete) db.total with
  | .error e => .error e
  | .ok state =>
    .ok ⟨db.infohashes, db.fetchJobs, db.peerHints, db.metadata, catalog, state⟩

/-- `INSERT INTO metadata(hash,info,fetched_at) SELECT … FROM metadata_v4`. -/
def copyMetadata (rows : List MetadataV4) : Table MetadataRow MetadataRow.id :=
  rows.foldl (fun t m =>
    t.insertNew ⟨nextRowid (t.rows.map MetadataRow.id), .v1 m.hash, m.info, m.fetchedAt⟩) .empty

/-- The version 5 tables before the catalog rows are copied back. -/
def upgradeV5Tables (db : DbV4) (state : CatalogState) : Db where
  infohashes := db.infohashes
  fetchJobs := db.fetchJobs
  peerHints := db.peerHints
  metadata := copyMetadata db.metadata.rows
  torrentIdentities :=
    (copyMetadata db.metadata.rows).rows.foldl (fun t m => t.insertNew ⟨m.hash, m.id⟩) .empty
  swarmMetadata :=
    (copyMetadata db.metadata.rows).rows.foldl
      (fun t m => t.insertNew ⟨m.hash.swarmKey, m.id, .v1Full⟩) .empty
  torrentCatalog := .empty
  catalogState := state
  catalogFts := 0

/-- `INSERT INTO torrent_catalog … SELECT …,NULL FROM catalog_v4_backup`, row by row. -/
def copyCatalog : List CatalogV4 → Db → Except StorageError Db
  | [], db => .ok db
  | c :: rest, db =>
    match db.insertCatalogRow (.v1 c.hash) c.fields none with
    | .error e => .error e
    | .ok (_, db) => copyCatalog rest db

/-- `upgrade_v5`. -/
def upgradeV5 (db : DbV4) : Except StorageError Db :=
  -- the new catalog is empty when `upgrade_v4` recounts it
  match upgradeV4State [] (copyMetadata db.metadata.rows).rows.length with
  | .error e => .error e
  | .ok state => copyCatalog db.torrentCatalog.rows (upgradeV5Tables db state)

/-- The migration of a version 3 database. -/
def migrateV3 (db : DbV3) : Except StorageError Db :=
  match upgradeV4 db with
  | .error e => .error e
  | .ok db => upgradeV5 db

/-! ## Consistent databases migrate -/

/-- A version 3 database that satisfies its foreign key and whose counters are exact. -/
structure DbV3.Consistent (db : DbV3) : Prop where
  refs : ∀ c ∈ db.torrentCatalog.rows, (db.metadata.get? c.hash).isSome = true
  total : db.total = db.metadata.rows.length
  indexed : db.indexed = db.torrentCatalog.rows.length

/-- A version 4 database that satisfies its foreign key and whose counters are exact. -/
structure DbV4.Consistent (db : DbV4) : Prop where
  refs : ∀ c ∈ db.torrentCatalog.rows, (db.metadata.get? c.hash).isSome = true
  total : db.catalogState.total = db.metadata.rows.length
  indexed : db.catalogState.indexed =
    (db.torrentCatalog.rows.map CatalogV4.searchIncomplete).countP Option.isSome
  search : db.catalogState.searchIncomplete =
    (db.torrentCatalog.rows.map CatalogV4.searchIncomplete).countP
      (fun c => c.isNone || c == some true)

theorem upgradeV4_ok {db : DbV3} (h : db.Consistent) :
    ∃ db', upgradeV4 db = .ok db' ∧ db'.Consistent := by
  have hnone : ∀ rows : List CatalogV3, ((rows.map (fun c : CatalogV3 =>
      (⟨c.id, c.hash, c.fields, none⟩ : CatalogV4))).map CatalogV4.searchIncomplete).countP
        Option.isSome = 0 := by
    intro rows
    simp [List.countP_eq_zero]
  have hcheck : CatalogState.check
      ⟨((db.torrentCatalog.rows.map (fun c : CatalogV3 =>
          (⟨c.id, c.hash, c.fields, none⟩ : CatalogV4))).map
            CatalogV4.searchIncomplete).countP Option.isSome, db.total,
        ((db.torrentCatalog.rows.map (fun c : CatalogV3 =>
          (⟨c.id, c.hash, c.fields, none⟩ : CatalogV4))).map CatalogV4.searchIncomplete).countP
            (fun c => c.isNone || c == some true)⟩ = true := by
    have := h.total
    simp only [CatalogState.check, hnone, Bool.and_eq_true, decide_eq_true_eq]
    omega
  unfold upgradeV4 upgradeV4State
  simp only [Table.mapRows, Db.checked_of hcheck]
  refine ⟨_, rfl, ?_, h.total, rfl, rfl⟩
  intro c hc
  obtain ⟨c, hmem, rfl⟩ := List.mem_map.1 hc
  exact h.refs c hmem

/-- Every copied row keeps its hash. -/
theorem copyMetadata_hash {rows : List MetadataV4} {m : MetadataV4} (hm : m ∈ rows) :
    ∃ r ∈ (copyMetadata rows).rows, r.hash = .v1 m.hash := by
  -- induction from the end: the fold appends one row per step
  induction rows using List.reverseRecOn with
  | nil => cases hm
  | append_singleton rows last ih =>
    unfold copyMetadata
    rw [List.foldl_append, List.foldl_cons, List.foldl_nil]
    change ∃ r ∈ ((copyMetadata rows).insertNew _).rows, _
    rw [Table.insertNew_of_none (Db.get?_nextRowid _)]
    rcases List.mem_append.1 hm with hm | hm
    · obtain ⟨r, hr, he⟩ := ih hm
      exact ⟨r, List.mem_append_left _ hr, he⟩
    · rw [List.mem_singleton] at hm
      subst hm
      exact ⟨_, List.mem_append_right _ (List.mem_singleton.2 rfl), rfl⟩

/-- The copy of the catalog rows: each insertion finds its key free and its metadata row present. -/
theorem copyCatalog_ok : ∀ {rows : List CatalogV4} {db : Db}, db.Counted →
    (rows.map CatalogV4.hash).Nodup →
    (∀ c ∈ rows, db.torrentCatalog.get? (.v1 c.hash) = none) →
    (∀ c ∈ rows, ∃ m, db.metadataByHash (.v1 c.hash) = some m) →
    ∃ db', copyCatalog rows db = .ok db' ∧ db'.Counted
  | [], db, h, _, _, _ => ⟨db, rfl, h⟩
  | c :: rest, db, h, hnd, hnew, hmeta => by
    obtain ⟨m, hm⟩ := hmeta c List.mem_cons_self
    obtain ⟨mid, hins, hcounted, hsame, hcat⟩ :=
      Db.insertCatalogRow_ok h (hnew c List.mem_cons_self) hm c.fields none
    rw [List.map_cons, List.nodup_cons] at hnd
    have hnew' : ∀ x ∈ rest, mid.torrentCatalog.get? (.v1 x.hash) = none := by
      intro x hx
      have hne : c.hash ≠ x.hash := by
        intro he
        exact hnd.1 (List.mem_map.2 ⟨x, hx, he.symm⟩)
      rw [hcat, Table.get?_insertNew, hnew x (List.mem_cons_of_mem _ hx)]
      simp [Db.newCatalogRow, hne]
    have hmeta' : ∀ x ∈ rest, ∃ m, mid.metadataByHash (.v1 x.hash) = some m := by
      intro x hx
      obtain ⟨m, hm⟩ := hmeta x (List.mem_cons_of_mem _ hx)
      refine ⟨m, ?_⟩
      rw [← hm]
      unfold Db.metadataByHash
      rw [hsame]
    obtain ⟨db', hrest, hdb'⟩ := copyCatalog_ok hcounted hnd.2 hnew' hmeta'
    refine ⟨db', ?_, hdb'⟩
    simp only [copyCatalog, hins]
    exact hrest

/-- **A consistent version 4 database migrates to exact counters.** -/
theorem upgradeV5_ok {db : DbV4} (h : db.Consistent) : ∃ db', upgradeV5 db = .ok db' ∧ db'.Counted := by
  have hstate : upgradeV4State [] (copyMetadata db.metadata.rows).rows.length =
      .ok ⟨0, (copyMetadata db.metadata.rows).rows.length, 0⟩ := by
    unfold upgradeV4State
    exact Db.checked_of (by simp [CatalogState.check])
  have hbase : (upgradeV5Tables db ⟨0, (copyMetadata db.metadata.rows).rows.length, 0⟩).Counted :=
    ⟨rfl, rfl, rfl, rfl, fun c hc => by cases hc⟩
  have hmeta : ∀ c ∈ db.torrentCatalog.rows, ∃ m,
      (upgradeV5Tables db ⟨0, (copyMetadata db.metadata.rows).rows.length, 0⟩).metadataByHash
        (.v1 c.hash) = some m := by
    intro c hc
    obtain ⟨m, hm⟩ := Option.isSome_iff_exists.1 (h.refs c hc)
    obtain ⟨hmem, hkey⟩ := Table.get?_eq_some.1 hm
    obtain ⟨r, hr, he⟩ := copyMetadata_hash hmem
    rw [hkey] at he
    refine Option.isSome_iff_exists.1 (List.find?_isSome.2 ⟨r, hr, ?_⟩)
    simp [he]
  obtain ⟨db', hok, hcounted⟩ := copyCatalog_ok hbase db.torrentCatalog.nodup (fun _ _ => rfl) hmeta
  refine ⟨db', ?_, hcounted⟩
  simp only [upgradeV5, hstate]
  exact hok

theorem migrateV3_ok {db : DbV3} (h : db.Consistent) : ∃ db', migrateV3 db = .ok db' ∧ db'.Counted := by
  obtain ⟨mid, hmid, hcons⟩ := upgradeV4_ok h
  obtain ⟨db', hok, hcounted⟩ := upgradeV5_ok hcons
  refine ⟨db', ?_, hcounted⟩
  simp only [migrateV3, hmid]
  exact hok

end BtSniffer
