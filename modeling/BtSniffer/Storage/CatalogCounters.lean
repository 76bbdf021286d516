import BtSniffer.Storage.Statement
import Mathlib.Data.List.Perm.Subperm

/-!
# The catalog counters

The counters of `torrent_catalog_state` and the pairs of `torrent_catalog_fts` are kept by triggers
only.  `Counted` says that they are exact; it includes the foreign key from `torrent_catalog` to
`metadata`, which is what makes `total >= indexed` true.

* `exec_counted` — every statement keeps the counters exact;
* `exec_stateCheck` — so the `CHECK`s of the state row never abort a statement;
* `Counted.covered` — equal counters mean that every metadata row has a catalog row with known
  search coverage.
-/

set_option autoImplicit false

namespace BtSniffer

open Relational

/-- A row counted by `indexed`: `search_incomplete IS NOT NULL`. -/
def CatalogRow.isIndexed (c : CatalogRow) : Bool := c.searchIncomplete.isSome

/-- A row counted by `search_incomplete`: `NULL` or `1`. -/
def CatalogRow.isIncomplete (c : CatalogRow) : Bool :=
  c.searchIncomplete.isNone || c.searchIncomplete == some true

namespace Db

/-- The counters and the full-text pairs are exact. -/
structure Counted (db : Db) : Prop where
  total : db.catalogState.total = db.metadata.rows.length
  indexed : db.catalogState.indexed = db.torrentCatalog.count CatalogRow.isIndexed
  search : db.catalogState.searchIncomplete = db.torrentCatalog.count CatalogRow.isIncomplete
  fts : db.catalogFts = Multiset.ofList (db.torrentCatalog.rows.map CatalogRow.ftsPair)
  refs : ∀ c ∈ db.torrentCatalog.rows, ∃ m ∈ db.metadata.rows, m.hash = c.hash

theorem empty_counted : empty.Counted :=
  ⟨rfl, rfl, rfl, rfl, fun c hc => by cases hc⟩

/-- The counters read four components of the database. -/
theorem Counted.congr {db db' : Db} (h : db.Counted) (hm : db'.metadata = db.metadata)
    (hc : db'.torrentCatalog = db.torrentCatalog) (hs : db'.catalogState = db.catalogState)
    (hf : db'.catalogFts = db.catalogFts) : db'.Counted := by
  refine ⟨?_, ?_, ?_, ?_, ?_⟩
  · rw [hs, hm]; exact h.total
  · rw [hs, hc]; exact h.indexed
  · rw [hs, hc]; exact h.search
  · rw [hf, hc]; exact h.fts
  · rw [hc, hm]; exact h.refs

/-- Exact counters and pairs are determined by the tables. -/
theorem Counted.ext {db db' : Db} (h : db.Counted) (h' : db'.Counted)
    (hi : db'.infohashes = db.infohashes) (hj : db'.fetchJobs = db.fetchJobs)
    (hp : db'.peerHints = db.peerHints) (hm : db'.metadata = db.metadata)
    (ht : db'.torrentIdentities = db.torrentIdentities)
    (hw : db'.swarmMetadata = db.swarmMetadata) (hc : db'.torrentCatalog = db.torrentCatalog) :
    db' = db := by
  have hstate : db'.catalogState = db.catalogState := by
    have h1 : db'.catalogState.total = db.catalogState.total := by
      rw [h'.total, hm, h.total]
    have h2 : db'.catalogState.indexed = db.catalogState.indexed := by
      rw [h'.indexed, hc, h.indexed]
    have h3 : db'.catalogState.searchIncomplete = db.catalogState.searchIncomplete := by
      rw [h'.search, hc, h.search]
    generalize db'.catalogState = s' at h1 h2 h3
    generalize db.catalogState = s at h1 h2 h3
    cases s'
    cases s
    simp only at h1 h2 h3
    rw [h1, h2, h3]
  have hfts : db'.catalogFts = db.catalogFts := by rw [h'.fts, hc, h.fts]
  cases db'
  cases db
  simp only at hi hj hp hm ht hw hc hstate hfts
  rw [hi, hj, hp, hm, ht, hw, hc, hstate, hfts]

/-! ## Bounds -/

/-- Catalog rows with distinct hashes that all refer to metadata rows are at most as many. -/
theorem count_le_metadata {catalog : Table CatalogRow CatalogRow.hash}
    {metadata : Table MetadataRow MetadataRow.id}
    (refs : ∀ c ∈ catalog.rows, ∃ m ∈ metadata.rows, m.hash = c.hash) (p : CatalogRow → Bool) :
    catalog.count p ≤ metadata.rows.length := by
  have hsub : (catalog.rows.map CatalogRow.hash).Subperm
      (metadata.rows.map MetadataRow.hash) := by
    refine catalog.nodup.subperm ?_
    intro k hk
    obtain ⟨c, hc, rfl⟩ := List.mem_map.1 hk
    obtain ⟨m, hm, he⟩ := refs c hc
    exact List.mem_map.2 ⟨m, hm, he⟩
  have hlen := hsub.length_le
  rw [List.length_map, List.length_map] at hlen
  exact Nat.le_trans List.countP_le_length hlen

/-- Exact counters pass the `CHECK`s. -/
theorem Counted.check {db : Db} (h : db.Counted) : db.catalogState.check = true := by
  have hle := count_le_metadata h.refs CatalogRow.isIndexed
  have h1 := h.total
  have h2 := h.indexed
  have h3 := h.search
  simp only [CatalogState.check, Bool.and_eq_true, decide_eq_true_eq]
  omega

theorem checked_of {s : CatalogState} (h : s.check = true) : s.checked = .ok s := by
  simp [CatalogState.checked, h]

/-- Shifting to counters that pass the `CHECK`s succeeds. -/
theorem shift_of {s : CatalogState} {i d : Int} (hs : 0 ≤ s.searchIncomplete)
    (h : CatalogState.check ⟨s.indexed + i, s.total, s.searchIncomplete + d⟩ = true) :
    s.shift i d = .ok ⟨s.indexed + i, s.total, s.searchIncomplete + d⟩ := by
  unfold CatalogState.shift
  simp only [CatalogState.check, Bool.and_eq_true, decide_eq_true_eq] at h
  obtain ⟨⟨h1, h2⟩, h3⟩ := h
  rw [checked_of (by simp [CatalogState.check, h1, h2, hs])]
  simp only
  rw [checked_of (by simp [CatalogState.check, h1, h2, h3])]

/-- A new catalog with exact counters and pairs, over the same metadata. -/
theorem counted_catalog {db : Db} (h : db.Counted) (catalog : Table CatalogRow CatalogRow.hash)
    (i d : Int) (fts : Multiset (Int × String))
    (hi : db.catalogState.indexed + i = catalog.count CatalogRow.isIndexed)
    (hd : db.catalogState.searchIncomplete + d = catalog.count CatalogRow.isIncomplete)
    (hf : fts = Multiset.ofList (catalog.rows.map CatalogRow.ftsPair))
    (refs : ∀ c ∈ catalog.rows, ∃ m ∈ db.metadata.rows, m.hash = c.hash) :
    db.catalogState.shift i d = .ok ⟨db.catalogState.indexed + i, db.catalogState.total,
        db.catalogState.searchIncomplete + d⟩ ∧
      Counted { db with
        torrentCatalog := catalog
        catalogState := ⟨db.catalogState.indexed + i, db.catalogState.total,
          db.catalogState.searchIncomplete + d⟩
        catalogFts := fts } := by
  have hc : Counted { db with
      torrentCatalog := catalog
      catalogState := ⟨db.catalogState.indexed + i, db.catalogState.total,
        db.catalogState.searchIncomplete + d⟩
      catalogFts := fts } := ⟨h.total, hi, hd, hf, refs⟩
  refine ⟨shift_of ?_ hc.check, hc⟩
  have := h.search
  omega

/-- The outcome of a statement on exact counters: a `CHECK` of the state row does not abort it, and
if it succeeds they are exact again. -/
def Sound : Except StorageError (Nat × Db) → Prop
  | .ok (_, db) => db.Counted
  | .error e => e ≠ .database .stateCheck

/-! ## Catalog rows -/

theorem indexedWeight_eq (c : CatalogRow) :
    indexedWeight c.searchIncomplete = if c.isIndexed then 1 else 0 := by
  unfold indexedWeight CatalogRow.isIndexed
  cases c.searchIncomplete <;> rfl

theorem searchWeight_eq (c : CatalogRow) :
    searchWeight c.searchIncomplete = if c.isIncomplete then 1 else 0 := rfl

theorem mem_of_metadataByHash {db : Db} {hash : TorrentIdentity} {m : MetadataRow}
    (h : db.metadataByHash hash = some m) : m ∈ db.metadata.rows ∧ m.hash = hash :=
  ⟨List.mem_of_find?_eq_some h, by simpa using List.find?_some h⟩

/-- The row an insertion into the catalog writes. -/
def newCatalogRow (db : Db) (hash : TorrentIdentity) (fields : CatalogFields) (cov : Option Bool) :
    CatalogRow :=
  ⟨nextRowid (db.torrentCatalog.rows.map CatalogRow.id), hash, fields, cov, SemanticFields.default⟩

/-- An insertion into the catalog succeeds if its key is new and the metadata row exists. -/
theorem insertCatalogRow_ok {db : Db} (h : db.Counted) {hash : TorrentIdentity} {m : MetadataRow}
    (hnone : db.torrentCatalog.get? hash = none) (hm : db.metadataByHash hash = some m)
    (fields : CatalogFields) (cov : Option Bool) :
    ∃ db', db.insertCatalogRow hash fields cov = .ok (1, db') ∧ db'.Counted ∧
      db'.metadata = db.metadata ∧
      db'.torrentCatalog = db.torrentCatalog.insertNew (db.newCatalogRow hash fields cov) := by
  obtain ⟨hmem, hhash⟩ := mem_of_metadataByHash hm
  have hget : db.torrentCatalog.get? (db.newCatalogRow hash fields cov).hash = none := hnone
  have hi : db.catalogState.indexed + indexedWeight cov = (db.torrentCatalog.insertNew
      (db.newCatalogRow hash fields cov)).count CatalogRow.isIndexed := by
    rw [Table.count_insertNew hget, h.indexed]
    change _ + indexedWeight (db.newCatalogRow hash fields cov).searchIncomplete = _
    rw [indexedWeight_eq]
    split <;> simp
  have hd : db.catalogState.searchIncomplete + searchWeight cov = (db.torrentCatalog.insertNew
      (db.newCatalogRow hash fields cov)).count CatalogRow.isIncomplete := by
    rw [Table.count_insertNew hget, h.search]
    change _ + searchWeight (db.newCatalogRow hash fields cov).searchIncomplete = _
    rw [searchWeight_eq]
    split <;> simp
  have hf : (db.newCatalogRow hash fields cov).ftsPair ::ₘ db.catalogFts = Multiset.ofList
      ((db.torrentCatalog.insertNew (db.newCatalogRow hash fields cov)).rows.map
        CatalogRow.ftsPair) := by
    rw [Table.insertNew_of_none hget, List.map_append, h.fts]
    refine Multiset.coe_eq_coe.2 ?_
    exact (List.perm_append_singleton _ _).symm
  have hrefs : ∀ c ∈ (db.torrentCatalog.insertNew (db.newCatalogRow hash fields cov)).rows,
      ∃ m ∈ db.metadata.rows, m.hash = c.hash := by
    intro c hc
    rcases Table.mem_insertNew hc with hc | rfl
    · exact h.refs c hc
    · exact ⟨m, hmem, hhash⟩
  obtain ⟨hshift, hcounted⟩ := counted_catalog h _ _ _ _ hi hd hf hrefs
  refine ⟨_, ?_, hcounted, rfl, rfl⟩
  unfold insertCatalogRow
  simp only [hnone, hm, hshift, Option.isSome_none, Option.isNone_some, Bool.false_eq_true, if_false]
  rfl

theorem insertCatalogRow_sound {db : Db} (h : db.Counted) (hash : TorrentIdentity)
    (fields : CatalogFields) (cov : Option Bool) : Sound (db.insertCatalogRow hash fields cov) := by
  cases hnone : db.torrentCatalog.get? hash with
  | some c => simp [insertCatalogRow, hnone, Sound]
  | none =>
    cases hm : db.metadataByHash hash with
    | none => simp [insertCatalogRow, hnone, hm, Sound]
    | some m =>
      obtain ⟨db', hok, hcounted, -⟩ := insertCatalogRow_ok h hnone hm fields cov
      rw [hok]
      exact hcounted

/-- The counters without one row of the catalog. -/
theorem count_delete_row {t : Table CatalogRow CatalogRow.hash} {hash : TorrentIdentity}
    {c : CatalogRow} (h : t.get? hash = some c) (p : CatalogRow → Bool) :
    t.count p = (t.delete (fun r => decide (r.hash = hash))).count p + if p c then 1 else 0 := by
  unfold Table.count
  rw [(Table.perm_delete_key h).countP_eq, List.countP_cons]

theorem count_update_row {t : Table CatalogRow CatalogRow.hash} {hash : TorrentIdentity}
    {c : CatalogRow} (h : t.get? hash = some c) (f : CatalogRow → CatalogRow)
    (hf : ∀ r, (f r).hash = r.hash) (p : CatalogRow → Bool) :
    (t.update (fun r => decide (r.hash = hash)) f hf).count p =
      (t.delete (fun r => decide (r.hash = hash))).count p + if p (f c) then 1 else 0 := by
  unfold Table.count
  rw [(Table.perm_update_key h f hf).countP_eq, List.countP_cons]

/-- The pairs without one row of the catalog. -/
theorem fts_delete_row {t : Table CatalogRow CatalogRow.hash} {hash : TorrentIdentity}
    {c : CatalogRow} (h : t.get? hash = some c) :
    (Multiset.ofList (t.rows.map CatalogRow.ftsPair)).erase c.ftsPair = Multiset.ofList
      ((t.delete (fun r => decide (r.hash = hash))).rows.map CatalogRow.ftsPair) := by
  have hp := (Table.perm_delete_key h).map CatalogRow.ftsPair
  rw [Multiset.coe_eq_coe.2 hp, List.map_cons, ← Multiset.cons_coe, Multiset.erase_cons_head]

/-- Deleting a catalog row always succeeds. -/
theorem deleteCatalogRow_spec {db : Db} (h : db.Counted) (hash : TorrentIdentity) :
    ∃ n db', db.deleteCatalogRow hash = .ok (n, db') ∧ db'.Counted ∧
      db'.metadata = db.metadata ∧
      db'.torrentCatalog = db.torrentCatalog.delete (fun r => decide (r.hash = hash)) := by
  unfold deleteCatalogRow
  split
  · rename_i hnone
    refine ⟨0, db, rfl, h, rfl, ?_⟩
    refine (Table.delete_eq_self ?_).symm
    intro r hr
    simpa using Table.get?_eq_none.1 hnone r hr
  · rename_i c hc
    have hi : db.catalogState.indexed + -indexedWeight c.searchIncomplete =
        (db.torrentCatalog.delete (fun r => decide (r.hash = hash))).count CatalogRow.isIndexed := by
      rw [h.indexed, count_delete_row hc, indexedWeight_eq]
      split <;> push_cast <;> omega
    have hd : db.catalogState.searchIncomplete + -searchWeight c.searchIncomplete =
        (db.torrentCatalog.delete (fun r => decide (r.hash = hash))).count
          CatalogRow.isIncomplete := by
      rw [h.search, count_delete_row hc, searchWeight_eq]
      split <;> push_cast <;> omega
    have hf : db.catalogFts.erase c.ftsPair = Multiset.ofList
        ((db.torrentCatalog.delete (fun r => decide (r.hash = hash))).rows.map
          CatalogRow.ftsPair) := by
      rw [h.fts]
      exact fts_delete_row hc
    have hrefs : ∀ r ∈ (db.torrentCatalog.delete (fun r => decide (r.hash = hash))).rows,
        ∃ m ∈ db.metadata.rows, m.hash = r.hash :=
      fun r hr => h.refs r (Table.mem_delete.1 hr).1
    obtain ⟨hshift, hcounted⟩ := counted_catalog h _ _ _ _ hi hd hf hrefs
    rw [hshift]
    exact ⟨1, _, rfl, hcounted, rfl, rfl⟩

theorem deleteCatalogRow_sound {db : Db} (h : db.Counted) (hash : TorrentIdentity) :
    Sound (db.deleteCatalogRow hash) := by
  obtain ⟨n, db', hok, hcounted, -⟩ := deleteCatalogRow_spec h hash
  rw [hok]
  exact hcounted

/-- An update of a catalog row succeeds; a statement that does not assign the coverage leaves it as
it was. -/
theorem updateCatalogRow_ok {db : Db} (h : db.Counted) (coverage : Bool) {hash : TorrentIdentity}
    {c : CatalogRow} (hc : db.torrentCatalog.get? hash = some c) (set : CatalogRow → CatalogRow)
    (hset : ∀ c, (set c).hash = c.hash)
    (hcov : coverage = false → ∀ c, (set c).searchIncomplete = c.searchIncomplete) :
    ∃ db', db.updateCatalogRow coverage hash set hset = .ok (1, db') ∧ db'.Counted ∧
      db'.torrentCatalog = db.torrentCatalog.update (fun r => decide (r.hash = hash)) set hset := by
  have hi : db.catalogState.indexed +
      (indexedWeight (set c).searchIncomplete - indexedWeight c.searchIncomplete) =
      (db.torrentCatalog.update (fun r => decide (r.hash = hash)) set hset).count
        CatalogRow.isIndexed := by
    rw [h.indexed, count_delete_row hc, count_update_row hc, indexedWeight_eq, indexedWeight_eq]
    split <;> split <;> push_cast <;> omega
  have hd : db.catalogState.searchIncomplete +
      (searchWeight (set c).searchIncomplete - searchWeight c.searchIncomplete) =
      (db.torrentCatalog.update (fun r => decide (r.hash = hash)) set hset).count
        CatalogRow.isIncomplete := by
    rw [h.search, count_delete_row hc, count_update_row hc, searchWeight_eq, searchWeight_eq]
    split <;> split <;> push_cast <;> omega
  have hf : (set c).ftsPair ::ₘ db.catalogFts.erase c.ftsPair = Multiset.ofList
      ((db.torrentCatalog.update (fun r => decide (r.hash = hash)) set hset).rows.map
        CatalogRow.ftsPair) := by
    rw [h.fts, fts_delete_row hc]
    exact (Multiset.coe_eq_coe.2 ((Table.perm_update_key hc set hset).map _)).symm
  have hrefs : ∀ r ∈ (db.torrentCatalog.update (fun r => decide (r.hash = hash)) set hset).rows,
      ∃ m ∈ db.metadata.rows, m.hash = r.hash := by
    intro r hr
    obtain ⟨r, hmem, rfl⟩ := Table.mem_update.1 hr
    obtain ⟨m, hm, he⟩ := h.refs r hmem
    refine ⟨m, hm, he.trans ?_⟩
    split
    · exact (hset r).symm
    · rfl
  obtain ⟨hshift, hcounted⟩ := counted_catalog h _ _ _ _ hi hd hf hrefs
  unfold updateCatalogRow
  simp only [hc]
  cases coverage with
  | true =>
    simp only [if_true]
    rw [hshift]
    exact ⟨_, rfl, hcounted, rfl⟩
  | false =>
    rw [hcov rfl c, Int.sub_self, Int.sub_self, Int.add_zero, Int.add_zero] at hcounted
    exact ⟨_, rfl, hcounted, rfl⟩

theorem updateCatalogRow_sound {db : Db} (h : db.Counted) {coverage : Bool} (hash : TorrentIdentity)
    {set : CatalogRow → CatalogRow} (hset : ∀ c, (set c).hash = c.hash)
    (hcov : coverage = false → ∀ c, (set c).searchIncomplete = c.searchIncomplete) :
    Sound (db.updateCatalogRow coverage hash set hset) := by
  cases hc : db.torrentCatalog.get? hash with
  | none =>
    unfold updateCatalogRow
    simp only [hc]
    exact h
  | some c =>
    obtain ⟨db', hok, hcounted, -⟩ := updateCatalogRow_ok h coverage hc set hset hcov
    rw [hok]
    exact hcounted

/-! ## Metadata rows -/

/-- A new metadata table over the same catalog. -/
theorem counted_metadata {db : Db} (h : db.Counted) (metadata : Table MetadataRow MetadataRow.id)
    (d : Int) (hd : db.catalogState.total + d = metadata.rows.length)
    (refs : ∀ c ∈ db.torrentCatalog.rows, ∃ m ∈ metadata.rows, m.hash = c.hash) :
    CatalogState.checked { db.catalogState with total := db.catalogState.total + d } =
        .ok { db.catalogState with total := db.catalogState.total + d } ∧
      Counted { db with
        metadata := metadata
        catalogState := { db.catalogState with total := db.catalogState.total + d } } := by
  have hc : Counted { db with
      metadata := metadata
      catalogState := { db.catalogState with total := db.catalogState.total + d } } :=
    ⟨hd, h.indexed, h.search, h.fts, refs⟩
  exact ⟨checked_of hc.check, hc⟩

/-- A fresh row id. -/
theorem get?_nextRowid (t : Table MetadataRow MetadataRow.id) :
    t.get? (nextRowid (t.rows.map MetadataRow.id)) = none := by
  rw [Table.get?_eq_none]
  intro m hm he
  have hmem : m.id ∈ t.rows.map MetadataRow.id := List.mem_map.2 ⟨m, hm, rfl⟩
  have hlt := nextRowid_gt hmem
  omega

theorem insertMetadataRow_sound {db : Db} (h : db.Counted) (hash : TorrentIdentity) (info : Bytes)
    (atMs : Int) : Sound (db.insertMetadataRow hash info atMs) := by
  unfold insertMetadataRow
  simp only
  split
  · simp [Sound]
  · split
    · simp [Sound]
    · generalize hrow : (⟨nextRowid (db.metadata.rows.map MetadataRow.id), hash, info, atMs⟩ :
        MetadataRow) = row
      have hget : db.metadata.get? row.id = none := by
        rw [← hrow]
        exact get?_nextRowid db.metadata
      have hd : db.catalogState.total + 1 = (db.metadata.insertNew row).rows.length := by
        rw [Table.insertNew_of_none hget, h.total]
        simp
      have hrefs : ∀ c ∈ db.torrentCatalog.rows,
          ∃ m ∈ (db.metadata.insertNew row).rows, m.hash = c.hash := by
        intro c hc
        obtain ⟨m, hm, he⟩ := h.refs c hc
        exact ⟨m, Table.mem_insertNew_of_mem hm, he⟩
      obtain ⟨hchecked, hcounted⟩ := counted_metadata h _ _ hd hrefs
      rw [hchecked]
      exact hcounted

/-- An update that keeps the hashes the catalog refers to. -/
theorem counted_update {db : Db} (h : db.Counted) (p : MetadataRow → Bool)
    (f : MetadataRow → MetadataRow) (hf : ∀ r, (f r).id = r.id)
    (hhash : ∀ r ∈ db.metadata.rows, p r = true → (db.torrentCatalog.get? r.hash).isSome = true →
      (f r).hash = r.hash) :
    Counted { db with metadata := db.metadata.update p f hf } := by
  refine ⟨?_, h.indexed, h.search, h.fts, ?_⟩
  · simpa using h.total
  · intro c hc
    obtain ⟨m, hm, he⟩ := h.refs c hc
    have hmem : (if p m then f m else m) ∈ (db.metadata.update p f hf).rows :=
      Table.mem_update.2 ⟨m, hm, rfl⟩
    refine ⟨_, hmem, ?_⟩
    split
    · rename_i hp
      rw [hhash m hm hp (by rw [he, Table.get?_key hc]; rfl)]
      exact he
    · exact he

theorem renameMetadataRow_sound {db : Db} (h : db.Counted) (id : Int) (hash : TorrentIdentity) :
    Sound (db.renameMetadataRow id hash) := by
  unfold renameMetadataRow
  split
  · exact h
  · rename_i m hm
    split
    · simp [Sound]
    · split
      · simp [Sound]
      · rename_i hfk
        refine counted_update h _ _ _ ?_
        intro r hr hp hsome
        have hrm : r = m := Table.eq_of_key hr (Table.get?_eq_some.1 hm).1 (by
          rw [(Table.get?_eq_some.1 hm).2]
          simpa using hp)
        subst hrm
        simp only [Bool.and_eq_true, bne_iff_ne, ne_eq, not_and, hsome, not_true_eq_false,
          imp_false, not_not] at hfk
        exact hfk.symm

theorem mergeFetchedAtRow_sound {db : Db} (h : db.Counted) (keep remove : Int) :
    Sound (db.mergeFetchedAtRow keep remove) := by
  unfold mergeFetchedAtRow
  split
  · exact h
  · simp [Sound]
  · exact counted_update h _ _ _ (fun _ _ _ _ => rfl)

theorem deleteMetadataRow_sound {db : Db} (h : db.Counted) (id : Int) :
    Sound (db.deleteMetadataRow id) := by
  unfold deleteMetadataRow
  split
  · exact h
  · rename_i m hm
    split
    · simp [Sound]
    · obtain ⟨n, mid, hdel, hmid, hmeta, hcat⟩ := deleteCatalogRow_spec h m.hash
      simp only [hdel]
      have hm' : mid.metadata.get? id = some m := by rw [hmeta]; exact hm
      have hd : mid.catalogState.total + -1 =
          (mid.metadata.delete (fun r => decide (r.id = id))).rows.length := by
        have hlen := (Table.perm_delete_key hm').length_eq
        rw [List.length_cons] at hlen
        rw [hmid.total, hlen]
        push_cast
        omega
      have hrefs : ∀ c ∈ mid.torrentCatalog.rows,
          ∃ r ∈ (mid.metadata.delete (fun r => decide (r.id = id))).rows, r.hash = c.hash := by
        intro c hc
        obtain ⟨r, hr, he⟩ := hmid.refs c hc
        refine ⟨r, Table.mem_delete.2 ⟨hr, ?_⟩, he⟩
        -- the cascade removed every catalog row of the deleted metadata row
        rw [hcat] at hc
        have hne : c.hash ≠ m.hash := by simpa using (Table.mem_delete.1 hc).2
        have hid : r.id ≠ id := by
          intro hid
          have : r = m := Table.eq_of_key hr (Table.get?_eq_some.1 hm').1
            (hid.trans (Table.get?_eq_some.1 hm').2.symm)
          exact hne (by rw [← he, this])
        simpa using hid
      obtain ⟨hchecked, hcounted⟩ := counted_metadata hmid _ _ hd hrefs
      have hsub : mid.catalogState.total - 1 = mid.catalogState.total + -1 := rfl
      rw [hsub, hchecked]
      exact hcounted

/-! ## Every statement -/

/-- **Every statement keeps the counters exact**, and no `CHECK` of the state row aborts it. -/
theorem exec_sound {db : Db} (h : db.Counted) (stmt : Stmt) : Sound (exec stmt db) := by
  cases stmt with
  | upsertHash hash atMs =>
    show Sound (db.upsertHashRow hash atMs)
    unfold upsertHashRow
    split
    · simp [Sound]
    · exact h.congr rfl rfl rfl rfl
  | insertJob hash nowMs =>
    show Sound (db.insertJobRow hash nowMs)
    unfold insertJobRow
    simp only
    repeat' split
    · exact h
    · simp [Sound]
    · exact h
    · simp [Sound]
    · exact h.congr rfl rfl rfl rfl
  | updateJobs u =>
    show Sound (db.updateJobRows u)
    unfold updateJobRows updateRows
    split
    · rename_i e he
      split at he
      · cases he
        simp [Sound]
      · cases he
    · exact h.congr rfl rfl rfl rfl
  | upsertHint hint =>
    show Sound (db.upsertHintRow hint)
    unfold upsertHintRow
    repeat' split
    · simp [Sound]
    · simp [Sound]
    · exact h.congr rfl rfl rfl rfl
  | deleteHints d => exact h.congr rfl rfl rfl rfl
  | insertMetadata hash info atMs => exact insertMetadataRow_sound h hash info atMs
  | renameMetadata id hash => exact renameMetadataRow_sound h id hash
  | mergeFetchedAt keep remove => exact mergeFetchedAtRow_sound h keep remove
  | deleteMetadata id => exact deleteMetadataRow_sound h id
  | insertIdentity identity id =>
    show Sound (db.insertIdentityRow identity id)
    unfold insertIdentityRow
    repeat' split
    · exact h
    · simp [Sound]
    · simp [Sound]
    · exact h.congr rfl rfl rfl rfl
  | moveIdentities keep remove =>
    show Sound (db.moveIdentityRows keep remove)
    unfold moveIdentityRows
    simp only
    repeat' split
    · simp [Sound]
    · simp [Sound]
    · exact h.congr rfl rfl rfl rfl
  | upsertSwarm row =>
    show Sound (db.upsertSwarmRow row)
    unfold upsertSwarmRow
    split
    · simp [Sound]
    · exact h.congr rfl rfl rfl rfl
  | copySwarm keep remove =>
    show Sound (db.copySwarmRows keep remove)
    unfold copySwarmRows
    simp only
    split
    · simp [Sound]
    · exact h.congr rfl rfl rfl rfl
  | deleteSwarm id => exact h.congr rfl rfl rfl rfl
  | deleteCatalog hash => exact deleteCatalogRow_sound h hash
  | deleteCatalogOf id =>
    simp only [exec]
    split
    · exact h
    · exact deleteCatalogRow_sound h _
  | insertCatalog hash fields cov => exact insertCatalogRow_sound h hash fields cov
  | updateCatalog hash fields cov =>
    exact updateCatalogRow_sound h hash _ (fun hfalse => by cases hfalse)
  | updateSemantics hash semantic =>
    simp only [exec]
    refine updateCatalogRow_sound h hash _ ?_
    intro _ c
    rfl
  | markMismatch hash =>
    simp only [exec]
    refine updateCatalogRow_sound h hash _ ?_
    intro _ c
    rfl

theorem exec_counted {stmt : Stmt} {db db' : Db} {n : Nat} (h : db.Counted)
    (hs : exec stmt db = .ok (n, db')) : db'.Counted := by
  have := exec_sound h stmt
  rw [hs] at this
  exact this

theorem exec_stateCheck {db : Db} (h : db.Counted) (stmt : Stmt) :
    exec stmt db ≠ .error (.database .stateCheck) := by
  intro hs
  have := exec_sound h stmt
  rw [hs] at this
  exact this rfl

/-- **Equal counters mean full coverage**: every metadata row has a catalog row whose search
coverage is known. -/
theorem Counted.covered {db : Db} (h : db.Counted)
    (he : db.catalogState.indexed = db.catalogState.total) {m : MetadataRow}
    (hm : m ∈ db.metadata.rows) :
    ∃ c ∈ db.torrentCatalog.rows, c.hash = m.hash ∧ c.searchIncomplete.isSome = true := by
  have hsub : ((db.torrentCatalog.rows.filter CatalogRow.isIndexed).map CatalogRow.hash).Subperm
      (db.metadata.rows.map MetadataRow.hash) := by
    refine (db.torrentCatalog.nodup.sublist (List.filter_sublist.map _)).subperm ?_
    intro k hk
    obtain ⟨c, hc, rfl⟩ := List.mem_map.1 hk
    obtain ⟨m, hm, he⟩ := h.refs c (List.mem_of_mem_filter hc)
    exact List.mem_map.2 ⟨m, hm, he⟩
  have hlen : (db.metadata.rows.map MetadataRow.hash).length ≤
      ((db.torrentCatalog.rows.filter CatalogRow.isIndexed).map CatalogRow.hash).length := by
    rw [List.length_map, List.length_map, ← List.countP_eq_length_filter]
    have h1 := h.total
    have h2 := h.indexed
    unfold Table.count at h2
    omega
  have hperm := hsub.perm_of_length_le hlen
  have hmem : m.hash ∈ (db.torrentCatalog.rows.filter CatalogRow.isIndexed).map CatalogRow.hash :=
    hperm.mem_iff.2 (List.mem_map.2 ⟨m, hm, rfl⟩)
  obtain ⟨c, hc, hhash⟩ := List.mem_map.1 hmem
  obtain ⟨hrow, hidx⟩ := List.mem_filter.1 hc
  exact ⟨c, hrow, hhash, hidx⟩

end Db

end BtSniffer
