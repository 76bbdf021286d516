import BtSniffer.Collection.MetadataStore
import BtSniffer.Storage.Migration

/-!
# Catalog counters over whole runs

Runs of the transactions that write `metadata` and `torrent_catalog`, from a fresh or a migrated
database.  The claim on the counters is about the state after every single statement, so it is
stated over the trace of a transaction and not only over its result.

* `catalog_counters_exact` — in every state of every run the counters and the full-text pairs are
  exact, no `CHECK` of the state row aborts a statement, and a complete index covers every row.
-/

set_option autoImplicit false

namespace BtSniffer

open Relational

/-- The transactions that write the metadata and catalog tables. -/
inductive CatalogOp where
  | save (key : SwarmKey) (info : Bytes) (atMs : Int)
  | mergeIdentical (keep remove : Int)
  | renameCanonical (id : Int) (canonical : TorrentIdentity)
  | ensureCatalog (hash : TorrentIdentity) (info : Bytes)
  | backfillOne (cursor : Option Int)

namespace CatalogOp

variable (M : Metainfo)

/-- The statements of a transaction. -/
def body : CatalogOp → Script Unit
  | .save key info atMs => do let _ ← BtSniffer.save M key info atMs
  | .mergeIdentical keep remove => BtSniffer.mergeIdentical keep remove
  | .renameCanonical id canonical => BtSniffer.renameCanonical id canonical
  | .ensureCatalog hash info => do let _ ← BtSniffer.ensureCatalog M hash info
  | .backfillOne cursor => do let _ ← BtSniffer.backfillOne M cursor

/-- The committed state after a list of transactions. -/
def replay (ops : List CatalogOp) (db : Db) : Db :=
  ops.foldl (fun db op => ((op.body M).commit db).2) db

/-- The databases a run starts from: fresh, or migrated from a consistent older version. -/
inductive Initial : Db → Prop
  | fresh : Initial Db.empty
  | fromV3 {old : DbV3} {db : Db} (consistent : old.Consistent) (migrated : migrateV3 old = .ok db) :
      Initial db
  | fromV4 {old : DbV4} {db : Db} (consistent : old.Consistent) (migrated : upgradeV5 old = .ok db) :
      Initial db

variable {M}

theorem Initial.counted {db : Db} (h : Initial db) : db.Counted := by
  cases h with
  | fresh => exact Db.empty_counted
  | fromV3 consistent migrated =>
    obtain ⟨db', hok, hcounted⟩ := migrateV3_ok consistent
    rw [migrated] at hok
    cases hok
    exact hcounted
  | fromV4 consistent migrated =>
    obtain ⟨db', hok, hcounted⟩ := upgradeV5_ok consistent
    rw [migrated] at hok
    cases hok
    exact hcounted

/-- A transaction keeps the counters, whether it commits or rolls back. -/
theorem commit_counted {α : Type} (p : Script α) {db : Db} (h : db.Counted) :
    (p.commit db).2.Counted := by
  refine Prog.transact_keeps h ?_
  intro a db' hrun
  exact Prog.run_invariant (I := Db.Counted) (fun _ _ _ _ _ hi hs => Db.exec_counted hi hs)
    (Prog.uses_true p) h hrun

theorem replay_counted : ∀ (ops : List CatalogOp) {db : Db}, db.Counted → (replay M ops db).Counted
  | [], _, h => h
  | op :: ops, _, h => replay_counted ops (commit_counted (op.body M) h)

/-- Every state a transaction goes through keeps the counters. -/
theorem trace_counted {α : Type} (p : Script α) {db : Db} (h : db.Counted) :
    ∀ s ∈ db :: p.trace Db.exec db, s.Counted := by
  intro s hs
  rcases List.mem_cons.1 hs with rfl | hs
  · exact h
  · exact Prog.trace_invariant (I := Db.Counted) (fun _ _ _ _ _ hi hs => Db.exec_counted hi hs)
      (Prog.uses_true p) h s hs

theorem complete_iff {db : Db} :
    (indexState db).complete = true ↔ db.catalogState.indexed = db.catalogState.total := by
  simp [indexState]

/-- **The catalog counters are exact after every statement of every run**: consistent databases of
version 3 and 4 migrate; from the result, or from a fresh database, after any sequence of
transactions and then in every state of one further transaction, the counters and the full-text
pairs are exact, no `CHECK` of the state row can abort the next statement, and `complete` is only
reported when every metadata row has a catalog row with known search coverage. -/
theorem catalog_counters_exact (M : Metainfo) {db₀ : Db} (h₀ : Initial db₀) (ops : List CatalogOp)
    (op : CatalogOp) :
    (∀ old : DbV3, old.Consistent → ∃ db, migrateV3 old = .ok db) ∧
      (∀ old : DbV4, old.Consistent → ∃ db, upgradeV5 old = .ok db) ∧
      ∀ s ∈ replay M ops db₀ :: (op.body M).trace Db.exec (replay M ops db₀),
        s.catalogState.total = s.metadata.rows.length ∧
        s.catalogState.indexed =
          (s.torrentCatalog.rows.countP (fun c => c.searchIncomplete.isSome) : Int) ∧
        s.catalogState.searchIncomplete = (s.torrentCatalog.rows.countP
          (fun c => c.searchIncomplete.isNone || c.searchIncomplete == some true) : Int) ∧
        s.catalogFts =
          Multiset.ofList (s.torrentCatalog.rows.map (fun c => (c.id, c.fields.searchText))) ∧
        (∀ stmt, Db.exec stmt s ≠ .error (.database .stateCheck)) ∧
        ((indexState s).complete = true → ∀ m ∈ s.metadata.rows, ∃ c ∈ s.torrentCatalog.rows,
          c.hash = m.hash ∧ c.searchIncomplete.isSome = true) := by
  refine ⟨?_, ?_, ?_⟩
  · intro old h
    obtain ⟨db, hok, -⟩ := migrateV3_ok h
    exact ⟨db, hok⟩
  · intro old h
    obtain ⟨db, hok, -⟩ := upgradeV5_ok h
    exact ⟨db, hok⟩
  · intro s hs
    have h : s.Counted := trace_counted (op.body M) (replay_counted ops h₀.counted) s hs
    refine ⟨h.total, h.indexed, h.search, h.fts, Db.exec_stateCheck h, ?_⟩
    intro hcomplete m hm
    exact h.covered (complete_iff.1 hcomplete) hm

/-- A version 3 database with one stored dictionary, already catalogued. -/
def oneTorrentV3 : DbV3 where
  infohashes := Table.empty.insertNew ⟨0x600ccd1b71569232d01d110bc63e906beab04d8c, 3, 9⟩
  fetchJobs := .empty
  peerHints := .empty
  metadata := Table.empty.insertNew ⟨0x600ccd1b71569232d01d110bc63e906beab04d8c, [0x64, 0x65], 4⟩
  torrentCatalog := Table.empty.insertNew ⟨1, 0x600ccd1b71569232d01d110bc63e906beab04d8c,
    ⟨.unavailable, none, false, false, none, none, none, none, none, ""⟩⟩
  indexed := 1
  total := 1

theorem oneTorrentV3_consistent : oneTorrentV3.Consistent :=
  ⟨by decide, by decide, by decide⟩

/-- The migration of that database followed by the catalog backfill. -/
theorem catalog_counters_exact_migrated : oneTorrentV3.Consistent ∧
    ∃ db, migrateV3 oneTorrentV3 = .ok db ∧
      (replay .ofEmptyDictionary [.backfillOne none] db).catalogState.total =
        (replay .ofEmptyDictionary [.backfillOne none] db).metadata.rows.length := by
  obtain ⟨db, hok, -⟩ := migrateV3_ok oneTorrentV3_consistent
  have hinit : Initial db := .fromV3 oneTorrentV3_consistent hok
  have hrun := catalog_counters_exact .ofEmptyDictionary hinit [.backfillOne none]
    (.backfillOne none)
  exact ⟨oneTorrentV3_consistent, db, hok, (hrun.2.2 _ List.mem_cons_self).1⟩

end CatalogOp

end BtSniffer
