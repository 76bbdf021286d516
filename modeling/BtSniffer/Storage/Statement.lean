import BtSniffer.Storage.Schema
import BtSniffer.Lib.Prog

/-!
# SQL statements of the collection store

Reference model of every `INSERT`, `UPDATE` and `DELETE` the collection store executes, with the
constraints and triggers of `src/storage/schema.rs`.

* `Stmt` — one constructor per statement text; the job updates and hint deletions, which differ
  only in their `WHERE` and `SET` clauses, are `JobUpdate` and `HintDelete`.
* `exec` — the meaning of a statement: the number of changed rows and the new database, or the
  error that aborts it.  `CHECK` clauses are evaluated on the row to be written, before a conflict
  with an existing row is resolved; immediate foreign keys are evaluated at the end of the
  statement.
* The triggers of `torrent_catalog` and `metadata` adjust `torrent_catalog_state` and
  `torrent_catalog_fts` inside the statement that fires them, and the `CHECK`s of the state row
  abort it.
* `Script` — a transaction body.
-/

set_option autoImplicit false

namespace BtSniffer

open Relational

/-- `PEER_HINT_TTL_MS`. -/
def PEER_HINT_TTL_MS : Int := 30 * 60 * 1000

/-- `DORMANT_REACTIVATION_DELAY_MS`. -/
def DORMANT_REACTIVATION_DELAY_MS : Int := 24 * 60 * 60 * 1000

/-- `MAX_PEER_HINTS`. -/
def MAX_PEER_HINTS : Nat := 8

/-- `PEER_HINT_CLEANUP_BATCH_SIZE`. -/
def PEER_HINT_CLEANUP_BATCH_SIZE : Nat := 1024

/-- `RetryTransition`. -/
structure RetryTransition where
  state : JobState
  attempts : Nat
  dueAt : Int
  deriving DecidableEq, Repr

/-- The `UPDATE fetch_jobs` statements. -/
inductive JobUpdate where
  /-- `enqueue`: a dormant job whose rest is over becomes pending. -/
  | revive (hash : SwarmKey) (nowMs : Int)
  /-- `claim_order`. -/
  | claim (hash : SwarmKey) (nowMs : Int)
  /-- `recover_jobs`, first statement. -/
  | recoverRunning (nowMs : Int)
  /-- `recover_jobs`, second statement. -/
  | recoverSucceeded
  /-- `retry_job`. -/
  | retry (hash : SwarmKey) (generation : Nat) (transition : RetryTransition) (nowMs : Int)
      (error : Option String)
  /-- `complete_job`. -/
  | succeed (hash : SwarmKey) (nowMs : Int)
  /-- `metadata_store::save`, for the job of another key of the same torrent. -/
  | settleAlias (hash : SwarmKey) (atMs : Int)

/-- The `DELETE FROM peer_hints` statements. -/
inductive HintDelete where
  /-- `discover_peer`: keep the eight most recent hints of a hash. -/
  | trim (hash : SwarmKey)
  /-- `complete_job` and `save`. -/
  | clear (hash : SwarmKey)
  /-- `cleanup_expired`. -/
  | expired (nowMs : Int)

/-- The data-changing statements. -/
inductive Stmt where
  | upsertHash (hash : SwarmKey) (atMs : Int)
  | insertJob (hash : SwarmKey) (nowMs : Int)
  | updateJobs (u : JobUpdate)
  | upsertHint (hint : PeerHint)
  | deleteHints (d : HintDelete)
  | insertMetadata (hash : TorrentIdentity) (info : Bytes) (atMs : Int)
  | renameMetadata (id : Int) (hash : TorrentIdentity)
  | mergeFetchedAt (keep remove : Int)
  | deleteMetadata (id : Int)
  | insertIdentity (identity : TorrentIdentity) (id : Int)
  | moveIdentities (keep remove : Int)
  | upsertSwarm (row : SwarmMetadata)
  | copySwarm (keep remove : Int)
  | deleteSwarm (id : Int)
  | deleteCatalog (hash : TorrentIdentity)
  | deleteCatalogOf (id : Int)
  | insertCatalog (hash : TorrentIdentity) (fields : CatalogFields) (searchIncomplete : Option Bool)
  | updateCatalog (hash : TorrentIdentity) (fields : CatalogFields) (searchIncomplete : Bool)
  | updateSemantics (hash : TorrentIdentity) (semantic : SemanticFields)
  | markMismatch (hash : TorrentIdentity)

/-! ## Job and hint statements -/

/-- `WHERE` of a job update. -/
def JobUpdate.cond (db : Db) : JobUpdate → FetchJob → Bool
  | .revive hash nowMs, j =>
    j.hash == hash && j.state == .dormant &&
      decide (j.updatedAt ≤ nowMs - DORMANT_REACTIVATION_DELAY_MS) && !db.hasSwarm hash
  | .claim hash _, j => j.hash == hash
  | .recoverRunning _, j => j.state == .running
  | .recoverSucceeded, j => db.hasSwarm j.hash
  | .retry hash generation .., j => j.hash == hash && j.generation == generation
  | .succeed hash _, j => j.hash == hash
  | .settleAlias hash _, j => j.hash == hash && j.state != .succeeded

/-- `SET` of a job update. -/
def JobUpdate.set : JobUpdate → FetchJob → FetchJob
  | .revive _ nowMs, j =>
    { j with state := .pending, attempts := 0, dueAt := nowMs, updatedAt := nowMs, error := none }
  | .claim _ nowMs, j =>
    { j with state := .running, generation := j.generation + 1, updatedAt := nowMs }
  | .recoverRunning nowMs, j =>
    { j with
      state := .pending, dueAt := nowMs, updatedAt := nowMs, generation := j.generation + 1 }
  | .recoverSucceeded, j => { j with state := .succeeded, error := none }
  | .retry _ _ t nowMs error, j =>
    { j with
      state := t.state, attempts := t.attempts, dueAt := t.dueAt, updatedAt := nowMs,
      error := error }
  | .succeed _ nowMs, j => { j with state := .succeeded, updatedAt := nowMs, error := none }
  | .settleAlias _ atMs, j =>
    { j with
      state := .succeeded, generation := j.generation + 1, updatedAt := max j.updatedAt atMs,
      error := none }

@[simp] theorem JobUpdate.set_hash (u : JobUpdate) (j : FetchJob) : (u.set j).hash = j.hash := by
  cases u <;> rfl

/-- `ORDER BY observed_at DESC, ip, port`. -/
def PeerHint.rank (h : PeerHint) : Int ×ₗ (List Nat ×ₗ Nat) :=
  toLex (-h.observedAt, toLex (ipBytes h.ip, h.port.toNat))

/-- The eight most recent hints of a hash. -/
def Db.keptHints (db : Db) (hash : SwarmKey) : List PeerHint :=
  db.peerHints.select (fun h => h.hash == hash) (Table.orderBy PeerHint.rank) MAX_PEER_HINTS

/-- One batch of hints past their lifetime, oldest first. -/
def Db.expiredHints (db : Db) (nowMs : Int) : List PeerHint :=
  db.peerHints.select (fun h => decide (h.observedAt < nowMs - PEER_HINT_TTL_MS))
    (Table.orderBy PeerHint.observedAt) PEER_HINT_CLEANUP_BATCH_SIZE

/-- `WHERE` of a hint deletion. -/
def HintDelete.cond (db : Db) : HintDelete → PeerHint → Bool
  | .trim hash, h =>
    h.hash == hash && !(db.keptHints hash).any (fun k => k.ip == h.ip && k.port == h.port)
  | .clear hash, h => h.hash == hash
  | .expired nowMs, h => (db.expiredHints nowMs).any (fun k => k.key == h.key)

/-- `UPDATE … SET f WHERE p` on a table whose rows have to pass `check`. -/
def updateRows {ρ κ : Type} {key : ρ → κ} (t : Table ρ key) (p : ρ → Bool) (f : ρ → ρ)
    (hf : ∀ r, key (f r) = key r) (check : ρ → Bool) : Except StorageError (Nat × Table ρ key) :=
  if t.any (fun r => p r && !check (f r)) then .error (.database .check)
  else .ok (t.count p, t.update p f hf)

/-! ## Catalog triggers -/

/-- The contribution of a catalog row to `indexed`. -/
def indexedWeight (searchIncomplete : Option Bool) : Int :=
  if searchIncomplete.isNone then 0 else 1

/-- The contribution of a catalog row to `search_incomplete`. -/
def searchWeight (searchIncomplete : Option Bool) : Int :=
  if searchIncomplete.isNone || searchIncomplete == some true then 1 else 0

/-- A write to `torrent_catalog_state` under its `CHECK`s. -/
def CatalogState.checked (s : CatalogState) : Except StorageError CatalogState :=
  if s.check then .ok s else .error (.database .stateCheck)

/-- The `torrent_catalog_indexed_*` and `torrent_catalog_search_*` triggers. -/
def CatalogState.shift (s : CatalogState) (indexed search : Int) :
    Except StorageError CatalogState :=
  match CatalogState.checked { s with indexed := s.indexed + indexed } with
  | .error e => .error e
  | .ok s =>
    CatalogState.checked { s with searchIncomplete := s.searchIncomplete + search }

/-- The pair a catalog row has in the full-text index. -/
def CatalogRow.ftsPair (c : CatalogRow) : Int × String := (c.id, c.fields.searchText)

namespace Db

/-- `INSERT INTO torrent_catalog` with `torrent_catalog_ai`, `_indexed_ai` and `_search_ai`. -/
def insertCatalogRow (db : Db) (hash : TorrentIdentity) (fields : CatalogFields)
    (searchIncomplete : Option Bool) : Except StorageError (Nat × Db) :=
  let row : CatalogRow :=
    ⟨nextRowid (db.torrentCatalog.rows.map CatalogRow.id), hash, fields, searchIncomplete,
      SemanticFields.default⟩
  if (db.torrentCatalog.get? hash).isSome then .error (.database .unique)
  else if (db.metadataByHash hash).isNone then .error (.database .foreignKey)
  else
    match db.catalogState.shift (indexedWeight searchIncomplete) (searchWeight searchIncomplete) with
    | .error e => .error e
    | .ok state =>
      .ok (1, { db with
        torrentCatalog := db.torrentCatalog.insertNew row
        catalogState := state
        catalogFts := row.ftsPair ::ₘ db.catalogFts })

/-- `DELETE FROM torrent_catalog WHERE hash=?` with `torrent_catalog_ad`, `_indexed_ad` and
`_search_ad`. -/
def deleteCatalogRow (db : Db) (hash : TorrentIdentity) : Except StorageError (Nat × Db) :=
  match db.torrentCatalog.get? hash with
  | none => .ok (0, db)
  | some c =>
    match db.catalogState.shift (-indexedWeight c.searchIncomplete)
      (-searchWeight c.searchIncomplete) with
    | .error e => .error e
    | .ok state =>
      .ok (1, { db with
        torrentCatalog := db.torrentCatalog.delete (fun r => decide (r.hash = hash))
        catalogState := state
        catalogFts := db.catalogFts.erase c.ftsPair })

/-- `UPDATE torrent_catalog SET … WHERE hash=?` with `torrent_catalog_au`.  The counter triggers are
`AFTER UPDATE OF search_incomplete`: they run only when `coverage`, that is when the statement
assigns that column. -/
def updateCatalogRow (db : Db) (coverage : Bool) (hash : TorrentIdentity)
    (set : CatalogRow → CatalogRow) (hset : ∀ c, (set c).hash = c.hash) :
    Except StorageError (Nat × Db) :=
  match db.torrentCatalog.get? hash with
  | none => .ok (0, db)
  | some c =>
    let shifted :=
      if coverage then
        db.catalogState.shift
          (indexedWeight (set c).searchIncomplete - indexedWeight c.searchIncomplete)
          (searchWeight (set c).searchIncomplete - searchWeight c.searchIncomplete)
      else .ok db.catalogState
    match shifted with
    | .error e => .error e
    | .ok state =>
      .ok (1, { db with
        torrentCatalog := db.torrentCatalog.update (fun r => decide (r.hash = hash)) set hset
        catalogState := state
        catalogFts := (set c).ftsPair ::ₘ db.catalogFts.erase c.ftsPair })

/-! ## Metadata statements -/

/-- `INSERT INTO metadata` with `metadata_catalog_total_ai`. -/
def insertMetadataRow (db : Db) (hash : TorrentIdentity) (info : Bytes) (atMs : Int) :
    Except StorageError (Nat × Db) :=
  let row : MetadataRow := ⟨nextRowid (db.metadata.rows.map MetadataRow.id), hash, info, atMs⟩
  if !row.check then .error (.database .check)
  else if (db.metadataByHash hash).isSome then .error (.database .unique)
  else
    match CatalogState.checked { db.catalogState with total := db.catalogState.total + 1 } with
    | .error e => .error e
    | .ok state =>
      .ok (1, { db with metadata := db.metadata.insertNew row, catalogState := state })

/-- `UPDATE metadata SET hash=?2 WHERE id=?1`. -/
def renameMetadataRow (db : Db) (id : Int) (hash : TorrentIdentity) :
    Except StorageError (Nat × Db) :=
  match db.metadata.get? id with
  | none => .ok (0, db)
  | some m =>
    if db.metadata.any (fun r => r.hash == hash && r.id != id) then .error (.database .unique)
    else if m.hash != hash && (db.torrentCatalog.get? m.hash).isSome then
      .error (.database .foreignKey)
    else
      .ok (1, { db with
        metadata := db.metadata.update (fun r => decide (r.id = id))
          (fun r => { r with hash := hash }) (fun _ => rfl) })

/-- `UPDATE metadata SET fetched_at=min(fetched_at,(SELECT …)) WHERE id=?1`; `min` with a missing
row is `NULL`, which the column refuses. -/
def mergeFetchedAtRow (db : Db) (keep remove : Int) : Except StorageError (Nat × Db) :=
  match db.metadata.get? keep, db.metadata.get? remove with
  | none, _ => .ok (0, db)
  | some _, none => .error (.database .check)
  | some _, some r =>
    .ok (1, { db with
      metadata := db.metadata.update (fun m => decide (m.id = keep))
        (fun m => { m with fetchedAt := min m.fetchedAt r.fetchedAt }) (fun _ => rfl) })

/-- `DELETE FROM metadata WHERE id=?1`: the catalog row goes by cascade, then
`metadata_catalog_total_ad` runs. -/
def deleteMetadataRow (db : Db) (id : Int) : Except StorageError (Nat × Db) :=
  match db.metadata.get? id with
  | none => .ok (0, db)
  | some m =>
    if db.torrentIdentities.any (fun i => i.metadataId == id) ||
        db.swarmMetadata.any (fun s => s.metadataId == id) then .error (.database .foreignKey)
    else
      match db.deleteCatalogRow m.hash with
      | .error e => .error e
      | .ok (_, db) =>
        match CatalogState.checked { db.catalogState with total := db.catalogState.total - 1 } with
        | .error e => .error e
        | .ok state =>
          .ok (1, { db with
            metadata := db.metadata.delete (fun r => decide (r.id = id)), catalogState := state })

/-- `INSERT INTO torrent_identities … ON CONFLICT(kind,hash) DO NOTHING`; `UNIQUE(metadata_id,kind)`
is checked after the conflict target. -/
def insertIdentityRow (db : Db) (identity : TorrentIdentity) (id : Int) :
    Except StorageError (Nat × Db) :=
  if (db.torrentIdentities.get? identity).isSome then .ok (0, db)
  else if db.torrentIdentities.any
      (fun i => i.metadataId == id && i.identity.kind == identity.kind) then
    .error (.database .unique)
  else if (db.metadata.get? id).isNone then .error (.database .foreignKey)
  else
    .ok (1, { db with torrentIdentities := db.torrentIdentities.insertNew ⟨identity, id⟩ })

/-- `UPDATE torrent_identities SET metadata_id=?1 WHERE metadata_id=?2`. -/
def moveIdentityRows (db : Db) (keep remove : Int) : Except StorageError (Nat × Db) :=
  let moved := fun i : IdentityRow => i.metadataId == remove
  if keep != remove && db.torrentIdentities.any (fun i => moved i && db.torrentIdentities.any
      (fun k => k.metadataId == keep && k.identity.kind == i.identity.kind)) then
    .error (.database .unique)
  else if db.torrentIdentities.any moved && (db.metadata.get? keep).isNone then
    .error (.database .foreignKey)
  else
    .ok (db.torrentIdentities.count moved, { db with
      torrentIdentities := db.torrentIdentities.update moved
        (fun i => { i with metadataId := keep }) (fun _ => rfl) })

/-- `ON CONFLICT … DO UPDATE SET verification=CASE …`: a derived relation does not replace a
directly verified one. -/
def mergeVerification (excluded : Verification) (old : SwarmMetadata) : SwarmMetadata :=
  { old with verification := if excluded = .hybridDerived then old.verification else excluded }

theorem mergeVerification_key (excluded : Verification) (old : SwarmMetadata) :
    (mergeVerification excluded old).key = old.key := rfl

/-- `INSERT INTO swarm_metadata … ON CONFLICT(hash,metadata_id) DO UPDATE`. -/
def upsertSwarmRow (db : Db) (row : SwarmMetadata) : Except StorageError (Nat × Db) :=
  if (db.infohashes.get? row.hash).isNone || (db.metadata.get? row.metadataId).isNone then
    .error (.database .foreignKey)
  else
    .ok (1, { db with
      swarmMetadata := db.swarmMetadata.upsert row (mergeVerification row.verification)
        (mergeVerification_key row.verification) })

/-- `INSERT OR IGNORE INTO swarm_metadata SELECT hash,?1,verification … WHERE metadata_id=?2`. -/
def copySwarmRows (db : Db) (keep remove : Int) : Except StorageError (Nat × Db) :=
  let rows := db.swarmMetadata.rows.filter (fun s => s.metadataId == remove)
  if !rows.isEmpty && (db.metadata.get? keep).isNone then .error (.database .foreignKey)
  else
    let table := rows.foldl (fun t s => t.insertNew ⟨s.hash, keep, s.verification⟩) db.swarmMetadata
    .ok (table.rows.length - db.swarmMetadata.rows.length, { db with swarmMetadata := table })

/-! ## The meaning of a statement -/

/-- `SET first_seen=min(…), last_seen=max(…)`. -/
def touch (atMs : Int) (r : InfohashRow) : InfohashRow :=
  { r with firstSeen := min r.firstSeen atMs, lastSeen := max r.lastSeen atMs }

theorem touch_hash (atMs : Int) (r : InfohashRow) : (touch atMs r).hash = r.hash := rfl

/-- `INSERT INTO infohashes … ON CONFLICT(hash) DO UPDATE`, the statement of `upsert_hash`. -/
def upsertHashRow (db : Db) (hash : SwarmKey) (atMs : Int) : Except StorageError (Nat × Db) :=
  if atMs < 0 then .error (.database .check)
  else
    .ok (1, { db with
      infohashes := db.infohashes.upsert ⟨hash, atMs, atMs⟩ (touch atMs) (touch_hash atMs) })

/-- `INSERT INTO fetch_jobs … SELECT … WHERE NOT EXISTS … ON CONFLICT (hash) DO NOTHING`. -/
def insertJobRow (db : Db) (hash : SwarmKey) (nowMs : Int) : Except StorageError (Nat × Db) :=
  let row : FetchJob := ⟨hash, .pending, 0, nowMs, 0, nowMs, none⟩
  if db.hasSwarm hash then .ok (0, db)
  else if !row.check then .error (.database .check)
  else if (db.fetchJobs.get? hash).isSome then .ok (0, db)
  else if (db.infohashes.get? hash).isNone then .error (.database .foreignKey)
  else .ok (1, { db with fetchJobs := db.fetchJobs.insertNew row })

/-- `UPDATE fetch_jobs`. -/
def updateJobRows (db : Db) (u : JobUpdate) : Except StorageError (Nat × Db) :=
  match updateRows db.fetchJobs (u.cond db) u.set u.set_hash FetchJob.check with
  | .error e => .error e
  | .ok (n, t) => .ok (n, { db with fetchJobs := t })

/-- `INSERT INTO peer_hints … ON CONFLICT (hash, ip, port) DO UPDATE`. -/
def upsertHintRow (db : Db) (hint : PeerHint) : Except StorageError (Nat × Db) :=
  if hint.port == 0 || hint.observedAt < 0 then .error (.database .check)
  else if (db.infohashes.get? hint.hash).isNone then .error (.database .foreignKey)
  else
    .ok (1, { db with
      peerHints := db.peerHints.upsert hint
        (fun h => { h with observedAt := max h.observedAt hint.observedAt }) (fun _ => rfl) })

/-- Execute one statement. -/
def exec : Stmt → Db → Except StorageError (Nat × Db)
  | .upsertHash hash atMs, db => db.upsertHashRow hash atMs
  | .insertJob hash nowMs, db => db.insertJobRow hash nowMs
  | .updateJobs u, db => db.updateJobRows u
  | .upsertHint hint, db => db.upsertHintRow hint
  | .deleteHints d, db =>
    .ok (db.peerHints.count (d.cond db), { db with peerHints := db.peerHints.delete (d.cond db) })
  | .insertMetadata hash info atMs, db => db.insertMetadataRow hash info atMs
  | .renameMetadata id hash, db => db.renameMetadataRow id hash
  | .mergeFetchedAt keep remove, db => db.mergeFetchedAtRow keep remove
  | .deleteMetadata id, db => db.deleteMetadataRow id
  | .insertIdentity identity id, db => db.insertIdentityRow identity id
  | .moveIdentities keep remove, db => db.moveIdentityRows keep remove
  | .upsertSwarm row, db => db.upsertSwarmRow row
  | .copySwarm keep remove, db => db.copySwarmRows keep remove
  | .deleteSwarm id, db =>
    .ok (db.swarmMetadata.count (fun s => s.metadataId == id), { db with
      swarmMetadata := db.swarmMetadata.delete (fun s => s.metadataId == id) })
  | .deleteCatalog hash, db => db.deleteCatalogRow hash
  | .deleteCatalogOf id, db =>
    match db.metadata.get? id with
    | none => .ok (0, db)
    | some m => db.deleteCatalogRow m.hash
  | .insertCatalog hash fields searchIncomplete, db =>
    db.insertCatalogRow hash fields searchIncomplete
  | .updateCatalog hash fields searchIncomplete, db =>
    db.updateCatalogRow true hash
      (fun c => { c with fields := fields, searchIncomplete := some searchIncomplete })
      (fun _ => rfl)
  | .updateSemantics hash semantic, db =>
    db.updateCatalogRow false hash (fun c => { c with semantic := semantic }) (fun _ => rfl)
  | .markMismatch hash, db =>
    db.updateCatalogRow false hash (fun c => { c with
      semantic := { c.semantic with status := .invalid, reason := some "identity_mismatch" } })
      (fun _ => rfl)

end Db

/-- A transaction body of the collection store. -/
abbrev Script (α : Type) := Prog Db StorageError Stmt α

/-- Result and final state of a transaction body. -/
abbrev Script.run {α : Type} (p : Script α) (db : Db) : Except StorageError (α × Db) :=
  Prog.run Db.exec p db

/-- A transaction of the collection store: commit on success, roll back on error. -/
abbrev Script.commit {α : Type} (p : Script α) (db : Db) : Except StorageError α × Db :=
  Prog.transact Db.exec p db

end BtSniffer
