import BtSniffer.Collection.Metainfo
import BtSniffer.Storage.Statement

/-!
# The metadata store

Reference model of `save` and `merge_identical` (`src/collection/metadata_store.rs`), of
`ensure_catalog` (`src/collection/catalog/mod.rs`) and of `backfill_one` and `index_state`
(`src/collection/catalog/queries.rs`) as transaction bodies.

`backfill_one` reports every error as `ReadError::Unavailable`; here the error keeps the cause.
-/

set_option autoImplicit false

namespace BtSniffer

open Relational

/-! ## Queries -/

/-- The coverage `ensure_catalog` reads: `NULL` while the semantic columns have to be recomputed. -/
def CatalogRow.coverage (c : CatalogRow) : Option Bool :=
  if c.semantic.status = .pending ∨
      (c.semantic.status = .invalid ∧ c.semantic.reason = some "empty_directory") then none
  else c.searchIncomplete

namespace Db

/-- The row `save` finds for an identity, with `m.info=?3`.  Of the two alternatives of the
`WHERE` clause, SQLite tries the row named by `torrent_identities` first. -/
def findIdentity (db : Db) (identity : TorrentIdentity) (info : Bytes) : Option (Int × Bool) :=
  (((db.torrentIdentities.get? identity).bind (fun i => db.metadata.get? i.metadataId)).or
    (db.metadataByHash identity)).map (fun m => (m.id, m.info == info))

/-- `last_insert_rowid()` right after an insertion into `metadata`. -/
def lastInsertRowid (db : Db) : Int := nextRowid (db.metadata.rows.map MetadataRow.id) - 1

/-- `SELECT hash FROM metadata WHERE id=?1`. -/
def canonicalHash (db : Db) (id : Int) : Except StorageError TorrentIdentity :=
  match db.metadata.get? id with
  | some m => .ok m.hash
  | none => .error (.database .noRows)

/-- The rows `backfill_one` still has to index. -/
def needsCatalog (db : Db) (m : MetadataRow) : Bool :=
  match db.torrentCatalog.get? m.hash with
  | none => true
  | some c => c.searchIncomplete.isNone || c.coverage.isNone

end Db

/-- `IndexState`. -/
structure IndexState where
  indexed : Int
  total : Int
  complete : Bool
  searchComplete : Bool
  deriving DecidableEq, Repr

/-- `index_state`. -/
def indexState (db : Db) : IndexState :=
  let s := db.catalogState
  ⟨s.indexed, s.total, s.indexed == s.total, s.searchIncomplete == 0 && s.indexed == s.total⟩

/-- `BackfillStep`. -/
structure BackfillStep where
  cursor : Option Int
  complete : Bool
  deriving DecidableEq, Repr

/-! ## Transaction bodies -/

section Bodies

variable (M : Metainfo)

/-- The statements of `ensure_catalog` once it has decided to write the row. -/
def writeCatalog (hash : TorrentIdentity) (info : Bytes) (rowExists : Bool) : Script Unit := do
  let (fields, searchIncomplete) := catalogFields (M.analyze info)
  if rowExists then
    let _ ← Prog.execute (.updateCatalog hash fields searchIncomplete)
  else
    let _ ← Prog.execute (.insertCatalog hash fields (some searchIncomplete))
  let _ ← Prog.execute (.updateSemantics hash (semanticFields (M.analyze info)))

/-- `ensure_catalog`. -/
def ensureCatalog (hash : TorrentIdentity) (info : Bytes) : Script Bool := do
  let row ← Prog.query (fun db => db.torrentCatalog.get? hash)
  match row with
  | some c =>
    if c.coverage.isSome then pure false
    else do
      writeCatalog M hash info true
      pure true
  | none => do
    writeCatalog M hash info false
    pure true

/-- `merge_identical`. -/
def mergeIdentical (keep remove : Int) : Script Unit := do
  let _ ← Prog.execute (.moveIdentities keep remove)
  let _ ← Prog.execute (.copySwarm keep remove)
  let _ ← Prog.execute (.deleteSwarm remove)
  let _ ← Prog.execute (.mergeFetchedAt keep remove)
  let _ ← Prog.execute (.deleteCatalogOf remove)
  let _ ← Prog.execute (.deleteMetadata remove)

/-- The loop of `save` that looks for stored rows of the same torrent and merges them. -/
def findExisting (info : Bytes) : List TorrentIdentity → Option Int → Script (Option Int)
  | [], found => pure found
  | identity :: rest, found => do
    let row ← Prog.query (fun db => db.findIdentity identity info)
    match row with
    | none => findExisting info rest found
    | some (id, same) =>
      if !same then .fail .conflict
      else
        match found with
        | none => findExisting info rest (some id)
        | some keep =>
          if keep = id then findExisting info rest (some keep)
          else do
            mergeIdentical keep id
            findExisting info rest (some keep)

/-- The existing row or a new one. -/
def obtainRow (canonical : TorrentIdentity) (info : Bytes) (atMs : Int) :
    Option Int → Script Int
  | some id => pure id
  | none => do
    let _ ← Prog.execute (.insertMetadata canonical info atMs)
    Prog.query Db.lastInsertRowid

/-- The canonical rename of `save`; the catalog row is rebuilt later under the new key. -/
def renameCanonical (id : Int) (canonical : TorrentIdentity) : Script Unit := do
  let current ← Prog.queryOrFail (fun db => db.canonicalHash id)
  if current = canonical then pure ()
  else do
    let _ ← Prog.execute (.deleteCatalog current)
    let _ ← Prog.execute (.renameMetadata id canonical)

/-- How a swarm key of the torrent was verified. -/
def verificationOf (source identity : TorrentIdentity) : Verification :=
  if identity = source then
    match source with
    | .v1 _ => .v1Full
    | .v2 _ => .v2Prefix
  else .hybridDerived

/-- The job of another key of the torrent is settled and its hints are dropped. -/
def settleAlias (key swarm : SwarmKey) (atMs : Int) : Script Unit :=
  if swarm = key then pure ()
  else do
    let _ ← Prog.execute (.updateJobs (.settleAlias swarm atMs))
    let _ ← Prog.execute (.deleteHints (.clear swarm))

/-- The loop of `save` over the identities of the torrent. -/
def recordIdentities (key : SwarmKey) (source : TorrentIdentity) (atMs : Int) (id : Int) :
    List TorrentIdentity → Script Unit
  | [] => pure ()
  | identity :: rest => do
    let _ ← Prog.execute (.insertIdentity identity id)
    let _ ← Prog.execute (.upsertHash identity.swarmKey atMs)
    let _ ← Prog.execute
      (.upsertSwarm ⟨identity.swarmKey, id, verificationOf source identity⟩)
    settleAlias key identity.swarmKey atMs
    recordIdentities key source atMs id rest

/-- `save` after its input checks: `source` is the identity that matched `key`. -/
def saveMatched (key : SwarmKey) (source : TorrentIdentity) (info : Bytes) (atMs : Int) :
    Script Int := do
  let identities := M.identities info source
  let canonical := identities.headD source
  let existing ← findExisting info identities none
  let id ← obtainRow canonical info atMs existing
  renameCanonical id canonical
  recordIdentities key source atMs id identities
  let current ← Prog.queryOrFail (fun db => db.canonicalHash id)
  let _ ← ensureCatalog M current info
  pure id

/-- The input checks of `save`, in the order of the source. -/
def checkInfo (key : SwarmKey) (info : Bytes) : Except StorageError TorrentIdentity :=
  if info.isEmpty ∨ info.length > 4 * 1024 * 1024 then .error (.invalid "metadata 大小超限")
  else
    match M.matchIdentity info key with
    | none => .error .conflict
    | some source =>
      match M.dictionaryPrefix info 64 with
      | none => .error (.invalid "metadata 字典不合法")
      | some length =>
        if length ≠ info.length then .error (.invalid "metadata 尾随数据") else .ok source

/-- `save`. -/
def save (key : SwarmKey) (info : Bytes) (atMs : Int) : Script Int :=
  match checkInfo M key info with
  | .error e => .fail e
  | .ok source => saveMatched M key source info atMs

/-- The information bytes `backfill_one` works on: an oversized column reads as empty. -/
def MetadataRow.boundedInfo (m : MetadataRow) : Bytes :=
  if 1 ≤ m.info.length ∧ m.info.length ≤ 4194304 then m.info else []

/-- `backfill_one`. -/
def backfillOne (cursor : Option Int) : Script BackfillStep := do
  let row ← Prog.query (fun db => (db.metadata.select
    (fun m => decide (cursor.getD 0 < m.id) && db.needsCatalog m)
    (Table.orderBy MetadataRow.id) 1).head?)
  match row with
  | none => do
    let state ← Prog.query indexState
    pure ⟨cursor, state.complete⟩
  | some m => do
    if M.matchIdentity m.boundedInfo m.hash.swarmKey = some m.hash then
      let _ ← save M m.hash.swarmKey m.boundedInfo m.fetchedAt
    else
      let _ ← ensureCatalog M m.hash []
      let _ ← Prog.execute (.markMismatch m.hash)
    pure ⟨some m.id, false⟩

end Bodies

end BtSniffer
