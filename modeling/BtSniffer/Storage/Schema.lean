import BtSniffer.Address
import BtSniffer.Lib.Table
import Mathlib.Data.Multiset.Basic
import Mathlib.Data.Multiset.MapFold
import Mathlib.Data.Prod.Lex

/-!
# The version 5 schema

Reference model of the tables `src/storage/schema.rs` creates for the collection store, of the
identity types of `src/info_hash.rs` and of `StorageError` (`src/storage/mod.rs`).

* A `BLOB` of 20 or 32 bytes that holds a full torrent identity (`metadata.hash`,
  `torrent_identities.kind` with `hash`) is a `TorrentIdentity`; the two forms differ in length, so
  the pair is determined by the bytes.
* Enumerated `TEXT` columns are inductive types.  `CHECK` clauses that the column types do not
  already enforce are the `check` functions.
* Times are UTC milliseconds in `Int`; `generation` and `attempts` are natural numbers.
* `Db.empty` is the database a fresh migration produces.
-/

set_option autoImplicit false

namespace BtSniffer

open Relational

/-- `i64::MAX`. -/
def I64_MAX : Int := 9223372036854775807

/-- `i64::MIN`. -/
def I64_MIN : Int := -9223372036854775808

/-- `i64::saturating_add`. -/
def saturatingAdd (a b : Int) : Int := max I64_MIN (min I64_MAX (a + b))

/-- `i64::saturating_sub`. -/
def saturatingSub (a b : Int) : Int := max I64_MIN (min I64_MAX (a - b))

/-- Raw bytes of an info dictionary. -/
abbrev Bytes := List UInt8

/-- `SwarmKey([u8; 20])`, big-endian. -/
abbrev SwarmKey := BitVec 160

/-- `TorrentIdentity`. -/
inductive TorrentIdentity where
  | v1 (hash : BitVec 160)
  | v2 (hash : BitVec 256)
  deriving DecidableEq, Repr

/-- The `kind` column of `torrent_identities`. -/
inductive IdentityKind where
  | v1
  | v2
  deriving DecidableEq, Repr

/-- `TorrentIdentity::kind`. -/
def TorrentIdentity.kind : TorrentIdentity → IdentityKind
  | .v1 _ => .v1
  | .v2 _ => .v2

/-- `TorrentIdentity::swarm_key`: the first 20 bytes. -/
def TorrentIdentity.swarmKey : TorrentIdentity → SwarmKey
  | .v1 hash => hash
  | .v2 hash => hash.extractLsb' 96 160

/-- The constraint or result-shape failure behind `StorageError::Database`; `stateCheck` is a
`CHECK` of `torrent_catalog_state` that a trigger runs into. -/
inductive SqlError where
  | check
  | stateCheck
  | unique
  | foreignKey
  | noRows
  deriving DecidableEq, Repr

/-- `StorageError`. -/
inductive StorageError where
  | closed
  | locked
  | invalid (message : String)
  | io (message : String)
  | database (error : SqlError)
  | conflict
  | cooldown
  | capacity
  | entropy
  deriving DecidableEq, Repr

/-! ## Rows -/

/-- A row of `infohashes`. -/
structure InfohashRow where
  hash : SwarmKey
  firstSeen : Int
  lastSeen : Int
  deriving DecidableEq, Repr

/-- The `state` column of `fetch_jobs`. -/
inductive JobState where
  | pending
  | running
  | succeeded
  | retryWait
  | dormant
  deriving DecidableEq, Repr

/-- A row of `fetch_jobs`. -/
structure FetchJob where
  hash : SwarmKey
  state : JobState
  attempts : Nat
  dueAt : Int
  generation : Nat
  updatedAt : Int
  error : Option String
  deriving DecidableEq, Repr

/-- `CHECK(attempts BETWEEN 0 AND 6)`, `CHECK(due_at>=0)`, `CHECK(updated_at>=0)`. -/
def FetchJob.check (j : FetchJob) : Bool :=
  decide (j.attempts ≤ 6) && decide (0 ≤ j.dueAt) && decide (0 ≤ j.updatedAt)

/-- A row of `peer_hints`. -/
structure PeerHint where
  hash : SwarmKey
  ip : IpAddr
  port : BitVec 16
  observedAt : Int
  deriving DecidableEq, Repr

/-- `PRIMARY KEY(hash,ip,port)`. -/
def PeerHint.key (h : PeerHint) : SwarmKey × IpAddr × BitVec 16 := (h.hash, h.ip, h.port)

/-- A row of `metadata`. -/
structure MetadataRow where
  id : Int
  hash : TorrentIdentity
  info : Bytes
  fetchedAt : Int
  deriving DecidableEq, Repr

/-- `CHECK(length(info) BETWEEN 1 AND 4194304)`, `CHECK(fetched_at>=0)`. -/
def MetadataRow.check (m : MetadataRow) : Bool :=
  decide (1 ≤ m.info.length) && decide (m.info.length ≤ 4194304) && decide (0 ≤ m.fetchedAt)

/-- A row of `torrent_identities`: `(kind, hash)` and `metadata_id`. -/
structure IdentityRow where
  identity : TorrentIdentity
  metadataId : Int
  deriving DecidableEq, Repr

/-- The `verification` column of `swarm_metadata`. -/
inductive Verification where
  | v1Full
  | v2Prefix
  | hybridDerived
  deriving DecidableEq, Repr

/-- A row of `swarm_metadata`. -/
structure SwarmMetadata where
  hash : SwarmKey
  metadataId : Int
  verification : Verification
  deriving DecidableEq, Repr

/-- `PRIMARY KEY(hash,metadata_id)`. -/
def SwarmMetadata.key (s : SwarmMetadata) : SwarmKey × Int := (s.hash, s.metadataId)

/-- The `parse_status` column of `torrent_catalog`. -/
inductive ParseStatus where
  | parsed
  | unavailable
  deriving DecidableEq, Repr

/-- The `format` column of `torrent_catalog` and `Analysis::format`. -/
inductive TorrentFormat where
  | unknown
  | v1
  | v2
  | hybrid
  deriving DecidableEq, Repr

/-- The `semantic_status` column of `torrent_catalog`; `pending` is its default and never a result
of `analyze`. -/
inductive SemanticStatus where
  | pending
  | valid
  | invalid
  | unsupported
  deriving DecidableEq, Repr

/-- The columns of `torrent_catalog` that `ensure_catalog` writes first. -/
structure CatalogFields where
  parseStatus : ParseStatus
  name : Option String
  nameTruncated : Bool
  encodingLossy : Bool
  totalLength : Option String
  fileCount : Option Int
  pieceLength : Option String
  pieceCount : Option Int
  isPrivate : Option Bool
  searchText : String
  deriving DecidableEq, Repr

/-- The columns version 5 added to `torrent_catalog`. -/
structure SemanticFields where
  format : TorrentFormat
  status : SemanticStatus
  reason : Option String
  pieceSpaceLength : Option String
  paddingLength : Option String
  deriving DecidableEq, Repr

/-- The defaults of the columns version 5 added. -/
def SemanticFields.default : SemanticFields := ⟨.unknown, .pending, none, none, none⟩

/-- A row of `torrent_catalog`; `searchIncomplete = none` is SQL `NULL`. -/
structure CatalogRow where
  id : Int
  hash : TorrentIdentity
  fields : CatalogFields
  searchIncomplete : Option Bool
  semantic : SemanticFields
  deriving DecidableEq, Repr

/-- The single row of `torrent_catalog_state`. -/
structure CatalogState where
  indexed : Int
  total : Int
  searchIncomplete : Int
  deriving DecidableEq, Repr

/-- `CHECK(indexed>=0)`, `CHECK(total>=indexed)`, `CHECK(search_incomplete>=0)`. -/
def CatalogState.check (s : CatalogState) : Bool :=
  decide (0 ≤ s.indexed) && decide (s.indexed ≤ s.total) && decide (0 ≤ s.searchIncomplete)

/-! ## The database -/

/-- The tables of the collection store.  `catalogFts` holds the `(rowid, search_text)` pairs of the
external-content index. -/
structure Db where
  infohashes : Table InfohashRow InfohashRow.hash
  fetchJobs : Table FetchJob FetchJob.hash
  peerHints : Table PeerHint PeerHint.key
  metadata : Table MetadataRow MetadataRow.id
  torrentIdentities : Table IdentityRow IdentityRow.identity
  swarmMetadata : Table SwarmMetadata SwarmMetadata.key
  torrentCatalog : Table CatalogRow CatalogRow.hash
  catalogState : CatalogState
  catalogFts : Multiset (Int × String)

namespace Db

/-- A freshly migrated database. -/
def empty : Db where
  infohashes := .empty
  fetchJobs := .empty
  peerHints := .empty
  metadata := .empty
  torrentIdentities := .empty
  swarmMetadata := .empty
  torrentCatalog := .empty
  catalogState := ⟨0, 0, 0⟩
  catalogFts := 0

/-- `EXISTS (SELECT 1 FROM swarm_metadata WHERE hash=?)`. -/
def hasSwarm (db : Db) (hash : SwarmKey) : Bool := db.swarmMetadata.any (fun s => s.hash == hash)

/-- The `metadata` row with a given canonical hash. -/
def metadataByHash (db : Db) (hash : TorrentIdentity) : Option MetadataRow :=
  db.metadata.rows.find? (fun m => m.hash == hash)

end Db

/-- The row id SQLite gives a new row of an `INTEGER PRIMARY KEY` table: one more than the largest
in use. -/
def nextRowid (ids : List Int) : Int := ids.foldr max 0 + 1

theorem nextRowid_gt {ids : List Int} {i : Int} (h : i ∈ ids) : i < nextRowid ids := by
  have hle : i ≤ ids.foldr max 0 := by
    induction ids with
    | nil => cases h
    | cons j ids ih =>
      rw [List.foldr_cons]
      rcases List.mem_cons.1 h with rfl | h
      · omega
      · have := ih h
        omega
  unfold nextRowid
  omega

end BtSniffer
