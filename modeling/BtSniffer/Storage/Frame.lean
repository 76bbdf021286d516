import BtSniffer.Storage.Statement

/-!
# What a statement can do

* `Frame`, `exec_frame` — a statement leaves every table but its own alone (the statements on
  `metadata` also reach the catalog, through triggers and the cascade);
* `upsertHashRow_ok`, `insertJobRow_ok`, `updateJobRows_ok`, … — the effect of a successful
  statement on its own table, together with the constraints it has passed.
-/

set_option autoImplicit false

namespace BtSniffer

open Relational

/-- The table a statement is about. -/
inductive Target where
  | infohashes
  | fetchJobs
  | peerHints
  | metadata
  | identities
  | swarm
  | catalog
  deriving DecidableEq, Repr

/-- The table a statement is about. -/
def Stmt.target : Stmt → Target
  | .upsertHash .. => .infohashes
  | .insertJob .. => .fetchJobs
  | .updateJobs _ => .fetchJobs
  | .upsertHint _ => .peerHints
  | .deleteHints _ => .peerHints
  | .insertMetadata .. => .metadata
  | .renameMetadata .. => .metadata
  | .mergeFetchedAt .. => .metadata
  | .deleteMetadata _ => .metadata
  | .insertIdentity .. => .identities
  | .moveIdentities .. => .identities
  | .upsertSwarm _ => .swarm
  | .copySwarm .. => .swarm
  | .deleteSwarm _ => .swarm
  | .deleteCatalog _ => .catalog
  | .deleteCatalogOf _ => .catalog
  | .insertCatalog .. => .catalog
  | .updateCatalog .. => .catalog
  | .updateSemantics .. => .catalog
  | .markMismatch _ => .catalog

/-- The tables other than `t` are the same. -/
structure Frame (t : Target) (db db' : Db) : Prop where
  infohashes : t ≠ .infohashes → db'.infohashes = db.infohashes
  fetchJobs : t ≠ .fetchJobs → db'.fetchJobs = db.fetchJobs
  peerHints : t ≠ .peerHints → db'.peerHints = db.peerHints
  metadata : t ≠ .metadata → db'.metadata = db.metadata
  identities : t ≠ .identities → db'.torrentIdentities = db.torrentIdentities
  swarm : t ≠ .swarm → db'.swarmMetadata = db.swarmMetadata

theorem Frame.refl (t : Target) (db : Db) : Frame t db db :=
  ⟨fun _ => rfl, fun _ => rfl, fun _ => rfl, fun _ => rfl, fun _ => rfl, fun _ => rfl⟩

theorem Frame.trans {t : Target} {a b c : Db} (h : Frame t a b) (k : Frame t b c) : Frame t a c :=
  ⟨fun n => (k.infohashes n).trans (h.infohashes n),
    fun n => (k.fetchJobs n).trans (h.fetchJobs n),
    fun n => (k.peerHints n).trans (h.peerHints n),
    fun n => (k.metadata n).trans (h.metadata n),
    fun n => (k.identities n).trans (h.identities n),
    fun n => (k.swarm n).trans (h.swarm n)⟩

namespace Db

variable {db db' : Db} {n : Nat}

/-! ## Effects on the own table -/

theorem upsertHashRow_ok {hash : SwarmKey} {atMs : Int}
    (h : db.upsertHashRow hash atMs = .ok (n, db')) :
    0 ≤ atMs ∧ db' = { db with
      infohashes := db.infohashes.upsert ⟨hash, atMs, atMs⟩ (touch atMs) (touch_hash atMs) } := by
  unfold upsertHashRow at h
  split at h
  · cases h
  · rename_i hat
    cases h
    exact ⟨by omega, rfl⟩

/-- The row `enqueue` inserts. -/
def newJob (hash : SwarmKey) (nowMs : Int) : FetchJob := ⟨hash, .pending, 0, nowMs, 0, nowMs, none⟩

theorem insertJobRow_ok {hash : SwarmKey} {nowMs : Int}
    (h : db.insertJobRow hash nowMs = .ok (n, db')) :
    (n = 0 ∧ db' = db ∧ (db.hasSwarm hash = true ∨ (db.fetchJobs.get? hash).isSome = true)) ∨
      (n = 1 ∧ db.hasSwarm hash = false ∧ db.fetchJobs.get? hash = none ∧ 0 ≤ nowMs ∧
        (db.infohashes.get? hash).isSome = true ∧
        db' = { db with fetchJobs := db.fetchJobs.insertNew (newJob hash nowMs) }) := by
  unfold insertJobRow at h
  simp only at h
  split at h
  · rename_i hs
    cases h
    exact .inl ⟨rfl, rfl, .inl hs⟩
  · rename_i hs
    split at h
    · cases h
    · rename_i hcheck
      split at h
      · rename_i hj
        cases h
        exact .inl ⟨rfl, rfl, .inr hj⟩
      · rename_i hj
        split at h
        · cases h
        · rename_i hi
          cases h
          refine .inr ⟨rfl, by simpa using hs, by simpa using hj, ?_, ?_, rfl⟩
          · simpa [FetchJob.check] using hcheck
          · simpa [Option.isSome_iff_ne_none] using hi

theorem updateJobRows_ok {u : JobUpdate} (h : db.updateJobRows u = .ok (n, db')) :
    n = db.fetchJobs.count (u.cond db) ∧
      (∀ j ∈ db.fetchJobs.rows, u.cond db j = true → (u.set j).check = true) ∧
      db' = { db with fetchJobs := db.fetchJobs.update (u.cond db) u.set u.set_hash } := by
  unfold updateJobRows updateRows at h
  split at h
  · cases h
  · rename_i m t ht
    split at ht
    · cases ht
    · rename_i hok
      cases ht
      cases h
      refine ⟨rfl, ?_, rfl⟩
      intro j hj hc
      simp only [Bool.not_eq_true, Table.any_eq_false] at hok
      simpa [hc] using hok j hj

/-- An update whose rows all pass their `CHECK`s succeeds. -/
theorem updateJobRows_of (db : Db) (u : JobUpdate)
    (h : ∀ j ∈ db.fetchJobs.rows, u.cond db j = true → (u.set j).check = true) :
    db.updateJobRows u = .ok (db.fetchJobs.count (u.cond db),
      { db with fetchJobs := db.fetchJobs.update (u.cond db) u.set u.set_hash }) := by
  unfold updateJobRows updateRows
  have hok : db.fetchJobs.any (fun r => u.cond db r && !(u.set r).check) = false := by
    rw [Table.any_eq_false]
    intro j hj
    by_cases hc : u.cond db j = true
    · simp [h j hj hc]
    · simp [hc]
  simp [hok]

theorem upsertHintRow_ok {hint : PeerHint} (h : db.upsertHintRow hint = .ok (n, db')) :
    hint.port ≠ 0 ∧ 0 ≤ hint.observedAt ∧ (db.infohashes.get? hint.hash).isSome = true ∧
      db' = { db with
        peerHints := db.peerHints.upsert hint
          (fun h => { h with observedAt := max h.observedAt hint.observedAt }) (fun _ => rfl) } := by
  unfold upsertHintRow at h
  split at h
  · cases h
  · rename_i hc
    split at h
    · cases h
    · rename_i hi
      cases h
      simp only [Bool.or_eq_true, beq_iff_eq, decide_eq_true_eq, not_or] at hc
      refine ⟨hc.1, by omega, ?_, rfl⟩
      simpa [Option.isSome_iff_ne_none] using hi

theorem insertMetadataRow_ok {hash : TorrentIdentity} {info : Bytes} {atMs : Int}
    (h : db.insertMetadataRow hash info atMs = .ok (n, db')) :
    db.metadataByHash hash = none ∧ 0 ≤ atMs ∧ ∃ state, db' = { db with
      metadata := db.metadata.insertNew
        ⟨nextRowid (db.metadata.rows.map MetadataRow.id), hash, info, atMs⟩
      catalogState := state } := by
  unfold insertMetadataRow at h
  simp only at h
  split at h
  · cases h
  · rename_i hcheck
    split at h
    · cases h
    · rename_i hnew
      split at h
      · cases h
      · rename_i state hstate
        cases h
        refine ⟨by simpa using hnew, ?_, state, rfl⟩
        simp only [MetadataRow.check, Bool.not_eq_true', Bool.not_eq_false, Bool.and_eq_true,
          decide_eq_true_eq] at hcheck
        exact hcheck.2

theorem insertIdentityRow_ok {identity : TorrentIdentity} {id : Int}
    (h : db.insertIdentityRow identity id = .ok (n, db')) :
    (db' = db ∧ (db.torrentIdentities.get? identity).isSome = true) ∨
      (db.torrentIdentities.get? identity = none ∧ (db.metadata.get? id).isSome = true ∧
        db' = { db with
          torrentIdentities := db.torrentIdentities.insertNew ⟨identity, id⟩ }) := by
  unfold insertIdentityRow at h
  split at h
  · rename_i hs
    cases h
    exact .inl ⟨rfl, hs⟩
  · rename_i hs
    split at h
    · cases h
    · split at h
      · cases h
      · rename_i hm
        cases h
        refine .inr ⟨by simpa using hs, ?_, rfl⟩
        simpa [Option.isSome_iff_ne_none] using hm

theorem upsertSwarmRow_ok {row : SwarmMetadata} (h : db.upsertSwarmRow row = .ok (n, db')) :
    (db.infohashes.get? row.hash).isSome = true ∧ (db.metadata.get? row.metadataId).isSome = true ∧
      db' = { db with
        swarmMetadata := db.swarmMetadata.upsert row (mergeVerification row.verification)
          (mergeVerification_key row.verification) } := by
  unfold upsertSwarmRow at h
  split at h
  · cases h
  · rename_i hfk
    cases h
    simp only [Bool.or_eq_true, not_or, Option.isNone_iff_eq_none] at hfk
    exact ⟨Option.isSome_iff_ne_none.2 hfk.1, Option.isSome_iff_ne_none.2 hfk.2, rfl⟩

/-! ## Frames -/

theorem insertCatalogRow_frame {hash : TorrentIdentity} {fields : CatalogFields} {cov : Option Bool}
    (h : db.insertCatalogRow hash fields cov = .ok (n, db')) : Frame .catalog db db' := by
  unfold insertCatalogRow at h
  simp only at h
  split at h
  · cases h
  · split at h
    · cases h
    · split at h
      · cases h
      · cases h
        exact ⟨fun _ => rfl, fun _ => rfl, fun _ => rfl, fun _ => rfl, fun _ => rfl, fun _ => rfl⟩

theorem deleteCatalogRow_frame {hash : TorrentIdentity} (t : Target)
    (h : db.deleteCatalogRow hash = .ok (n, db')) : Frame t db db' := by
  unfold deleteCatalogRow at h
  split at h
  · cases h
    exact Frame.refl _ _
  · split at h
    · cases h
    · cases h
      exact ⟨fun _ => rfl, fun _ => rfl, fun _ => rfl, fun _ => rfl, fun _ => rfl, fun _ => rfl⟩

theorem updateCatalogRow_frame {coverage : Bool} {hash : TorrentIdentity}
    {set : CatalogRow → CatalogRow} {hset : ∀ c, (set c).hash = c.hash}
    (h : db.updateCatalogRow coverage hash set hset = .ok (n, db')) : Frame .catalog db db' := by
  unfold updateCatalogRow at h
  split at h
  · cases h
    exact Frame.refl _ _
  · simp only at h
    split at h
    · cases h
    · cases h
      exact ⟨fun _ => rfl, fun _ => rfl, fun _ => rfl, fun _ => rfl, fun _ => rfl, fun _ => rfl⟩

theorem renameMetadataRow_frame {id : Int} {hash : TorrentIdentity}
    (h : db.renameMetadataRow id hash = .ok (n, db')) : Frame .metadata db db' := by
  unfold renameMetadataRow at h
  split at h
  · cases h
    exact Frame.refl _ _
  · split at h
    · cases h
    · split at h
      · cases h
      · cases h
        exact ⟨fun _ => rfl, fun _ => rfl, fun _ => rfl, fun k => absurd rfl k, fun _ => rfl,
          fun _ => rfl⟩

theorem mergeFetchedAtRow_frame {keep remove : Int}
    (h : db.mergeFetchedAtRow keep remove = .ok (n, db')) : Frame .metadata db db' := by
  unfold mergeFetchedAtRow at h
  split at h
  · cases h
    exact Frame.refl _ _
  · cases h
  · cases h
    exact ⟨fun _ => rfl, fun _ => rfl, fun _ => rfl, fun k => absurd rfl k, fun _ => rfl,
      fun _ => rfl⟩

theorem deleteMetadataRow_frame {id : Int} (h : db.deleteMetadataRow id = .ok (n, db')) :
    Frame .metadata db db' := by
  unfold deleteMetadataRow at h
  split at h
  · cases h
    exact Frame.refl _ _
  · split at h
    · cases h
    · split at h
      · cases h
      · rename_i k mid hdel
        have hmid := deleteCatalogRow_frame .metadata hdel
        split at h
        · cases h
        · cases h
          exact hmid.trans ⟨fun _ => rfl, fun _ => rfl, fun _ => rfl, fun k => absurd rfl k,
            fun _ => rfl, fun _ => rfl⟩

theorem moveIdentityRows_frame {keep remove : Int}
    (h : db.moveIdentityRows keep remove = .ok (n, db')) : Frame .identities db db' := by
  unfold moveIdentityRows at h
  simp only at h
  split at h
  · cases h
  · split at h
    · cases h
    · cases h
      exact ⟨fun _ => rfl, fun _ => rfl, fun _ => rfl, fun _ => rfl, fun k => absurd rfl k,
        fun _ => rfl⟩

theorem copySwarmRows_frame {keep remove : Int} (h : db.copySwarmRows keep remove = .ok (n, db')) :
    Frame .swarm db db' := by
  unfold copySwarmRows at h
  simp only at h
  split at h
  · cases h
  · cases h
    exact ⟨fun _ => rfl, fun _ => rfl, fun _ => rfl, fun _ => rfl, fun _ => rfl,
      fun k => absurd rfl k⟩

/-- **A statement leaves every table but its own alone.** -/
theorem exec_frame {stmt : Stmt} (h : exec stmt db = .ok (n, db')) : Frame stmt.target db db' := by
  cases stmt with
  | upsertHash hash atMs =>
    obtain ⟨-, rfl⟩ := upsertHashRow_ok h
    exact ⟨fun k => absurd rfl k, fun _ => rfl, fun _ => rfl, fun _ => rfl, fun _ => rfl,
      fun _ => rfl⟩
  | insertJob hash nowMs =>
    obtain ⟨-, rfl, -⟩ | ⟨-, -, -, -, -, rfl⟩ := insertJobRow_ok h
    · exact Frame.refl _ _
    · exact ⟨fun _ => rfl, fun k => absurd rfl k, fun _ => rfl, fun _ => rfl, fun _ => rfl,
        fun _ => rfl⟩
  | updateJobs u =>
    obtain ⟨-, -, rfl⟩ := updateJobRows_ok h
    exact ⟨fun _ => rfl, fun k => absurd rfl k, fun _ => rfl, fun _ => rfl, fun _ => rfl,
      fun _ => rfl⟩
  | upsertHint hint =>
    obtain ⟨-, -, -, rfl⟩ := upsertHintRow_ok h
    exact ⟨fun _ => rfl, fun _ => rfl, fun k => absurd rfl k, fun _ => rfl, fun _ => rfl,
      fun _ => rfl⟩
  | deleteHints d =>
    cases h
    exact ⟨fun _ => rfl, fun _ => rfl, fun k => absurd rfl k, fun _ => rfl, fun _ => rfl,
      fun _ => rfl⟩
  | insertMetadata hash info atMs =>
    obtain ⟨-, -, state, rfl⟩ := insertMetadataRow_ok h
    exact ⟨fun _ => rfl, fun _ => rfl, fun _ => rfl, fun k => absurd rfl k, fun _ => rfl,
      fun _ => rfl⟩
  | renameMetadata id hash => exact renameMetadataRow_frame h
  | mergeFetchedAt keep remove => exact mergeFetchedAtRow_frame h
  | deleteMetadata id => exact deleteMetadataRow_frame h
  | insertIdentity identity id =>
    obtain ⟨rfl, -⟩ | ⟨-, -, rfl⟩ := insertIdentityRow_ok h
    · exact Frame.refl _ _
    · exact ⟨fun _ => rfl, fun _ => rfl, fun _ => rfl, fun _ => rfl, fun k => absurd rfl k,
        fun _ => rfl⟩
  | moveIdentities keep remove => exact moveIdentityRows_frame h
  | upsertSwarm row =>
    obtain ⟨-, -, rfl⟩ := upsertSwarmRow_ok h
    exact ⟨fun _ => rfl, fun _ => rfl, fun _ => rfl, fun _ => rfl, fun _ => rfl,
      fun k => absurd rfl k⟩
  | copySwarm keep remove => exact copySwarmRows_frame h
  | deleteSwarm id =>
    cases h
    exact ⟨fun _ => rfl, fun _ => rfl, fun _ => rfl, fun _ => rfl, fun _ => rfl,
      fun k => absurd rfl k⟩
  | deleteCatalog hash => exact deleteCatalogRow_frame _ h
  | deleteCatalogOf id =>
    simp only [exec] at h
    split at h
    · cases h
      exact Frame.refl _ _
    · exact deleteCatalogRow_frame _ h
  | insertCatalog hash fields cov => exact insertCatalogRow_frame h
  | updateCatalog hash fields cov => exact updateCatalogRow_frame h
  | updateSemantics hash semantic =>
    simp only [exec] at h
    exact updateCatalogRow_frame h
  | markMismatch hash =>
    simp only [exec] at h
    exact updateCatalogRow_frame h

end Db

end BtSniffer
