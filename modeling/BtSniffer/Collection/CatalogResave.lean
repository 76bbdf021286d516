import BtSniffer.Collection.CatalogMerge

/-!
# Saving a stored row again

The backfill saves the bytes of a row under the hash of the row.

* `ensureCatalog_others` — the catalog rows of the other hashes stay.
* `renameCanonical_run`, `Stored.rename` — the surviving row gets the canonical hash.
* `save_stored` — the save succeeds: the rows of the torrent are merged and the surviving one has a
  catalog row.
-/

set_option autoImplicit false

namespace BtSniffer

open Relational

/-- A result of `analyze` does not have to be computed again. -/
def Metainfo.Settles (M : Metainfo) : Prop :=
  ∀ info, (M.analyze info).status ≠ .pending ∧ (M.analyze info).reason ≠ some "empty_directory"

variable {M : Metainfo} {original : Int → Bytes} {info : Bytes} {keep : Int} {db db' : Db}

/-! ## The catalog rows of the others -/

/-- A statement that writes the catalog row of one hash. -/
def Stmt.OnCatalog (hash : TorrentIdentity) : Stmt → Prop
  | .insertCatalog h _ _ => h = hash
  | .updateCatalog h _ _ => h = hash
  | .updateSemantics h _ => h = hash
  | .markMismatch h => h = hash
  | _ => False

theorem updateCatalogRow_others {coverage : Bool} {hash other : TorrentIdentity}
    {set : CatalogRow → CatalogRow} {hset : ∀ c, (set c).hash = c.hash} {n : Nat}
    (h : db.updateCatalogRow coverage hash set hset = .ok (n, db')) (hne : other ≠ hash) :
    db'.torrentCatalog.get? other = db.torrentCatalog.get? other := by
  unfold Db.updateCatalogRow at h
  split at h
  · cases h
    rfl
  · dsimp only at h
    split at h
    · cases h
    · cases h
      show (db.torrentCatalog.update _ set hset).get? other = _
      rw [Table.get?_update]
      cases hc : db.torrentCatalog.get? other with
      | none => rfl
      | some c =>
        rw [Option.map_some, if_neg]
        rw [decide_eq_true_eq, (Table.get?_eq_some.1 hc).2]
        exact hne

theorem exec_onCatalog {stmt : Stmt} {hash other : TorrentIdentity} {n : Nat}
    (hs : stmt.OnCatalog hash) (h : db.exec stmt = .ok (n, db')) (hne : other ≠ hash) :
    db'.torrentCatalog.get? other = db.torrentCatalog.get? other := by
  cases stmt with
  | insertCatalog k fields cov =>
    cases hs
    simp only [Db.exec, Db.insertCatalogRow] at h
    split at h
    · cases h
    · split at h
      · cases h
      · split at h
        · cases h
        · cases h
          show (db.torrentCatalog.insertNew _).get? other = _
          rw [Table.get?_insertNew, if_neg (Ne.symm hne), Option.or_none]
  | updateCatalog k fields cov =>
    cases hs
    exact updateCatalogRow_others h hne
  | updateSemantics k semantic =>
    cases hs
    simp only [Db.exec] at h
    exact updateCatalogRow_others h hne
  | markMismatch k =>
    cases hs
    simp only [Db.exec] at h
    exact updateCatalogRow_others h hne
  | _ => exact absurd hs id

theorem ensureCatalog_uses (hash : TorrentIdentity) (info : Bytes) :
    (ensureCatalog M hash info).Uses (Stmt.OnCatalog hash) := by
  have hwrite : ∀ rowExists, (writeCatalog M hash info rowExists).Uses (Stmt.OnCatalog hash) := by
    intro rowExists
    unfold writeCatalog
    cases rowExists with
    | true =>
      refine Prog.Uses.bind (Prog.uses_execute ?_) (fun _ => ?_)
      · exact rfl
      · exact Prog.Uses.bind (Prog.uses_execute rfl) (fun _ => Prog.uses_pure _)
    | false =>
      refine Prog.Uses.bind (Prog.uses_execute ?_) (fun _ => ?_)
      · exact rfl
      · exact Prog.Uses.bind (Prog.uses_execute rfl) (fun _ => Prog.uses_pure _)
  unfold ensureCatalog
  refine Prog.Uses.bind (Prog.uses_query _) (fun row => ?_)
  cases row with
  | none => exact (hwrite false).bind (fun _ => Prog.uses_pure _)
  | some c =>
    dsimp only
    split
    · exact Prog.uses_pure _
    · exact (hwrite true).bind (fun _ => Prog.uses_pure _)

theorem ensureCatalog_others {hash other : TorrentIdentity} {b : Bool}
    (h : (ensureCatalog M hash info).run db = .ok (b, db')) (hne : other ≠ hash) :
    db'.torrentCatalog.get? other = db.torrentCatalog.get? other := by
  refine Prog.run_rel (R := fun db db' : Db =>
    db'.torrentCatalog.get? other = db.torrentCatalog.get? other) (fun _ => rfl)
    (fun _ _ _ h k => k.trans h) ?_ (ensureCatalog_uses hash info) h
  intro stmt s n s' hs hexec
  exact exec_onCatalog hs hexec hne

/-- A catalog row in place does not have to be computed again. -/
theorem CatalogDone.settled (hM : M.Settles) {m : MetadataRow}
    (h : CatalogDone M db m.hash info) : db.needsCatalog m = false := by
  obtain ⟨c, hc, hdone⟩ := h
  have hcov : c.coverage.isSome = true := by
    rcases hdone with hcov | hcomp
    · exact hcov
    · obtain ⟨hpending, hempty⟩ := hM info
      unfold CatalogRow.coverage
      rw [if_neg]
      · rw [hcomp.coverage]
        rfl
      · rw [hcomp.semantic]
        rintro (h | ⟨-, h⟩)
        · exact hpending h
        · exact hempty h
  have hsome : c.searchIncomplete.isSome = true := by
    unfold CatalogRow.coverage at hcov
    split at hcov
    · cases hcov
    · exact hcov
  unfold Db.needsCatalog
  rw [hc]
  simp only [Option.isNone_eq_false_iff.2 hsome, Option.isNone_eq_false_iff.2 hcov, Bool.or_self]

/-! ## The canonical hash -/

theorem MetadataRow.id_rehashed (canonical : TorrentIdentity) (m : MetadataRow) :
    { m with hash := canonical }.id = m.id := rfl

/-- The row `keep` under another hash. -/
def Db.renamed (db : Db) (keep : Int) (canonical : TorrentIdentity) :
    Table MetadataRow MetadataRow.id :=
  db.metadata.update (fun m => decide (m.id = keep)) (fun m => { m with hash := canonical })
    (MetadataRow.id_rehashed canonical)

theorem mem_renamed {canonical : TorrentIdentity} {m : MetadataRow} :
    m ∈ (db.renamed keep canonical).rows ↔
      ∃ r ∈ db.metadata.rows, m = { r with hash := if r.id = keep then canonical else r.hash } := by
  unfold Db.renamed
  rw [Table.mem_update]
  constructor
  · rintro ⟨r, hr, rfl⟩
    refine ⟨r, hr, ?_⟩
    by_cases hk : r.id = keep
    · simp [hk]
    · simp [hk]
  · rintro ⟨r, hr, rfl⟩
    refine ⟨r, hr, ?_⟩
    by_cases hk : r.id = keep
    · simp [hk]
    · simp [hk]

/-- The rename succeeds: no other row has the hash, and the catalog row is deleted first. -/
theorem renameCanonical_run (h : Stored M original db) (hk : db.Intact original info keep)
    {canonical : TorrentIdentity} (hnamed : db.torrentIdentities.get? canonical = none ∨
      db.torrentIdentities.get? canonical = some ⟨canonical, keep⟩) :
    ∃ db', (renameCanonical keep canonical).run db = .ok ((), db') ∧ db'.Counted ∧
      db'.fetchJobs = db.fetchJobs ∧ db'.torrentIdentities = db.torrentIdentities ∧
      db'.metadata = db.renamed keep canonical ∧
      ∀ m ∈ db.metadata.rows, m.id ≠ keep →
        db'.torrentCatalog.get? m.hash = db.torrentCatalog.get? m.hash := by
  obtain ⟨-, k, hkm, rfl, -⟩ := hk
  have hget := Table.get?_key hkm
  unfold renameCanonical
  by_cases hhash : k.hash = canonical
  · refine ⟨db, ?_, h.counted, rfl, rfl, ?_, fun _ _ _ => rfl⟩
    · refine (Prog.run_bind_of_ok (canonicalHash_run hget)).trans ?_
      rw [if_pos hhash]
      rfl
    · refine (Table.update_eq_self (fun r hr hp => ?_)).symm
      have hrk : r = k := Table.eq_of_key hr hkm (by simpa using hp)
      rw [hrk, ← hhash]
  · obtain ⟨n, mid, hdel, hcounted, hmeta, hcat⟩ := Db.deleteCatalogRow_spec h.counted k.hash
    have hframe := Db.deleteCatalogRow_frame .catalog hdel
    have hother : mid.metadata.any (fun r => r.hash == canonical && r.id != k.id) = false := by
      rw [Table.any_eq_false, hmeta]
      intro r hr
      rw [Bool.and_eq_false_iff]
      by_cases he : r.hash = canonical
      · right
        have hown := h.own r hr
        rw [he] at hown
        rcases hnamed with hn | hn
        · rw [hown] at hn
          cases hn
        · rw [hown, Option.some.injEq, IdentityRow.mk.injEq] at hn
          simpa using hn.2
      · left
        simpa using he
    have hgone : mid.torrentCatalog.get? k.hash = none := by
      rw [hcat, Table.get?_eq_none]
      intro c hc
      simpa using (Table.mem_delete.1 hc).2
    have hren : mid.exec (.renameMetadata k.id canonical) = .ok (1, { mid with
        metadata := mid.renamed k.id canonical }) := by
      simp only [Db.exec, Db.renameMetadataRow]
      rw [hmeta, hget]
      simp only
      rw [← hmeta, hother, hgone]
      simp only [Bool.false_eq_true, if_false, Option.isSome_none, Bool.and_false]
      rfl
    refine ⟨_, ?_, Db.exec_counted hcounted hren, hframe.fetchJobs (by decide),
      hframe.identities (by decide), ?_, ?_⟩
    · refine (Prog.run_bind_of_ok (canonicalHash_run hget)).trans ?_
      rw [if_neg hhash]
      have hdel' : db.exec (.deleteCatalog k.hash) = .ok (n, mid) := hdel
      refine (Prog.run_execute_of_ok hdel').trans ?_
      exact (Prog.run_execute_of_ok hren).trans rfl
    · show mid.renamed k.id canonical = db.renamed k.id canonical
      unfold Db.renamed
      rw [hmeta]
    · intro m hm hne
      show mid.torrentCatalog.get? m.hash = _
      rw [hcat, Table.get?_delete]
      cases hc : db.torrentCatalog.get? m.hash with
      | none => rfl
      | some c =>
        rw [Option.filter_some, if_pos]
        rw [Bool.not_eq_true', decide_eq_false_iff_not, (Table.get?_eq_some.1 hc).2]
        intro he
        exact hne (congrArg MetadataRow.id (h.hash_inj hm hkm he))

/-- The row is renamed and its identities are recorded. -/
structure Renamed (keep : Int) (canonical : TorrentIdentity) (L : List TorrentIdentity)
    (db db' : Db) : Prop where
  counted : db'.Counted
  jobs : ∀ j ∈ db'.fetchJobs.rows, j.check = true
  metadata : db'.metadata = db.renamed keep canonical
  identities : ∀ i, db'.torrentIdentities.get? i =
    (db.torrentIdentities.get? i).or (if i ∈ L then some ⟨i, keep⟩ else none)

theorem Stored.rename (h : Stored M original db) (hk : db.Intact original info keep)
    {canonical : TorrentIdentity} {L : List TorrentIdentity} (hmem : canonical ∈ L)
    (hL : ∀ i ∈ L, i = M.digest info i.kind)
    (hnamed : db.torrentIdentities.get? canonical = none ∨
      db.torrentIdentities.get? canonical = some ⟨canonical, keep⟩)
    (hdict : M.dictionaryPrefix info 64 = some info.length)
    (hr : Renamed keep canonical L db db') : Stored M original db' := by
  obtain ⟨horig, k, hkm, hkid, hkinfo⟩ := hk
  have hrow : ∀ m ∈ db'.metadata.rows, ∃ r ∈ db.metadata.rows,
      m = { r with hash := if r.id = keep then canonical else r.hash } := by
    intro m hm
    rw [hr.metadata] at hm
    exact mem_renamed.1 hm
  have hget : ∀ id, (db.metadata.get? id).isSome = true → (db'.metadata.get? id).isSome = true := by
    intro id hid
    rw [hr.metadata, Db.renamed, Table.get?_update, Option.isSome_map]
    exact hid
  constructor
  case counted => exact hr.counted
  case rows =>
    intro m hm
    obtain ⟨r, hrm, rfl⟩ := hrow m hm
    exact h.rows r hrm
  case jobs => exact hr.jobs
  case positive =>
    intro m hm
    obtain ⟨r, hrm, rfl⟩ := hrow m hm
    exact h.positive r hrm
  case own =>
    intro m hm
    obtain ⟨r, hrm, rfl⟩ := hrow m hm
    rw [hr.identities]
    by_cases hid : r.id = keep
    · simp only [hid, if_true]
      rcases hnamed with hn | hn
      · rw [hn, if_pos hmem]
        rfl
      · rw [hn]
        rfl
    · simp only [hid, if_false]
      rw [h.own r hrm]
      rfl
  case refs =>
    intro i hi
    have hi' := Table.get?_key hi
    rw [hr.identities] at hi'
    rcases Option.or_eq_some_iff.1 hi' with hold | ⟨-, hnew⟩
    · exact hget _ (h.refs i (Table.get?_eq_some.1 hold).1)
    · split at hnew
      · rw [← congrArg IdentityRow.metadataId (Option.some.inj hnew)]
        refine hget keep ?_
        rw [← hkid, Table.get?_key hkm]
        rfl
      · cases hnew
  case digests =>
    intro i hi
    have hi' := Table.get?_key hi
    rw [hr.identities] at hi'
    rcases Option.or_eq_some_iff.1 hi' with hold | ⟨-, hnew⟩
    · exact h.digests i (Table.get?_eq_some.1 hold).1
    · split at hnew
      · rename_i hiL
        have hi := Option.some.inj hnew
        rw [← congrArg IdentityRow.metadataId hi, horig]
        exact hL i.identity hiL
      · cases hnew
  case dictionary =>
    intro m hm hmatch
    obtain ⟨r, hrm, rfl⟩ := hrow m hm
    by_cases hid : r.id = keep
    · have hrk : r = k := Table.eq_of_key hrm hkm (hid.trans hkid.symm)
      show M.dictionaryPrefix r.info 64 = some r.info.length
      rw [hrk, hkinfo]
      exact hdict
    · simp only [hid, if_false] at hmatch
      exact h.dictionary r hrm hmatch
  case damaged =>
    intro m hm hdamaged m' hm' hne kind
    obtain ⟨r, hrm, rfl⟩ := hrow m hm
    obtain ⟨q, hqm, rfl⟩ := hrow m' hm'
    have hid : r.id ≠ keep := by
      intro hid
      have hrk : r = k := Table.eq_of_key hrm hkm (hid.trans hkid.symm)
      refine hdamaged ?_
      show r.info = original r.id
      rw [hid, hrk, hkinfo, horig]
    simp only [hid, if_false]
    refine h.damaged r hrm hdamaged q hqm ?_ kind
    rintro rfl
    exact hne rfl

/-! ## The save of a stored row -/

theorem checkInfo_stored (h : Stored M original db) {m : MetadataRow} (hm : m ∈ db.metadata.rows)
    (hmatch : M.matchIdentity m.info m.hash.swarmKey = some m.hash) :
    checkInfo M m.hash.swarmKey m.info = .ok m.hash := by
  have hcheck := h.rows m hm
  simp only [MetadataRow.check, Bool.and_eq_true, decide_eq_true_eq] at hcheck
  unfold checkInfo
  rw [if_neg, hmatch, h.dictionary m hm hmatch]
  · simp
  · rw [List.isEmpty_iff_length_eq_zero]
    omega

/-- The identities that are not recorded yet can be recorded for the surviving row. -/
theorem Gathered.free {L : List TorrentIdentity} (h : Gathered M original info keep L db db')
    (hL : ∀ i ∈ L, i = M.digest info i.kind) (hkinds : (L.map TorrentIdentity.kind).Nodup)
    {mid : Db} (hids : mid.torrentIdentities = db'.torrentIdentities) : mid.Free keep L := by
  refine ⟨hkinds, fun i hi => ?_⟩
  rw [hids]
  rcases h.named i hi with hn | hn
  · right
    intro r hr hid hkind
    have hd := h.stored.digests r hr
    rw [hid, h.intact.1, hkind, ← hL i hi] at hd
    have hget := Table.get?_key hr
    rw [hd, hn] at hget
    cases hget
  · left
    rw [hn]
    rfl

/-- What the save of a stored row does: its torrent has one row left, with a catalog row. -/
structure Resaved (M : Metainfo) (original : Int → Bytes) (m : MetadataRow) (keep : Int)
    (db db' : Db) : Prop where
  stored : Stored M original db'
  reshaped : Reshaped m.info keep db db'
  survives : ∃ r ∈ db'.metadata.rows, r.id = keep ∧ r.info = m.info
  settled : ∀ r ∈ db'.metadata.rows, r.id = keep → db'.needsCatalog r = false
  gone : m.id = keep ∨ ∀ r ∈ db'.metadata.rows, r.id ≠ m.id

/-- **The save of a stored row succeeds.** -/
theorem save_stored (hM : M.Settles) (h : Stored M original db) (hc : NoCollision M original db)
    {m : MetadataRow} (hm : m ∈ db.metadata.rows)
    (hmatch : M.matchIdentity m.info m.hash.swarmKey = some m.hash) :
    ∃ keep db', (save M m.hash.swarmKey m.info m.fetchedAt).run db = .ok (keep, db') ∧
      Resaved M original m keep db db' := by
  have hL : ∀ i ∈ M.identities m.info m.hash, i = M.digest m.info i.kind :=
    fun i hi => Metainfo.mem_identities hmatch hi
  have hmem := Metainfo.source_mem_identities hmatch
  obtain ⟨canonical, hhead⟩ : ∃ c, (M.identities m.info m.hash).head? = some c := by
    cases hl : M.identities m.info m.hash with
    | nil => exact absurd hl (Metainfo.identities_ne_nil m.info m.hash)
    | cons c rest => exact ⟨c, rfl⟩
  have hcanon : canonical ∈ M.identities m.info m.hash := List.mem_of_mem_head? hhead
  have hheadD : (M.identities m.info m.hash).headD m.hash = canonical := by
    rw [List.headD_eq_head?_getD, hhead]
    rfl
  obtain ⟨keep, base, hfind, hg⟩ := findExisting_merges h hc hm (h.intact hc hm hmatch) hmem hL
  obtain ⟨mid, hrename, hcounted, hjobs, hids, hmeta, hcatalog⟩ :=
    renameCanonical_run hg.stored hg.intact (hg.named canonical hcanon)
  have hat : 0 ≤ m.fetchedAt := by
    have hcheck := h.rows m hm
    simp only [MetadataRow.check, Bool.and_eq_true, decide_eq_true_eq] at hcheck
    exact hcheck.2
  obtain ⟨horig, k, hkm, hkid, hkinfo⟩ := hg.intact
  have hkmid : ({ k with hash := canonical } : MetadataRow) ∈ mid.metadata.rows := by
    rw [hmeta]
    exact mem_renamed.2 ⟨k, hkm, by rw [if_pos hkid]⟩
  have hget : mid.metadata.get? keep = some { k with hash := canonical } := by
    rw [← hkid]
    exact Table.get?_key hkmid
  have hrec : (recordIdentities m.hash.swarmKey m.hash m.fetchedAt keep
      (M.identities m.info m.hash)).run mid = .ok ((), (M.identities m.info m.hash).foldl
        (recordOne m.hash.swarmKey m.hash m.fetchedAt keep) mid) :=
    recordIdentities_run hat (by rw [hget]; rfl) (by rw [hjobs]; exact hg.stored.jobs)
      (hg.free hL (identities_kinds m.info m.hash) hids)
  obtain ⟨hmeta', hcat', hstate', hfts'⟩ :=
    fold_rest m.hash.swarmKey m.hash m.fetchedAt keep (M.identities m.info m.hash) mid
  have hids' := fold_identities m.hash.swarmKey m.hash m.fetchedAt keep
    (M.identities m.info m.hash) mid
  have hjobs' := fold_jobs_check m.hash.swarmKey m.hash m.fetchedAt keep
    (M.identities m.info m.hash) (by rw [hjobs]; exact hg.stored.jobs : ∀ j ∈ mid.fetchJobs.rows,
      j.check = true)
  generalize hd : (M.identities m.info m.hash).foldl
    (recordOne m.hash.swarmKey m.hash m.fetchedAt keep) mid = d at *
  have hcounted' : d.Counted := hcounted.congr hmeta' hcat' hstate' hfts'
  have hgetd : d.metadata.get? keep = some { k with hash := canonical } := by rw [hmeta']; exact hget
  obtain ⟨r, hr⟩ : ∃ r, d.metadataByHash canonical = some r := by
    refine Option.isSome_iff_exists.1 (List.find?_isSome.2 ⟨{ k with hash := canonical }, ?_,
      beq_self_eq_true canonical⟩)
    rw [hmeta']
    exact hkmid
  obtain ⟨b, db', hens, hcounted'', hframe, hdone, -⟩ :=
    ensureCatalog_run (M := M) hcounted' hr m.info
  have hmetadb' : db'.metadata = base.renamed keep canonical := by
    rw [hframe.metadata (by decide), hmeta', hmeta]
  have hrenamed : Renamed keep canonical (M.identities m.info m.hash) base db' := by
    refine ⟨hcounted'', ?_, hmetadb', ?_⟩
    · rw [hframe.fetchJobs (by decide)]
      exact hjobs'
    · intro i
      rw [hframe.identities (by decide), hids', hids]
  have hstored : Stored M original db' := hg.stored.rename hg.intact hcanon hL
    (hg.named canonical hcanon) (h.dictionary m hm hmatch) hrenamed
  have hrow : ∀ x ∈ db'.metadata.rows, ∃ q ∈ base.metadata.rows,
      x = { q with hash := if q.id = keep then canonical else q.hash } := by
    intro x hx
    rw [hmetadb'] at hx
    exact mem_renamed.1 hx
  refine ⟨keep, db', ?_, hstored, hg.reshaped.trans ?_, ?_, ?_, ?_⟩
  · simp only [save, checkInfo_stored h hm hmatch, saveMatched, hheadD]
    refine (Prog.run_bind_of_ok hfind).trans ?_
    have hobtain : (obtainRow canonical m.info m.fetchedAt (some keep)).run base =
        .ok (keep, base) := rfl
    refine (Prog.run_bind_of_ok hobtain).trans ?_
    refine (Prog.run_bind_of_ok hrename).trans ?_
    refine (Prog.run_bind_of_ok hrec).trans ?_
    refine (Prog.run_bind_of_ok (canonicalHash_run hgetd)).trans ?_
    exact (Prog.run_bind_of_ok hens).trans rfl
  · constructor
    case bytes =>
      intro x hx
      obtain ⟨q, hq, rfl⟩ := hrow x hx
      refine ⟨q, hq, rfl, rfl, fun hne => ?_⟩
      exact (if_neg hne).symm
    case lost =>
      intro q hq
      refine .inl ⟨{ q with hash := if q.id = keep then canonical else q.hash }, ?_, rfl⟩
      rw [hmetadb']
      exact mem_renamed.2 ⟨q, hq, rfl⟩
    case moved =>
      intro i r hr
      refine ⟨r, ?_, .inl rfl⟩
      rw [hrenamed.identities, hr]
      rfl
    case catalog =>
      intro x hx hne
      obtain ⟨q, hq, rfl⟩ := hrow x hx
      have hqne : q.id ≠ keep := hne
      simp only [hqne, if_false]
      rw [ensureCatalog_others hens, hcat', hcatalog q hq hqne]
      -- the surviving row has the canonical hash, so no other row has it
      intro he
      have hk' : ({ k with hash := canonical } : MetadataRow) ∈ db'.metadata.rows := by
        rw [hframe.metadata (by decide), hmeta']
        exact hkmid
      have hsame := hstored.hash_inj hx hk' (by simp only [hqne, if_false]; exact he)
      exact hqne ((congrArg MetadataRow.id hsame).trans hkid)
  · refine ⟨{ k with hash := canonical }, ?_, hkid, hkinfo⟩
    rw [hframe.metadata (by decide), hmeta']
    exact hkmid
  · intro x hx hid
    obtain ⟨q, hq, rfl⟩ := hrow x hx
    have hqid : q.id = keep := hid
    have hdone' : CatalogDone M db' (if q.id = keep then canonical else q.hash) m.info := by
      rw [if_pos hqid]
      exact hdone
    exact CatalogDone.settled hM hdone'
  · by_cases hid : m.id = keep
    · exact .inl hid
    · right
      intro x hx hxid
      obtain ⟨q, hq, rfl⟩ := hrow x hx
      have hqid : q.id = m.id := hxid
      -- the row would still have its hash, whose identity names the surviving row
      obtain ⟨m₀, hm₀, hid₀, -, hhash₀⟩ := hg.reshaped.bytes q hq
      have hqne : q.id ≠ keep := by rw [hqid]; exact hid
      have hm₀m : m₀ = m := Table.eq_of_key hm₀ hm (hid₀.trans hqid)
      have hqhash : q.hash = m.hash := by rw [← hhash₀ hqne, hm₀m]
      have hown := hg.stored.own q hq
      rw [hqhash] at hown
      rcases hg.named m.hash hmem with hn | hn
      · rw [hown] at hn
        cases hn
      · rw [hown, Option.some.injEq, IdentityRow.mk.injEq] at hn
        exact hqne hn.2

end BtSniffer
