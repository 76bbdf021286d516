import BtSniffer.Collection.IdentityInv

/-!
# Saving metadata

What `save` and `backfill_one` do to a database that satisfies the identity invariant, and the
invariant over every run of them from a fresh database.

* `save_run` — the outcomes of `save`: an input error, a conflict with other bytes, or the recorded
  torrent;
* `Saved.inv` — a successful save keeps the invariant;
-/

set_option autoImplicit false

namespace BtSniffer

open Relational

variable {M : Metainfo}

/-! ## The outcomes of a save -/

theorem foldr_max_append (ids : List Int) {n : Int} (hn : 0 ≤ n) :
    (ids ++ [n]).foldr max 0 = max (ids.foldr max 0) n := by
  induction ids with
  | nil => simp [max_eq_left hn, max_eq_right hn]
  | cons i ids ih => rw [List.cons_append, List.foldr_cons, List.foldr_cons, ih, max_assoc]

/-- The id of the next metadata row. -/
def Db.newId (db : Db) : Int := nextRowid (db.metadata.rows.map MetadataRow.id)

/-- The database with a new metadata row. -/
def Db.addRow (db : Db) (hash : TorrentIdentity) (info : Bytes) (atMs : Int) (state : CatalogState) :
    Db :=
  { db with metadata := db.metadata.insertNew ⟨db.newId, hash, info, atMs⟩, catalogState := state }

theorem rows_addRow (db : Db) (hash : TorrentIdentity) (info : Bytes) (atMs : Int)
    (state : CatalogState) :
    (db.addRow hash info atMs state).metadata.rows =
      db.metadata.rows ++ [⟨db.newId, hash, info, atMs⟩] :=
  Table.insertNew_of_none (Db.get?_nextRowid db.metadata)

theorem newId_gt {db : Db} {m : MetadataRow} (hm : m ∈ db.metadata.rows) : m.id < db.newId :=
  nextRowid_gt (List.mem_map.2 ⟨m, hm, rfl⟩)

/-- `last_insert_rowid()` is the id the insertion chose. -/
theorem lastInsertRowid_addRow (db : Db) (hash : TorrentIdentity) (info : Bytes) (atMs : Int)
    (state : CatalogState) : (db.addRow hash info atMs state).lastInsertRowid = db.newId := by
  have hle : ∀ ids : List Int, 0 ≤ ids.foldr max 0 := by
    intro ids
    induction ids with
    | nil => exact le_refl 0
    | cons i ids ih => exact le_trans ih (le_max_right i _)
  have h := hle (db.metadata.rows.map MetadataRow.id)
  unfold Db.lastInsertRowid
  rw [rows_addRow, List.map_append, List.map_singleton]
  show nextRowid (db.metadata.rows.map MetadataRow.id ++ [db.newId]) - 1 = db.newId
  unfold Db.newId nextRowid
  rw [foldr_max_append _ (by omega)]
  omega

/-- The stored row of the torrent, or the new one, before its identities are recorded. -/
inductive Based (M : Metainfo) (db : Db) (L : List TorrentIdentity) (info : Bytes) (atMs : Int) :
    Int → Db → Prop
  | stored {m : MetadataRow} (mem : m ∈ db.metadata.rows) (bytes : m.info = info)
      (own : m.own M = L) : Based M db L info atMs m.id db
  | fresh {canonical : TorrentIdentity} {state : CatalogState} (head : L.head? = some canonical)
      (new : ∀ i ∈ L, ∀ m ∈ db.metadata.rows, i ∉ m.own M)
      (counted : (db.addRow canonical info atMs state).Counted) :
      Based M db L info atMs db.newId (db.addRow canonical info atMs state)

theorem Based.catalog {M : Metainfo} {db base : Db} {L : List TorrentIdentity} {info : Bytes}
    {atMs id : Int} (hb : Based M db L info atMs id base) :
    base.torrentCatalog = db.torrentCatalog := by
  cases hb with
  | stored => rfl
  | fresh => rfl

/-- What a successful save did. -/
structure Saved (M : Metainfo) (key : SwarmKey) (source : TorrentIdentity) (info : Bytes)
    (atMs : Int) (db : Db) (id : Int) (db' : Db) : Prop where
  intro ::
  based : ∃ base, Based M db (M.identities info source) info atMs id base ∧
    Frame .catalog ((M.identities info source).foldl (recordOne key source atMs id) base) db'
  counted : db'.Counted
  catalog : ∀ canonical, (M.identities info source).head? = some canonical →
    CatalogDone M db' canonical info ∧
      (CatalogDone M db canonical info → db'.torrentCatalog = db.torrentCatalog)

/-- Before the loop: the row is there, under its canonical hash, and its identities are free. -/
structure Based.Ready (M : Metainfo) (L : List TorrentIdentity) (info : Bytes) (id : Int)
    (base : Db) : Prop where
  intro ::
  counted : base.Counted
  row : ∃ m, base.metadata.get? id = some m ∧ m.info = info ∧ L.head? = some m.hash ∧ m.own M = L
  free : base.Free id L
  jobs : ∀ j ∈ base.fetchJobs.rows, j.check = true

theorem identities_kinds (info : Bytes) (source : TorrentIdentity) :
    ((M.identities info source).map TorrentIdentity.kind).Nodup := by
  unfold Metainfo.identities
  split
  · simp [TorrentIdentity.kind]
  · simp

/-- A new row owns the identities it is saved under. -/
theorem own_canonical {info : Bytes} {source canonical : TorrentIdentity}
    (h : (M.identities info source).head? = some canonical) :
    M.identities info canonical = M.identities info source := by
  unfold Metainfo.identities at *
  split
  · rfl
  · rename_i hv
    rw [if_neg hv] at h
    cases h
    rfl

theorem Based.ready {db base : Db} (h : StoreInv M db) {info : Bytes} {source : TorrentIdentity}
    {atMs id : Int} (hb : Based M db (M.identities info source) info atMs id base) :
    Based.Ready M (M.identities info source) info id base := by
  cases hb with
  | @stored m mem bytes own =>
    refine ⟨h.counted, ⟨m, Table.get?_key mem, bytes, own ▸ h.canonical m mem, own⟩,
      ⟨identities_kinds info source, ?_⟩, h.jobs⟩
    intro i hi
    rw [← own] at hi
    exact .inl (by rw [(h.identities i m.id).2 ⟨m, mem, rfl, hi⟩]; rfl)
  | @fresh canonical state head new counted =>
    have hmem : (⟨db.newId, canonical, info, atMs⟩ : MetadataRow) ∈
        (db.addRow canonical info atMs state).metadata.rows := by
      rw [rows_addRow]
      exact List.mem_append_right _ (List.mem_singleton.2 rfl)
    refine ⟨counted, ⟨_, Table.get?_key hmem, rfl, head, own_canonical head⟩,
      ⟨identities_kinds info source, ?_⟩, h.jobs⟩
    intro i hi
    refine .inr ?_
    -- the id is new, so no identity refers to it
    intro r hr hid
    obtain ⟨m, hm, hmid, -⟩ := (h.identities r.identity r.metadataId).1 (Table.get?_key hr)
    have hlt := newId_gt hm
    omega

/-- The part of `save` that finds or inserts the row. -/
theorem obtainRow_run {db : Db} (atMs : Int) (h : StoreInv M db) {info : Bytes}
    {source canonical : TorrentIdentity} (hsize : 1 ≤ info.length ∧ info.length ≤ 4194304)
    (hhead : (M.identities info source).head? = some canonical) :
    ((findExisting info (M.identities info source) none >>= fun existing =>
          obtainRow canonical info atMs existing : Script Int).run db = .error .conflict ∧
        ∃ m ∈ db.metadata.rows, m.info ≠ info ∧ ∃ i ∈ M.identities info source, i ∈ m.own M) ∨
      (atMs < 0 ∧ (findExisting info (M.identities info source) none >>= fun existing =>
          obtainRow canonical info atMs existing : Script Int).run db =
        .error (.database .check)) ∨
      ∃ id base, Based M db (M.identities info source) info atMs id base ∧
        (findExisting info (M.identities info source) none >>= fun existing =>
          obtainRow canonical info atMs existing : Script Int).run db = .ok (id, base) := by
  obtain ⟨hrun, hconf⟩ | ⟨m, hm, hinfo, hown, hrun⟩ | ⟨hrun, hnew⟩ := findExisting_spec h info source
  · exact .inl ⟨Prog.run_bind_of_error hrun, hconf⟩
  · refine .inr (.inr ⟨m.id, db, .stored hm hinfo hown, ?_⟩)
    exact (Prog.run_bind_of_ok hrun).trans rfl
  · refine .inr ?_
    have hby : db.metadataByHash canonical = none := by
      cases hb : db.metadataByHash canonical with
      | none => rfl
      | some m =>
        obtain ⟨hm, hh⟩ := Db.mem_of_metadataByHash hb
        exact absurd (hh ▸ hash_mem_own h hm) (hnew canonical (List.mem_of_mem_head? hhead) m hm)
    have hsound := Db.insertMetadataRow_sound h.counted canonical info atMs
    by_cases hat : 0 ≤ atMs
    · right
      have hcheck : (⟨nextRowid (db.metadata.rows.map MetadataRow.id), canonical, info, atMs⟩ :
          MetadataRow).check = true := by
        simp only [MetadataRow.check, Bool.and_eq_true, decide_eq_true_eq]
        exact ⟨hsize, hat⟩
      obtain ⟨state, hins⟩ : ∃ state, db.insertMetadataRow canonical info atMs =
          .ok (1, db.addRow canonical info atMs state) := by
        unfold Db.insertMetadataRow at hsound ⊢
        simp only [hcheck, hby, Bool.not_true, Option.isSome_none, Bool.false_eq_true, if_false]
          at hsound ⊢
        cases hst : CatalogState.checked
            { db.catalogState with total := db.catalogState.total + 1 } with
        | ok state => exact ⟨state, rfl⟩
        | error e =>
          rw [hst] at hsound
          unfold CatalogState.checked at hst
          split at hst
          · cases hst
          · cases hst
            exact absurd rfl hsound
      rw [hins] at hsound
      refine ⟨db.newId, _, .fresh hhead hnew hsound, ?_⟩
      refine (Prog.run_bind_of_ok hrun).trans ?_
      refine (Prog.run_execute_of_ok hins).trans ?_
      rw [Prog.run_query, lastInsertRowid_addRow]
    · left
      have hcheck : (⟨nextRowid (db.metadata.rows.map MetadataRow.id), canonical, info, atMs⟩ :
          MetadataRow).check = false := by
        simp [MetadataRow.check, hat]
      refine ⟨by omega, ?_⟩
      refine (Prog.run_bind_of_ok hrun).trans ?_
      refine Prog.run_bind_of_error ?_
      rw [Prog.run_execute]
      show db.insertMetadataRow canonical info atMs = _
      unfold Db.insertMetadataRow
      simp [hcheck]

theorem checkInfo_ok {key : SwarmKey} {info : Bytes} {source : TorrentIdentity}
    (h : checkInfo M key info = .ok source) :
    (1 ≤ info.length ∧ info.length ≤ 4194304) ∧ M.matchIdentity info key = some source := by
  unfold checkInfo at h
  split at h
  · cases h
  · rename_i hsize
    rw [not_or, List.isEmpty_iff] at hsize
    have hne : info.length ≠ 0 := fun hl => hsize.1 (List.length_eq_zero_iff.1 hl)
    split at h
    · cases h
    · rename_i s hs
      split at h
      · cases h
      · split at h
        · cases h
        · cases h
          exact ⟨by omega, hs⟩

theorem checkInfo_error {key : SwarmKey} {info : Bytes} {e : StorageError}
    (h : checkInfo M key info = .error e) : e = .conflict ∨ ∃ message, e = .invalid message := by
  unfold checkInfo at h
  repeat' split at h
  · cases h
    exact .inr ⟨_, rfl⟩
  · cases h
    exact .inl rfl
  · cases h
    exact .inr ⟨_, rfl⟩
  · cases h
    exact .inr ⟨_, rfl⟩
  · cases h

/-- The first statement of the loop that depends on the time refuses a negative one. -/
theorem recordIdentities_negative {key : SwarmKey} {source : TorrentIdentity} {atMs id : Int}
    (hat : atMs < 0) {L : List TorrentIdentity} (hL : L ≠ []) {db : Db}
    (hm : (db.metadata.get? id).isSome = true) (hfree : db.Free id L) :
    (recordIdentities key source atMs id L).run db = .error (.database .check) := by
  cases L with
  | nil => exact absurd rfl hL
  | cons i rest =>
    obtain ⟨n, hins⟩ := exec_insertIdentity hm (hfree.2 i List.mem_cons_self)
    rw [recordIdentities]
    refine (Prog.run_execute_of_ok hins).trans ?_
    refine Prog.run_bind_of_error ?_
    rw [Prog.run_execute]
    simp [Db.exec, Db.upsertHashRow, hat]

theorem canonicalHash_run {db : Db} {id : Int} {m : MetadataRow} (h : db.metadata.get? id = some m) :
    Script.run (Prog.queryOrFail (fun db => db.canonicalHash id)) db = .ok (m.hash, db) := by
  rw [Script.run, Prog.run_queryOrFail]
  simp [Db.canonicalHash, h, Except.map]

/-- The rest of `save`, from the row on. -/
theorem saveRow_run {base : Db} (key : SwarmKey) {source canonical : TorrentIdentity}
    {info : Bytes} (atMs : Int) {id : Int}
    (hready : Based.Ready M (M.identities info source) info id base)
    (hhead : (M.identities info source).head? = some canonical) :
    (atMs < 0 ∧ (do
        renameCanonical id canonical
        recordIdentities key source atMs id (M.identities info source)
        let current ← Prog.queryOrFail (fun db => db.canonicalHash id)
        let _ ← ensureCatalog M current info
        pure id : Script Int).run base = .error (.database .check)) ∨
      (0 ≤ atMs ∧ ∃ db', (do
        renameCanonical id canonical
        recordIdentities key source atMs id (M.identities info source)
        let current ← Prog.queryOrFail (fun db => db.canonicalHash id)
        let _ ← ensureCatalog M current info
        pure id : Script Int).run base = .ok (id, db') ∧ db'.Counted ∧
        Frame .catalog
          ((M.identities info source).foldl (recordOne key source atMs id) base) db' ∧
        CatalogDone M db' canonical info ∧
        (CatalogDone M base canonical info → db'.torrentCatalog = base.torrentCatalog)) := by
  obtain ⟨m, hm, hinfo, hmhead, hown⟩ := hready.row
  have hcanon : m.hash = canonical := by
    rw [hhead] at hmhead
    injection hmhead with he
    exact he.symm
  have hrename : (renameCanonical id canonical).run base = .ok ((), base) := by
    unfold renameCanonical
    refine (Prog.run_bind_of_ok (canonicalHash_run hm)).trans ?_
    simp [hcanon]
  have hsome : (base.metadata.get? id).isSome = true := by rw [hm]; rfl
  by_cases hat : 0 ≤ atMs
  · right
    refine ⟨hat, ?_⟩
    have hrec : (recordIdentities key source atMs id (M.identities info source)).run base =
        .ok ((), (M.identities info source).foldl (recordOne key source atMs id) base) :=
      recordIdentities_run hat hsome hready.jobs hready.free
    obtain ⟨hmeta, hcat, hstate, hfts⟩ :=
      fold_rest key source atMs id (M.identities info source) base
    generalize hd : (M.identities info source).foldl (recordOne key source atMs id) base = d at *
    have hcounted : d.Counted := hready.counted.congr hmeta hcat hstate hfts
    have hm' : d.metadata.get? id = some m := by rw [hmeta]; exact hm
    obtain ⟨r, hr⟩ : ∃ r, d.metadataByHash canonical = some r := by
      refine Option.isSome_iff_exists.1 (List.find?_isSome.2 ⟨m, ?_, ?_⟩)
      · rw [hmeta]
        exact (Table.get?_eq_some.1 hm).1
      · simp [hcanon]
    obtain ⟨b, db', hens, hcounted', hframe, hdone, hsame⟩ :=
      ensureCatalog_run (M := M) hcounted hr info
    have hsame' : CatalogDone M base canonical info → db'.torrentCatalog = base.torrentCatalog := by
      intro hbase
      rw [← hcat]
      refine hsame ?_
      unfold CatalogDone at hbase ⊢
      rw [hcat]
      exact hbase
    refine ⟨db', ?_, hcounted', hframe, hdone, hsame'⟩
    refine (Prog.run_bind_of_ok hrename).trans ?_
    refine (Prog.run_bind_of_ok hrec).trans ?_
    refine (Prog.run_bind_of_ok (canonicalHash_run hm')).trans ?_
    rw [hcanon]
    exact (Prog.run_bind_of_ok hens).trans rfl
  · left
    have hneg : atMs < 0 := by omega
    refine ⟨hneg, ?_⟩
    refine (Prog.run_bind_of_ok hrename).trans ?_
    exact Prog.run_bind_of_error (recordIdentities_negative hneg
      (Metainfo.identities_ne_nil info source) hsome hready.free)

/-- **The outcomes of `save`**: an input error, a stored row with other bytes, a negative time, or
the recorded torrent. -/
theorem save_run {db : Db} (h : StoreInv M db) (key : SwarmKey) (info : Bytes) (atMs : Int) :
    (∃ e, checkInfo M key info = .error e ∧ (save M key info atMs).run db = .error e) ∨
      ∃ source, checkInfo M key info = .ok source ∧
        (((save M key info atMs).run db = .error .conflict ∧
            ∃ m ∈ db.metadata.rows, m.info ≠ info ∧ ∃ i ∈ M.identities info source, i ∈ m.own M) ∨
          (atMs < 0 ∧ (save M key info atMs).run db = .error (.database .check)) ∨
          (0 ≤ atMs ∧ ∃ id db', (save M key info atMs).run db = .ok (id, db') ∧
            Saved M key source info atMs db id db')) := by
  cases hc : checkInfo M key info with
  | error e => exact .inl ⟨e, rfl, by simp [save, hc, Script.run]⟩
  | ok source =>
    refine .inr ⟨source, rfl, ?_⟩
    obtain ⟨hsize, -⟩ := checkInfo_ok hc
    obtain ⟨canonical, hhead⟩ : ∃ c, (M.identities info source).head? = some c := by
      cases hl : M.identities info source with
      | nil => exact absurd hl (Metainfo.identities_ne_nil info source)
      | cons c rest => exact ⟨c, rfl⟩
    have hheadD : (M.identities info source).headD source = canonical := by
      rw [List.headD_eq_head?_getD, hhead]
      rfl
    have hsave : (save M key info atMs).run db =
        ((findExisting info (M.identities info source) none >>= fun existing =>
          obtainRow canonical info atMs existing) >>= fun id => do
            renameCanonical id canonical
            recordIdentities key source atMs id (M.identities info source)
            let current ← Prog.queryOrFail (fun db => db.canonicalHash id)
            let _ ← ensureCatalog M current info
            pure id : Script Int).run db := by
      rw [Script.run, Script.run, Prog.run_bind_assoc]
      simp only [save, hc, saveMatched, hheadD]
    rw [hsave]
    obtain ⟨hrun, hconf⟩ | ⟨hat, hrun⟩ | ⟨id, base, hbased, hrun⟩ :=
      obtainRow_run atMs h hsize hhead
    · exact .inl ⟨Prog.run_bind_of_error hrun, hconf⟩
    · exact .inr (.inl ⟨hat, Prog.run_bind_of_error hrun⟩)
    · right
      obtain ⟨hat, hrest⟩ | ⟨hat, db', hrest, hcounted, hframe, hdone, hsame⟩ :=
        saveRow_run key atMs (hbased.ready h) hhead
      · exact .inl ⟨hat, (Prog.run_bind_of_ok hrun).trans hrest⟩
      · refine .inr ⟨hat, id, db', (Prog.run_bind_of_ok hrun).trans hrest,
          ⟨⟨base, hbased, hframe⟩, hcounted, ?_⟩⟩
        intro c hc'
        rw [hhead] at hc'
        cases hc'
        rw [hbased.catalog] at hsame
        refine ⟨hdone, fun hd => hsame ?_⟩
        unfold CatalogDone at hd ⊢
        rw [hbased.catalog]
        exact hd

/-! ## A save keeps the invariant -/

section SavedInv

variable {db base db' : Db} {key : SwarmKey} {source : TorrentIdentity} {info : Bytes}
  {atMs id : Int}

/-- The tables a new row does not touch. -/
theorem Based.tables {L : List TorrentIdentity} (hb : Based M db L info atMs id base) :
    base.infohashes = db.infohashes ∧ base.fetchJobs = db.fetchJobs ∧
      base.peerHints = db.peerHints ∧ base.torrentIdentities = db.torrentIdentities ∧
      base.swarmMetadata = db.swarmMetadata := by
  cases hb with
  | stored => exact ⟨rfl, rfl, rfl, rfl, rfl⟩
  | fresh => exact ⟨rfl, rfl, rfl, rfl, rfl⟩

/-- Stored rows stay, unchanged. -/
theorem Based.kept {L : List TorrentIdentity} (hb : Based M db L info atMs id base)
    {m : MetadataRow} (hm : m ∈ db.metadata.rows) : m ∈ base.metadata.rows := by
  cases hb with
  | stored => exact hm
  | fresh =>
    rw [rows_addRow]
    exact List.mem_append_left _ hm

/-- A row is an old one or the saved one. -/
theorem Based.mem (hb : Based M db (M.identities info source) info atMs id base)
    {m : MetadataRow} (hm : m ∈ base.metadata.rows) : m ∈ db.metadata.rows ∨
      (m.id = id ∧ m.info = info ∧ (M.identities info source).head? = some m.hash ∧
        m.own M = M.identities info source ∧ m.fetchedAt = atMs) := by
  cases hb with
  | stored => exact .inl hm
  | fresh head =>
    rw [rows_addRow, List.mem_append, List.mem_singleton] at hm
    rcases hm with hm | rfl
    · exact .inl hm
    · exact .inr ⟨rfl, rfl, head, own_canonical head, rfl⟩

/-- The identity table after the loop. -/
theorem Based.identities (h : StoreInv M db)
    (hb : Based M db (M.identities info source) info atMs id base) (i : TorrentIdentity)
    (id' : Int) :
    ((M.identities info source).foldl (recordOne key source atMs id) base).torrentIdentities.get? i =
        some ⟨i, id'⟩ ↔ ∃ m ∈ base.metadata.rows, m.id = id' ∧ i ∈ m.own M := by
  rw [fold_identities, hb.tables.2.2.2.1]
  cases hb with
  | @stored m mem bytes own =>
    rw [← h.identities i id']
    obtain ⟨hnone, hno⟩ | ⟨m', hm', hi', hsome⟩ := h.get?_identity i
    · have hi : i ∉ M.identities info source := own ▸ hno m mem
      simp [hnone, hi]
    · simp [hsome]
  | @fresh canonical state head new counted =>
    rw [rows_addRow]
    obtain ⟨hnone, hno⟩ | ⟨m', hm', hi', hsome⟩ := h.get?_identity i
    · rw [hnone, Option.none_or]
      constructor
      · intro hsome
        split at hsome
        · rename_i hi
          cases hsome
          refine ⟨_, List.mem_append_right _ (List.mem_singleton.2 rfl), rfl, ?_⟩
          show i ∈ M.identities info canonical
          rw [own_canonical head]
          exact hi
        · cases hsome
      · rintro ⟨m, hm, rfl, hi⟩
        rw [List.mem_append, List.mem_singleton] at hm
        rcases hm with hm | rfl
        · exact absurd hi (hno m hm)
        · have hi' : i ∈ M.identities info source := own_canonical head ▸ hi
          simp [hi']
    · rw [hsome, Option.some_or, ← hsome, h.identities i id']
      have hni : i ∉ M.identities info source := fun hi => new i hi m' hm' hi'
      constructor
      · rintro ⟨m, hm, he, hi⟩
        exact ⟨m, List.mem_append_left _ hm, he, hi⟩
      · rintro ⟨m, hm, he, hi⟩
        rw [List.mem_append, List.mem_singleton] at hm
        rcases hm with hm | rfl
        · exact ⟨m, hm, he, hi⟩
        · exact absurd (own_canonical head ▸ hi) hni

theorem Based.get?_some {L : List TorrentIdentity} (hb : Based M db L info atMs id base) {id' : Int}
    (hs : (db.metadata.get? id').isSome = true) : (base.metadata.get? id').isSome = true := by
  obtain ⟨m, hm⟩ := Option.isSome_iff_exists.1 hs
  obtain ⟨hmem, rfl⟩ := Table.get?_eq_some.1 hm
  rw [Table.get?_key (hb.kept hmem)]
  rfl

/-- **A successful save keeps the invariant.** -/
theorem Saved.inv (h : StoreInv M db) (hc : checkInfo M key info = .ok source) (hat : 0 ≤ atMs)
    (hs : Saved M key source info atMs db id db') : StoreInv M db' := by
  obtain ⟨⟨base, hb, hframe⟩, hcounted, -⟩ := hs
  obtain ⟨hsize, hmatch⟩ := checkInfo_ok hc
  have hready := hb.ready h
  obtain ⟨hmeta, -, -, -⟩ := fold_rest key source atMs id (M.identities info source) base
  have hrows : db'.metadata = base.metadata := (hframe.metadata (by decide)).trans hmeta
  have hidsome : (base.metadata.get? id).isSome = true := by
    obtain ⟨m, hm, -⟩ := hready.row
    rw [hm]
    rfl
  have hinfo : ∀ k, (db'.infohashes.get? k).isSome = true ↔
      (db.infohashes.get? k).isSome = true ∨ ∃ i ∈ M.identities info source, i.swarmKey = k := by
    intro k
    rw [hframe.infohashes (by decide), fold_infohashes, hb.tables.1]
  have hswarm : ∀ k id', (db'.swarmMetadata.get? (k, id')).isSome = true ↔
      (db.swarmMetadata.get? (k, id')).isSome = true ∨
        id' = id ∧ ∃ i ∈ M.identities info source, i.swarmKey = k := by
    intro k id'
    rw [hframe.swarm (by decide), fold_swarm, hb.tables.2.2.2.2]
  refine ⟨hcounted, ?_, ?_, ?_, ?_, ?_, ?_, ?_⟩
  · intro m hm
    rw [hrows] at hm
    obtain hm | ⟨-, rfl, hhead, -⟩ := hb.mem hm
    · exact h.digest m hm
    · exact Metainfo.mem_identities hmatch (List.mem_of_mem_head? hhead)
  · intro m hm
    rw [hrows] at hm
    obtain hm | ⟨-, -, hhead, hown, -⟩ := hb.mem hm
    · exact h.canonical m hm
    · rw [hown]
      exact hhead
  · intro i id'
    rw [hframe.identities (by decide), hrows]
    exact hb.identities h i id'
  · intro m hm i hi
    rw [hrows] at hm
    rw [hswarm]
    obtain hm | ⟨rfl, -, -, hown, -⟩ := hb.mem hm
    · exact .inl (h.swarm m hm i hi)
    · exact .inr ⟨rfl, i, hown ▸ hi, rfl⟩
  · intro s hs
    have hsome : (db'.swarmMetadata.get? (s.hash, s.metadataId)).isSome = true := by
      rw [show (s.hash, s.metadataId) = s.key from rfl, Table.get?_key hs]
      rfl
    rw [hrows, hinfo]
    rcases (hswarm _ _).1 hsome with hold | ⟨hid, hkey⟩
    · obtain ⟨r, hr⟩ := Option.isSome_iff_exists.1 hold
      obtain ⟨hmem, hk⟩ := Table.get?_eq_some.1 hr
      obtain ⟨h1, h2⟩ := h.swarmRefs r hmem
      rw [SwarmMetadata.key, Prod.mk.injEq] at hk
      exact ⟨.inl (hk.1 ▸ h1), hb.get?_some (hk.2 ▸ h2)⟩
    · exact ⟨.inr hkey, by rw [hid]; exact hidsome⟩
  · intro m hm
    rw [hrows] at hm
    obtain hm | ⟨-, hinfo, -, -, hfetched⟩ := hb.mem hm
    · exact h.rows m hm
    · simp only [MetadataRow.check, Bool.and_eq_true, decide_eq_true_eq]
      rw [hinfo, hfetched]
      exact ⟨hsize, hat⟩
  · rw [hframe.fetchJobs (by decide)]
    exact fold_jobs_check key source atMs id (M.identities info source) hready.jobs

end SavedInv

end BtSniffer
