import BtSniffer.Collection.CatalogResave
import BtSniffer.Lib.Sweep
import BtSniffer.Metainfo.Layout

/-!
# The catalog sweep

`backfill_one` is called again and again, each time with the cursor it returned.

* `backfillOne_step` — one call: it works on the first row that needs a catalog row, and no other row
  comes to need one.
* `backfill_sweep` — a sweep ends; every row that needed a catalog row has one.
* `catalog_backfill` — the main result, for the analysis of the source.
-/

set_option autoImplicit false

namespace BtSniffer

open Relational

variable {M : Metainfo} {original : Int → Bytes} {db db' db'' : Db}

/-- What a call that works on the row `id` does to the rows. -/
structure Swept (id : Int) (db db' : Db) : Prop where
  bytes : ∀ m ∈ db'.metadata.rows, ∃ m₀ ∈ db.metadata.rows, m₀.id = m.id ∧ m₀.info = m.info
  named : ∀ i, ∀ m ∈ db.metadata.rows, db.torrentIdentities.get? i = some ⟨i, m.id⟩ →
    ∃ m' ∈ db'.metadata.rows, db'.torrentIdentities.get? i = some ⟨i, m'.id⟩ ∧ m'.info = m.info
  needs : ∀ m ∈ db'.metadata.rows, db'.needsCatalog m = true →
    m.id ≠ id ∧ ∃ m₀ ∈ db.metadata.rows, m₀.id = m.id ∧ db.needsCatalog m₀ = true

theorem needsCatalog_congr {m m' : MetadataRow} (hhash : m'.hash = m.hash)
    (h : db'.torrentCatalog.get? m.hash = db.torrentCatalog.get? m.hash) :
    db'.needsCatalog m' = db.needsCatalog m := by
  unfold Db.needsCatalog
  rw [hhash, h]

/-- The effect of a save on the rows. -/
theorem Resaved.swept {m : MetadataRow} {keep : Int} (h : Resaved M original m keep db db') :
    Swept m.id db db' where
  bytes x hx := by
    obtain ⟨m₀, hm₀, hid, hinfo, -⟩ := h.reshaped.bytes x hx
    exact ⟨m₀, hm₀, hid, hinfo⟩
  named i x hx hi := by
    obtain ⟨r, hr, hid⟩ := h.reshaped.moved i _ hi
    have hrow := Table.get?_eq_some.1 hr
    have hr' : r = ⟨i, r.metadataId⟩ := by rw [← hrow.2]
    rcases hid with hid | ⟨hid, hinfo⟩
    · obtain ⟨y, hy⟩ := Option.isSome_iff_exists.1 (h.stored.refs r hrow.1)
      obtain ⟨hym, hyid⟩ := Table.get?_eq_some.1 hy
      obtain ⟨m₀, hm₀, hid₀, hinfo₀, -⟩ := h.reshaped.bytes y hym
      refine ⟨y, hym, by rw [hyid, hr, ← hr'], ?_⟩
      rw [← hinfo₀, Table.eq_of_key hm₀ hx (hid₀.trans (hyid.trans hid))]
    · obtain ⟨k, hk, hkid, hkinfo⟩ := h.survives
      refine ⟨k, hk, by rw [hkid, ← hid, hr, ← hr'], ?_⟩
      rw [hkinfo, hinfo x hx rfl]
  needs x hx hneeds := by
    have hne : x.id ≠ keep := by
      intro he
      rw [h.settled x hx he] at hneeds
      cases hneeds
    obtain ⟨m₀, hm₀, hid, -, hhash⟩ := h.reshaped.bytes x hx
    refine ⟨?_, m₀, hm₀, hid, ?_⟩
    · rcases h.gone with he | hgone
      · rw [he]
        exact hne
      · exact hgone x hx
    · rw [← hneeds]
      refine (needsCatalog_congr (hhash hne).symm ?_).symm
      rw [hhash hne]
      exact h.reshaped.catalog x hx hne

/-! ## Damaged rows -/

/-- A row whose bytes do not match its hash is marked. -/
theorem mark_run (hM : M.Settles) (h : Stored M original db) {m : MetadataRow}
    (hm : m ∈ db.metadata.rows) :
    ∃ b n mid db', (ensureCatalog M m.hash []).run db = .ok (b, mid) ∧
      mid.exec (.markMismatch m.hash) = .ok (n, db') ∧ Stored M original db' ∧
      Swept m.id db db' := by
  obtain ⟨x, hx⟩ : ∃ x, db.metadataByHash m.hash = some x :=
    Option.isSome_iff_exists.1 (List.find?_isSome.2 ⟨m, hm, by simp⟩)
  obtain ⟨b, mid, hens, hcounted, hframe, hdone, -⟩ := ensureCatalog_run (M := M) h.counted hx []
  obtain ⟨c, hc, -⟩ := id hdone
  obtain ⟨db', hmark, hcounted', hcat⟩ := Db.updateCatalogRow_ok hcounted false hc
    (fun c => { c with semantic := { c.semantic with
      status := .invalid, reason := some "identity_mismatch" } }) (fun _ => rfl) (fun _ _ => rfl)
  have hmark' : mid.exec (.markMismatch m.hash) = .ok (1, db') := by
    simp only [Db.exec]
    exact hmark
  have hframe' := hframe.trans (Db.exec_frame hmark')
  have hmeta := hframe'.metadata (by decide)
  have hids := hframe'.identities (by decide)
  refine ⟨b, 1, mid, db', hens, hmark', ?_, ?_⟩
  · refine ⟨hcounted', ?_, ?_, ?_, ?_, ?_, ?_, ?_, ?_⟩
    · rw [hmeta]
      exact h.rows
    · rw [hframe'.fetchJobs (by decide)]
      exact h.jobs
    · rw [hmeta]
      exact h.positive
    · rw [hmeta, hids]
      exact h.own
    · rw [hmeta, hids]
      exact h.refs
    · rw [hids]
      exact h.digests
    · rw [hmeta]
      exact h.dictionary
    · rw [hmeta]
      exact h.damaged
  · refine ⟨?_, ?_, ?_⟩
    · intro y hy
      rw [hmeta] at hy
      exact ⟨y, hy, rfl, rfl⟩
    · intro i y hy hi
      refine ⟨y, ?_, ?_, rfl⟩
      · rw [hmeta]
        exact hy
      · rw [hids]
        exact hi
    · intro y hy hneeds
      rw [hmeta] at hy
      have hne : y.id ≠ m.id := by
        -- the marked row has its coverage from `ensure_catalog`
        intro he
        rw [Table.eq_of_key hy hm he] at hneeds
        have hsettled := CatalogDone.settled hM hdone
        have hcov : c.searchIncomplete.isNone = false := by
          unfold Db.needsCatalog at hsettled
          rw [hc] at hsettled
          exact (Bool.or_eq_false_iff.1 hsettled).1
        unfold Db.needsCatalog at hneeds
        rw [hcat, get?_update_row hc] at hneeds
        simp [CatalogRow.coverage, hcov] at hneeds
      refine ⟨hne, y, hy, rfl, ?_⟩
      rw [← hneeds]
      refine (needsCatalog_congr rfl ?_).symm
      have hother : y.hash ≠ m.hash := fun he => hne (congrArg MetadataRow.id (h.hash_inj hy hm he))
      have hon : (Stmt.markMismatch m.hash).OnCatalog m.hash := rfl
      rw [exec_onCatalog hon hmark' hother, ensureCatalog_others hens hother]

/-! ## One call -/

theorem Stored.boundedInfo (h : Stored M original db) {m : MetadataRow}
    (hm : m ∈ db.metadata.rows) : m.boundedInfo = m.info := by
  have hcheck := h.rows m hm
  simp only [MetadataRow.check, Bool.and_eq_true, decide_eq_true_eq] at hcheck
  exact if_pos hcheck.1

/-- The counters agree when no row needs a catalog row. -/
theorem Stored.complete (h : Stored M original db)
    (hdone : ∀ m ∈ db.metadata.rows, db.needsCatalog m = false) :
    (indexState db).complete = true := by
  have hle := Db.count_le_metadata h.counted.refs CatalogRow.isIndexed
  have hge : db.metadata.rows.length ≤ db.torrentCatalog.count CatalogRow.isIndexed := by
    -- the hashes of the rows are distinct, and each is the hash of an indexed catalog row
    have hnodup : (db.metadata.rows.map MetadataRow.hash).Nodup :=
      List.Nodup.map_on (fun x hx y hy he => h.hash_inj hx hy he) db.metadata.nodup_rows
    have hsub : (db.metadata.rows.map MetadataRow.hash).Subperm
        ((db.torrentCatalog.rows.filter CatalogRow.isIndexed).map CatalogRow.hash) := by
      refine hnodup.subperm (fun i hi => ?_)
      obtain ⟨m, hm, rfl⟩ := List.mem_map.1 hi
      have hd := hdone m hm
      unfold Db.needsCatalog at hd
      split at hd
      · cases hd
      · rename_i c hc
        obtain ⟨hcm, hch⟩ := Table.get?_eq_some.1 hc
        refine List.mem_map.2 ⟨c, List.mem_filter.2 ⟨hcm, ?_⟩, hch⟩
        exact Option.isNone_eq_false_iff.1 (Bool.or_eq_false_iff.1 hd).1
    have hlen := hsub.length_le
    rw [List.length_map, List.length_map] at hlen
    rw [Table.count, List.countP_eq_length_filter]
    exact hlen
  have htotal := h.counted.total
  have hindexed := h.counted.indexed
  unfold indexState
  simp only [beq_iff_eq]
  omega

/-- All rows that need a catalog row come after the cursor. -/
def Db.Ahead (db : Db) (cursor : Option Int) : Prop :=
  ∀ m ∈ db.metadata.rows, db.needsCatalog m = true → cursor.getD 0 < m.id

/-- **One call of `backfill_one`** works on the first row that needs a catalog row, or reports that
the catalog is complete. -/
theorem backfillOne_step (hM : M.Settles) (h : Stored M original db)
    (hc : NoCollision M original db) {cursor : Option Int} (hahead : db.Ahead cursor) :
    (∃ m ∈ db.metadata.rows, db.needsCatalog m = true ∧ cursor.getD 0 < m.id ∧
      ∃ db', (backfillOne M cursor).run db = .ok (⟨some m.id, false⟩, db') ∧
        Stored M original db' ∧ Swept m.id db db' ∧ db'.Ahead (some m.id)) ∨
    ((∀ m ∈ db.metadata.rows, db.needsCatalog m = false) ∧
      (backfillOne M cursor).run db = .ok (⟨cursor, true⟩, db)) := by
  cases hnext : db.nextBackfill cursor with
  | none =>
    right
    have hnone := Table.select_one_none hnext
    have hdone : ∀ m ∈ db.metadata.rows, db.needsCatalog m = false := by
      intro m hm
      by_contra hneeds
      rw [Bool.not_eq_false] at hneeds
      have hp := hnone m hm
      rw [hneeds, decide_eq_true (hahead m hm hneeds)] at hp
      cases hp
    refine ⟨hdone, ?_⟩
    unfold Db.nextBackfill at hnext
    simp only [backfillOne, Script.run, Prog.run_bind, Prog.run_query, hnext, Prog.run_pure,
      h.complete hdone]
  | some m =>
    left
    obtain ⟨hm, hp, hfirst⟩ := Table.select_one hnext
    rw [Bool.and_eq_true, decide_eq_true_eq] at hp
    refine ⟨m, hm, hp.2, hp.1, ?_⟩
    have hahead' : ∀ db' : Db, Swept m.id db db' → db'.Ahead (some m.id) := by
      intro db' hswept r hr hneeds
      obtain ⟨hne, m₀, hm₀, hid, hneeds₀⟩ := hswept.needs r hr hneeds
      have hle : m.id ≤ m₀.id := by
        rcases hfirst m₀ hm₀ (by
          rw [hneeds₀, decide_eq_true (hahead m₀ hm₀ hneeds₀)]
          rfl) with rfl | hle
        · exact le_rfl
        · exact hle
      show m.id < r.id
      omega
    unfold Db.nextBackfill at hnext
    by_cases hmatch : M.matchIdentity m.info m.hash.swarmKey = some m.hash
    · obtain ⟨keep, db', hsave, hres⟩ := save_stored hM h hc hm hmatch
      refine ⟨db', ?_, hres.stored, hres.swept, hahead' db' hres.swept⟩
      rw [Script.run] at hsave
      simp only [backfillOne, Script.run, Prog.run_bind, Prog.run_query, hnext, h.boundedInfo hm,
        hmatch, if_true, hsave, Prog.run_pure]
    · obtain ⟨b, n, mid, db', hens, hmark, hstored, hswept⟩ := mark_run hM h hm
      refine ⟨db', ?_, hstored, hswept, hahead' db' hswept⟩
      rw [Script.run] at hens
      simp only [backfillOne, Script.run, Prog.run_bind, Prog.run_query, hnext, h.boundedInfo hm,
        hmatch, if_false, hens, Prog.run_execute, hmark, Prog.run_pure]

/-! ## Whole sweeps -/

/-- A call that works on the row `id`: from a cursor and a database to the next ones. -/
def BackfillMove (M : Metainfo) (id : Int) (s s' : Option Int × Db) : Prop :=
  (backfillOne M s.1).commit s.2 = (.ok ⟨some id, false⟩, s'.2) ∧ s'.1 = some id

theorem commit_of_run {α : Type} {p : Script α} {a : α} (h : p.run db = .ok (a, db')) :
    p.commit db = (.ok a, db') := by
  unfold Script.commit Prog.transact
  rw [Script.run] at h
  rw [h]

/-- A sweep that has ended. -/
structure Completed (M : Metainfo) (original : Int → Bytes) (cursor : Option Int) (db : Db)
    (ids : List Int) (db' : Db) : Prop where
  calls : Sweep (BackfillMove M) (cursor, db) ids (ids.getLast?.or cursor, db')
  last : (backfillOne M (ids.getLast?.or cursor)).commit db' =
    (.ok ⟨ids.getLast?.or cursor, true⟩, db')
  increasing : (cursor.getD 0 :: ids).Pairwise (· < ·)
  processed : ∀ id ∈ ids, ∃ m ∈ db.metadata.rows, m.id = id ∧ db.needsCatalog m = true
  stored : Stored M original db'
  settled : ∀ m ∈ db'.metadata.rows, db'.needsCatalog m = false
  bytes : ∀ m ∈ db'.metadata.rows, ∃ m₀ ∈ db.metadata.rows, m₀.id = m.id ∧ m₀.info = m.info
  named : ∀ i, ∀ m ∈ db.metadata.rows, db.torrentIdentities.get? i = some ⟨i, m.id⟩ →
    ∃ m' ∈ db'.metadata.rows, db'.torrentIdentities.get? i = some ⟨i, m'.id⟩ ∧ m'.info = m.info

/-- A sweep after one more call. -/
theorem Completed.cons {cursor : Option Int} {m : MetadataRow} {ids : List Int}
    (hrun : (backfillOne M cursor).run db = .ok (⟨some m.id, false⟩, db'))
    (hm : m ∈ db.metadata.rows) (hneeds : db.needsCatalog m = true) (hlt : cursor.getD 0 < m.id)
    (hswept : Swept m.id db db') (h : Completed M original (some m.id) db' ids db'') :
    Completed M original cursor db (m.id :: ids) db'' := by
  have hlast : (m.id :: ids).getLast?.or cursor = ids.getLast?.or (some m.id) := by
    rw [List.getLast?_cons]
    cases ids.getLast? with
    | none => rfl
    | some x => rfl
  constructor
  case calls =>
    rw [hlast]
    exact .cons ⟨commit_of_run hrun, rfl⟩ h.calls
  case last =>
    rw [hlast]
    exact h.last
  case increasing =>
    have hinc := h.increasing
    rw [Option.getD_some] at hinc
    refine List.pairwise_cons.2 ⟨fun x hx => ?_, hinc⟩
    rcases List.mem_cons.1 hx with rfl | hx
    · exact hlt
    · exact lt_trans hlt ((List.pairwise_cons.1 hinc).1 x hx)
  case processed =>
    intro id hid
    rcases List.mem_cons.1 hid with rfl | hid
    · exact ⟨m, hm, rfl, hneeds⟩
    · obtain ⟨r, hr, hrid, hrneeds⟩ := h.processed id hid
      obtain ⟨-, m₀, hm₀, hid₀, hneeds₀⟩ := hswept.needs r hr hrneeds
      exact ⟨m₀, hm₀, hid₀.trans hrid, hneeds₀⟩
  case stored => exact h.stored
  case settled => exact h.settled
  case bytes =>
    intro x hx
    obtain ⟨r, hr, hid, hinfo⟩ := h.bytes x hx
    obtain ⟨m₀, hm₀, hid₀, hinfo₀⟩ := hswept.bytes r hr
    exact ⟨m₀, hm₀, hid₀.trans hid, hinfo₀.trans hinfo⟩
  case named =>
    intro i x hx hi
    obtain ⟨r, hr, hir, hinfo⟩ := hswept.named i x hx hi
    obtain ⟨y, hy, hiy, hinfo'⟩ := h.named i r hr hir
    exact ⟨y, hy, hiy, hinfo'.trans hinfo⟩

/-- The ids of the rows that need a catalog row. -/
def Db.needing (db : Db) : List Int := (db.metadata.rows.filter db.needsCatalog).map MetadataRow.id

theorem mem_needing {id : Int} :
    id ∈ db.needing ↔ ∃ m ∈ db.metadata.rows, m.id = id ∧ db.needsCatalog m = true := by
  unfold Db.needing
  rw [List.mem_map]
  constructor
  · rintro ⟨m, hm, rfl⟩
    obtain ⟨hm, hneeds⟩ := List.mem_filter.1 hm
    exact ⟨m, hm, rfl, hneeds⟩
  · rintro ⟨m, hm, rfl, hneeds⟩
    exact ⟨m, List.mem_filter.2 ⟨hm, hneeds⟩, rfl⟩

theorem needing_nodup (db : Db) : db.needing.Nodup :=
  db.metadata.nodup.sublist (List.filter_sublist.map MetadataRow.id)

/-- A call leaves fewer rows that need a catalog row. -/
theorem Swept.needing_lt {m : MetadataRow} (h : Swept m.id db db') (hm : m ∈ db.metadata.rows)
    (hneeds : db.needsCatalog m = true) : db'.needing.length < db.needing.length := by
  have hsub : (m.id :: db'.needing).Subperm db.needing := by
    refine List.Nodup.subperm (List.nodup_cons.2 ⟨fun hid => ?_, needing_nodup db'⟩) (fun id hid => ?_)
    · obtain ⟨r, hr, hrid, hrneeds⟩ := mem_needing.1 hid
      exact (h.needs r hr hrneeds).1 hrid
    · rcases List.mem_cons.1 hid with rfl | hid
      · exact mem_needing.2 ⟨m, hm, rfl, hneeds⟩
      · obtain ⟨r, hr, hrid, hrneeds⟩ := mem_needing.1 hid
        obtain ⟨-, m₀, hm₀, hid₀, hneeds₀⟩ := h.needs r hr hrneeds
        exact mem_needing.2 ⟨m₀, hm₀, hid₀.trans hrid, hneeds₀⟩
  have hlen := hsub.length_le
  rw [List.length_cons] at hlen
  omega

theorem NoCollision.swept {id : Int} (h : NoCollision M original db) (k : Swept id db db') :
    NoCollision M original db' :=
  h.of_rows k.bytes

/-- **A sweep ends.** -/
theorem backfill_sweep (hM : M.Settles) {cursor : Option Int} {db : Db}
    (h : Stored M original db) (hc : NoCollision M original db) (hahead : db.Ahead cursor) :
    ∃ ids db', Completed M original cursor db ids db' := by
  obtain ⟨m, hm, hneeds, hlt, db₁, hrun, hstored, hswept, hahead₁⟩ | ⟨hdone, hrun⟩ :=
    backfillOne_step hM h hc hahead
  · have hdecreases := hswept.needing_lt hm hneeds
    obtain ⟨ids, db', hrest⟩ := backfill_sweep hM hstored (hc.swept hswept) hahead₁
    exact ⟨m.id :: ids, db', hrest.cons hrun hm hneeds hlt hswept⟩
  · refine ⟨[], db, .nil _, commit_of_run hrun, List.pairwise_singleton _ _,
      fun _ hid => absurd hid List.not_mem_nil, h, hdone, fun m hm => ⟨m, hm, rfl, rfl⟩,
      fun i m hm hi => ⟨m, hm, hi, rfl⟩⟩
termination_by db.needing.length

/-- Any part of a sweep keeps what is known of the rows. -/
theorem backfill_keeps (hM : M.Settles) {s s' : Option Int × Db} {ids : List Int}
    (hs : Sweep (BackfillMove M) s ids s') (h : Stored M original s.2)
    (hc : NoCollision M original s.2) (hahead : s.2.Ahead s.1) :
    Stored M original s'.2 ∧ NoCollision M original s'.2 := by
  induction hs with
  | nil c => exact ⟨h, hc⟩
  | @cons id ids c c' e first rest ih =>
    obtain ⟨m, -, -, -, db₁, hrun, hstored, hswept, hahead₁⟩ | ⟨-, hrun⟩ :=
      backfillOne_step hM h hc hahead
    · have hfirst := first.1
      rw [commit_of_run hrun, Prod.mk.injEq, Except.ok.injEq, BackfillStep.mk.injEq] at hfirst
      obtain ⟨⟨hid, -⟩, hdb⟩ := hfirst
      rw [hdb] at hstored hswept hahead₁
      exact ih hstored (hc.swept hswept) (by rw [first.2, ← hid]; exact hahead₁)
    · have hfirst := first.1
      rw [commit_of_run hrun, Prod.mk.injEq, Except.ok.injEq, BackfillStep.mk.injEq] at hfirst
      cases hfirst.1.2

/-! ## The analysis of the source -/

theorem Info.checkPaths_error {files : List Info.File} {e : String}
    (h : Info.checkPaths files = .error e) : e = "path_conflict" ∨ e = "dangling_symlink" := by
  unfold Info.checkPaths at h
  dsimp only at h
  split at h
  · cases h
    exact .inl rfl
  · split at h
    · cases h
    · cases h
      exact .inr rfl

theorem Info.settles (decoder : Info.InfoDecoder) (sha1 : Bytes → BitVec 160)
    (sha256 : Bytes → BitVec 256) (dictionaryPrefix : Bytes → Nat → Option Nat) :
    (Info.infoMetainfo decoder sha1 sha256 dictionaryPrefix).Settles := by
  intro info
  have hrejected : ∀ format e, e ≠ "empty_directory" →
      (Info.rejected format e).status ≠ .pending ∧
        (Info.rejected format e).reason ≠ some "empty_directory" := by
    intro format e hne
    refine ⟨?_, fun h => hne (Option.some.inj h)⟩
    unfold Info.rejected
    dsimp only
    split
    · decide
    · decide
  have hreasons : ∀ e ∈ Info.REASONS, e ≠ "empty_directory" := by decide
  show (Info.analyze decoder info).status ≠ .pending ∧
    (Info.analyze decoder info).reason ≠ some "empty_directory"
  obtain ⟨e, he, hrej⟩ | ⟨d, budget, version, -, -, -, ⟨e, herror, hrej⟩ | ⟨p, -, hvalid⟩⟩ :=
    Info.analyze_cases decoder info
  · rw [hrej]
    exact hrejected _ e (hreasons e he)
  · rw [hrej]
    refine hrejected _ e ?_
    rcases Info.parseBody_error herror with he | ⟨pieceLength, files, -, hpaths⟩
    · exact hreasons e he
    · rcases Info.checkPaths_error hpaths with rfl | rfl
      · decide
      · decide
  · rw [hvalid]
    exact ⟨by simp, by simp⟩

/-- **Catalog backfill finishes and is complete.** From a database whose rows were written by `save`
or the migration, with bytes damaged and catalog rows missing or stale, a sweep from the start:

* every call succeeds; the calls work on rows that need a catalog row, each at most once and in the
  order of their ids, and the call after them reports a complete catalog and changes nothing;
* no bytes are changed, and the hash of every row names a row with the same bytes in the end, the row
  itself or the one it was merged into;
* in the end no row needs a catalog row and a new sweep ends at once; a sweep that starts again after
  any part of this one finds a database of the same kind. -/
theorem catalog_backfill (decoder : Info.InfoDecoder) (sha1 : Bytes → BitVec 160)
    (sha256 : Bytes → BitVec 256) (dictionaryPrefix : Bytes → Nat → Option Nat)
    (original : Int → Bytes) (db : Db)
    (h : Stored (Info.infoMetainfo decoder sha1 sha256 dictionaryPrefix) original db)
    (hc : NoCollision (Info.infoMetainfo decoder sha1 sha256 dictionaryPrefix) original db) :
    ∃ ids db',
      Sweep (BackfillMove (Info.infoMetainfo decoder sha1 sha256 dictionaryPrefix)) (none, db) ids
        (ids.getLast?, db') ∧
      (backfillOne (Info.infoMetainfo decoder sha1 sha256 dictionaryPrefix) ids.getLast?).commit db' =
        (.ok ⟨ids.getLast?, true⟩, db') ∧
      ids.Pairwise (· < ·) ∧
      (∀ id ∈ ids, ∃ m ∈ db.metadata.rows, m.id = id ∧ db.needsCatalog m = true) ∧
      ids.length + 1 ≤ db.metadata.rows.countP db.needsCatalog + 1 ∧
      (∀ m ∈ db'.metadata.rows, ∃ m₀ ∈ db.metadata.rows, m₀.id = m.id ∧ m₀.info = m.info) ∧
      (∀ m₀ ∈ db.metadata.rows, ∃ m ∈ db'.metadata.rows, m.info = m₀.info ∧
        db'.torrentIdentities.get? m₀.hash = some ⟨m₀.hash, m.id⟩) ∧
      (∀ m ∈ db'.metadata.rows, db'.needsCatalog m = false) ∧
      (backfillOne (Info.infoMetainfo decoder sha1 sha256 dictionaryPrefix) none).commit db' =
        (.ok ⟨none, true⟩, db') ∧
      ∀ part s,
        Sweep (BackfillMove (Info.infoMetainfo decoder sha1 sha256 dictionaryPrefix)) (none, db) part
          s →
        Stored (Info.infoMetainfo decoder sha1 sha256 dictionaryPrefix) original s.2 ∧
          NoCollision (Info.infoMetainfo decoder sha1 sha256 dictionaryPrefix) original s.2 := by
  have hM := Info.settles decoder sha1 sha256 dictionaryPrefix
  have hahead : db.Ahead none := fun m hm _ => h.positive m hm
  obtain ⟨ids, db', hdone⟩ := backfill_sweep hM h hc hahead
  have hlast : ids.getLast?.or none = ids.getLast? := Option.or_none
  have hcalls := hdone.calls
  have hfinal := hdone.last
  rw [hlast] at hcalls hfinal
  have hinc : ids.Pairwise (· < ·) := (List.pairwise_cons.1 hdone.increasing).2
  refine ⟨ids, db', hcalls, hfinal, hinc, hdone.processed, ?_, hdone.bytes, ?_, hdone.settled, ?_,
    fun part s hs => backfill_keeps hM hs h hc hahead⟩
  · have hsub : ids.Subperm db.needing := by
      refine List.Nodup.subperm (hinc.imp (fun hlt => ne_of_lt hlt)) (fun id hid => ?_)
      exact mem_needing.2 (hdone.processed id hid)
    have hlen := hsub.length_le
    rw [Db.needing, List.length_map, ← List.countP_eq_length_filter] at hlen
    omega
  · intro m₀ hm₀
    obtain ⟨m, hm, hnamed, hinfo⟩ := hdone.named m₀.hash m₀ hm₀ (h.own m₀ hm₀)
    exact ⟨m, hm, hinfo, hnamed⟩
  · have hempty : db'.Ahead none := by
      intro m hm hneeds
      rw [hdone.settled m hm] at hneeds
      cases hneeds
    obtain ⟨-, hc'⟩ := backfill_keeps hM hcalls h hc hahead
    obtain ⟨m, hm, hneeds, -⟩ | ⟨-, hrun⟩ := backfillOne_step hM hdone.stored hc' hempty
    · rw [hdone.settled m hm] at hneeds
      cases hneeds
    · exact commit_of_run hrun

/-- A hybrid that was saved under both its identities, before the analysis took it for one; nothing is
in the catalog yet. -/
def twiceSaved : Db :=
  { Db.empty with
    metadata := (Table.empty.insertNew ⟨1, .v1 0x1066b1e056dfbc692156bcd97448ddc0db75833b,
      Info.smallHybrid.encode, 4⟩).insertNew
      ⟨2, .v2 0xbc43e5f5f1652a030538203781eb79d595d4180118d5bc623ddef7a930212c8d,
        Info.smallHybrid.encode, 5⟩
    torrentIdentities :=
      (Table.empty.insertNew ⟨.v1 0x1066b1e056dfbc692156bcd97448ddc0db75833b, 1⟩).insertNew
        ⟨.v2 0xbc43e5f5f1652a030538203781eb79d595d4180118d5bc623ddef7a930212c8d, 2⟩
    catalogState := ⟨0, 2, 0⟩ }

/-- The functions as they act on that dictionary. -/
def ofSmallHybrid : Metainfo :=
  Info.infoMetainfo (Info.smallDecoder Info.smallHybrid)
    (fun _ => 0x1066b1e056dfbc692156bcd97448ddc0db75833b)
    (fun _ => 0xbc43e5f5f1652a030538203781eb79d595d4180118d5bc623ddef7a930212c8d)
    (fun info _ => some info.length)

theorem catalog_backfill_twice : ∃ ids db',
    Sweep (BackfillMove ofSmallHybrid) (none, twiceSaved) ids (ids.getLast?, db') ∧
      ids.length + 1 ≤ 3 := by
  have hrows : ∀ m ∈ twiceSaved.metadata.rows, m.info = Info.smallHybrid.encode := by decide +kernel
  have hstored : Stored ofSmallHybrid (fun _ => Info.smallHybrid.encode) twiceSaved := by
    refine ⟨⟨rfl, rfl, rfl, rfl, fun c hcat => absurd hcat List.not_mem_nil⟩, ?_,
      fun j hj => absurd hj List.not_mem_nil, ?_, ?_, ?_, ?_, fun _ _ _ => rfl,
      fun m hm hne => absurd (hrows m hm) hne⟩
    · decide +kernel
    · decide +kernel
    · decide +kernel
    · decide +kernel
    · decide +kernel
  have hseparate : NoCollision ofSmallHybrid (fun _ => Info.smallHybrid.encode) twiceSaved :=
    fun m hm _ _ _ _ => hrows m hm
  obtain ⟨ids, db', hcalls, -, -, -, hlen, -⟩ := catalog_backfill (Info.smallDecoder Info.smallHybrid)
    (fun _ => 0x1066b1e056dfbc692156bcd97448ddc0db75833b)
    (fun _ => 0xbc43e5f5f1652a030538203781eb79d595d4180118d5bc623ddef7a930212c8d)
    (fun info _ => some info.length) (fun _ => Info.smallHybrid.encode) twiceSaved hstored hseparate
  have hcount : twiceSaved.metadata.rows.countP twiceSaved.needsCatalog = 2 := by decide +kernel
  rw [hcount] at hlen
  exact ⟨ids, db', hcalls, hlen⟩

end BtSniffer
