import BtSniffer.Dht.Cooldown

/-!
# What the cooldown transactions do

One rule for each transaction, in terms of the row of a key.

* `reserve_ok_iff` — when a reservation succeeds, and the database after it.
* `settle_ok`, `row?_settledBy` — a settlement changes the pending rows its lease owns.
* `abandon_run`, `row?_abandoned` — an abandonment deletes them.
* `restore_ok` — a restoration settles or forgets every row of the identity.
-/

set_option autoImplicit false

namespace BtSniffer

open Relational

namespace CooldownDb

variable {db db' : CooldownDb}

/-! ## Statements -/

theorem updateCooldowns_ok {p : CooldownRow → Bool} {f : CooldownRow → CooldownRow}
    {hf : ∀ r, (f r).primary = r.primary} {n : Nat}
    (h : db.updateCooldowns p f hf = .ok (n, db')) :
    db' = { db with cooldowns := db.cooldowns.update p f hf } := by
  unfold updateCooldowns updateRows at h
  split at h
  · rename_i m t ht
    cases h
    split at ht
    · cases ht
    · cases ht
      rfl
  · cases h

/-- The database with one more row. -/
def withRow (db : CooldownDb) (row : CooldownRow) : CooldownDb :=
  { db with cooldowns := db.cooldowns.insertNew row }

theorem insertRow_ok {row : CooldownRow} {n : Nat} (h : db.insertRow row = .ok (n, db')) :
    db.row? row.identity row.key = none ∧ row.identity ∈ db.nodeIdentities ∧
      db' = db.withRow row := by
  unfold insertRow at h
  split at h
  · cases h
  · split at h
    · cases h
    · rename_i hnone
      split at h
      · cases h
      · rename_i hknown
        cases h
        exact ⟨Option.not_isSome_iff_eq_none.1 hnone, not_not.1 hknown, rfl⟩

theorem insertRow_of {row : CooldownRow} (hcheck : row.check = true)
    (hnone : db.row? row.identity row.key = none) (hknown : row.identity ∈ db.nodeIdentities) :
    db.insertRow row = .ok (1, db.withRow row) := by
  have hget : db.cooldowns.get? row.primary = none := hnone
  unfold insertRow withRow
  simp [hcheck, hget, hknown]

theorem row?_withRow (row : CooldownRow) (identity : Int) (key : CooldownKey) :
    (db.withRow row).row? identity key = (db.row? identity key).or
      (if row.identity = identity ∧ row.key = key then some row else none) := by
  unfold row? withRow
  rw [Table.get?_insertNew]
  simp only [CooldownRow.primary, Prod.mk.injEq]

theorem row?_mem {identity : Int} {key : CooldownKey} {r : CooldownRow} :
    db.row? identity key = some r ↔
      r ∈ db.cooldowns.rows ∧ r.identity = identity ∧ r.key = key := by
  unfold row?
  rw [Table.get?_eq_some]
  simp only [CooldownRow.primary, Prod.mk.injEq]

theorem row?_of_mem {r : CooldownRow} (h : r ∈ db.cooldowns.rows) :
    db.row? r.identity r.key = some r :=
  row?_mem.2 ⟨h, rfl, rfl⟩

/-! ## Reservations -/

/-- The parameters `reserve_sampling` accepts. -/
theorem reserve_accepted {now durationMs : Int} {capacity : Nat} :
    reserveRefused now durationMs capacity = false ↔ 0 ≤ now ∧ RESERVATION_MS ≤ durationMs ∧
      now + durationMs ≤ I64_MAX ∧ 0 < capacity ∧ capacity ≤ COOLDOWN_CAPACITY := by
  unfold reserveRefused
  rw [decide_eq_false_iff_not]
  omega

/-- The database without the settled rows whose time has come. -/
def dropExpired (db : CooldownDb) (identity now : Int) : CooldownDb :=
  { db with cooldowns := db.cooldowns.delete (CooldownRow.expired identity now) }

@[simp] theorem row?_dropExpired (identity now i : Int) (key : CooldownKey) :
    (db.dropExpired identity now).row? i key =
      (db.row? i key).filter (fun r => !r.expired identity now) :=
  Table.get?_delete _ _ _

/-- A key is free and its kind has room. -/
def HasRoom (db : CooldownDb) (identity : Int) (capacity : Nat) (key : CooldownKey) : Prop :=
  db.row? identity key = none ∧ db.kindCount identity key.kind < capacity

theorem checkFree_ok_iff {identity : Int} {key : CooldownKey} {capacity : Nat} {r : Unit × CooldownDb} :
    (checkFree identity key capacity).run db = .ok r ↔
      db.HasRoom identity capacity key ∧ r = ((), db) := by
  unfold checkFree HasRoom
  rw [CooldownScript.run, Prog.run_bind, Prog.run_query]
  simp only
  cases hrow : db.row? identity key with
  | some x => simp
  | none =>
    simp only [Option.isSome_none, Bool.false_eq_true, if_false, true_and]
    rw [Prog.run_bind, Prog.run_query]
    simp only
    split
    · rename_i hle
      simp [not_lt.2 hle]
    · rename_i hlt
      simp [not_le.1 hlt, eq_comm]

/-- The database with the two rows of a reservation. -/
def reserved (db : CooldownDb) (lease : CooldownLease) (now : Int) : CooldownDb :=
  (db.withRow (reservedRow lease.identity (.id lease.id) lease.token now lease.durationMs)).withRow
    (reservedRow lease.identity (.ip lease.ip) lease.token now lease.durationMs)

theorem row?_reserved (lease : CooldownLease) (now i : Int) (key : CooldownKey) :
    (db.reserved lease now).row? i key = ((db.row? i key).or
      (if lease.identity = i ∧ .id lease.id = key then
        some (reservedRow lease.identity (.id lease.id) lease.token now lease.durationMs)
      else none)).or
      (if lease.identity = i ∧ .ip lease.ip = key then
        some (reservedRow lease.identity (.ip lease.ip) lease.token now lease.durationMs)
      else none) := by
  unfold reserved
  rw [row?_withRow, row?_withRow]
  rfl

theorem reservedRow_check {identity : Int} {key : CooldownKey} {token : LeaseToken}
    {now durationMs : Int} {capacity : Nat} (h : reserveRefused now durationMs capacity = false) :
    (reservedRow identity key token now durationMs).check = true := by
  obtain ⟨hnow, hduration, -⟩ := reserve_accepted.1 h
  unfold RESERVATION_MS at hduration
  have huntil : 0 ≤ now + durationMs := by omega
  have hpos : 0 < durationMs := by omega
  simp [CooldownRow.check, reservedRow, huntil, hpos]

/-- The row of the node id leaves the address free. -/
theorem row?_ip_withRow {identity : Int} {ip : IpAddr} (id : NodeId) (token : LeaseToken)
    (now durationMs : Int) (h : db.row? identity (.ip ip) = none) :
    (db.withRow (reservedRow identity (.id id) token now durationMs)).row? identity (.ip ip) =
      none := by
  rw [row?_withRow, h]
  simp [reservedRow]

/-- **When a reservation succeeds**, and what it does. -/
theorem reserve_ok_iff {identity : Int} {id : NodeId} {ip : IpAddr} {now durationMs : Int}
    {capacity : Nat} {entropy : Option LeaseToken} {lease : CooldownLease} :
    (reserveSampling identity id ip now durationMs capacity entropy).run db = .ok (lease, db') ↔
      reserveRefused now durationMs capacity = false ∧
      (db.dropExpired identity now).HasRoom identity capacity (.id id) ∧
      (db.dropExpired identity now).HasRoom identity capacity (.ip ip) ∧
      identity ∈ db.nodeIdentities ∧
      ∃ token, entropy = some token ∧ lease = ⟨durationMs, identity, id, ip, token⟩ ∧
        db' = (db.dropExpired identity now).reserved lease now := by
  unfold reserveSampling
  constructor
  · intro h
    split at h
    · cases h
    · rename_i hguard
      obtain ⟨n, start, hdrop, h⟩ := Prog.run_bind_ok h
      rw [Prog.run_execute] at hdrop
      cases hdrop
      obtain ⟨u, mid, hid, h⟩ := Prog.run_bind_ok h
      obtain ⟨hroomId, hmid⟩ := checkFree_ok_iff.1 hid
      cases hmid
      obtain ⟨u, mid, hip, h⟩ := Prog.run_bind_ok h
      obtain ⟨hroomIp, hmid⟩ := checkFree_ok_iff.1 hip
      cases hmid
      obtain ⟨token, mid, htoken, h⟩ := Prog.run_bind_ok h
      rw [Prog.run_queryOrFail] at htoken
      cases entropy with
      | none => cases htoken
      | some t =>
        cases htoken
        obtain ⟨n₁, first, hfirst, h⟩ := Prog.run_bind_ok h
        obtain ⟨n₂, second, hsecond, h⟩ := Prog.run_bind_ok h
        rw [Prog.run_execute] at hfirst hsecond
        obtain ⟨-, hknown, hfirstDb⟩ := insertRow_ok hfirst
        obtain ⟨-, -, hsecondDb⟩ := insertRow_ok hsecond
        cases h
        refine ⟨by simpa using hguard, hroomId, hroomIp, hknown, _, rfl, rfl, ?_⟩
        rw [hsecondDb, hfirstDb]
        rfl
  · rintro ⟨hguard, hroomId, hroomIp, hknown, token, rfl, rfl, rfl⟩
    rw [hguard]
    simp only [Bool.false_eq_true, if_false]
    have hdrop : exec (.deleteExpired identity now) db =
        .ok (db.cooldowns.count (CooldownRow.expired identity now), db.dropExpired identity now) := rfl
    rw [CooldownScript.run, Prog.run_execute_of_ok hdrop]
    rw [Prog.run_bind_of_ok (checkFree_ok_iff.2 ⟨hroomId, rfl⟩)]
    rw [Prog.run_bind_of_ok (checkFree_ok_iff.2 ⟨hroomIp, rfl⟩)]
    rw [Prog.run_bind, Prog.run_queryOrFail]
    simp only [Option.elim_some, Except.map]
    have hid : (reservedRow identity (.id id) token now durationMs).check = true :=
      reservedRow_check hguard
    have hfirst := insertRow_of hid hroomId.1 hknown
    rw [Prog.run_execute_of_ok hfirst]
    have hfree := row?_ip_withRow id token now durationMs hroomIp.1
    have hip : (reservedRow identity (.ip ip) token now durationMs).check = true :=
      reservedRow_check hguard
    have hsecond := insertRow_of hip hfree hknown
    rw [Prog.run_execute_of_ok hsecond]
    rfl

/-! ## Settlements -/

/-- The database after a settlement. -/
def settledBy (db : CooldownDb) (lease : CooldownLease) (untilAt durationMs : Int)
    (failures : Nat) : CooldownDb :=
  { db with
    cooldowns := db.cooldowns.update lease.owns (CooldownRow.settled untilAt durationMs failures)
      (CooldownRow.settled_primary untilAt durationMs failures) }

@[simp] theorem row?_settledBy (lease : CooldownLease) (untilAt durationMs : Int) (failures : Nat)
    (i : Int) (key : CooldownKey) : (db.settledBy lease untilAt durationMs failures).row? i key =
      (db.row? i key).map (fun r =>
        if lease.owns r then r.settled untilAt durationMs failures else r) :=
  Table.get?_update _ _ _ (CooldownRow.settled_primary untilAt durationMs failures) _

theorem owns_eq (lease : CooldownLease) (r : CooldownRow) :
    lease.owns r = (lease.settles (.id lease.id) r || lease.settles (.ip lease.ip) r) := by
  simp only [CooldownLease.owns, CooldownLease.settles, CooldownRow.at_]
  cases r.identity == lease.identity <;> cases r.lease == lease.token <;> cases r.pending <;>
    simp

/-- Settling the two keys one after the other settles what the lease owns. -/
theorem settle_ok {lease : CooldownLease} {now durationMs : Int} {failures : Nat} {u : Unit}
    (h : (settleSampling lease now durationMs failures).run db = .ok (u, db')) :
    settleRefused now durationMs = false ∧
      db' = db.settledBy lease (now + durationMs) durationMs failures := by
  unfold settleSampling at h
  split at h
  · cases h
  · rename_i hguard
    obtain ⟨n₁, first, hfirst, h⟩ := Prog.run_bind_ok h
    obtain ⟨n₂, second, hsecond, h⟩ := Prog.run_bind_ok h
    rw [Prog.run_execute] at hfirst hsecond
    cases h
    refine ⟨by simpa using hguard, ?_⟩
    rw [updateCooldowns_ok hsecond, updateCooldowns_ok hfirst]
    unfold settledBy
    congr 1
    refine Table.ext ?_
    simp only [Table.rows_update, List.map_map]
    refine List.map_congr_left (fun r _ => ?_)
    simp only [Function.comp, owns_eq, Bool.or_eq_true]
    by_cases hid : lease.settles (.id lease.id) r = true
    · -- once settled by its id, a row is no longer pending
      have hdone : lease.settles (.ip lease.ip)
          (r.settled (now + durationMs) durationMs failures) = false := by
        simp [CooldownLease.settles, CooldownRow.settled]
      simp [hid, hdone]
    · simp [hid]

/-! ## Abandonments -/

/-- The database after an abandonment. -/
def abandoned (db : CooldownDb) (lease : CooldownLease) : CooldownDb :=
  { db with cooldowns := db.cooldowns.delete lease.owns }

@[simp] theorem row?_abandoned (lease : CooldownLease) (i : Int) (key : CooldownKey) :
    (db.abandoned lease).row? i key = (db.row? i key).filter (fun r => !lease.owns r) :=
  Table.get?_delete _ _ _

theorem abandon_run (lease : CooldownLease) :
    (abandonSampling lease).run db = .ok ((), db.abandoned lease) := rfl

end CooldownDb

/-! ## Restorations -/

/-- What a restoration makes of a row of its identity. -/
def CooldownRow.recovered (now : Int) (r : CooldownRow) : Option CooldownRow :=
  if r.remaining now = 0 then none else some (r.resumed (now + r.remaining now))

/-- What a recovery row makes of the row of its key. -/
def CooldownRecoveryRow.apply (r : CooldownRecoveryRow) (row : Option CooldownRow) :
    Option CooldownRow :=
  if r.remainingMs = 0 then none else row.map (CooldownRow.resumed r.untilMs)

theorem recoveryRow_ok {now : Int} {r : CooldownRow} {x : CooldownRecoveryRow}
    (h : recoveryRow now r = .ok x) :
    x = recoveryOf now r ∧ 0 < r.durationMs ∧ now + r.remaining now ≤ I64_MAX := by
  unfold recoveryRow at h
  split at h
  · cases h
  · rename_i hvalid
    split at h
    · cases h
    · rename_i hfits
      cases h
      exact ⟨rfl, by omega, not_lt.1 hfits⟩

theorem mapM_recoveryRow {now : Int} : ∀ {l : List CooldownRow} {xs : List CooldownRecoveryRow},
    l.mapM (recoveryRow now) = .ok xs → xs = l.map (recoveryOf now) ∧
      ∀ r ∈ l, 0 < r.durationMs ∧ now + r.remaining now ≤ I64_MAX
  | [], xs, h => by
    cases h
    exact ⟨rfl, fun _ hr => by cases hr⟩
  | r :: l, xs, h => by
    rw [List.mapM_cons] at h
    cases hr : recoveryRow now r with
    | error e => rw [hr] at h; cases h
    | ok x =>
      cases hl : l.mapM (recoveryRow now) with
      | error e => rw [hr, hl] at h; cases h
      | ok ys =>
        rw [hr, hl] at h
        cases h
        obtain ⟨rfl, hvalid⟩ := recoveryRow_ok hr
        obtain ⟨rfl, hrest⟩ := mapM_recoveryRow hl
        refine ⟨rfl, fun a ha => ?_⟩
        rcases List.mem_cons.1 ha with rfl | ha
        · exact hvalid
        · exact hrest a ha

namespace CooldownDb

variable {db db' : CooldownDb}

/-- One turn of the second loop: only the row of the key changes. -/
theorem restoreTurn_ok {identity : Int} {x : CooldownRecoveryRow} {n : Nat}
    (h : exec (if x.remainingMs = 0 then .forget identity x.key
      else .resume identity x.key x.untilMs) db = .ok (n, db')) :
    db'.nodeIdentities = db.nodeIdentities ∧ ∀ i k, db'.row? i k =
      if i = identity ∧ k = x.key then x.apply (db.row? i k) else db.row? i k := by
  have hkey : ∀ i k (r : CooldownRow), db.row? i k = some r →
      (r.at_ identity x.key = true ↔ i = identity ∧ k = x.key) := by
    intro i k r hr
    obtain ⟨-, rfl, rfl⟩ := row?_mem.1 hr
    simp [CooldownRow.at_]
  unfold CooldownRecoveryRow.apply
  split at h
  · rename_i hzero
    cases h
    refine ⟨rfl, fun i k => ?_⟩
    show (db.cooldowns.delete _).get? (i, k) = _
    rw [Table.get?_delete]
    change (db.row? i k).filter _ = _
    cases hr : db.row? i k with
    | none => simp
    | some r =>
      have := hkey i k r hr
      by_cases hm : i = identity ∧ k = x.key
      · simp [hm, hzero, this.2 hm]
      · simp [hm, Bool.eq_false_iff.2 (mt this.1 hm)]
  · rename_i hpos
    have hdb := updateCooldowns_ok h
    refine ⟨by rw [hdb], fun i k => ?_⟩
    rw [hdb]
    show (db.cooldowns.update _ _ (CooldownRow.resumed_primary x.untilMs)).get? (i, k) = _
    rw [Table.get?_update]
    change (db.row? i k).map _ = _
    cases hr : db.row? i k with
    | none => simp
    | some r =>
      have := hkey i k r hr
      by_cases hm : i = identity ∧ k = x.key
      · simp [hm, hpos, this.2 hm]
      · simp [hm, Bool.eq_false_iff.2 (mt this.1 hm)]

theorem restoreLoop_ok {identity : Int} : ∀ {xs : List CooldownRecoveryRow} {db : CooldownDb}
    {out : List RestoredCooldown}, (xs.map CooldownRecoveryRow.key).Nodup →
    (restoreLoop identity xs).run db = .ok (out, db') →
      db'.nodeIdentities = db.nodeIdentities ∧
      (∀ i k, db'.row? i k = if i = identity then
        (xs.find? (fun x => x.key == k)).elim (db.row? i k) (fun x => x.apply (db.row? i k))
        else db.row? i k) ∧
      out = (xs.filter (fun x => x.remainingMs != 0)).map CooldownRecoveryRow.restored
  | [], db, out, _, h => by
    cases h
    exact ⟨rfl, fun i k => by simp, rfl⟩
  | x :: rest, db, out, hnd, h => by
    obtain ⟨hx, hrest⟩ := List.nodup_cons.1 hnd
    obtain ⟨n, mid, tail, hturn, hloop, hout⟩ : ∃ n mid tail,
        exec (if x.remainingMs = 0 then .forget identity x.key
          else .resume identity x.key x.untilMs) db = .ok (n, mid) ∧
        (restoreLoop identity rest).run mid = .ok (tail, db') ∧
        out = if x.remainingMs = 0 then tail else x.restored :: tail := by
      rw [restoreLoop] at h
      split at h
      · rename_i hzero
        obtain ⟨n, mid, hexec, h⟩ := Prog.run_bind_ok h
        rw [Prog.run_execute] at hexec
        exact ⟨n, mid, out, by rw [if_pos hzero]; exact hexec, h, by rw [if_pos hzero]⟩
      · rename_i hpos
        obtain ⟨n, mid, hexec, h⟩ := Prog.run_bind_ok h
        obtain ⟨tail, last, hloop, h⟩ := Prog.run_bind_ok h
        rw [Prog.run_execute] at hexec
        cases h
        exact ⟨n, mid, tail, by rw [if_neg hpos]; exact hexec, hloop, by rw [if_neg hpos]⟩
    obtain ⟨hids, hrows⟩ := restoreTurn_ok hturn
    obtain ⟨hids', hrows', htail⟩ := restoreLoop_ok hrest hloop
    refine ⟨hids'.trans hids, fun i k => ?_, ?_⟩
    · rw [hrows' i k, hrows i k, List.find?_cons]
      by_cases hi : i = identity
      · by_cases hk : k = x.key
        · -- the rest of the loop does not come back to this key
          have hnone : rest.find? (fun y => y.key == k) = none := by
            rw [List.find?_eq_none]
            intro y hy hyk
            exact hx (List.mem_map.2 ⟨y, hy, (beq_iff_eq.1 hyk).trans hk⟩)
          subst hk
          simp [hi, hnone]
        · have hne : (x.key == k) = false := by simpa using fun he => hk he.symm
          simp [hi, hk, hne]
      · simp [hi]
    · rw [hout, htail, List.filter_cons]
      by_cases hzero : x.remainingMs = 0 <;> simp [hzero]

/-- **A restoration** settles every row of the identity with the time it has left, or forgets it
when it has none; it reports the rows it keeps. -/
theorem restore_ok {identity now : Int} {out : List RestoredCooldown}
    (h : (restoreCooldowns identity now).run db = .ok (out, db')) :
    0 ≤ now ∧ db'.nodeIdentities = db.nodeIdentities ∧
      (∀ i k, db'.row? i k =
        if i = identity then (db.row? i k).bind (CooldownRow.recovered now) else db.row? i k) ∧
      (∀ k r, db.row? identity k = some r →
        0 < r.durationMs ∧ now + r.remaining now ≤ I64_MAX ∧
          (r.remaining now ≠ 0 → (recoveryOf now r).restored ∈ out)) := by
  unfold restoreCooldowns at h
  split at h
  · cases h
  · rename_i hnow
    obtain ⟨xs, mid, hread, h⟩ := Prog.run_bind_ok h
    rw [Prog.run_queryOrFail] at hread
    unfold recoveryRows at hread
    cases hxs : ((db.cooldowns.rows.filter (fun r => r.identity == identity)).take 20001).mapM
        (recoveryRow now) with
    | error e => rw [hxs] at hread; cases hread
    | ok ys =>
      rw [hxs] at hread
      cases hread
      obtain ⟨rfl, hvalid⟩ := mapM_recoveryRow hxs
      split at h
      · cases h
      · rename_i hlen
        -- the sentinel is absent, so every row of the identity was read
        have hall : (db.cooldowns.rows.filter (fun r => r.identity == identity)).take 20001 =
            db.cooldowns.rows.filter (fun r => r.identity == identity) := by
          refine List.take_of_length_le ?_
          rw [List.length_map, List.length_take] at hlen
          omega
        rw [hall] at h hvalid
        have hfind : ∀ k, (db.cooldowns.rows.filter (fun r => r.identity == identity)).find?
            (fun r => r.key == k) = db.row? identity k := by
          intro k
          rw [List.find?_filter]
          unfold row? Table.get?
          congr 1
          funext r
          simp only [CooldownRow.primary, Prod.mk.injEq, beq_iff_eq, Bool.decide_and]
        have hnd : (((db.cooldowns.rows.filter (fun r => r.identity == identity)).map
            (recoveryOf now)).map CooldownRecoveryRow.key).Nodup := by
          rw [List.map_map]
          refine List.Nodup.map_on ?_ (db.cooldowns.nodup_rows.filter _)
          intro a ha b hb hab
          obtain ⟨ha, hia⟩ := List.mem_filter.1 ha
          obtain ⟨hb, hib⟩ := List.mem_filter.1 hb
          refine Table.eq_of_key ha hb ?_
          have hkey : a.key = b.key := hab
          simp [CooldownRow.primary, beq_iff_eq.1 hia, beq_iff_eq.1 hib, hkey]
        obtain ⟨hids, hrows, hout⟩ := restoreLoop_ok hnd h
        refine ⟨not_lt.1 hnow, hids, fun i k => ?_, fun k r hr => ?_⟩
        · rw [hrows i k]
          by_cases hi : i = identity
          · subst hi
            rw [if_pos rfl, if_pos rfl, List.find?_map]
            change Option.elim (Option.map _ (List.find? (fun r : CooldownRow => r.key == k) _)) _ _
              = _
            rw [hfind k]
            cases hr : db.row? i k with
            | none => rfl
            | some r =>
              simp [CooldownRecoveryRow.apply, CooldownRow.recovered, recoveryOf]
          · rw [if_neg hi, if_neg hi]
        · obtain ⟨hmem, hi, -⟩ := row?_mem.1 hr
          have hin : r ∈ db.cooldowns.rows.filter (fun r => r.identity == identity) :=
            List.mem_filter.2 ⟨hmem, by simp [hi]⟩
          obtain ⟨hpos, hfits⟩ := hvalid r hin
          refine ⟨hpos, hfits, fun hne => ?_⟩
          rw [hout]
          refine List.mem_map_of_mem (List.mem_filter.2 ⟨List.mem_map_of_mem hin, ?_⟩)
          simpa [recoveryOf] using hne

end CooldownDb

end BtSniffer
