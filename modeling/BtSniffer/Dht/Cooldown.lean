import BtSniffer.Storage.Statement

/-!
# Sampling cooldowns on disk

Reference model of `src/dht/persistence/cooldown.rs` over the `sampling_cooldowns` table.

* The pair of the `kind` and `key` columns is a `CooldownKey`: by the `CHECK`s of the table a key of
  kind 0 has 20 bytes and one of kind 1 has 4 or 16, so the pair is a node id or an address.
* `reserveSampling`, `settleSampling`, `abandonSampling` and `restoreCooldowns` are the four
  transactions.  The 16 random bytes of a reservation are an argument; `none` is a failure of the
  random source.
* `node_identities` is the list of its primary keys: the foreign key is all the cooldowns use of it.
-/

set_option autoImplicit false

namespace BtSniffer

open Relational

/-- The least duration of a reservation: six hours. -/
def RESERVATION_MS : Int := 21600000

/-- The greatest capacity of either kind. -/
def COOLDOWN_CAPACITY : Nat := 10000

/-- The 16 bytes of a lease. -/
abbrev LeaseToken := BitVec 128

/-- The `kind` and `key` columns. -/
inductive CooldownKey where
  | id (node : NodeId)
  | ip (ip : IpAddr)
  deriving DecidableEq, Repr

/-- The `kind` column. -/
def CooldownKey.kind : CooldownKey → Nat
  | .id _ => 0
  | .ip _ => 1

/-- A row of `sampling_cooldowns`. -/
structure CooldownRow where
  identity : Int
  key : CooldownKey
  lease : LeaseToken
  pending : Bool
  untilAt : Int
  durationMs : Int
  failures : Nat
  deriving DecidableEq, Repr

/-- `PRIMARY KEY(identity, kind, key)`. -/
def CooldownRow.primary (r : CooldownRow) : Int × CooldownKey := (r.identity, r.key)

/-- The `CHECK`s the column types do not enforce. -/
def CooldownRow.check (r : CooldownRow) : Bool :=
  decide (0 ≤ r.untilAt) && decide (0 < r.durationMs) && decide (r.failures ≤ 4294967295)

/-- The part of the database the cooldowns use. -/
structure CooldownDb where
  nodeIdentities : List Int
  cooldowns : Table CooldownRow CooldownRow.primary

/-- `CooldownLease`. -/
structure CooldownLease where
  durationMs : Int
  identity : Int
  id : NodeId
  ip : IpAddr
  token : LeaseToken
  deriving DecidableEq, Repr

/-- `RestoredCooldown`. -/
inductive RestoredCooldown where
  | id (node : NodeId) (remainingMs : Int) (failures : Nat)
  | ip (ip : IpAddr) (remainingMs : Int)
  deriving DecidableEq, Repr

/-! ## Statements -/

/-- The data-changing statements. -/
inductive CooldownStmt where
  /-- `reserve_sampling`: settled rows whose time has come. -/
  | deleteExpired (identity now : Int)
  | insert (row : CooldownRow)
  /-- `settle_sampling`, for one of the two keys. -/
  | settle (lease : CooldownLease) (key : CooldownKey) (untilAt durationMs : Int) (failures : Nat)
  | abandon (lease : CooldownLease)
  /-- `restore_cooldowns`: a row with no time left. -/
  | forget (identity : Int) (key : CooldownKey)
  /-- `restore_cooldowns`: a row with time left. -/
  | resume (identity : Int) (key : CooldownKey) (untilAt : Int)

/-- `identity = ?1 AND pending = 0 AND until_at <= ?2`. -/
def CooldownRow.expired (identity now : Int) (r : CooldownRow) : Bool :=
  r.identity == identity && !r.pending && decide (r.untilAt ≤ now)

/-- `identity = … AND kind = … AND key = …`. -/
def CooldownRow.at_ (identity : Int) (key : CooldownKey) (r : CooldownRow) : Bool :=
  r.identity == identity && r.key == key

/-- `WHERE` of a settlement. -/
def CooldownLease.settles (lease : CooldownLease) (key : CooldownKey) (r : CooldownRow) : Bool :=
  r.at_ lease.identity key && r.lease == lease.token && r.pending

/-- `WHERE` of an abandonment. -/
def CooldownLease.owns (lease : CooldownLease) (r : CooldownRow) : Bool :=
  r.identity == lease.identity && r.lease == lease.token && r.pending &&
    (r.key == .id lease.id || r.key == .ip lease.ip)

/-- `SET` of a settlement. -/
def CooldownRow.settled (untilAt durationMs : Int) (failures : Nat) (r : CooldownRow) :
    CooldownRow :=
  { r with pending := false, untilAt := untilAt, durationMs := durationMs, failures := failures }

/-- `SET` of a restoration. -/
def CooldownRow.resumed (untilAt : Int) (r : CooldownRow) : CooldownRow :=
  { r with pending := false, untilAt := untilAt }

theorem CooldownRow.settled_primary (untilAt durationMs : Int) (failures : Nat) (r : CooldownRow) :
    (r.settled untilAt durationMs failures).primary = r.primary := rfl

theorem CooldownRow.resumed_primary (untilAt : Int) (r : CooldownRow) :
    (r.resumed untilAt).primary = r.primary := rfl

namespace CooldownDb

/-- `INSERT INTO sampling_cooldowns`. -/
def insertRow (db : CooldownDb) (row : CooldownRow) : Except StorageError (Nat × CooldownDb) :=
  if !row.check then .error (.database .check)
  else if (db.cooldowns.get? row.primary).isSome then .error (.database .unique)
  else if row.identity ∉ db.nodeIdentities then .error (.database .foreignKey)
  else .ok (1, { db with cooldowns := db.cooldowns.insertNew row })

/-- `UPDATE sampling_cooldowns SET f WHERE p`. -/
def updateCooldowns (db : CooldownDb) (p : CooldownRow → Bool) (f : CooldownRow → CooldownRow)
    (hf : ∀ r, (f r).primary = r.primary) : Except StorageError (Nat × CooldownDb) :=
  match updateRows db.cooldowns p f hf CooldownRow.check with
  | .ok (n, t) => .ok (n, { db with cooldowns := t })
  | .error e => .error e

/-- `DELETE FROM sampling_cooldowns WHERE p`. -/
def deleteCooldowns (db : CooldownDb) (p : CooldownRow → Bool) : Nat × CooldownDb :=
  (db.cooldowns.count p, { db with cooldowns := db.cooldowns.delete p })

/-- Execute one statement. -/
def exec : CooldownStmt → CooldownDb → Except StorageError (Nat × CooldownDb)
  | .deleteExpired identity now, db => .ok (db.deleteCooldowns (CooldownRow.expired identity now))
  | .insert row, db => db.insertRow row
  | .settle lease key untilAt durationMs failures, db =>
    db.updateCooldowns (lease.settles key) (CooldownRow.settled untilAt durationMs failures)
      (CooldownRow.settled_primary untilAt durationMs failures)
  | .abandon lease, db => .ok (db.deleteCooldowns lease.owns)
  | .forget identity key, db => .ok (db.deleteCooldowns (CooldownRow.at_ identity key))
  | .resume identity key untilAt, db =>
    db.updateCooldowns (CooldownRow.at_ identity key) (CooldownRow.resumed untilAt)
      (CooldownRow.resumed_primary untilAt)

/-- The row of a key. -/
def row? (db : CooldownDb) (identity : Int) (key : CooldownKey) : Option CooldownRow :=
  db.cooldowns.get? (identity, key)

/-- `SELECT count(*) … WHERE identity = ?1 AND kind = ?2`. -/
def kindCount (db : CooldownDb) (identity : Int) (kind : Nat) : Nat :=
  db.cooldowns.count (fun r => r.identity == identity && r.key.kind == kind)

end CooldownDb

/-- A transaction body of the cooldown store. -/
abbrev CooldownScript (α : Type) := Prog CooldownDb StorageError CooldownStmt α

/-- Result and final state of a transaction body. -/
abbrev CooldownScript.run {α : Type} (p : CooldownScript α) (db : CooldownDb) :
    Except StorageError (α × CooldownDb) :=
  Prog.run CooldownDb.exec p db

/-- A transaction: commit on success, roll back on error. -/
abbrev CooldownScript.commit {α : Type} (p : CooldownScript α) (db : CooldownDb) :
    Except StorageError α × CooldownDb :=
  Prog.transact CooldownDb.exec p db

/-! ## Transactions -/

/-- `abandon_sampling`. -/
def abandonSampling (lease : CooldownLease) : CooldownScript Unit := do
  let _ ← Prog.execute (.abandon lease)

/-- One turn of the first loop of `reserve_sampling`: the key is free and its kind has room. -/
def checkFree (identity : Int) (key : CooldownKey) (capacity : Nat) : CooldownScript Unit := do
  let taken ← Prog.query (fun db => (db.row? identity key).isSome)
  if taken then .fail .cooldown
  else do
    let count ← Prog.query (fun db => db.kindCount identity key.kind)
    if capacity ≤ count then .fail .capacity else pure ()

/-- The parameters `reserve_sampling` refuses. -/
def reserveRefused (now durationMs : Int) (capacity : Nat) : Bool :=
  decide (now < 0 ∨ durationMs < RESERVATION_MS ∨ I64_MAX < now + durationMs ∨ capacity = 0 ∨
    COOLDOWN_CAPACITY < capacity)

/-- The row `reserve_sampling` inserts for a key. -/
def reservedRow (identity : Int) (key : CooldownKey) (token : LeaseToken) (now durationMs : Int) :
    CooldownRow :=
  ⟨identity, key, token, true, now + durationMs, durationMs, 0⟩

/-- `reserve_sampling`. -/
def reserveSampling (identity : Int) (id : NodeId) (ip : IpAddr) (now durationMs : Int)
    (capacity : Nat) (entropy : Option LeaseToken) : CooldownScript CooldownLease :=
  if reserveRefused now durationMs capacity then .fail (.invalid "冷却预约参数无效")
  else do
    let _ ← Prog.execute (.deleteExpired identity now)
    checkFree identity (.id id) capacity
    checkFree identity (.ip ip) capacity
    let token ← Prog.queryOrFail (fun _ => entropy.elim (.error .entropy) .ok)
    let _ ← Prog.execute (.insert (reservedRow identity (.id id) token now durationMs))
    let _ ← Prog.execute (.insert (reservedRow identity (.ip ip) token now durationMs))
    pure ⟨durationMs, identity, id, ip, token⟩

/-- The parameters `settle_sampling` refuses. -/
def settleRefused (now durationMs : Int) : Bool :=
  decide (now < 0 ∨ durationMs ≤ 0 ∨ I64_MAX < now + durationMs)

/-- `settle_sampling`. -/
def settleSampling (lease : CooldownLease) (now durationMs : Int) (failures : Nat) :
    CooldownScript Unit :=
  if settleRefused now durationMs then .fail (.invalid "冷却结算参数无效")
  else do
    let _ ← Prog.execute (.settle lease (.id lease.id) (now + durationMs) durationMs failures)
    let _ ← Prog.execute (.settle lease (.ip lease.ip) (now + durationMs) durationMs failures)

/-- The time a row still has when it is restored; a pending row may have been sent. -/
def CooldownRow.remaining (now : Int) (r : CooldownRow) : Int :=
  if r.pending then max r.durationMs RESERVATION_MS
  else max 0 (min (saturatingSub r.untilAt now) r.durationMs)

/-- `CooldownRecoveryRow`. -/
structure CooldownRecoveryRow where
  key : CooldownKey
  remainingMs : Int
  untilMs : Int
  failures : Nat
  deriving DecidableEq, Repr

/-- The recovery row of a valid row. -/
def recoveryOf (now : Int) (r : CooldownRow) : CooldownRecoveryRow :=
  ⟨r.key, r.remaining now, now + r.remaining now, r.failures⟩

/-- The body of the first loop of `restore_cooldowns`. -/
def recoveryRow (now : Int) (r : CooldownRow) : Except StorageError CooldownRecoveryRow :=
  if r.durationMs ≤ 0 ∨ r.untilAt < 0 then .error (.invalid "数据库冷却时间无效")
  else if I64_MAX < now + r.remaining now then .error (.invalid "恢复冷却溢出")
  else .ok (recoveryOf now r)

/-- The first loop: `SELECT … LIMIT 20001`, the extra row being a sentinel. -/
def recoveryRows (identity now : Int) (db : CooldownDb) :
    Except StorageError (List CooldownRecoveryRow) :=
  ((db.cooldowns.rows.filter (fun r => r.identity == identity)).take 20001).mapM (recoveryRow now)

/-- The restored value of a recovery row. -/
def CooldownRecoveryRow.restored (r : CooldownRecoveryRow) : RestoredCooldown :=
  match r.key with
  | .id node => .id node r.remainingMs r.failures
  | .ip ip => .ip ip r.remainingMs

/-- The second loop of `restore_cooldowns`. -/
def restoreLoop (identity : Int) :
    List CooldownRecoveryRow → CooldownScript (List RestoredCooldown)
  | [] => pure []
  | r :: rest =>
    if r.remainingMs = 0 then do
      let _ ← Prog.execute (.forget identity r.key)
      restoreLoop identity rest
    else do
      let _ ← Prog.execute (.resume identity r.key r.untilMs)
      let restored ← restoreLoop identity rest
      pure (r.restored :: restored)

/-- `restore_cooldowns`. -/
def restoreCooldowns (identity now : Int) : CooldownScript (List RestoredCooldown) :=
  if now < 0 then .fail (.invalid "恢复时间无效")
  else do
    let rows ← Prog.queryOrFail (recoveryRows identity now)
    if 20000 < rows.length then .fail .capacity else restoreLoop identity rows

end BtSniffer
