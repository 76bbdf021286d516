import BtSniffer.Dht.CooldownRules
import Mathlib.Data.List.Induction

/-!
# The lease protocol of the cooldowns

Runs of the four cooldown transactions, by any number of lease holders, with restorations between.

* `CooldownStep` — what one transaction can do, with the facts it relied on.
* `CooldownDb.view` — what the table says about one key of a lease; every transaction treats the two
  keys of a lease alike, so both say the same in every state (`RunInv.twins`).
* `Legal` — holders present leases they were given, and no random token repeats.
-/

set_option autoImplicit false

namespace BtSniffer

open Relational CooldownDb

/-! ## Runs -/

/-- A call of one of the four transactions. -/
inductive CooldownOp where
  | reserve (identity : Int) (id : NodeId) (ip : IpAddr) (now durationMs : Int) (capacity : Nat)
      (entropy : Option LeaseToken)
  | settle (lease : CooldownLease) (now durationMs : Int) (failures : Nat)
  | abandon (lease : CooldownLease)
  | restore (identity now : Int)

/-- The result of a call. -/
inductive CooldownReply where
  | leased (lease : CooldownLease)
  | done
  | restored (values : List RestoredCooldown)
  deriving DecidableEq, Repr

namespace CooldownOp

/-- The body of a transaction. -/
def body : CooldownOp → CooldownScript CooldownReply
  | .reserve identity id ip now durationMs capacity entropy => do
    let lease ← reserveSampling identity id ip now durationMs capacity entropy
    pure (.leased lease)
  | .settle lease now durationMs failures => do
    settleSampling lease now durationMs failures
    pure .done
  | .abandon lease => do
    abandonSampling lease
    pure .done
  | .restore identity now => do
    let values ← restoreCooldowns identity now
    pure (.restored values)

/-- A transaction: its reply and the database after it. -/
def commit (op : CooldownOp) (db : CooldownDb) : Except StorageError CooldownReply × CooldownDb :=
  op.body.commit db

/-- The database after a list of transactions. -/
def replay (ops : List CooldownOp) (db : CooldownDb) : CooldownDb :=
  ops.foldl (fun db op => (op.commit db).2) db

/-- The lease a call presents. -/
def lease : CooldownOp → Option CooldownLease
  | .settle lease .. => some lease
  | .abandon lease => some lease
  | _ => none

/-- The time a call reads from its clock. -/
def time : CooldownOp → Option Int
  | .reserve _ _ _ now .. => some now
  | .settle _ now .. => some now
  | .abandon _ => none
  | .restore _ now => some now

end CooldownOp

/-- A database with identities and no cooldowns. -/
def CooldownDb.fresh (identities : List Int) : CooldownDb := ⟨identities, .empty⟩

section Runs

variable (identities : List Int)

/-- The reply to a call after a run. -/
def cooldownReply (pre : List CooldownOp) (op : CooldownOp) : Except StorageError CooldownReply :=
  (op.commit (CooldownOp.replay pre (fresh identities))).1

/-- A reservation of the run returned the lease. -/
def Issued (ops : List CooldownOp) (lease : CooldownLease) : Prop :=
  ∃ pre op post, ops = pre ++ op :: post ∧ cooldownReply identities pre op = .ok (.leased lease)

/-- Holders present leases they were given, and no random token repeats. -/
structure Legal (ops : List CooldownOp) : Prop where
  held : ∀ pre op post lease, ops = pre ++ op :: post → op.lease = some lease →
    Issued identities pre lease
  distinct : ∀ pre op mid op' post lease lease', ops = pre ++ op :: (mid ++ op' :: post) →
    cooldownReply identities pre op = .ok (.leased lease) →
      cooldownReply identities (pre ++ op :: mid) op' = .ok (.leased lease') →
        lease.token ≠ lease'.token

end Runs

/-! ## One transaction -/

/-- What a transaction can do. -/
inductive CooldownStep (db : CooldownDb) :
    CooldownOp → Except StorageError CooldownReply → CooldownDb → Prop
  | failed {op : CooldownOp} (e : StorageError) : CooldownStep db op (.error e) db
  | reserved {identity : Int} {id : NodeId} {ip : IpAddr} {now durationMs : Int} {capacity : Nat}
      {token : LeaseToken} (accepted : reserveRefused now durationMs capacity = false)
      (roomId : (db.dropExpired identity now).HasRoom identity capacity (.id id))
      (roomIp : (db.dropExpired identity now).HasRoom identity capacity (.ip ip)) :
      CooldownStep db (.reserve identity id ip now durationMs capacity (some token))
        (.ok (.leased ⟨durationMs, identity, id, ip, token⟩))
        ((db.dropExpired identity now).reserved ⟨durationMs, identity, id, ip, token⟩ now)
  | settled {lease : CooldownLease} {now durationMs : Int} {failures : Nat}
      (accepted : settleRefused now durationMs = false) :
      CooldownStep db (.settle lease now durationMs failures) (.ok .done)
        (db.settledBy lease (now + durationMs) durationMs failures)
  | abandoned {lease : CooldownLease} :
      CooldownStep db (.abandon lease) (.ok .done) (db.abandoned lease)
  | restored {identity now : Int} {values : List RestoredCooldown} {db' : CooldownDb}
      (nonneg : 0 ≤ now) (known : db'.nodeIdentities = db.nodeIdentities)
      (rows : ∀ i k, db'.row? i k =
        if i = identity then (db.row? i k).bind (CooldownRow.recovered now) else db.row? i k)
      (fits : ∀ k r, db.row? identity k = some r →
        0 < r.durationMs ∧ now + r.remaining now ≤ I64_MAX) :
      CooldownStep db (.restore identity now) (.ok (.restored values)) db'

theorem commit_step (op : CooldownOp) (db : CooldownDb) :
    CooldownStep db op (op.commit db).1 (op.commit db).2 := by
  cases hreply : (op.commit db).1 with
  | error e =>
    have hsame : (op.commit db).2 = db := Prog.transact_error hreply
    rw [hsame]
    exact .failed e
  | ok reply =>
    have hrun : op.body.run db = .ok (reply, (op.commit db).2) := Prog.transact_ok hreply
    cases op with
    | reserve identity id ip now durationMs capacity entropy =>
      obtain ⟨lease, mid, hbody, hpure⟩ := Prog.run_bind_ok hrun
      cases hpure
      obtain ⟨haccepted, hid, hip, -, token, rfl, rfl, hdb⟩ := reserve_ok_iff.1 hbody
      rw [hdb]
      exact .reserved haccepted hid hip
    | settle lease now durationMs failures =>
      obtain ⟨u, mid, hbody, hpure⟩ := Prog.run_bind_ok hrun
      cases hpure
      obtain ⟨haccepted, hdb⟩ := settle_ok hbody
      rw [hdb]
      exact .settled haccepted
    | abandon lease =>
      obtain ⟨u, mid, hbody, hpure⟩ := Prog.run_bind_ok hrun
      cases (abandon_run lease).symm.trans hbody
      cases hpure
      exact .abandoned
    | restore identity now =>
      obtain ⟨values, mid, hbody, hpure⟩ := Prog.run_bind_ok hrun
      cases hpure
      obtain ⟨hnow, hknown, hrows, hfits⟩ := restore_ok hbody
      exact .restored hnow hknown hrows (fun k r hr => ⟨(hfits k r hr).1, (hfits k r hr).2.1⟩)

/-! ## The two keys of a lease -/

/-- The keys of a lease. -/
def CooldownLease.Holds (lease : CooldownLease) (key : CooldownKey) : Prop :=
  key = .id lease.id ∨ key = .ip lease.ip

/-- The columns a transaction may change. -/
structure LeaseView where
  pending : Bool
  untilAt : Int
  durationMs : Int
  failures : Nat
  deriving DecidableEq, Repr

/-- Settled, and its time has come. -/
def LeaseView.expired (now : Int) (v : LeaseView) : Bool := !v.pending && decide (v.untilAt ≤ now)

/-- The time it still has when it is restored. -/
def LeaseView.remaining (now : Int) (v : LeaseView) : Int :=
  if v.pending then max v.durationMs RESERVATION_MS
  else max 0 (min (saturatingSub v.untilAt now) v.durationMs)

/-- What a restoration makes of it. -/
def LeaseView.recovered (now : Int) (v : LeaseView) : Option LeaseView :=
  if v.remaining now = 0 then none
  else some ⟨false, now + v.remaining now, v.durationMs, v.failures⟩

/-- The view of a row. -/
def CooldownRow.view (r : CooldownRow) : LeaseView :=
  ⟨r.pending, r.untilAt, r.durationMs, r.failures⟩

/-- What the table says about a key of a lease. -/
def CooldownDb.view (db : CooldownDb) (lease : CooldownLease) (key : CooldownKey) :
    Option LeaseView :=
  ((db.row? lease.identity key).filter (fun r => r.lease == lease.token)).map CooldownRow.view

theorem view_eq_some {db : CooldownDb} {lease : CooldownLease} {key : CooldownKey} {v : LeaseView} :
    db.view lease key = some v ↔
      ∃ r, db.row? lease.identity key = some r ∧ r.lease = lease.token ∧ r.view = v := by
  simp only [CooldownDb.view, Option.map_eq_some_iff, Option.filter_eq_some_iff, beq_iff_eq,
    and_assoc]

section Views

variable {db db' : CooldownDb} {lease other : CooldownLease} {key : CooldownKey}

theorem owns_of_holds {r : CooldownRow} (hk : lease.Holds key)
    (hr : db.row? lease.identity key = some r) :
    lease.owns r = (r.lease == lease.token && r.pending) := by
  obtain ⟨-, hi, rfl⟩ := row?_mem.1 hr
  have hkey : (r.key == .id lease.id || r.key == .ip lease.ip) = true := by
    rcases hk with hk | hk <;> simp [hk]
  simp [CooldownLease.owns, hi, hkey]

theorem owns_other {r : CooldownRow} (h : r.lease ≠ lease.token) : lease.owns r = false := by
  simp [CooldownLease.owns, h]

theorem view_settledBy (hk : lease.Holds key) (untilAt durationMs : Int) (failures : Nat) :
    (db.settledBy lease untilAt durationMs failures).view lease key = (db.view lease key).map
      (fun v => if v.pending then ⟨false, untilAt, durationMs, failures⟩ else v) := by
  unfold CooldownDb.view
  rw [row?_settledBy]
  cases hr : db.row? lease.identity key with
  | none => rfl
  | some r =>
    have howns := owns_of_holds hk hr
    by_cases ht : r.lease = lease.token
    · cases hp : r.pending <;>
        simp [Option.filter_some, howns, ht, hp, CooldownRow.settled, CooldownRow.view]
    · simp [Option.filter_some, howns, ht]

theorem view_settledBy_other (hne : other.token ≠ lease.token) (untilAt durationMs : Int)
    (failures : Nat) : (db.settledBy other untilAt durationMs failures).view lease key =
      db.view lease key := by
  unfold CooldownDb.view
  rw [row?_settledBy]
  cases hr : db.row? lease.identity key with
  | none => rfl
  | some r =>
    by_cases ht : r.lease = lease.token
    · have hother : other.owns r = false := owns_other (by rw [ht]; exact hne.symm)
      simp [Option.filter_some, hother]
    · have hkeep : (if other.owns r = true then r.settled untilAt durationMs failures
          else r).lease = r.lease := by split <;> rfl
      simp [Option.filter_some, ht, hkeep]

theorem view_abandoned (hk : lease.Holds key) :
    (db.abandoned lease).view lease key = (db.view lease key).filter (fun v => !v.pending) := by
  unfold CooldownDb.view
  rw [row?_abandoned]
  cases hr : db.row? lease.identity key with
  | none => rfl
  | some r =>
    have howns := owns_of_holds hk hr
    by_cases ht : r.lease = lease.token
    · cases hp : r.pending <;> simp [Option.filter_some, howns, ht, hp, CooldownRow.view]
    · simp [Option.filter_some, howns, ht]

theorem view_abandoned_other (hne : other.token ≠ lease.token) :
    (db.abandoned other).view lease key = db.view lease key := by
  unfold CooldownDb.view
  rw [row?_abandoned]
  cases hr : db.row? lease.identity key with
  | none => rfl
  | some r =>
    by_cases ht : r.lease = lease.token
    · have hother : other.owns r = false := owns_other (by rw [ht]; exact hne.symm)
      simp [Option.filter_some, hother, ht]
    · by_cases ho : other.owns r = true <;> simp [Option.filter_some, ht, ho]

theorem view_dropExpired (identity now : Int) :
    (db.dropExpired identity now).view lease key = (db.view lease key).filter
      (fun v => !(lease.identity == identity && v.expired now)) := by
  unfold CooldownDb.view
  rw [row?_dropExpired]
  cases hr : db.row? lease.identity key with
  | none => rfl
  | some r =>
    obtain ⟨-, hi, -⟩ := row?_mem.1 hr
    have he : r.expired identity now = (lease.identity == identity && r.view.expired now) := by
      rw [← hi, CooldownRow.expired, Bool.and_assoc]
      rfl
    by_cases ht : r.lease = lease.token <;> by_cases hid : lease.identity = identity <;>
      cases hv : r.view.expired now <;> simp [Option.filter_some, ht, he, hid, hv]

/-- A new reservation says the same of its two keys. -/
theorem view_reserved {now : Int} (hk : lease.Holds key)
    (hnone : db.row? lease.identity (.id lease.id) = none ∧
      db.row? lease.identity (.ip lease.ip) = none) :
    (db.reserved lease now).view lease key =
      some ⟨true, now + lease.durationMs, lease.durationMs, 0⟩ := by
  unfold CooldownDb.view
  rw [row?_reserved]
  rcases hk with rfl | rfl
  · rw [hnone.1]
    simp [Option.filter_some, reservedRow, CooldownRow.view]
  · rw [hnone.2]
    simp [Option.filter_some, reservedRow, CooldownRow.view]

theorem view_reserved_other {now : Int} (hne : other.token ≠ lease.token)
    (hnone : db.row? other.identity (.id other.id) = none ∧
      db.row? other.identity (.ip other.ip) = none) :
    (db.reserved other now).view lease key = db.view lease key := by
  unfold CooldownDb.view
  rw [row?_reserved]
  by_cases hid : other.identity = lease.identity ∧ .id other.id = key
  · obtain ⟨hi, rfl⟩ := hid
    rw [← hi, hnone.1]
    simp [Option.filter_some, reservedRow, hne]
  · rw [if_neg hid, Option.or_none]
    by_cases hip : other.identity = lease.identity ∧ .ip other.ip = key
    · obtain ⟨hi, rfl⟩ := hip
      rw [← hi, hnone.2]
      simp [Option.filter_some, reservedRow, hne]
    · rw [if_neg hip, Option.or_none]

theorem view_restored {identity now : Int}
    (rows : ∀ i k, db'.row? i k =
      if i = identity then (db.row? i k).bind (CooldownRow.recovered now) else db.row? i k) :
    db'.view lease key = if lease.identity = identity then
      (db.view lease key).bind (LeaseView.recovered now) else db.view lease key := by
  unfold CooldownDb.view
  rw [rows]
  split
  · cases hr : db.row? lease.identity key with
    | none => rfl
    | some r =>
      have hrem : r.remaining now = r.view.remaining now := rfl
      have hlease : (r.resumed (now + r.view.remaining now)).lease = r.lease := rfl
      have hview : (r.resumed (now + r.view.remaining now)).view =
          ⟨false, now + r.view.remaining now, r.view.durationMs, r.view.failures⟩ := rfl
      by_cases ht : r.lease = lease.token <;> by_cases hz : r.view.remaining now = 0 <;>
        simp [Option.filter_some, CooldownRow.recovered, LeaseView.recovered, ht, hz, hrem, hlease,
          hview]
  · rfl

end Views

/-! ## Where a row comes from -/

/-- What a transaction can make of a row that stays. -/
inductive RowStep (op : CooldownOp) (r : CooldownRow) : CooldownRow → Prop
  | kept : RowStep op r r
  | settled {lease : CooldownLease} {now durationMs : Int} {failures : Nat}
      (he : op = .settle lease now durationMs failures)
      (accepted : settleRefused now durationMs = false) :
      RowStep op r (r.settled (now + durationMs) durationMs failures)
  | resumed {now : Int} (he : op = .restore r.identity now) (nonneg : 0 ≤ now)
      (left : r.remaining now ≠ 0) (fits : now + r.remaining now ≤ I64_MAX) :
      RowStep op r (r.resumed (now + r.remaining now))

theorem RowStep.lease {op : CooldownOp} {r r' : CooldownRow} (h : RowStep op r r') :
    r'.lease = r.lease := by
  cases h <;> rfl

/-- A row after a transaction is a row before it, or new with the reservation. -/
theorem step_row {db db' : CooldownDb} {op : CooldownOp} {reply : Except StorageError CooldownReply}
    (h : CooldownStep db op reply db') {i : Int} {k : CooldownKey} {r' : CooldownRow}
    (hr' : db'.row? i k = some r') :
    (∃ r, db.row? i k = some r ∧ RowStep op r r') ∨
      ∃ lease now capacity entropy, op = .reserve i lease.id lease.ip now lease.durationMs capacity
          entropy ∧ reply = .ok (.leased lease) ∧ lease.identity = i ∧ lease.Holds k ∧
        reserveRefused now lease.durationMs capacity = false ∧
        r' = reservedRow i k lease.token now lease.durationMs := by
  cases h with
  | failed e => exact .inl ⟨r', hr', .kept⟩
  | @reserved identity id ip now durationMs capacity token accepted roomId roomIp =>
    rw [row?_reserved, row?_dropExpired] at hr'
    rcases Option.or_eq_some_iff.1 hr' with hold | ⟨-, hip⟩
    · rcases Option.or_eq_some_iff.1 hold with hkept | ⟨-, hid⟩
      · exact .inl ⟨r', (Option.filter_eq_some_iff.1 hkept).1, .kept⟩
      · split at hid
        · rename_i hkey
          obtain ⟨rfl, rfl⟩ := hkey
          cases hid
          exact .inr ⟨_, now, capacity, _, rfl, rfl, rfl, .inl rfl, accepted, rfl⟩
        · cases hid
    · split at hip
      · rename_i hkey
        obtain ⟨rfl, rfl⟩ := hkey
        cases hip
        exact .inr ⟨_, now, capacity, _, rfl, rfl, rfl, .inr rfl, accepted, rfl⟩
      · cases hip
  | settled accepted =>
    rw [row?_settledBy] at hr'
    obtain ⟨r, hr, rfl⟩ := Option.map_eq_some_iff.1 hr'
    refine .inl ⟨r, hr, ?_⟩
    split
    · exact .settled rfl accepted
    · exact .kept
  | abandoned =>
    rw [row?_abandoned] at hr'
    exact .inl ⟨r', (Option.filter_eq_some_iff.1 hr').1, .kept⟩
  | @restored identity now values db' nonneg known rows fits =>
    rw [rows] at hr'
    split at hr'
    · rename_i hi
      subst hi
      obtain ⟨r, hr, hrec⟩ := Option.bind_eq_some_iff.1 hr'
      unfold CooldownRow.recovered at hrec
      split at hrec
      · cases hrec
      · rename_i hleft
        cases hrec
        obtain ⟨-, hri, -⟩ := row?_mem.1 hr
        exact .inl ⟨r, hr, .resumed (by rw [hri]) nonneg hleft (fits k r hr).2⟩
    · exact .inl ⟨r', hr', .kept⟩

/-! ## Invariants -/

/-- What holds of the columns of every row. -/
structure CooldownRow.Valid (r : CooldownRow) : Prop where
  nonneg : 0 ≤ r.untilAt
  fits : r.untilAt ≤ I64_MAX
  positive : 0 < r.durationMs
  long : r.pending = true → RESERVATION_MS ≤ r.durationMs

theorem remaining_nonneg (now : Int) (r : CooldownRow) : 0 ≤ r.remaining now := by
  unfold CooldownRow.remaining RESERVATION_MS
  split <;> omega

theorem RowStep.valid {op : CooldownOp} {r r' : CooldownRow} (h : RowStep op r r')
    (hr : r.Valid) : r'.Valid := by
  cases h with
  | kept => exact hr
  | settled he accepted =>
    unfold settleRefused at accepted
    have haccepted := of_decide_eq_false accepted
    refine ⟨?_, ?_, ?_, fun hp => by cases hp⟩ <;> simp only [CooldownRow.settled] <;> omega
  | @resumed now he nonneg left fits =>
    have := remaining_nonneg now r
    refine ⟨?_, fits, hr.positive, fun hp => by cases hp⟩
    simp only [CooldownRow.resumed]
    omega

theorem reservedRow_valid {identity : Int} {key : CooldownKey} {token : LeaseToken}
    {now durationMs : Int} {capacity : Nat} (h : reserveRefused now durationMs capacity = false) :
    (reservedRow identity key token now durationMs).Valid := by
  obtain ⟨hnow, hduration, hfits, -⟩ := reserve_accepted.1 h
  refine ⟨?_, hfits, ?_, fun _ => hduration⟩ <;> unfold RESERVATION_MS at hduration <;>
    simp only [reservedRow] <;> omega

variable {identities : List Int}

/-- What holds of the table after a legal run. -/
structure RunInv (identities : List Int) (ops : List CooldownOp) (db : CooldownDb) : Prop where
  /-- Every row belongs to a lease that was given out. -/
  origin : ∀ i k r, db.row? i k = some r →
    ∃ lease, Issued identities ops lease ∧ r.lease = lease.token ∧ lease.identity = i ∧ lease.Holds k
  /-- The two keys of a lease say the same. -/
  twins : ∀ lease, Issued identities ops lease →
    db.view lease (.id lease.id) = db.view lease (.ip lease.ip)
  valid : ∀ i k r, db.row? i k = some r → r.Valid

theorem Issued.append {ops : List CooldownOp} {lease : CooldownLease}
    (h : Issued identities ops lease) (more : List CooldownOp) :
    Issued identities (ops ++ more) lease := by
  obtain ⟨pre, op, post, rfl, hreply⟩ := h
  exact ⟨pre, op, post ++ more, by simp, hreply⟩

/-- A lease given out by the last call, or before it. -/
theorem issued_snoc {pre : List CooldownOp} {op : CooldownOp} {lease : CooldownLease}
    (h : Issued identities (pre ++ [op]) lease) :
    Issued identities pre lease ∨ cooldownReply identities pre op = .ok (.leased lease) := by
  obtain ⟨p, o, q, he, hreply⟩ := h
  rcases List.eq_nil_or_concat q with rfl | ⟨q, last, rfl⟩
  · obtain ⟨rfl, hop⟩ := List.append_inj' he rfl
    cases hop
    exact .inr hreply
  · have he' : pre ++ [op] = (p ++ o :: q) ++ [last] := by simpa using he
    obtain ⟨rfl, -⟩ := List.append_inj' he' rfl
    exact .inl ⟨p, o, q, rfl, hreply⟩

theorem Legal.of_append {pre post : List CooldownOp} (h : Legal identities (pre ++ post)) :
    Legal identities pre where
  held := by
    rintro p op q lease rfl hl
    exact h.held p op (q ++ post) lease (by simp) hl
  distinct := by
    rintro p op mid op' q lease lease' rfl hl hl'
    exact h.distinct p op mid op' (q ++ post) lease lease' (by simp) hl hl'

/-- A new lease has a new token. -/
theorem Legal.fresh_token {pre : List CooldownOp} {op : CooldownOp} {lease lease' : CooldownLease}
    (h : Legal identities (pre ++ [op])) (hold : Issued identities pre lease)
    (hnew : cooldownReply identities pre op = .ok (.leased lease')) : lease'.token ≠ lease.token := by
  obtain ⟨p, o, q, rfl, hreply⟩ := hold
  exact (h.distinct p o q op [] lease lease' (by simp) hreply hnew).symm

/-- A token determines its lease. -/
theorem Legal.eq_of_token {ops : List CooldownOp} (h : Legal identities ops) :
    ∀ {lease lease' : CooldownLease}, Issued identities ops lease → Issued identities ops lease' →
      lease.token = lease'.token → lease = lease' := by
  induction ops using List.reverseRecOn with
  | nil =>
    rintro lease lease' ⟨p, op, q, he, -⟩
    simp at he
  | append_singleton pre op ih =>
    intro lease lease' hl hl' ht
    rcases issued_snoc hl with hl | hl <;> rcases issued_snoc hl' with hl' | hl'
    · exact ih h.of_append hl hl' ht
    · exact absurd ht.symm (h.fresh_token hl hl')
    · exact absurd ht (h.fresh_token hl' hl)
    · rw [hl] at hl'
      cases hl'
      rfl

theorem replay_snoc (pre : List CooldownOp) (op : CooldownOp) (db : CooldownDb) :
    CooldownOp.replay (pre ++ [op]) db = (op.commit (CooldownOp.replay pre db)).2 := by
  simp [CooldownOp.replay]

end BtSniffer
