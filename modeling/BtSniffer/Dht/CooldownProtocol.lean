import BtSniffer.Dht.CooldownRun

/-!
# Leases and restarts

* `Legal.runInv` — the invariant of the table after every legal run.
* `Dead` — no row is pending for a lease; it stays so, and settling or abandoning it changes nothing.
* `cooldown_protocol` — the lease protocol, whatever the order of the calls.
-/

set_option autoImplicit false

namespace BtSniffer

open Relational CooldownDb

variable {identities : List Int}

/-! ## The invariant -/

/-- **One call keeps the invariant.** -/
theorem RunInv.step {pre : List CooldownOp} {op : CooldownOp} {db : CooldownDb}
    (hlegal : Legal identities (pre ++ [op])) (hdb : db = CooldownOp.replay pre (fresh identities))
    (h : RunInv identities pre db) : RunInv identities (pre ++ [op]) (op.commit db).2 := by
  have hreply : cooldownReply identities pre op = (op.commit db).1 := by rw [hdb]; rfl
  have hstep := commit_step op db
  refine ⟨?_, ?_, ?_⟩
  · intro i k r' hr'
    rcases step_row hstep hr' with ⟨r, hr, hrow⟩ | ⟨lease, now, capacity, entropy, -, hnew, hi, hk, -, rfl⟩
    · obtain ⟨lease, hissued, ht, hi, hk⟩ := h.origin i k r hr
      exact ⟨lease, hissued.append [op], hrow.lease.trans ht, hi, hk⟩
    · exact ⟨lease, ⟨pre, op, [], rfl, hreply.trans hnew⟩, rfl, hi, hk⟩
  · intro lease hissued
    rcases issued_snoc hissued with hold | hnew
    · have htwins := h.twins lease hold
      have hheld : ∀ other, op.lease = some other → other.token = lease.token → other = lease :=
        fun other ho ht => hlegal.of_append.eq_of_token (hlegal.held pre op [] other rfl ho) hold ht
      have hother : ∀ other, (op.commit db).1 = .ok (.leased other) → other.token ≠ lease.token :=
        fun other ho => hlegal.fresh_token hold (hreply.trans ho)
      generalize (op.commit db).1 = reply at hstep hother
      generalize (op.commit db).2 = db' at hstep
      cases hstep with
      | failed e => exact htwins
      | reserved accepted roomId roomIp =>
        have hne := hother _ rfl
        rw [view_reserved_other hne ⟨roomId.1, roomIp.1⟩, view_reserved_other hne ⟨roomId.1, roomIp.1⟩,
          view_dropExpired, view_dropExpired, htwins]
      | @settled other now durationMs failures accepted =>
        by_cases ht : other.token = lease.token
        · cases hheld other rfl ht
          rw [view_settledBy (.inl rfl), view_settledBy (.inr rfl), htwins]
        · rw [view_settledBy_other ht, view_settledBy_other ht, htwins]
      | @abandoned other =>
        by_cases ht : other.token = lease.token
        · cases hheld other rfl ht
          rw [view_abandoned (.inl rfl), view_abandoned (.inr rfl), htwins]
        · rw [view_abandoned_other ht, view_abandoned_other ht, htwins]
      | restored nonneg known rows fits =>
        rw [view_restored rows, view_restored rows, htwins]
    · rw [hreply] at hnew
      generalize (op.commit db).1 = reply at hstep hnew
      generalize (op.commit db).2 = db' at hstep
      cases hstep with
      | reserved accepted roomId roomIp =>
        cases hnew
        rw [view_reserved (.inl rfl) ⟨roomId.1, roomIp.1⟩,
          view_reserved (.inr rfl) ⟨roomId.1, roomIp.1⟩]
      | _ => cases hnew
  · intro i k r' hr'
    rcases step_row hstep hr' with ⟨r, hr, hrow⟩ | ⟨lease, now, capacity, entropy, -, -, -, -, haccepted, rfl⟩
    · exact hrow.valid (h.valid i k r hr)
    · exact reservedRow_valid haccepted

/-- **The table after a legal run.** -/
theorem Legal.runInv {ops : List CooldownOp} (h : Legal identities ops) :
    RunInv identities ops (CooldownOp.replay ops (fresh identities)) := by
  induction ops using List.reverseRecOn with
  | nil =>
    refine ⟨fun i k r hr => (by cases hr), ?_, fun i k r hr => (by cases hr)⟩
    rintro lease ⟨p, op, q, he, -⟩
    simp at he
  | append_singleton pre op ih =>
    rw [replay_snoc]
    exact (ih h.of_append).step h rfl

/-! ## Dead leases -/

/-- No row is pending for the lease. -/
def Dead (lease : CooldownLease) (db : CooldownDb) : Prop :=
  ∀ k, lease.Holds k → ∀ v, db.view lease k = some v → v.pending = false

theorem Dead.owns {lease : CooldownLease} {db : CooldownDb} (h : Dead lease db) :
    ∀ r ∈ db.cooldowns.rows, lease.owns r = false := by
  intro r hr
  by_contra howns
  have howns' : lease.owns r = true := by simpa using howns
  simp only [CooldownLease.owns, Bool.and_eq_true, Bool.or_eq_true, beq_iff_eq] at howns'
  obtain ⟨⟨⟨hi, ht⟩, hp⟩, hk⟩ := howns'
  have hview : db.view lease r.key = some r.view :=
    view_eq_some.2 ⟨r, hi ▸ row?_of_mem hr, ht, rfl⟩
  have := h r.key hk _ hview
  rw [show r.view.pending = r.pending from rfl, hp] at this
  cases this

/-- A dead lease changes nothing. -/
theorem Dead.unchanged {lease : CooldownLease} {db : CooldownDb} (h : Dead lease db)
    {op : CooldownOp} (hop : op.lease = some lease) : (op.commit db).2 = db := by
  have hstep := commit_step op db
  generalize (op.commit db).1 = reply at hstep
  generalize (op.commit db).2 = db' at hstep ⊢
  cases hstep with
  | failed e => rfl
  | settled accepted =>
    cases hop
    unfold settledBy
    rw [Table.update_eq_self]
    intro r hr howns
    rw [h.owns r hr] at howns
    cases howns
  | abandoned =>
    cases hop
    unfold CooldownDb.abandoned
    rw [Table.delete_eq_self h.owns]
  | _ => cases hop

/-- A dead lease stays dead. -/
theorem Dead.step {pre : List CooldownOp} {op : CooldownOp} {lease : CooldownLease}
    {db : CooldownDb} (hlegal : Legal identities (pre ++ [op]))
    (hdb : db = CooldownOp.replay pre (fresh identities)) (hissued : Issued identities pre lease)
    (h : Dead lease db) : Dead lease (op.commit db).2 := by
  have hreply : cooldownReply identities pre op = (op.commit db).1 := by rw [hdb]; rfl
  have hother : ∀ other, (op.commit db).1 = .ok (.leased other) → other.token ≠ lease.token :=
    fun other ho => hlegal.fresh_token hissued (hreply.trans ho)
  by_cases hop : op.lease = some lease
  · rw [h.unchanged hop]
    exact h
  · have hheld : ∀ other, op.lease = some other → other.token ≠ lease.token := by
      intro other ho ht
      rw [hlegal.of_append.eq_of_token (hlegal.held pre op [] other rfl ho) hissued ht] at ho
      exact hop ho
    have hstep := commit_step op db
    generalize (op.commit db).1 = reply at hstep hother
    generalize (op.commit db).2 = db' at hstep ⊢
    intro k hk v hv
    cases hstep with
    | failed e => exact h k hk v hv
    | reserved accepted roomId roomIp =>
      rw [view_reserved_other (hother _ rfl) ⟨roomId.1, roomIp.1⟩, view_dropExpired] at hv
      exact h k hk v (Option.filter_eq_some_iff.1 hv).1
    | settled accepted =>
      rw [view_settledBy_other (hheld _ rfl)] at hv
      exact h k hk v hv
    | abandoned =>
      rw [view_abandoned_other (hheld _ rfl)] at hv
      exact h k hk v hv
    | restored nonneg known rows fits =>
      rw [view_restored rows] at hv
      split at hv
      · obtain ⟨w, -, hw⟩ := Option.bind_eq_some_iff.1 hv
        unfold LeaseView.recovered at hw
        split at hw
        · cases hw
        · cases hw
          rfl
      · exact h k hk v hv

theorem Dead.run {pre post : List CooldownOp} {lease : CooldownLease}
    (hlegal : Legal identities (pre ++ post)) (hissued : Issued identities pre lease)
    (h : Dead lease (CooldownOp.replay pre (fresh identities))) :
    Dead lease (CooldownOp.replay (pre ++ post) (fresh identities)) := by
  induction post using List.reverseRecOn with
  | nil => rwa [List.append_nil]
  | append_singleton post op ih =>
    rw [← List.append_assoc] at hlegal ⊢
    rw [replay_snoc]
    exact (ih hlegal.of_append).step hlegal rfl (hissued.append post)

/-! ## What ends a lease -/

/-- A call that ends a lease: the lease was settled or abandoned, its identity was restored, or one
of its keys was reserved again. -/
def Ends (lease : CooldownLease) (op : CooldownOp) (reply : CooldownReply) : Prop :=
  op.lease = some lease ∨ (∃ now, op = .restore lease.identity now) ∨
    ∃ later, reply = .leased later ∧ later.identity = lease.identity ∧
      (later.id = lease.id ∨ later.ip = lease.ip)

/-- After the call that ends it, a lease is dead. -/
theorem dead_of_ends {pre : List CooldownOp} {op : CooldownOp} {lease : CooldownLease}
    {reply : CooldownReply} (hlegal : Legal identities (pre ++ [op]))
    (hissued : Issued identities pre lease) (hreply : cooldownReply identities pre op = .ok reply)
    (hends : Ends lease op reply) :
    Dead lease (CooldownOp.replay (pre ++ [op]) (fresh identities)) := by
  have hinv := hlegal.runInv
  rw [replay_snoc] at hinv ⊢
  have htwins := hinv.twins lease (hissued.append [op])
  have hother : ∀ other, reply = .leased other → other.token ≠ lease.token :=
    fun other ho => hlegal.fresh_token hissued (ho ▸ hreply)
  have hstep := commit_step op (CooldownOp.replay pre (fresh identities))
  change (op.commit (CooldownOp.replay pre (fresh identities))).1 = .ok reply at hreply
  rw [hreply] at hstep
  generalize (op.commit (CooldownOp.replay pre (fresh identities))).2 = db' at hstep htwins ⊢
  intro k hk v hv
  cases hstep with
  | @reserved identity id ip now durationMs capacity token accepted roomId roomIp =>
    obtain he | ⟨t, he⟩ | ⟨later, hlater, hi, hkey⟩ := hends
    · cases he
    · cases he
    · cases hlater
      have hne := hother _ rfl
      -- the shared key carries the new token, so the lease has neither key
      have hshared : ∀ key, CooldownLease.Holds ⟨durationMs, identity, id, ip, token⟩ key →
          (((CooldownOp.replay pre (fresh identities)).dropExpired identity now).reserved
            ⟨durationMs, identity, id, ip, token⟩ now).view lease key = none := by
        intro key hkey'
        obtain ⟨r, hr, ht, -⟩ := view_eq_some.1 (view_reserved hkey' ⟨roomId.1, roomIp.1⟩)
        rw [Option.eq_none_iff_forall_ne_some]
        intro w hw
        obtain ⟨r', hr', ht', -⟩ := view_eq_some.1 hw
        rw [← hi, hr] at hr'
        cases hr'
        exact hne (ht.symm.trans ht')
      rcases hkey with hid | hip
      · have hnone := hshared (.id lease.id) (.inl (by rw [← hid]))
        rcases hk with rfl | rfl
        · rw [hnone] at hv
          cases hv
        · rw [← htwins, hnone] at hv
          cases hv
      · have hnone := hshared (.ip lease.ip) (.inr (by rw [← hip]))
        rcases hk with rfl | rfl
        · rw [htwins, hnone] at hv
          cases hv
        · rw [hnone] at hv
          cases hv
  | settled accepted =>
    obtain he | ⟨t, he⟩ | ⟨later, he, -⟩ := hends
    · cases he
      rw [view_settledBy hk] at hv
      obtain ⟨w, -, rfl⟩ := Option.map_eq_some_iff.1 hv
      split
      · rfl
      · simpa using ‹¬ w.pending = true›
    · cases he
    · cases he
  | abandoned =>
    obtain he | ⟨t, he⟩ | ⟨later, he, -⟩ := hends
    · cases he
      rw [view_abandoned hk] at hv
      simpa using (Option.filter_eq_some_iff.1 hv).2
    · cases he
    · cases he
  | restored nonneg known rows fits =>
    obtain he | ⟨t, he⟩ | ⟨later, he, -⟩ := hends
    · cases he
    · cases he
      rw [view_restored rows, if_pos rfl] at hv
      obtain ⟨w, -, hw⟩ := Option.bind_eq_some_iff.1 hv
      unfold LeaseView.recovered at hw
      split at hw
      · cases hw
      · cases hw
        rfl
    · cases he

/-- A reservation that was ended before. -/
def Ended (identities : List Int) (ops : List CooldownOp) (lease : CooldownLease) : Prop :=
  ∃ pre op post reply, ops = pre ++ op :: post ∧ Issued identities pre lease ∧
    cooldownReply identities pre op = .ok reply ∧ Ends lease op reply

theorem Ended.dead {ops : List CooldownOp} {lease : CooldownLease} (h : Ended identities ops lease)
    (hlegal : Legal identities ops) :
    Dead lease (CooldownOp.replay ops (fresh identities)) := by
  obtain ⟨pre, op, post, reply, rfl, hissued, hreply, hends⟩ := h
  have hsplit : pre ++ op :: post = (pre ++ [op]) ++ post := by simp
  rw [hsplit] at hlegal ⊢
  exact Dead.run hlegal (hissued.append [op])
    (dead_of_ends hlegal.of_append hissued hreply hends)

/-- A lease leaves the rows of other reservations alone. -/
theorem row?_of_other {db : CooldownDb} {op : CooldownOp} {lease : CooldownLease}
    (hop : op.lease = some lease) {i : Int} {k : CooldownKey} {r : CooldownRow}
    (hr : db.row? i k = some r) (hne : r.lease ≠ lease.token) :
    (op.commit db).2.row? i k = some r := by
  have hstep := commit_step op db
  generalize (op.commit db).1 = reply at hstep
  generalize (op.commit db).2 = db' at hstep ⊢
  cases hstep with
  | failed e => exact hr
  | settled accepted =>
    cases hop
    simp [hr, owns_other hne]
  | abandoned =>
    cases hop
    simp [hr, Option.filter_some, owns_other hne]
  | _ => cases hop

/-! ## Capacity -/

theorem kindCount_withRow {db : CooldownDb} {row : CooldownRow} {identity : Int} {kind : Nat}
    (hnone : db.row? row.identity row.key = none) :
    (db.withRow row).kindCount identity kind =
      db.kindCount identity kind + if row.identity = identity ∧ row.key.kind = kind then 1 else 0 := by
  unfold kindCount withRow
  rw [Table.count_insertNew hnone]
  simp only [Bool.and_eq_true, beq_iff_eq]

theorem ite_le_one (p : Prop) [Decidable p] : (if p then 1 else 0) ≤ 1 := by
  split <;> omega

/-- A reservation leaves at most `capacity` rows of either kind. -/
theorem kindCount_reserved {db : CooldownDb} {lease : CooldownLease} {now : Int} {capacity : Nat}
    (roomId : db.HasRoom lease.identity capacity (.id lease.id))
    (roomIp : db.HasRoom lease.identity capacity (.ip lease.ip)) (key : CooldownKey) :
    (db.reserved lease now).kindCount lease.identity key.kind ≤ capacity := by
  have hid := roomId.2
  have hip := roomIp.2
  unfold CooldownDb.reserved
  rw [kindCount_withRow (row?_ip_withRow _ _ _ _ roomIp.1), kindCount_withRow roomId.1]
  cases key with
  | id node =>
    have hno : ¬ (CooldownKey.ip lease.ip).kind = (CooldownKey.id node).kind := Nat.one_ne_zero
    simp only [reservedRow, hno, and_false, if_false, Nat.add_zero]
    apply le_trans (Nat.add_le_add_left (ite_le_one _) _)
    exact hid
  | ip ip =>
    have hno : ¬ (CooldownKey.id lease.id).kind = (CooldownKey.ip ip).kind := Nat.zero_ne_one
    simp only [reservedRow, hno, and_false, if_false, Nat.add_zero]
    apply le_trans (Nat.add_le_add_left (ite_le_one _) _)
    exact hip

/-! ## Restarts -/

/-- What a restoration makes of a row, in terms of its columns. -/
theorem recovered_eq {r : CooldownRow} {now : Int} (hr : r.Valid) (hnow : 0 ≤ now)
    (hfits : now + r.remaining now ≤ I64_MAX) : r.recovered now =
      if r.pending then
        some { r with pending := false, untilAt := now + max r.durationMs RESERVATION_MS }
      else if r.untilAt ≤ now then none
      else some { r with pending := false, untilAt := min r.untilAt (now + r.durationMs) } := by
  have hleft := remaining_nonneg now r
  have hpos := hr.positive
  have hlow := hr.nonneg
  have hhigh := hr.fits
  -- both operands are non-negative `i64`s, so the difference does not saturate
  have hexact : saturatingSub r.untilAt now = r.untilAt - now := by
    unfold saturatingSub I64_MIN
    unfold I64_MAX at hhigh hfits ⊢
    omega
  unfold CooldownRow.recovered CooldownRow.resumed
  unfold CooldownRow.remaining RESERVATION_MS at *
  rw [hexact] at *
  by_cases hp : r.pending = true
  · rw [if_pos hp, if_pos hp, if_neg (by omega)]
  · rw [if_neg hp, if_neg hp]
    by_cases hdue : r.untilAt ≤ now
    · rw [if_pos hdue, if_pos (by omega)]
    · have huntil : now + max 0 (min (r.untilAt - now) r.durationMs) =
          min r.untilAt (now + r.durationMs) := by omega
      rw [if_neg hdue, if_neg (by omega), huntil]

/-- Every row ends at most its duration after some call of the run. -/
def EndsInTime (ops : List CooldownOp) (db : CooldownDb) : Prop :=
  ∀ i k r, db.row? i k = some r → ∃ t ∈ ops.filterMap CooldownOp.time, r.untilAt ≤ t + r.durationMs

theorem Legal.endsInTime {ops : List CooldownOp} (h : Legal identities ops) :
    EndsInTime ops (CooldownOp.replay ops (fresh identities)) := by
  induction ops using List.reverseRecOn with
  | nil => exact fun i k r hr => by cases hr
  | append_singleton pre op ih =>
    have hvalid := h.of_append.runInv.valid
    have hpre := ih h.of_append
    rw [replay_snoc]
    intro i k r' hr'
    have hsnoc : ∀ t ∈ pre.filterMap CooldownOp.time,
        t ∈ (pre ++ [op]).filterMap CooldownOp.time := by
      intro t ht
      rw [List.filterMap_append]
      exact List.mem_append_left _ ht
    have hlast : ∀ t, op.time = some t → t ∈ (pre ++ [op]).filterMap CooldownOp.time := by
      intro t ht
      rw [List.filterMap_append]
      exact List.mem_append_right _ (by simp [ht])
    rcases step_row (commit_step op _) hr' with ⟨r, hr, hrow⟩ | ⟨lease, now, capacity, entropy, he, -, -, -, -, rfl⟩
    · obtain ⟨t, ht, hle⟩ := hpre i k r hr
      cases hrow with
      | kept => exact ⟨t, hsnoc t ht, hle⟩
      | @settled lease now durationMs failures he accepted =>
        exact ⟨now, hlast now (by rw [he]; rfl), le_refl _⟩
      | @resumed now he nonneg left fits =>
        refine ⟨now, hlast now (by rw [he]; rfl), ?_⟩
        have hlong := (hvalid i k r hr).long
        have hpos := (hvalid i k r hr).positive
        simp only [CooldownRow.resumed, CooldownRow.remaining]
        split
        · rename_i hp
          have := hlong hp
          omega
        · omega
    · exact ⟨now, hlast now (by rw [he]; rfl), le_refl _⟩

/-- With clocks that do not go back, a restoration does not cut a row short. -/
theorem min_until {pre : List CooldownOp} {identity now : Int} {i : Int} {k : CooldownKey}
    {r : CooldownRow} (hlegal : Legal identities pre)
    (hsorted : ((pre ++ [CooldownOp.restore identity now]).filterMap CooldownOp.time).Pairwise (· ≤ ·))
    (hr : (CooldownOp.replay pre (fresh identities)).row? i k = some r) :
    min r.untilAt (now + r.durationMs) = r.untilAt := by
  obtain ⟨t, ht, hle⟩ := hlegal.endsInTime i k r hr
  rw [List.filterMap_append, List.pairwise_append] at hsorted
  have hnow : t ≤ now := hsorted.2.2 t ht now (by simp [CooldownOp.time])
  omega

/-! ## The protocol -/

/-- A reservation that returned its lease. -/
theorem reserve_leased {db : CooldownDb} {identity : Int} {id : NodeId} {ip : IpAddr}
    {now durationMs : Int} {capacity : Nat} {entropy : Option LeaseToken} {lease : CooldownLease}
    (h : ((CooldownOp.reserve identity id ip now durationMs capacity entropy).commit db).1 =
      .ok (.leased lease)) :
    (∃ token, lease = ⟨durationMs, identity, id, ip, token⟩) ∧
      (db.dropExpired identity now).HasRoom identity capacity (.id id) ∧
      (db.dropExpired identity now).HasRoom identity capacity (.ip ip) ∧
      ((CooldownOp.reserve identity id ip now durationMs capacity entropy).commit db).2 =
        (db.dropExpired identity now).reserved lease now := by
  have hstep := commit_step (.reserve identity id ip now durationMs capacity entropy) db
  rw [h] at hstep
  generalize ((CooldownOp.reserve identity id ip now durationMs capacity entropy).commit db).2 = db'
    at hstep
  cases hstep with
  | @reserved _ _ _ _ _ _ token accepted roomId roomIp => exact ⟨⟨token, rfl⟩, roomId, roomIp, rfl⟩

/-- A settlement that was applied. -/
theorem settle_done {db : CooldownDb} {lease : CooldownLease} {now durationMs : Int} {failures : Nat}
    (h : ((CooldownOp.settle lease now durationMs failures).commit db).1 = .ok .done) :
    ((CooldownOp.settle lease now durationMs failures).commit db).2 =
      db.settledBy lease (now + durationMs) durationMs failures := by
  have hstep := commit_step (.settle lease now durationMs failures) db
  rw [h] at hstep
  generalize ((CooldownOp.settle lease now durationMs failures).commit db).2 = db' at hstep
  cases hstep with
  | settled accepted => rfl

theorem reserve_leased_iff {db : CooldownDb} {identity : Int} {id : NodeId} {ip : IpAddr}
    {now durationMs : Int} {capacity : Nat} {entropy : Option LeaseToken} :
    (∃ lease, ((CooldownOp.reserve identity id ip now durationMs capacity entropy).commit db).1 =
        .ok (.leased lease)) ↔
      reserveRefused now durationMs capacity = false ∧ entropy.isSome = true ∧
        identity ∈ db.nodeIdentities ∧
        (db.dropExpired identity now).HasRoom identity capacity (.id id) ∧
        (db.dropExpired identity now).HasRoom identity capacity (.ip ip) := by
  constructor
  · rintro ⟨lease, hreply⟩
    obtain ⟨l, mid, hbody, hpure⟩ := Prog.run_bind_ok (Prog.transact_ok hreply)
    obtain ⟨haccepted, hid, hip, hknown, token, rfl, -, -⟩ := reserve_ok_iff.1 hbody
    exact ⟨haccepted, rfl, hknown, hid, hip⟩
  · rintro ⟨haccepted, hsome, hknown, hid, hip⟩
    obtain ⟨token, rfl⟩ := Option.isSome_iff_exists.1 hsome
    have hbody := reserve_ok_iff.2
      ⟨haccepted, hid, hip, hknown, token, rfl, rfl, rfl⟩
    refine ⟨⟨durationMs, identity, id, ip, token⟩, ?_⟩
    unfold CooldownOp.commit CooldownScript.commit Prog.transact CooldownOp.body
    rw [Prog.run_bind_of_ok hbody]
    rfl

/-- **The lease protocol.**  In every legal run from an empty table, with late and duplicate calls
and with restarts anywhere:

* a settlement or an abandonment with a lease that was ended changes nothing, and with any lease it
  leaves the rows of other reservations alone;
* the two keys of a lease say the same in every state, are inserted with its reservation, and are
  settled or deleted together;
* a reservation succeeds exactly if its parameters are accepted and, without the settled rows whose
  time has come, both keys are free and both kinds have room; every error leaves the table as it was;
* after a reservation there are at most `capacity` rows of either kind;
* a restoration gives a pending row at least six hours from now, keeps a settled row until its time
  (at most its duration from now, which cuts nothing short if clocks do not go back) and touches no
  other identity. -/
theorem cooldown_protocol (identities : List Int) :
    (∀ pre op lease, Legal identities (pre ++ [op]) → op.lease = some lease →
      (Ended identities pre lease →
        (op.commit (CooldownOp.replay pre (fresh identities))).2 =
          CooldownOp.replay pre (fresh identities)) ∧
      ∀ i k r, (CooldownOp.replay pre (fresh identities)).row? i k = some r →
        r.lease ≠ lease.token →
          (op.commit (CooldownOp.replay pre (fresh identities))).2.row? i k = some r) ∧
    (∀ ops lease, Legal identities ops → Issued identities ops lease →
      (CooldownOp.replay ops (fresh identities)).view lease (.id lease.id) =
        (CooldownOp.replay ops (fresh identities)).view lease (.ip lease.ip)) ∧
    (∀ (db : CooldownDb) (lease : CooldownLease) key, lease.Holds key →
      (∀ identity id ip now durationMs capacity entropy,
        ((CooldownOp.reserve identity id ip now durationMs capacity entropy).commit db).1 =
            .ok (.leased lease) →
          ((CooldownOp.reserve identity id ip now durationMs capacity entropy).commit db).2.view
            lease key = some ⟨true, now + durationMs, durationMs, 0⟩) ∧
      (∀ now durationMs failures,
        ((CooldownOp.settle lease now durationMs failures).commit db).1 = .ok .done →
          ((CooldownOp.settle lease now durationMs failures).commit db).2.view lease key =
            (db.view lease key).map (fun v =>
              if v.pending then ⟨false, now + durationMs, durationMs, failures⟩ else v)) ∧
      ((CooldownOp.abandon lease).commit db).2.view lease key =
        (db.view lease key).filter (fun v => !v.pending)) ∧
    (∀ (db : CooldownDb) identity id ip now durationMs capacity entropy,
      ((∃ lease,
          ((CooldownOp.reserve identity id ip now durationMs capacity entropy).commit db).1 =
            .ok (.leased lease)) ↔
        reserveRefused now durationMs capacity = false ∧ entropy.isSome = true ∧
          identity ∈ db.nodeIdentities ∧
          (db.dropExpired identity now).HasRoom identity capacity (.id id) ∧
          (db.dropExpired identity now).HasRoom identity capacity (.ip ip)) ∧
      (∀ lease (key : CooldownKey),
        ((CooldownOp.reserve identity id ip now durationMs capacity entropy).commit db).1 =
            .ok (.leased lease) →
          ((CooldownOp.reserve identity id ip now durationMs capacity entropy).commit db).2.kindCount
            identity key.kind ≤ capacity)) ∧
    (∀ (db : CooldownDb) (op : CooldownOp) e, (op.commit db).1 = .error e → (op.commit db).2 = db) ∧
    (∀ pre identity now values, Legal identities (pre ++ [.restore identity now]) →
      cooldownReply identities pre (.restore identity now) = .ok (.restored values) →
      ∀ i k r, (CooldownOp.replay pre (fresh identities)).row? i k = some r →
        (CooldownOp.replay (pre ++ [.restore identity now]) (fresh identities)).row? i k =
          if i ≠ identity then some r
          else if r.pending then
            some { r with pending := false, untilAt := now + max r.durationMs RESERVATION_MS }
          else if r.untilAt ≤ now then none
          else some { r with pending := false, untilAt := min r.untilAt (now + r.durationMs) }) ∧
    (∀ pre identity now, Legal identities (pre ++ [.restore identity now]) →
      ((pre ++ [CooldownOp.restore identity now]).filterMap CooldownOp.time).Pairwise (· ≤ ·) →
      ∀ i k r, (CooldownOp.replay pre (fresh identities)).row? i k = some r →
        min r.untilAt (now + r.durationMs) = r.untilAt) := by
  refine ⟨?_, ?_, ?_, ?_, ?_, ?_, ?_⟩
  · intro pre op lease hlegal hop
    exact ⟨fun hended => (hended.dead hlegal.of_append).unchanged hop,
      fun i k r hr hne => row?_of_other hop hr hne⟩
  · intro ops lease hlegal hissued
    exact hlegal.runInv.twins lease hissued
  · intro db lease key hk
    refine ⟨?_, ?_, ?_⟩
    · intro identity id ip now durationMs capacity entropy hreply
      obtain ⟨⟨token, rfl⟩, hid, hip, hdb⟩ := reserve_leased hreply
      rw [hdb]
      exact view_reserved hk ⟨hid.1, hip.1⟩
    · intro now durationMs failures hreply
      rw [settle_done hreply]
      exact view_settledBy hk _ _ _
    · exact view_abandoned hk
  · intro db identity id ip now durationMs capacity entropy
    refine ⟨reserve_leased_iff, ?_⟩
    intro lease key hreply
    obtain ⟨⟨token, rfl⟩, hid, hip, hdb⟩ := reserve_leased hreply
    rw [hdb]
    exact kindCount_reserved hid hip key
  · intro db op e he
    exact Prog.transact_error he
  · intro pre identity now values hlegal hreply i k r hr
    obtain ⟨out, mid, hbody, hpure⟩ := Prog.run_bind_ok (Prog.transact_ok hreply)
    cases hpure
    obtain ⟨hnow, -, hrows, hfits⟩ := restore_ok hbody
    rw [replay_snoc]
    change CooldownDb.row? _ i k = _ at hr
    rw [show ((CooldownOp.restore identity now).commit _).2.row? i k = _ from hrows i k, hr]
    by_cases hi : i = identity
    · subst hi
      have hvalid := hlegal.of_append.runInv.valid i k r hr
      simp only [ne_eq, not_true_eq_false, if_true, if_false, Option.bind_some]
      exact recovered_eq hvalid hnow (hfits k r hr).2.1
    · simp only [ne_eq, hi, not_false_eq_true, if_true, if_false]
  · intro pre identity now hlegal hsorted i k r hr
    exact min_until hlegal.of_append hsorted hr

end BtSniffer
