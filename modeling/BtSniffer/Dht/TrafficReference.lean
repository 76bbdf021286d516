import BtSniffer.Dht.TrafficQuota

/-!
# A budget that forgets nothing

`Reference` is what a budget is for: every cell and every cooldown it ever used, in absolute time,
for any number of addresses.  It never forgets an address and has no table to fill.

* `Live` is the budget of the source together with the permits that are alive; `Live.step` is one
  operation at one time, `Live.History` a whole run from `Budget::new`.
* `Agrees` relates a limiter to a cell of the reference: they have one level, so nothing that
  happens from now on can tell them apart.
-/

set_option autoImplicit false

namespace BtSniffer.Traffic

open Relational Gcra

/-! ## Runs of the budget -/

/-- The operations of a budget; a permit is dropped by its number. -/
inductive Op where
  | query (cls : Class) (ip : IpAddr) (bytes : Nat)
  | inbound (ip : IpAddr) (pendingSource : Bool)
  | disguised (ip : IpAddr)
  | reply (bytes : Nat)
  | verify (ip : IpAddr)
  | dropPermit (permit : Nat)
  deriving DecidableEq, Repr

/-- A budget and the permits it has given out that are alive. -/
structure Live where
  state : State
  permits : List Nat
  issued : Nat

/-- An operation, when it ran and whether it was admitted. -/
structure Entry where
  op : Op
  time : Nat
  admitted : Bool
  deriving DecidableEq, Repr

namespace Live

/-- The same permits with another state. -/
def withState (live : Live) (outcome : Bool × State) : Bool × Live :=
  (outcome.1, { live with state := outcome.2 })

/-- One operation at the time `now`; a permit that is not alive cannot be dropped. -/
def step (live : Live) (now : Nat) : Op → Option (Bool × Live)
  | .query cls ip bytes =>
    (live.state.queryObserved cls ip bytes (fun _ => now)).map
      (fun outcome => live.withState (decide (outcome.1.wait = 0), outcome.2))
  | .inbound ip pendingSource =>
    (live.state.admitInbound ip pendingSource (fun _ => now)).map live.withState
  | .disguised ip => (live.state.disguisedQuery ip (fun _ => now)).map live.withState
  | .reply bytes => some (live.withState (live.state.reply bytes (fun _ => now)))
  | .verify ip =>
    (live.state.admitVerification ip (fun _ => now)).map (fun outcome =>
      if outcome.1 then (true, ⟨outcome.2, live.issued :: live.permits, live.issued + 1⟩)
      else live.withState outcome)
  | .dropPermit permit =>
    if permit ∈ live.permits then
      live.state.dropPermit.map
        (fun state => (true, ⟨state, live.permits.erase permit, live.issued⟩))
    else some (false, live)

/-- The runs of a budget, the last operation first: times do not decrease. -/
inductive History (config : Config) (start : Nat) : List Entry → Live → Nat → Prop
  | new {state : State} (h : State.new config (fun _ => start) = .ok state) :
      History config start [] ⟨state, [], 0⟩ start
  | step {past : List Entry} {live live' : Live} {now later : Nat} {op : Op} {admitted : Bool}
      (h : History config start past live now) (hle : now ≤ later)
      (hs : live.step later op = some (admitted, live')) :
      History config start (⟨op, later, admitted⟩ :: past) live' later

end Live

/-! ## The reference -/

/-- The quotas of a configuration. -/
structure Rates where
  queries : Class → Quota
  inbound : Quota
  responses : Quota
  queryBytes : Quota
  replyBytes : Quota
  ipInbound : Quota
  ipQueries : Quota
  verificationLimit : Nat

def Config.rates (config : Config) (h : ¬ config.Invalid) : Rates where
  queries := fun cls => quotaOf (config.classes cls) (Config.classes_pos h cls)
  inbound := quotaOf config.inbound (Config.inbound_pos h)
  responses := quotaOf 128 responses_pos
  queryBytes := quotaOf (config.upload / 8) (Config.queryBytes_pos h)
  replyBytes := quotaOf (config.upload - config.upload / 8) (Config.replyBytes_pos h)
  ipInbound := quotaOf 5 ipInbound_pos
  ipQueries := quotaOf 2 ipQueries_pos
  verificationLimit := config.classes .verification * 5

/-- What the reference knows of an address. -/
@[ext]
structure IpReference where
  inbound : Cell
  queries : Cell
  verificationUntil : Option Nat

/-- All cells in absolute time, all cooldowns, and the number of permits that are alive. -/
@[ext]
structure Reference where
  queries : Class → Cell
  inbound : Cell
  responses : Cell
  queryBytes : Cell
  replyBytes : Cell
  ips : IpAddr → IpReference
  queued : Nat

namespace Reference

/-- Nothing was charged. -/
def fresh : Reference := ⟨fun _ => none, none, none, none, none, fun _ => ⟨none, none, none⟩, 0⟩

/-- The units of a datagram, as the source truncates them. -/
def units (bytes : Nat) : Nat := max (bytes % 2 ^ 32) 1

/-- The reference admits an operation at the time `now`. -/
def Admits (r : Rates) (ref : Reference) (now : Nat) : Op → Prop
  | .query cls ip bytes =>
    (r.queries cls).Conforms (ref.queries cls) now 1 ∧
      r.ipQueries.Conforms (ref.ips ip).queries now 1 ∧
      r.queryBytes.Conforms ref.queryBytes now (units bytes)
  | .inbound ip pendingSource =>
    if pendingSource then r.responses.Conforms ref.responses now 1
    else r.inbound.Conforms ref.inbound now 1 ∧ r.ipInbound.Conforms (ref.ips ip).inbound now 1
  | .disguised ip =>
    r.inbound.Conforms ref.inbound now 1 ∧ r.ipInbound.Conforms (ref.ips ip).inbound now 1
  | .reply bytes => r.replyBytes.Conforms ref.replyBytes now (units bytes)
  | .verify ip =>
    (∀ last ∈ (ref.ips ip).verificationUntil, last ≤ now) ∧ ref.queued < r.verificationLimit
  | .dropPermit _ => 0 < ref.queued

/-- The charge of an ordinary datagram. -/
def chargeOrdinary (r : Rates) (ref : Reference) (now : Nat) (ip : IpAddr) : Reference :=
  { ref with
    inbound := some (r.inbound.charge ref.inbound now 1)
    ips := Function.update ref.ips ip { ref.ips ip with
      inbound := some (r.ipInbound.charge (ref.ips ip).inbound now 1) } }

/-- The charge of a query. -/
def chargeQuery (r : Rates) (ref : Reference) (now : Nat) (cls : Class) (ip : IpAddr)
    (bytes : Nat) : Reference :=
  { ref with
    queries := Function.update ref.queries cls
      (some ((r.queries cls).charge (ref.queries cls) now 1))
    ips := Function.update ref.ips ip { ref.ips ip with
      queries := some (r.ipQueries.charge (ref.ips ip).queries now 1) }
    queryBytes := some (r.queryBytes.charge ref.queryBytes now (units bytes)) }

/-- The reference after an operation that was admitted. -/
def apply (r : Rates) (ref : Reference) (now : Nat) : Op → Reference
  | .query cls ip bytes => ref.chargeQuery r now cls ip bytes
  | .inbound ip pendingSource =>
    if pendingSource then
      { ref with responses := some (r.responses.charge ref.responses now 1) }
    else ref.chargeOrdinary r now ip
  | .disguised ip => ref.chargeOrdinary r now ip
  | .reply bytes =>
    { ref with replyBytes := some (r.replyBytes.charge ref.replyBytes now (units bytes)) }
  | .verify ip =>
    { ref with
      ips := Function.update ref.ips ip { ref.ips ip with
        verificationUntil := some (now + 60 * SECOND) }
      queued := ref.queued + 1 }
  | .dropPermit _ => { ref with queued := ref.queued - 1 }

/-- The reference after the admitted operations of a history. -/
def after (r : Rates) : List Entry → Reference
  | [] => fresh
  | e :: past => if e.admitted then (after r past).apply r e.time e.op else after r past

end Reference

/-! ## Limiters and cells of the reference -/

namespace Limiter

variable {l : Limiter} {q : Quota} {c : Cell} {now later count n : Nat} {commit : Bool}

/-- The instant from which the times of the cell are counted. -/
def origin (l : Limiter) : Nat := l.anchor + l.start

/-- The committed time of the cell as an instant. -/
def absolute (l : Limiter) : Cell := l.cell.map (l.origin + ·)

theorem origin_add_elapsed (h : l.origin ≤ now) : l.origin + l.elapsed now = now := by
  unfold origin at h ⊢
  unfold elapsed clockNow
  omega

/-- At one reading, a check has no wait exactly when the request conforms. -/
theorem check_zero_iff (l : Limiter) (count : Nat) (commit : Bool) (now : Nat) :
    (l.check count commit (fun _ => now)).1 = 0 ↔ l.Takes (max count 1) now := by
  rw [check_eq]
  by_cases hc : l.Takes (max count 1) now
  · simp [hc]
  · by_cases hb : l.rate < max count 1
    · simp [hc, hb, SECOND]
    · simp only [hc, hb, if_false, iff_false]
      have hearly : ¬ l.quota.earliest l.cell (l.elapsed now) (max count 1) ≤ l.elapsed now :=
        fun he => hc ((Quota.conforms_iff_earliest (by omega)).2 ⟨Nat.not_lt.1 hb, he⟩)
      have helapsed : l.elapsed now = l.clockNow now - l.start := rfl
      unfold opens
      omega

/-- What a check leaves behind at one reading. -/
theorem check_snd (l : Limiter) (count : Nat) (commit : Bool) (now : Nat) :
    (l.check count commit (fun _ => now)).2 = { l with state :=
      ⟨if l.Takes (max count 1) now ∧ commit = true then l.charged (max count 1) now else l.cell,
        commit⟩ } := by
  rw [check_eq]
  by_cases hc : l.Takes (max count 1) now
  · cases commit <;> simp [hc]
  · simp [hc]

/-- A commit of what conforms. -/
theorem commit_snd {m : Bool} (hc : l.Takes (max count 1) now) :
    (Limiter.check { l with state := ⟨l.cell, m⟩ } count true (fun _ => now)).2 =
      { l with state := ⟨l.charged (max count 1) now, true⟩ } := by
  rw [check_snd, if_pos ⟨show Limiter.Takes { l with state := ⟨l.cell, m⟩ } _ _ from hc, rfl⟩]
  rfl

/-- A limiter that the cell `c` of the reference stands for: from `now` on, nothing tells them
apart. -/
structure Agrees (l : Limiter) (q : Quota) (c : Cell) (now : Nat) : Prop where
  quota : l.quota = q
  started : l.origin ≤ now
  level : level l.absolute now = level c now

theorem Agrees.mono (h : l.Agrees q c now) (hle : now ≤ later) : l.Agrees q c later where
  quota := h.quota
  started := h.started.trans hle
  level := level_eq_later hle h.level

/-- **Both admit the same requests.** -/
theorem Agrees.takes_iff (h : l.Agrees q c now) : l.Takes n now ↔ q.Conforms c now n := by
  have hshift := @Quota.conforms_shift l.quota l.cell (l.elapsed now) n l.origin
  rw [origin_add_elapsed h.started] at hshift
  rw [← Quota.conforms_congr h.level, ← h.quota]
  exact hshift.symm

/-- The same charge keeps them together. -/
theorem Agrees.charged {m : Bool} (h : l.Agrees q c now) :
    Agrees { l with state := ⟨l.charged n now, m⟩ } q (some (q.charge c now n)) now where
  quota := h.quota
  started := h.started
  level := by
    have hshift := @Quota.charge_shift l.quota l.cell (l.elapsed now) n l.origin
    rw [origin_add_elapsed h.started] at hshift
    rw [← Quota.charge_congr h.level, ← h.quota]
    show Gcra.level (some (l.origin + l.quota.charge l.cell (l.elapsed now) n)) now = _
    rw [← hshift]
    rfl

/-- The mode of a limiter does not matter. -/
theorem Agrees.mode {m : Bool} (h : l.Agrees q c now) :
    Agrees { l with state := ⟨l.cell, m⟩ } q c now :=
  ⟨h.quota, h.started, h.level⟩

/-- A fresh limiter stands for every cell that is idle. -/
theorem agrees_new {rate : Nat} {hr : 0 < rate} (hc : Gcra.level c now = now) :
    (Limiter.new rate hr (fun _ => now)).Agrees (quotaOf rate hr) c now where
  quota := rfl
  started := by
    show now + (now - now) ≤ now
    omega
  level := by
    rw [hc]
    exact level_none now

end Limiter

end BtSniffer.Traffic
