import BtSniffer.Dht.TrafficReference

/-!
# Forgetting idle addresses loosens no limit

The budget is simulated by a reference that forgets nothing.  An address that the table drops was idle
for a minute, so its cells and its cooldown have the level of fresh ones.

* `Sim` is the simulation, with the bounds of the table and of the queue of permits.
* `Sim.clean`, `Sim.stamp` and `Sim.insert` keep it for the steps that operations are made of.
-/

set_option autoImplicit false

namespace BtSniffer.Traffic

open Relational Gcra

/-- The stored entry of an address and what the reference knows of it. -/
structure RowAgrees (r : Rates) (c : IpReference) (now : Nat) (row : IpState) : Prop where
  inbound : row.inbound.Agrees r.ipInbound c.inbound now
  queries : row.queries.Agrees r.ipQueries c.queries now
  cooldown : level row.verificationUntil now = level c.verificationUntil now
  touched : row.touched ≤ now
  inbound_le : level row.inbound.absolute row.touched ≤ row.touched + SECOND
  queries_le : level row.queries.absolute row.touched ≤ row.touched + SECOND

/-- An address without an entry is idle in the reference. -/
structure IdleAgrees (c : IpReference) (now : Nat) : Prop where
  inbound : level c.inbound now = now
  queries : level c.queries now = now
  cooldown : level c.verificationUntil now = now

/-- What a look-up of an address finds, and what the reference knows of it. -/
def IpAgrees (r : Rates) (c : IpReference) (now : Nat) : Option IpState → Prop
  | none => IdleAgrees c now
  | some row => RowAgrees r c now row

/-- **The simulation.** -/
structure Sim (r : Rates) (s : State) (ref : Reference) (now : Nat) : Prop where
  queries : ∀ cls, (s.queries cls).Agrees (r.queries cls) (ref.queries cls) now
  inbound : s.inbound.Agrees r.inbound ref.inbound now
  responses : s.responses.Agrees r.responses ref.responses now
  queryBytes : s.queryBytes.Agrees r.queryBytes ref.queryBytes now
  replyBytes : s.replyBytes.Agrees r.replyBytes ref.replyBytes now
  ips : ∀ ip, IpAgrees r (ref.ips ip) now (s.ips.get? ip)
  room : s.ips.rows.length ≤ IP_LIMIT
  queued : s.verificationQueued = ref.queued
  limit : s.verificationLimit = r.verificationLimit
  queued_le : ref.queued ≤ r.verificationLimit

variable {r : Rates} {c : IpReference} {now later : Nat} {row : IpState} {s : State}
  {ref : Reference} {ip : IpAddr}

/-! ## Addresses -/

theorem RowAgrees.mono (h : RowAgrees r c now row) (hle : now ≤ later) :
    RowAgrees r c later row where
  inbound := h.inbound.mono hle
  queries := h.queries.mono hle
  cooldown := level_eq_later hle h.cooldown
  touched := h.touched.trans hle
  inbound_le := h.inbound_le
  queries_le := h.queries_le

theorem IdleAgrees.mono (h : IdleAgrees c now) (hle : now ≤ later) : IdleAgrees c later := by
  have hlater : ∀ d : Cell, level d now = now → level d later = later := by
    intro d hd
    rw [level_later d hle, hd]
    omega
  exact ⟨hlater _ h.inbound, hlater _ h.queries, hlater _ h.cooldown⟩

theorem IpAgrees.mono {found : Option IpState} (h : IpAgrees r c now found) (hle : now ≤ later) :
    IpAgrees r c later found := by
  cases found with
  | none => exact IdleAgrees.mono h hle
  | some row => exact RowAgrees.mono h hle

/-- A cooldown runs when it raises the level. -/
theorem cooling_iff : row.cooling now = true ↔ now < level row.verificationUntil now := by
  unfold IpState.cooling
  cases row.verificationUntil with
  | none => simp
  | some last => simp

theorem not_cooling_iff : row.cooling now = false ↔ level row.verificationUntil now = now := by
  rw [← Bool.not_eq_true, cooling_iff]
  have := le_level row.verificationUntil now
  omega

/-- **What is forgotten was idle.**  A cell holds at most one second of charges after the last touch,
and a running cooldown keeps the entry. -/
theorem RowAgrees.forget (h : RowAgrees r c now row) (hr : row.retained now = false) :
    IdleAgrees c now := by
  unfold IpState.retained at hr
  obtain ⟨hidle, hcool⟩ := Bool.or_eq_false_iff.1 hr
  have hold : row.touched + 60 * SECOND ≤ now := by
    have htouched := h.touched
    have := of_decide_eq_false hidle
    omega
  have hlevel : ∀ d : Cell, level d row.touched ≤ row.touched + SECOND → level d now = now := by
    intro d hd
    rw [level_later d h.touched]
    omega
  refine ⟨?_, ?_, ?_⟩
  · rw [← h.inbound.level]
    exact hlevel _ h.inbound_le
  · rw [← h.queries.level]
    exact hlevel _ h.queries_le
  · rw [← h.cooldown]
    exact not_cooling_iff.1 hcool

/-- Touching an entry keeps what its cells may hold. -/
theorem RowAgrees.touch (h : RowAgrees r c now row) :
    RowAgrees r c now { row with touched := now } where
  inbound := h.inbound
  queries := h.queries
  cooldown := h.cooldown
  touched := Nat.le_refl now
  inbound_le := by
    have := h.inbound_le
    have := h.touched
    show level row.inbound.absolute now ≤ now + SECOND
    rw [level_later _ h.touched]
    omega
  queries_le := by
    have := h.queries_le
    have := h.touched
    show level row.queries.absolute now ≤ now + SECOND
    rw [level_later _ h.touched]
    omega

/-- The entry that `track` makes stands for an idle address. -/
theorem IdleAgrees.new (h : IdleAgrees c now) (hi : r.ipInbound = quotaOf 5 (by decide))
    (hq : r.ipQueries = quotaOf 2 (by decide)) :
    RowAgrees r c now (IpState.new ip now (fun _ => now)) where
  inbound := hi ▸ Limiter.agrees_new h.inbound
  queries := hq ▸ Limiter.agrees_new h.queries
  cooldown := by
    rw [h.cooldown]
    exact level_none now
  touched := Nat.le_refl now
  inbound_le := by
    show level none now ≤ now + SECOND
    rw [level_none]
    omega
  queries_le := by
    show level none now ≤ now + SECOND
    rw [level_none]
    omega

/-- A charge of a cell leaves it at most one burst of work. -/
theorem level_charged {l : Limiter} {q : Quota} {d : Cell} {m : Bool} (h : l.Agrees q d now)
    (hc : q.Conforms d now 1) (hburst : q.burst * q.period = SECOND) :
    level (Limiter.absolute { l with state := ⟨l.charged 1 now, m⟩ }) now ≤ now + SECOND := by
  rw [(@Limiter.Agrees.charged l q d now 1 m h).level, level_some, ← hburst]
  have := Quota.charge_le hc
  omega

/-- A charge of the query cell of an address that was just touched. -/
theorem RowAgrees.chargeQueries {m : Bool} (h : RowAgrees r c now row) (ht : row.touched = now)
    (hq : r.ipQueries = quotaOf 2 (by decide)) (hc : r.ipQueries.Conforms c.queries now 1) :
    RowAgrees r { c with queries := some (r.ipQueries.charge c.queries now 1) } now
      { row with queries := { row.queries with state := ⟨row.queries.charged 1 now, m⟩ } } where
  inbound := h.inbound
  queries := h.queries.charged
  cooldown := h.cooldown
  touched := h.touched
  inbound_le := h.inbound_le
  queries_le := by
    show level _ row.touched ≤ row.touched + SECOND
    rw [ht]
    exact level_charged h.queries hc (by rw [hq]; rfl)

/-- A charge of the inbound cell of an address that was just touched. -/
theorem RowAgrees.chargeInbound {m : Bool} (h : RowAgrees r c now row) (ht : row.touched = now)
    (hi : r.ipInbound = quotaOf 5 (by decide)) (hc : r.ipInbound.Conforms c.inbound now 1) :
    RowAgrees r { c with inbound := some (r.ipInbound.charge c.inbound now 1) } now
      { row with inbound := { row.inbound with state := ⟨row.inbound.charged 1 now, m⟩ } } where
  inbound := h.inbound.charged
  queries := h.queries
  cooldown := h.cooldown
  touched := h.touched
  inbound_le := by
    show level _ row.touched ≤ row.touched + SECOND
    rw [ht]
    exact level_charged h.inbound hc (by rw [hi]; rfl)
  queries_le := h.queries_le

/-- The modes of the limiters of an address do not matter. -/
theorem RowAgrees.modes {m m' : Bool} (h : RowAgrees r c now row) :
    RowAgrees r c now { row with
      inbound := { row.inbound with state := ⟨row.inbound.cell, m⟩ }
      queries := { row.queries with state := ⟨row.queries.cell, m'⟩ } } where
  inbound := h.inbound.mode
  queries := h.queries.mode
  cooldown := h.cooldown
  touched := h.touched
  inbound_le := h.inbound_le
  queries_le := h.queries_le

/-! ## The steps of an operation -/

theorem Sim.mono (h : Sim r s ref now) (hle : now ≤ later) : Sim r s ref later where
  queries := fun cls => (h.queries cls).mono hle
  inbound := h.inbound.mono hle
  responses := h.responses.mono hle
  queryBytes := h.queryBytes.mono hle
  replyBytes := h.replyBytes.mono hle
  ips := fun ip => (h.ips ip).mono hle
  room := h.room
  queued := h.queued
  limit := h.limit
  queued_le := h.queued_le

/-- Another table of addresses that agrees and is not too long. -/
theorem Sim.withIps (h : Sim r s ref now) {ips : Table IpState IpState.ip}
    {known : IpAddr → IpReference} (hips : ∀ ip, IpAgrees r (known ip) now (ips.get? ip))
    (hroom : ips.rows.length ≤ IP_LIMIT) : Sim r { s with ips } { ref with ips := known } now :=
  { h with ips := hips, room := hroom }

theorem Sim.clean (h : Sim r s ref now) : Sim r (s.clean now) ref now := by
  have hget : ∀ ip, IpAgrees r (ref.ips ip) now ((s.clean now).ips.get? ip) := by
    intro ip
    rw [State.clean_get?]
    by_cases hf : s.Forgets now ip
    · rw [if_pos hf]
      obtain ⟨row, hrow, hr⟩ := (Option.any_eq_true ..).1 hf.2
      have hrow' := h.ips ip
      rw [hrow] at hrow'
      exact RowAgrees.forget hrow' (by simpa using hr)
    · rw [if_neg hf]
      exact h.ips ip
  have hroom : (s.clean now).ips.rows.length ≤ IP_LIMIT := by
    refine le_trans ?_ h.room
    unfold State.clean
    split
    · exact List.length_filter_le _ _
    · exact Nat.le_refl _
  by_cases hc : s.cleanup ≤ now
  · unfold State.clean at hget hroom ⊢
    rw [if_pos hc] at hroom ⊢
    simp only [if_pos hc] at hget
    exact { h with ips := hget, room := hroom }
  · unfold State.clean
    rw [if_neg hc]
    exact h

/-- Storing an entry that agrees, when there is room for it. -/
theorem Sim.insert (h : Sim r s ref now) (hrow : RowAgrees r c now row) (hip : row.ip = ip)
    (hf : ¬ s.Full ip) :
    Sim r { s with ips := s.ips.insert row }
      { ref with ips := Function.update ref.ips ip c } now := by
  refine h.withIps ?_ ?_
  · intro j
    rw [Table.get?_insert, hip]
    by_cases hj : ip = j
    · subst hj
      rw [if_pos rfl, Function.update_self]
      exact hrow
    · rw [if_neg hj, Function.update_of_ne (Ne.symm hj)]
      exact h.ips j
  · cases hg : s.ips.get? ip with
    | none =>
      have hlen := Table.length_insert_le s.ips row
      have hroom : s.ips.rows.length < IP_LIMIT := Nat.lt_of_not_le (fun hl => hf ⟨hl, hg⟩)
      omega
    | some found =>
      rw [Table.length_insert_some (by rw [hip]; exact hg)]
      exact h.room

/-! ## Operations -/

/-- The outcome of an operation follows the reference: what is admitted the reference admits too, and
then it charges the same. -/
def Follows (r : Rates) (ref : Reference) (now : Nat) (op : Op) (admitted : Bool) (after : State) :
    Prop :=
  if admitted = true then ref.Admits r now op ∧ Sim r after (ref.apply r now op) now
  else Sim r after ref now

section Operations

variable (hi : r.ipInbound = quotaOf 5 (by decide)) (hq : r.ipQueries = quotaOf 2 (by decide))

include hi hq

/-- The entry of an address agrees after it was touched. -/
theorem Sim.entry (h : Sim r s ref now) (ip : IpAddr) :
    RowAgrees r (ref.ips ip) now { s.entry ip (fun _ => now) with touched := now } := by
  have hfound := h.ips ip
  unfold State.entry
  cases hg : s.ips.get? ip with
  | none =>
    rw [hg] at hfound
    exact IdleAgrees.new hfound hi hq
  | some found =>
    rw [hg] at hfound
    exact RowAgrees.touch hfound

theorem Sim.stamp (h : Sim r s ref now) (hf : ¬ s.Full ip) :
    Sim r (s.stamp ip (fun _ => now)) ref now := by
  have hsim := h.insert (h.entry hi hq ip) (s.entry_ip ip _) hf
  rw [Function.update_eq_self] at hsim
  exact hsim

omit hi hq in
theorem State.not_full_stamp {t : Nat → Nat} : ¬ (s.stamp ip t).Full ip := by
  rintro ⟨-, hnone⟩
  rw [State.stamp_get?, if_pos rfl] at hnone
  cases hnone

/-- Writing the limiters of a query back. -/
theorem Sim.putQuery (h : Sim r s ref now) (hf : ¬ s.Full ip) {cls : Class} {a b d : Limiter}
    {ca cd : Cell} {c : IpReference}
    (ha : a.Agrees (r.queries cls) ca now)
    (hb : RowAgrees r c now
      { s.entry ip (fun _ => now) with touched := now, queries := b })
    (hd : d.Agrees r.queryBytes cd now) :
    Sim r ((s.stamp ip (fun _ => now)).putQuery cls
        { s.entry ip (fun _ => now) with touched := now } a b d)
      { ref with
        queries := Function.update ref.queries cls ca
        ips := Function.update ref.ips ip c
        queryBytes := cd } now := by
  have hstamp := h.stamp hi hq hf
  have hsim := hstamp.insert hb (s.entry_ip ip _) State.not_full_stamp
  refine { hsim with queries := ?_, queryBytes := hd }
  intro j
  by_cases hj : j = cls
  · subst hj
    simp only [State.putQuery, Function.update_self]
    exact ha
  · simp only [State.putQuery, Function.update_of_ne hj]
    exact h.queries j

/-- **A query follows the reference.** -/
theorem Sim.query (h : Sim r s ref now) (cls : Class) (ip : IpAddr) (bytes : Nat) :
    ∃ d after, s.queryObserved cls ip bytes (fun _ => now) = some (d, after) ∧
      Follows r ref now (.query cls ip bytes) (decide (d.wait = 0)) after := by
  unfold State.queryObserved
  rw [State.track_eq]
  have hk := h.clean
  generalize s.clean now = k at hk ⊢
  by_cases hf : k.Full ip
  · rw [if_pos hf]
    exact ⟨_, _, rfl, hk⟩
  · rw [if_neg hf]
    simp only [State.stamp_get?, State.stamp_queries, State.stamp_queryBytes, if_true,
      Option.bind_eq_bind, Option.bind_some, Limiter.probe_snd]
    have hrow := hk.entry hi hq ip
    have hcls := hk.queries cls
    have hbytes := hk.queryBytes
    by_cases hz : State.longest [
        ((k.queries cls).check 1 false (fun _ => now)).1,
        ((k.entry ip (fun _ => now)).queries.check 1 false (fun _ => now)).1,
        (k.queryBytes.check (bytes % 2 ^ 32) false (fun _ => now)).1] = 0
    · rw [if_pos hz]
      refine ⟨_, _, rfl, ?_⟩
      obtain ⟨hz1, hz2, hz3⟩ := (longest_three _ _ _).1 hz
      rw [Limiter.check_zero_iff] at hz1 hz2 hz3
      have hc1 := hcls.takes_iff.1 hz1
      have hc2 := hrow.queries.takes_iff.1 hz2
      have hc3 := hbytes.takes_iff.1 hz3
      rw [Limiter.commit_snd hz1, Limiter.commit_snd hz2, Limiter.commit_snd hz3]
      rw [Follows, if_pos (by simpa using hz)]
      have hcharged := hrow.chargeQueries (m := true) rfl hq hc2
      exact ⟨⟨hc1, hc2, hc3⟩, hk.putQuery hi hq hf hcls.charged hcharged hbytes.charged⟩
    · rw [if_neg hz]
      refine ⟨_, _, rfl, ?_⟩
      rw [Follows, if_neg (by simpa using hz)]
      have hsim := hk.putQuery hi hq hf (@Limiter.Agrees.mode _ _ _ _ false hcls)
        (c := ref.ips ip) (b := { (k.entry ip (fun _ => now)).queries with
          state := ⟨(k.entry ip (fun _ => now)).queries.cell, false⟩ })
        ⟨hrow.inbound, hrow.queries.mode, hrow.cooldown, hrow.touched, hrow.inbound_le,
          hrow.queries_le⟩ (@Limiter.Agrees.mode _ _ _ _ false hbytes)
      rw [Function.update_eq_self, Function.update_eq_self] at hsim
      exact hsim

/-- Writing the limiters of a datagram back. -/
theorem Sim.putInbound (h : Sim r s ref now) (hf : ¬ s.Full ip) {a b : Limiter} {ca : Cell}
    {c : IpReference} (ha : a.Agrees r.inbound ca now)
    (hb : RowAgrees r c now
      { s.entry ip (fun _ => now) with touched := now, inbound := b }) :
    Sim r ((s.stamp ip (fun _ => now)).putInbound
        { s.entry ip (fun _ => now) with touched := now } a b)
      { ref with inbound := ca, ips := Function.update ref.ips ip c } now := by
  have hsim := (h.stamp hi hq hf).insert hb (s.entry_ip ip _) State.not_full_stamp
  exact { hsim with inbound := ha }

/-- **An ordinary datagram follows the reference.** -/
theorem Sim.ordinary (h : Sim r s ref now) (ip : IpAddr) :
    ∃ admitted after, s.ordinary ip (fun _ => now) = some (admitted, after) ∧
      Follows r ref now (.disguised ip) admitted after := by
  unfold State.ordinary
  rw [State.track_eq]
  have hk := h.clean
  generalize s.clean now = k at hk ⊢
  by_cases hf : k.Full ip
  · rw [if_pos hf]
    exact ⟨_, _, rfl, hk⟩
  · rw [if_neg hf]
    simp only [State.stamp_get?, State.stamp_inbound, if_true, Option.bind_eq_bind,
      Option.bind_some, Limiter.probe_snd]
    have hrow := hk.entry hi hq ip
    have hin := hk.inbound
    -- a refusal keeps the cells, whichever of the two modes were set
    have hrefused : ∀ b : Limiter, RowAgrees r (ref.ips ip) now
        { k.entry ip (fun _ => now) with touched := now, inbound := b } →
        Sim r ((k.stamp ip (fun _ => now)).putInbound
          { k.entry ip (fun _ => now) with touched := now }
          { k.inbound with state := ⟨k.inbound.cell, false⟩ } b) ref now := by
      intro b hb
      have hsim := hk.putInbound hi hq hf (hin.mode (m := false)) hb
      rw [Function.update_eq_self] at hsim
      exact hsim
    by_cases ha : (k.inbound.check 1 false (fun _ => now)).1 = 0
    · rw [if_neg (not_not.2 ha)]
      by_cases hb : ((k.entry ip (fun _ => now)).inbound.check 1 false (fun _ => now)).1 = 0
      · rw [if_neg (not_not.2 hb)]
        refine ⟨_, _, rfl, ?_⟩
        rw [Limiter.check_zero_iff] at ha hb
        have hc1 := hin.takes_iff.1 ha
        have hc2 := hrow.inbound.takes_iff.1 hb
        have hcharged := hrow.chargeInbound (m := true) rfl hi hc2
        rw [Limiter.commit_snd ha, Limiter.commit_snd hb, Follows, if_pos rfl]
        exact ⟨⟨hc1, hc2⟩, hk.putInbound hi hq hf hin.charged hcharged⟩
      · rw [if_pos hb]
        exact ⟨_, _, rfl, hrefused _ ⟨hrow.inbound.mode, hrow.queries, hrow.cooldown,
          hrow.touched, hrow.inbound_le, hrow.queries_le⟩⟩
    · rw [if_pos ha]
      exact ⟨_, _, rfl, hrefused _ hrow⟩

/-- **A verification follows the reference**: the table may be full where the reference has room. -/
theorem Sim.verify (h : Sim r s ref now) (ip : IpAddr) :
    ∃ admitted after, s.admitVerification ip (fun _ => now) = some (admitted, after) ∧
      Follows r ref now (.verify ip) admitted after := by
  unfold State.admitVerification
  rw [State.track_eq]
  have hk := h.clean
  generalize s.clean now = k at hk ⊢
  by_cases hf : k.Full ip
  · rw [if_pos hf]
    exact ⟨_, _, rfl, hk⟩
  · rw [if_neg hf]
    have hstamp := hk.stamp hi hq hf
    have hrow := hk.entry hi hq ip
    simp only [State.stamp_get?, if_true, Option.bind_eq_bind, Option.bind_some]
    by_cases hcool : IpState.cooling { k.entry ip (fun _ => now) with touched := now } now = true
    · rw [if_pos hcool]
      exact ⟨_, _, rfl, hstamp⟩
    · rw [if_neg hcool]
      by_cases hfull : (k.stamp ip (fun _ => now)).verificationLimit ≤
          (k.stamp ip (fun _ => now)).verificationQueued
      · rw [if_pos hfull]
        exact ⟨_, _, rfl, hstamp⟩
      · rw [if_neg hfull]
        have hqueue : ref.queued < r.verificationLimit := by
          rw [← hstamp.limit, ← hstamp.queued]
          exact Nat.not_le.1 hfull
        have hlast : ∀ last ∈ (ref.ips ip).verificationUntil, last ≤ now := by
          intro last hlast
          have hlevel := hrow.cooldown
          rw [not_cooling_iff.1 (Bool.not_eq_true _ ▸ hcool), Option.mem_def.1 hlast,
            level_some] at hlevel
          omega
        have hcooled : RowAgrees r { ref.ips ip with verificationUntil := some (now + 60 * SECOND) }
            now { k.entry ip (fun _ => now) with
              touched := now, verificationUntil := some (now + 60 * SECOND) } :=
          { hrow with cooldown := rfl }
        have hsim := hstamp.insert hcooled (k.entry_ip ip _) State.not_full_stamp
        refine ⟨_, _, rfl, ?_⟩
        rw [Follows, if_pos rfl]
        exact ⟨⟨hlast, hqueue⟩,
          { hsim with queued := congrArg (· + 1) hstamp.queued, queued_le := hqueue }⟩

end Operations

/-- A single check that commits. -/
theorem checked {l : Limiter} {q : Quota} {d : Cell} (h : l.Agrees q d now) (count : Nat) :
    if (l.check count true (fun _ => now)).1 = 0 then
      q.Conforms d now (max count 1) ∧
        (l.check count true (fun _ => now)).2.Agrees q (some (q.charge d now (max count 1))) now
    else (l.check count true (fun _ => now)).2.Agrees q d now := by
  rw [Limiter.check_snd]
  by_cases hz : (l.check count true (fun _ => now)).1 = 0
  · have hc := (Limiter.check_zero_iff ..).1 hz
    rw [if_pos hz, if_pos ⟨hc, rfl⟩]
    exact ⟨h.takes_iff.1 hc, h.charged⟩
  · have hc : ¬ l.Takes (max count 1) now := fun hc => hz ((Limiter.check_zero_iff ..).2 hc)
    rw [if_neg hz, if_neg (fun hb => hc hb.1)]
    exact h.mode

/-- **A reply follows the reference.** -/
theorem Sim.reply (h : Sim r s ref now) (bytes : Nat) :
    Follows r ref now (.reply bytes) (s.reply bytes (fun _ => now)).1
      (s.reply bytes (fun _ => now)).2 := by
  have hc := checked h.replyBytes (bytes % 2 ^ 32)
  unfold State.reply Follows
  simp only [decide_eq_true_eq]
  by_cases hz : (s.replyBytes.check (bytes % 2 ^ 32) true (fun _ => now)).1 = 0
  · rw [if_pos hz] at hc ⊢
    exact ⟨hc.1, { h with replyBytes := hc.2 }⟩
  · rw [if_neg hz] at hc ⊢
    exact { h with replyBytes := hc }

/-- **An inbound datagram follows the reference.** -/
theorem Sim.admitInbound (h : Sim r s ref now) (hi : r.ipInbound = quotaOf 5 (by decide))
    (hq : r.ipQueries = quotaOf 2 (by decide)) (ip : IpAddr) (pendingSource : Bool) :
    ∃ admitted after, s.admitInbound ip pendingSource (fun _ => now) = some (admitted, after) ∧
      Follows r ref now (.inbound ip pendingSource) admitted after := by
  cases pendingSource with
  | false => exact h.ordinary hi hq ip
  | true =>
    have hc := checked h.responses 1
    refine ⟨_, _, rfl, ?_⟩
    unfold Follows
    simp only [decide_eq_true_eq]
    by_cases hz : (s.responses.check 1 true (fun _ => now)).1 = 0
    · rw [if_pos hz] at hc ⊢
      exact ⟨hc.1, { h with responses := hc.2 }⟩
    · rw [if_neg hz] at hc ⊢
      exact { h with responses := hc }

/-- **Dropping a permit follows the reference**, when one is alive. -/
theorem Sim.dropPermit (h : Sim r s ref now) (hpos : 0 < ref.queued) (permit : Nat) :
    ∃ after, s.dropPermit = some after ∧ Follows r ref now (.dropPermit permit) true after := by
  unfold State.dropPermit
  have hne : s.verificationQueued ≠ 0 := by
    rw [h.queued]
    omega
  rw [if_neg hne]
  refine ⟨_, rfl, ?_⟩
  rw [Follows, if_pos rfl]
  exact ⟨hpos, { h with
    queued := congrArg (· - 1) h.queued
    queued_le := (Nat.sub_le ..).trans h.queued_le }⟩

end BtSniffer.Traffic
