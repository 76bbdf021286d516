import BtSniffer.Dht.Traffic

/-!
# Combined quotas are all or nothing

A query is charged to the cell of its class, to the cell of its address and to the cell of its
bytes; an ordinary datagram to the inbound cell and to the cell of its address.

* `Cells` is what a budget has charged so far: the committed times of all its cells.
* `query_atomic`, `ordinary_atomic` — one call charges all of its cells, each of them once and by a
  charge that conforms at the reading it is made at, or none.
-/

set_option autoImplicit false

namespace BtSniffer.Traffic

open Relational Gcra

/-! ## One check -/

namespace Limiter

variable {l : Limiter} {n count now : Nat} {t : Nat → Nat}

/-- `n` units conform at the instant `now`. -/
def Takes (l : Limiter) (n now : Nat) : Prop := l.quota.Conforms l.cell (l.elapsed now) n

instance : Decidable (l.Takes n now) := inferInstanceAs (Decidable (l.quota.Conforms _ _ _))

/-- The cell after a charge of `n` units at the instant `now`. -/
def charged (l : Limiter) (n now : Nat) : Cell := some (l.quota.charge l.cell (l.elapsed now) n)

/-- The instant at which a refused request conforms, by the clock of the limiter. -/
def opens (l : Limiter) (n now : Nat) : Nat := l.start + l.quota.earliest l.cell (l.elapsed now) n

theorem elapsed_mono (l : Limiter) {now later : Nat} (h : now ≤ later) :
    l.elapsed now ≤ l.elapsed later := by
  unfold elapsed clockNow
  omega

theorem Takes.mono {later : Nat} (h : l.Takes n now) (hle : now ≤ later) : l.Takes n later :=
  Quota.Conforms.mono h (l.elapsed_mono hle)

theorem ne_charged (hn : 0 < n) (now : Nat) : l.charged n now ≠ l.cell :=
  (Quota.ne_some_charge hn l.cell (l.elapsed now)).symm

/-- **What a check does**: the clock and the rate stay, the cell moves when the request conforms
and the check commits. -/
theorem check_eq (l : Limiter) (count : Nat) (commit : Bool) (t : Nat → Nat) :
    l.check count commit t =
      if l.Takes (max count 1) (t 0) then
        (0, { l with state := ⟨if commit then l.charged (max count 1) (t 0) else l.cell, commit⟩ })
      else
        (if l.rate < max count 1 then 5 * SECOND
          else l.opens (max count 1) (t 0) - l.clockNow (t 1),
          { l with state := ⟨l.cell, commit⟩ }) := by
  unfold check ProbeState.measureAndReplace
  simp only
  rcases @Quota.testN_cases l.quota l.cell (l.elapsed (t 0)) (max count 1) (by omega) with
    ⟨hc, ht⟩ | ⟨hc, hb, ht⟩ | ⟨hc, hb, ht⟩
  · rw [show l.state.tat = l.cell from rfl, ht, if_pos (show l.Takes _ _ from hc)]
    cases commit <;> rfl
  · rw [show l.state.tat = l.cell from rfl, ht, if_neg (show ¬ l.Takes _ _ from hc),
      if_neg (show ¬ l.rate < _ from Nat.not_lt.2 hb)]
    rfl
  · rw [show l.state.tat = l.cell from rfl, ht, if_neg (show ¬ l.Takes _ _ from hc),
      if_pos (show l.rate < _ from hb)]

/-- A probe sets the mode of the limiter and nothing else. -/
theorem probe_snd (l : Limiter) (count : Nat) (t : Nat → Nat) :
    (l.check count false t).2 = { l with state := ⟨l.cell, false⟩ } := by
  rw [check_eq]
  split <;> rfl

/-- **A zero wait opens the quota**: either the request conformed at the first reading, or the
second reading had already passed the time of the refusal. -/
theorem takes_of_probe_zero {later : Nat} (hz : (l.check count false t).1 = 0) (h0 : t 0 ≤ later)
    (h1 : t 1 ≤ later) : l.Takes (max count 1) later := by
  rw [check_eq] at hz
  by_cases hc : l.Takes (max count 1) (t 0)
  · exact hc.mono h0
  · rw [if_neg hc] at hz
    by_cases hb : l.rate < max count 1
    · simp [hb, SECOND] at hz
    · simp only [if_neg hb, opens] at hz
      refine Quota.conforms_of_earliest (by omega) (Nat.not_lt.1 hb) hc ?_
      have hlater : l.elapsed (t 1) ≤ l.elapsed later := l.elapsed_mono h1
      have heq : l.elapsed (t 1) = l.clockNow (t 1) - l.start := rfl
      omega

/-- A wait is positive when the request is larger than the burst, or when it is refused and the
second reading is still before the time of the refusal. -/
theorem probe_pos_iff :
    0 < (l.check count false t).1 ↔ ¬ l.Takes (max count 1) (t 0) ∧
      (l.rate < max count 1 ∨ l.clockNow (t 1) < l.opens (max count 1) (t 0)) := by
  rw [check_eq]
  by_cases hc : l.Takes (max count 1) (t 0)
  · simp [hc]
  · by_cases hb : l.rate < max count 1
    · simp [hc, hb, SECOND]
    · simp only [hc, hb, if_false, not_false_eq_true, true_and, false_or]
      omega

/-- A commit after a probe charges the cell that was probed. -/
theorem cell_commit {m : Bool} (t : Nat → Nat) (hc : l.Takes (max count 1) (t 0)) :
    (Limiter.check { l with state := ⟨l.cell, m⟩ } count true t).2.cell =
      l.charged (max count 1) (t 0) := by
  rw [check_eq, if_pos (show Limiter.Takes { l with state := ⟨l.cell, m⟩ } _ _ from hc)]
  rfl

end Limiter

/-! ## The cells of a budget -/

/-- The committed times of all cells; an address without an entry has fresh ones. -/
@[ext]
structure Cells where
  queries : Class → Cell
  inbound : Cell
  responses : Cell
  queryBytes : Cell
  replyBytes : Cell
  ipInbound : IpAddr → Cell
  ipQueries : IpAddr → Cell

namespace State

variable {s : State} {cls : Class} {ip : IpAddr} {t : Nat → Nat}

def cells (s : State) : Cells where
  queries := fun cls => (s.queries cls).cell
  inbound := s.inbound.cell
  responses := s.responses.cell
  queryBytes := s.queryBytes.cell
  replyBytes := s.replyBytes.cell
  ipInbound := fun ip => (s.ips.get? ip).bind (·.inbound.cell)
  ipQueries := fun ip => (s.ips.get? ip).bind (·.queries.cell)

/-- The entry of an address: the stored one, or the one that `track` makes. -/
def entry (s : State) (ip : IpAddr) (t : Nat → Nat) : IpState :=
  (s.ips.get? ip).getD (.new ip (t 1) (fun i => t (2 + i)))

/-- The table has no room for another address. -/
def Full (s : State) (ip : IpAddr) : Prop :=
  IP_LIMIT ≤ s.ips.rows.length ∧ s.ips.get? ip = none

instance : Decidable (s.Full ip) := inferInstanceAs (Decidable (_ ∧ _))

theorem entry_ip (s : State) (ip : IpAddr) (t : Nat → Nat) : (s.entry ip t).ip = ip := by
  unfold entry
  cases h : s.ips.get? ip with
  | none => rfl
  | some row => exact (Table.get?_eq_some.1 h).2

theorem ipInbound_entry (s : State) (ip : IpAddr) (t : Nat → Nat) :
    s.cells.ipInbound ip = (s.entry ip t).inbound.cell := by
  show (s.ips.get? ip).bind _ = _
  unfold entry
  cases s.ips.get? ip <;> rfl

theorem ipQueries_entry (s : State) (ip : IpAddr) (t : Nat → Nat) :
    s.cells.ipQueries ip = (s.entry ip t).queries.cell := by
  show (s.ips.get? ip).bind _ = _
  unfold entry
  cases s.ips.get? ip <;> rfl

/-- The state in which the entry of an address was just touched. -/
def stamp (s : State) (ip : IpAddr) (t : Nat → Nat) : State :=
  { s with ips := s.ips.insert { s.entry ip t with touched := t 1 } }

@[simp] theorem stamp_queries (s : State) (ip : IpAddr) (t : Nat → Nat) :
    (s.stamp ip t).queries = s.queries := rfl

@[simp] theorem stamp_queryBytes (s : State) (ip : IpAddr) (t : Nat → Nat) :
    (s.stamp ip t).queryBytes = s.queryBytes := rfl

@[simp] theorem stamp_inbound (s : State) (ip : IpAddr) (t : Nat → Nat) :
    (s.stamp ip t).inbound = s.inbound := rfl

/-- `track` refuses a full table and otherwise stamps the entry of the address. -/
theorem track_eq (s : State) (ip : IpAddr) (t : Nat → Nat) :
    s.track ip t =
      if (s.clean (t 0)).Full ip then (false, s.clean (t 0))
      else (true, (s.clean (t 0)).stamp ip t) :=
  rfl

theorem stamp_get? (s : State) (ip j : IpAddr) (t : Nat → Nat) :
    (s.stamp ip t).ips.get? j =
      if ip = j then some { s.entry ip t with touched := t 1 } else s.ips.get? j := by
  show (s.ips.insert _).get? j = _
  rw [Table.get?_insert]
  simp only [s.entry_ip ip t]

/-- What writing the limiters of a query back does to the cells. -/
theorem cells_putQuery (s : State) (cls : Class) (ip : IpAddr) (t : Nat → Nat) (a b c : Limiter) :
    ((s.stamp ip t).putQuery cls { s.entry ip t with touched := t 1 } a b c).cells =
      { s.cells with
        queries := Function.update s.cells.queries cls a.cell
        queryBytes := c.cell
        ipQueries := Function.update s.cells.ipQueries ip b.cell } := by
  have hip : (s.entry ip t).ip = ip := s.entry_ip ip t
  have hin := s.ipInbound_entry ip t
  ext j x <;> simp only [cells, putQuery, Table.get?_insert, hip, stamp]
  · by_cases h : j = cls
    · subst h
      simp
    · simp [Function.update_of_ne h]
  · by_cases h : ip = j
    · subst h
      simp only [if_true, Option.bind_some]
      rw [← hin]
      rfl
    · simp [h]
  · by_cases h : ip = j
    · subst h
      simp
    · simp [h, Function.update_of_ne (Ne.symm h)]

/-- What writing the limiters of a datagram back does to the cells. -/
theorem cells_putInbound (s : State) (ip : IpAddr) (t : Nat → Nat) (a b : Limiter) :
    ((s.stamp ip t).putInbound { s.entry ip t with touched := t 1 } a b).cells =
      { s.cells with
        inbound := a.cell
        ipInbound := Function.update s.cells.ipInbound ip b.cell } := by
  have hip : (s.entry ip t).ip = ip := s.entry_ip ip t
  have hq := s.ipQueries_entry ip t
  ext j x <;> simp only [cells, putInbound, Table.get?_insert, hip, stamp]
  · by_cases h : ip = j
    · subst h
      simp
    · simp [h, Function.update_of_ne (Ne.symm h)]
  · by_cases h : ip = j
    · subst h
      simp only [if_true, Option.bind_some]
      rw [← hq]
      rfl
    · simp [h]

/-- The addresses that `clean` forgets. -/
def Forgets (s : State) (now : Nat) (ip : IpAddr) : Prop :=
  s.cleanup ≤ now ∧ (s.ips.get? ip).any (fun row => !row.retained now) = true

instance {now : Nat} : Decidable (s.Forgets now ip) := inferInstanceAs (Decidable (_ ∧ _))

theorem clean_get? (s : State) (now : Nat) (ip : IpAddr) :
    (s.clean now).ips.get? ip = if s.Forgets now ip then none else s.ips.get? ip := by
  by_cases hc : s.cleanup ≤ now
  · have hclean : (s.clean now).ips = s.ips.delete (fun row => !row.retained now) := by
      unfold clean
      rw [if_pos hc]
    rw [hclean, Table.get?_delete]
    by_cases hf : s.Forgets now ip
    · rw [if_pos hf]
      obtain ⟨row, hrow, hr⟩ := (Option.any_eq_true ..).1 hf.2
      simp_all [Option.filter_some]
    · rw [if_neg hf]
      cases hrow : s.ips.get? ip with
      | none => rfl
      | some row =>
        cases hr : row.retained now with
        | true => simp [Option.filter_some, hr]
        | false => exact absurd ⟨hc, by simp [hrow, hr]⟩ hf
  · rw [clean, if_neg hc, if_neg (fun hf : s.Forgets now ip => hc hf.1)]

/-- Cleaning touches the cells of forgotten addresses only. -/
theorem clean_cells (s : State) (now : Nat) :
    (s.clean now).cells =
      { s.cells with
        ipInbound := fun ip => if s.Forgets now ip then none else s.cells.ipInbound ip
        ipQueries := fun ip => if s.Forgets now ip then none else s.cells.ipQueries ip } := by
  have hips := clean_get? s now
  have hrest : (s.clean now).queries = s.queries ∧ (s.clean now).inbound = s.inbound ∧
      (s.clean now).responses = s.responses ∧ (s.clean now).queryBytes = s.queryBytes ∧
      (s.clean now).replyBytes = s.replyBytes := by
    unfold clean
    split <;> exact ⟨rfl, rfl, rfl, rfl, rfl⟩
  obtain ⟨h1, h2, h3, h4, h5⟩ := hrest
  unfold cells
  simp only [h1, h2, h3, h4, h5, hips]
  congr 1 <;> funext ip <;> split <;> rfl

end State

/-! ## Queries -/

section Query

variable (k : State) (cls : Class) (ip : IpAddr) (bytes : Nat) (t : Nat → Nat)

/-- The cells after the three charges of a query. -/
def chargedQuery : Cells :=
  { k.cells with
    queries := Function.update k.cells.queries cls ((k.queries cls).charged 1 (t 12))
    ipQueries := Function.update k.cells.ipQueries ip ((k.entry ip t).queries.charged 1 (t 14))
    queryBytes := k.queryBytes.charged (max bytes 1) (t 16) }

/-- All or nothing for a query that finds the state `k`: it is granted when all three cells are
charged, each by a charge that conforms at its own reading, and changes no cell otherwise. -/
structure QueryAtomic (d : Decision) (after : State) : Prop where
  granted : d.wait = 0 ↔
    (k.queries cls).Takes 1 (t 12) ∧ (k.entry ip t).queries.Takes 1 (t 14) ∧
      k.queryBytes.Takes (max bytes 1) (t 16) ∧ after.cells = chargedQuery k cls ip bytes t
  refused : 0 < d.wait → after.cells = k.cells
  full : k.Full ip → d = ⟨SECOND, 8⟩
  class_bit : ¬ k.Full ip → (d.reasons.testBit 0 = true ↔
    0 < ((k.queries cls).check 1 false (fun i => t (6 + i))).1)
  ip_bit : ¬ k.Full ip → (d.reasons.testBit 1 = true ↔
    0 < ((k.entry ip t).queries.check 1 false (fun i => t (8 + i))).1)
  bytes_bit : ¬ k.Full ip → (d.reasons.testBit 2 = true ↔
    0 < (k.queryBytes.check bytes false (fun i => t (10 + i))).1)
  table_bit : d.reasons.testBit 3 = true ↔ k.Full ip

variable {k cls ip bytes t}

/-- Three charges show, so a state that has them is not the state before. -/
theorem chargedQuery_ne : chargedQuery k cls ip bytes t ≠ k.cells := by
  intro h
  have hc := congrFun (congrArg Cells.queries h) cls
  simp only [chargedQuery, Function.update_self] at hc
  exact Limiter.ne_charged (by decide) _ hc

theorem longest_three (a b c : Nat) : State.longest [a, b, c] = 0 ↔ a = 0 ∧ b = 0 ∧ c = 0 := by
  simp only [State.longest, List.foldl_cons, List.foldl_nil]
  omega

/-- The bits of the three waits. -/
theorem reasons_three (a b c : Nat) :
    ((State.reasons [a, b, c]).testBit 0 = true ↔ 0 < a) ∧
    ((State.reasons [a, b, c]).testBit 1 = true ↔ 0 < b) ∧
    ((State.reasons [a, b, c]).testBit 2 = true ↔ 0 < c) ∧
    (State.reasons [a, b, c]).testBit 3 = false := by
  simp only [State.reasons, List.zipIdx_cons, List.zipIdx_nil, List.foldl_cons, List.foldl_nil]
  by_cases ha : a = 0 <;> by_cases hb : b = 0 <;> by_cases hc : c = 0 <;>
    simp [ha, hb, hc, Nat.pos_iff_ne_zero] <;> decide

/-- The waits that a query probes. -/
def queryWaits (k : State) (cls : Class) (ip : IpAddr) (bytes : Nat) (t : Nat → Nat) : List Nat :=
  [((k.queries cls).check 1 false (fun i => t (6 + i))).1,
    ((k.entry ip t).queries.check 1 false (fun i => t (8 + i))).1,
    (k.queryBytes.check bytes false (fun i => t (10 + i))).1]

/-- When the longest wait is zero, every request conforms at its second pass. -/
theorem takes_of_longest_zero (ht : Monotone t)
    (hz : State.longest (queryWaits k cls ip bytes t) = 0) :
    (k.queries cls).Takes 1 (t 12) ∧ (k.entry ip t).queries.Takes 1 (t 14) ∧
      k.queryBytes.Takes (max bytes 1) (t 16) := by
  obtain ⟨hcls, hip, hbytes⟩ := (longest_three _ _ _).1 hz
  refine ⟨?_, ?_, ?_⟩
  · exact Limiter.takes_of_probe_zero hcls (ht (by omega : 6 + 0 ≤ 12)) (ht (by omega : 6 + 1 ≤ 12))
  · exact Limiter.takes_of_probe_zero hip (ht (by omega : 8 + 0 ≤ 14)) (ht (by omega : 8 + 1 ≤ 14))
  · exact Limiter.takes_of_probe_zero hbytes (ht (by omega : 10 + 0 ≤ 16))
      (ht (by omega : 10 + 1 ≤ 16))

/-- A full table refuses the query before any limiter is looked at. -/
theorem queryObserved_full {s : State} (hf : (s.clean (t 0)).Full ip) :
    s.queryObserved cls ip bytes t = some (⟨SECOND, 8⟩, s.clean (t 0)) := by
  unfold State.queryObserved
  rw [State.track_eq, if_pos hf]

/-- A query that finds room answers by its waits, and its cells are the charged ones exactly when
the longest wait is zero. -/
theorem queryObserved_room {s : State} (hb : bytes < 2 ^ 32) (ht : Monotone t)
    (hf : ¬ (s.clean (t 0)).Full ip) :
    ∃ after, s.queryObserved cls ip bytes t =
        some (⟨State.longest (queryWaits (s.clean (t 0)) cls ip bytes t),
          State.reasons (queryWaits (s.clean (t 0)) cls ip bytes t)⟩, after) ∧
      after.cells = if State.longest (queryWaits (s.clean (t 0)) cls ip bytes t) = 0
        then chargedQuery (s.clean (t 0)) cls ip bytes t else (s.clean (t 0)).cells := by
  unfold State.queryObserved
  rw [State.track_eq, if_neg hf]
  generalize s.clean (t 0) = k
  simp only [State.stamp_get?, State.stamp_queries, State.stamp_queryBytes, if_true,
    Nat.mod_eq_of_lt hb, Option.bind_eq_bind, Option.bind_some]
  show ∃ after, (if State.longest (queryWaits k cls ip bytes t) = 0 then _ else _) = _ ∧ _
  by_cases hz : State.longest (queryWaits k cls ip bytes t) = 0
  · -- every probe had a zero wait, so every commit conforms at its later reading
    rw [if_pos hz, if_pos hz]
    obtain ⟨hcls, hip, hbytes⟩ := takes_of_longest_zero ht hz
    refine ⟨_, rfl, ?_⟩
    rw [State.cells_putQuery, Limiter.probe_snd, Limiter.probe_snd, Limiter.probe_snd,
      Limiter.cell_commit (fun i => t (12 + i)) hcls, Limiter.cell_commit (fun i => t (14 + i)) hip,
      Limiter.cell_commit (fun i => t (16 + i)) hbytes]
    rfl
  · -- probes leave the cells alone
    rw [if_neg hz, if_neg hz]
    refine ⟨_, rfl, ?_⟩
    rw [State.cells_putQuery, Limiter.probe_snd, Limiter.probe_snd, Limiter.probe_snd]
    have hq : Function.update k.cells.queries cls (k.queries cls).cell = k.cells.queries :=
      Function.update_eq_self cls k.cells.queries
    have hi : Function.update k.cells.ipQueries ip (k.entry ip t).queries.cell =
        k.cells.ipQueries := by
      rw [← k.ipQueries_entry ip t]
      exact Function.update_eq_self ip k.cells.ipQueries
    show ({ k.cells with
      queries := Function.update k.cells.queries cls (k.queries cls).cell
      queryBytes := k.queryBytes.cell
      ipQueries := Function.update k.cells.ipQueries ip (k.entry ip t).queries.cell } : Cells) = _
    rw [hq, hi]
    rfl

/-- **A query is all or nothing.** -/
theorem query_atomic {s : State} (hb : bytes < 2 ^ 32) (ht : Monotone t) :
    ∃ d after, s.queryObserved cls ip bytes t = some (d, after) ∧
      QueryAtomic (s.clean (t 0)) cls ip bytes t d after := by
  by_cases hf : (s.clean (t 0)).Full ip
  · refine ⟨_, _, queryObserved_full hf, ⟨?_, fun _ => rfl, fun _ => rfl, ?_, ?_, ?_, ?_⟩⟩
    · constructor
      · intro h
        exact absurd h (by decide)
      · rintro ⟨-, -, -, h⟩
        exact absurd h.symm chargedQuery_ne
    · exact fun h => absurd hf h
    · exact fun h => absurd hf h
    · exact fun h => absurd hf h
    · exact iff_of_true (by decide) hf
  · obtain ⟨after, heq, hcells⟩ := @queryObserved_room cls ip bytes t s hb ht hf
    refine ⟨_, _, heq, ?_⟩
    generalize s.clean (t 0) = k at hf hcells ⊢
    obtain ⟨h0, h1, h2, h3⟩ := reasons_three
      ((k.queries cls).check 1 false (fun i => t (6 + i))).1
      ((k.entry ip t).queries.check 1 false (fun i => t (8 + i))).1
      (k.queryBytes.check bytes false (fun i => t (10 + i))).1
    refine ⟨?_, ?_, fun h => absurd h hf, fun _ => h0, fun _ => h1, fun _ => h2, ?_⟩
    · constructor
      · intro hz
        obtain ⟨hcls, hip, hbytes⟩ := takes_of_longest_zero ht hz
        rw [if_pos hz] at hcells
        exact ⟨hcls, hip, hbytes, hcells⟩
      · rintro ⟨-, -, -, h⟩
        by_contra hz
        rw [if_neg hz] at hcells
        exact chargedQuery_ne (h.symm.trans hcells)
    · intro hz
      rw [if_neg (Nat.pos_iff_ne_zero.1 hz)] at hcells
      exact hcells
    · exact iff_of_false (fun h => Bool.false_ne_true (h3.symm.trans h)) hf

end Query

/-! ## Ordinary datagrams -/

section Ordinary

variable (k : State) (ip : IpAddr) (t : Nat → Nat)

/-- The cells after the two charges of an ordinary datagram. -/
def chargedOrdinary : Cells :=
  { k.cells with
    inbound := k.inbound.charged 1 (t 10)
    ipInbound := Function.update k.cells.ipInbound ip ((k.entry ip t).inbound.charged 1 (t 12)) }

/-- All or nothing for an ordinary datagram that finds the state `k`. -/
structure OrdinaryAtomic (admitted : Bool) (after : State) : Prop where
  granted : admitted = true ↔
    k.inbound.Takes 1 (t 10) ∧ (k.entry ip t).inbound.Takes 1 (t 12) ∧
      after.cells = chargedOrdinary k ip t
  refused : admitted = false → after.cells = k.cells
  full : k.Full ip → admitted = false
  waits : ¬ k.Full ip → (admitted = false ↔
    0 < (k.inbound.check 1 false (fun i => t (6 + i))).1 ∨
      0 < ((k.entry ip t).inbound.check 1 false (fun i => t (8 + i))).1)

variable {k ip t}

theorem chargedOrdinary_ne : chargedOrdinary k ip t ≠ k.cells := by
  intro h
  exact Limiter.ne_charged (by decide) _ (congrArg Cells.inbound h)

/-- Writing back two limiters whose cells did not move changes no cell. -/
theorem cells_putInbound_same {a b : Limiter} (ha : a.cell = k.inbound.cell)
    (hb : b.cell = (k.entry ip t).inbound.cell) :
    ((k.stamp ip t).putInbound { k.entry ip t with touched := t 1 } a b).cells = k.cells := by
  rw [State.cells_putInbound, ha, hb, ← k.ipInbound_entry ip t, Function.update_eq_self]
  rfl

/-- A refused datagram changes no cell and was not charged. -/
theorem OrdinaryAtomic.of_refused {after : State} (hc : after.cells = k.cells)
    (hw : ¬ k.Full ip → 0 < (k.inbound.check 1 false (fun i => t (6 + i))).1 ∨
      0 < ((k.entry ip t).inbound.check 1 false (fun i => t (8 + i))).1) :
    OrdinaryAtomic k ip t false after where
  granted := by
    constructor
    · intro h
      cases h
    · rintro ⟨-, -, h⟩
      exact absurd (h.symm.trans hc) chargedOrdinary_ne
  refused := fun _ => hc
  full := fun _ => rfl
  waits := fun hf => iff_of_true rfl (hw hf)

/-- **An ordinary datagram is all or nothing.** -/
theorem ordinary_atomic {s : State} (ht : Monotone t) :
    ∃ admitted after, s.ordinary ip t = some (admitted, after) ∧
      OrdinaryAtomic (s.clean (t 0)) ip t admitted after := by
  unfold State.ordinary
  rw [State.track_eq]
  generalize s.clean (t 0) = k
  by_cases hf : k.Full ip
  · rw [if_pos hf]
    exact ⟨_, _, rfl, .of_refused rfl (fun h => absurd hf h)⟩
  · rw [if_neg hf]
    simp only [State.stamp_get?, State.stamp_inbound, if_true, Option.bind_eq_bind,
      Option.bind_some]
    by_cases ha : (k.inbound.check 1 false (fun i => t (6 + i))).1 = 0
    · rw [if_neg (not_not.2 ha)]
      by_cases hb : ((k.entry ip t).inbound.check 1 false (fun i => t (8 + i))).1 = 0
      · rw [if_neg (not_not.2 hb)]
        have hta : k.inbound.Takes 1 (t 10) :=
          Limiter.takes_of_probe_zero ha (ht (by omega : 6 + 0 ≤ 10)) (ht (by omega : 6 + 1 ≤ 10))
        have htb : (k.entry ip t).inbound.Takes 1 (t 12) :=
          Limiter.takes_of_probe_zero hb (ht (by omega : 8 + 0 ≤ 12)) (ht (by omega : 8 + 1 ≤ 12))
        refine ⟨_, _, rfl, ⟨iff_of_true rfl ⟨hta, htb, ?_⟩, ?_, fun h => absurd h hf, ?_⟩⟩
        · rw [State.cells_putInbound, Limiter.probe_snd, Limiter.probe_snd,
            Limiter.cell_commit (fun i => t (10 + i)) hta,
            Limiter.cell_commit (fun i => t (12 + i)) htb]
          rfl
        · intro h
          cases h
        · intro _
          refine iff_of_false (by decide) ?_
          rw [ha, hb]
          simp
      · rw [if_pos hb]
        refine ⟨_, _, rfl, .of_refused (cells_putInbound_same ?_ ?_)
          (fun _ => .inr (Nat.pos_of_ne_zero hb))⟩
        · rw [Limiter.probe_snd]
          rfl
        · rw [Limiter.probe_snd]
          rfl
    · rw [if_pos ha]
      refine ⟨_, _, rfl, .of_refused (cells_putInbound_same ?_ rfl)
        (fun _ => .inl (Nat.pos_of_ne_zero ha))⟩
      rw [Limiter.probe_snd]
      rfl

end Ordinary

/-! ## The combined quota -/

/-- **A combined quota is all or nothing.**  Whatever the readings of the clock during a call, it
charges all of its cells, each once and by a conforming charge, or none; before that the call forgets
the addresses that were idle for a minute, and changes no other cell. -/
theorem combined_quota (s : State) (ip : IpAddr) (t : Nat → Nat) (ht : Monotone t) :
    (∀ (cls : Class) (bytes : Nat), bytes < 2 ^ 32 →
      ∃ d after, s.queryObserved cls ip bytes t = some (d, after) ∧
        QueryAtomic (s.clean (t 0)) cls ip bytes t d after) ∧
    (∃ admitted after, s.ordinary ip t = some (admitted, after) ∧
      OrdinaryAtomic (s.clean (t 0)) ip t admitted after) ∧
    s.admitInbound ip false t = s.ordinary ip t ∧ s.disguisedQuery ip t = s.ordinary ip t ∧
    (s.clean (t 0)).cells =
      { s.cells with
        ipInbound := fun j => if s.Forgets (t 0) j then none else s.cells.ipInbound j
        ipQueries := fun j => if s.Forgets (t 0) j then none else s.cells.ipQueries j } :=
  ⟨fun _ _ hb => query_atomic hb ht, ordinary_atomic ht, rfl, rfl, s.clean_cells (t 0)⟩

/-- A budget whose control class opens 7 ns after its start. -/
def nearlyOpen : State where
  queries := fun cls => { Limiter.new 6 (by decide) (fun _ => 0) with
    state := ⟨if cls = .control then some 833333342 else none, false⟩ }
  inbound := .new 200 (by decide) (fun _ => 0)
  responses := .new 128 responses_pos (fun _ => 0)
  queryBytes := .new 32768 (by decide) (fun _ => 0)
  replyBytes := .new 229376 (by decide) (fun _ => 0)
  ips := .empty
  cleanup := 0
  verificationQueued := 0
  verificationLimit := 10

/-- The class refuses at the reading of 6 ns, the wait is computed at 7 ns and is zero, and the
charges are made at 12, 14 and 16 ns: the query is granted. -/
theorem combined_quota_nearlyOpen :
    ¬ (nearlyOpen.queries .control).Takes 1 6 ∧
    ∃ d after, nearlyOpen.queryObserved .control (.v4 1) 100 (fun i => i) = some (d, after) ∧
      d = ⟨0, 0⟩ ∧
      after.cells = chargedQuery (nearlyOpen.clean 0) .control (.v4 1) 100 (fun i => i) := by
  refine ⟨by decide +kernel, ?_⟩
  obtain ⟨d, after, heq, hq⟩ :=
    (combined_quota nearlyOpen (.v4 1) (fun i => i) monotone_id).1 .control 100 (by decide)
  have hd : d = ⟨0, 0⟩ := by
    have hrun : (nearlyOpen.queryObserved .control (.v4 1) 100 (fun i => i)).map (·.1) =
        some ⟨0, 0⟩ := by decide +kernel
    rw [heq] at hrun
    exact Option.some.inj hrun
  refine ⟨d, after, heq, hd, (hq.granted.1 ?_).2.2.2⟩
  rw [hd]

end BtSniffer.Traffic
