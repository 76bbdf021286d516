import BtSniffer.Dht.TransactionRun

/-!
# The way of the transaction counter

An id that has left the manager is taken again when the counter comes to it, which passes over the ids
that are registered.

* `TransactionManager.spare` — the registrations until the counter comes to an id.
* `register_spare` — each one takes the first free id, and another one only while none is left before it.
* `le_freeIds` — only as many ids are passed over as there are transactions.
-/

set_option autoImplicit false

namespace BtSniffer

open Relational

namespace TransactionManager

variable {m : TransactionManager} {id : TransactionId}
  {t u : Table PendingTransaction PendingTransaction.id} {c : TransactionId} {n k : Nat}

/-- The free ids among the next ones. -/
def freeIds (t : Table PendingTransaction PendingTransaction.id) : Nat → TransactionId → Nat
  | 0, _ => 0
  | n + 1, c => (if (t.get? c).isSome then 0 else 1) + freeIds t n (c + 1)

/-- The registrations until the counter comes to an id, if no id were taken. -/
def ahead (m : TransactionManager) (id : TransactionId) : Nat := (id - m.nextCounter).toNat

/-- The registrations until the counter comes to an id. -/
def spare (m : TransactionManager) (id : TransactionId) : Nat :=
  freeIds m.pending (m.ahead id) m.nextCounter

theorem add_succ (c : TransactionId) (k : Nat) :
    c + 1 + BitVec.ofNat 32 k = c + BitVec.ofNat 32 (k + 1) := by
  rw [BitVec.add_assoc, BitVec.ofNat_add, BitVec.add_comm 1]
  rfl

/-- Ids at different distances differ. -/
theorem add_ne {j : Nat} (hj : j < 2 ^ 32) (hk : k < 2 ^ 32) (hne : j ≠ k) :
    c + BitVec.ofNat 32 j ≠ c + BitVec.ofNat 32 k := by
  intro heq
  have hnat := congrArg BitVec.toNat ((BitVec.add_right_inj c).1 heq)
  rw [BitVec.toNat_ofNat, BitVec.toNat_ofNat, Nat.mod_eq_of_lt hj, Nat.mod_eq_of_lt hk] at hnat
  exact hne hnat

/-- Fewer ids are free in a fuller table. -/
theorem freeIds_mono : ∀ (n : Nat) (c : TransactionId),
    (∀ j < n, (u.get? (c + BitVec.ofNat 32 j)).isSome → (t.get? (c + BitVec.ofNat 32 j)).isSome) →
    freeIds t n c ≤ freeIds u n c
  | 0, _, _ => le_rfl
  | n + 1, c, h => by
    have hrest := freeIds_mono n (c + 1) (fun j hj => by
      rw [add_succ]
      exact h (j + 1) (by omega))
    have hhead := h 0 (by omega)
    rw [BitVec.add_zero] at hhead
    unfold freeIds
    split
    · omega
    · rename_i hfree
      rw [if_neg (fun hsome => hfree (hhead hsome))]
      omega

/-- Ids that are taken are passed over. -/
theorem freeIds_skip : ∀ (k n : Nat) (c : TransactionId),
    (∀ j < k, (t.get? (c + BitVec.ofNat 32 j)).isSome) →
    freeIds t (k + n) c = freeIds t n (c + BitVec.ofNat 32 k)
  | 0, n, c, _ => by rw [Nat.zero_add, BitVec.add_zero]
  | k + 1, n, c, h => by
    have hhead := h 0 (by omega)
    rw [BitVec.add_zero] at hhead
    have htail : ∀ j < k, (t.get? (c + 1 + BitVec.ofNat 32 j)).isSome := by
      intro j hj
      rw [add_succ]
      exact h (j + 1) (by omega)
    calc freeIds t (k + 1 + n) c
        = freeIds t (k + n + 1) c := by rw [Nat.add_right_comm]
      _ = freeIds t (k + n) (c + 1) := by rw [freeIds, if_pos hhead, Nat.zero_add]
      _ = freeIds t n (c + 1 + BitVec.ofNat 32 k) := freeIds_skip k n (c + 1) htail
      _ = freeIds t n (c + BitVec.ofNat 32 (k + 1)) := by rw [add_succ]

/-- **Only as many ids are taken as there are transactions.** -/
theorem le_freeIds : ∀ (n : Nat) (c : TransactionId) (t : Table PendingTransaction PendingTransaction.id),
    n ≤ 2 ^ 32 → n ≤ freeIds t n c + t.rows.length
  | 0, _, _, _ => Nat.zero_le _
  | n + 1, c, t, hn => by
    unfold freeIds
    cases hget : t.get? c with
    | none =>
      have := le_freeIds n (c + 1) t (by omega)
      simp only [Option.isSome_none, Bool.false_eq_true, if_false]
      omega
    | some x =>
      have hrest := le_freeIds n (c + 1) (t.erase c) (by omega)
      have hlen := Table.length_erase_some hget
      have hsame : freeIds (t.erase c) n (c + 1) ≤ freeIds t n (c + 1) := by
        refine freeIds_mono n (c + 1) fun j hj hsome => ?_
        rw [Table.get?_erase, if_neg]
        · exact hsome
        · rw [add_succ]
          have hne := add_ne (c := c) (j := j + 1) (k := 0) (by omega) (by omega) (by omega)
          rw [BitVec.add_zero] at hne
          exact fun heq => hne heq
      simp only [Option.isSome_some, if_true]
      omega

/-- The loop stops at the first free id. -/
theorem registerLoop_first (destination : SocketAddr) (method : QueryMethod) (now : Instant) :
    ∀ (turns : Nat) (m : TransactionManager),
      (∃ k < turns, m.pending.get? (m.nextCounter + BitVec.ofNat 32 k) = none) →
      ∃ k < turns, (∀ j < k, (m.pending.get? (m.nextCounter + BitVec.ofNat 32 j)).isSome) ∧
        m.pending.get? (m.nextCounter + BitVec.ofNat 32 k) = none ∧
        registerLoop destination method now turns m = (.ok (m.nextCounter + BitVec.ofNat 32 k), { m with
          nextCounter := m.nextCounter + BitVec.ofNat 32 k + 1
          pending := m.pending.insert
            (m.added (m.nextCounter + BitVec.ofNat 32 k) destination method now) })
  | 0, m, ⟨k, hk, _⟩ => absurd hk (Nat.not_lt_zero k)
  | turns + 1, m, ⟨k, hk, hfree⟩ => by
    unfold registerLoop TransactionId.fromCounter
    cases hget : m.pending.get? m.nextCounter with
    | none =>
      refine ⟨0, Nat.succ_pos _, fun j hj => absurd hj (Nat.not_lt_zero j), ?_, ?_⟩
      · rwa [BitVec.add_zero]
      · simp [hget, added]
    | some x =>
      -- the first id is taken, so the free one is met later
      have hpos : k ≠ 0 := by
        rintro rfl
        rw [BitVec.add_zero, hget] at hfree
        cases hfree
      obtain ⟨i, rfl⟩ := Nat.exists_eq_succ_of_ne_zero hpos
      obtain ⟨j, hj, htaken, hid, hloop⟩ := registerLoop_first destination method now turns
        { m with nextCounter := m.nextCounter + 1 } ⟨i, by omega, by rw [add_succ]; exact hfree⟩
      simp only [add_succ] at htaken hid hloop
      refine ⟨j + 1, by omega, fun l hl => ?_, hid, ?_⟩
      · cases l with
        | zero =>
          rw [BitVec.add_zero, hget]
          rfl
        | succ l => exact htaken l (by omega)
      · simp only [hget, Option.isSome_some, if_true]
        exact hloop

/-- A transaction that ends makes room. -/
theorem spare_erase (m : TransactionManager) (id other : TransactionId) :
    m.spare other ≤ { m with pending := m.pending.erase id }.spare other := by
  refine freeIds_mono _ _ fun j _ hsome => ?_
  rw [Table.get?_erase] at hsome
  split at hsome
  · cases hsome
  · exact hsome

/-- An id with a free one before it lies behind those that are taken. -/
theorem spare_split {other : TransactionId} (hpos : 0 < m.spare other)
    (htaken : ∀ j < k, (m.pending.get? (m.nextCounter + BitVec.ofNat 32 j)).isSome) :
    ∃ n, m.ahead other = k + n + 1 ∧
      other = m.nextCounter + BitVec.ofNat 32 (m.ahead other) ∧
      m.spare other = freeIds m.pending (n + 1) (m.nextCounter + BitVec.ofNat 32 k) := by
  have hlt : k < m.ahead other := by
    by_contra hle
    have hzero := freeIds_skip (t := m.pending) (m.ahead other) 0 m.nextCounter
      (fun j hj => htaken j (by omega))
    unfold spare at hpos
    rw [Nat.add_zero] at hzero
    rw [hzero] at hpos
    exact Nat.lt_irrefl 0 hpos
  obtain ⟨n, hn⟩ := Nat.exists_eq_add_of_lt hlt
  refine ⟨n, hn, ?_, ?_⟩
  · unfold ahead
    rw [BitVec.ofNat_toNat, BitVec.setWidth_eq]
    bv_omega
  · unfold spare
    rw [hn, Nat.add_assoc]
    exact freeIds_skip k (n + 1) m.nextCounter htaken

/-- **Registration brings the counter closer to an id that is not registered by one free id**, and does
not take it while another one is free before it. -/
theorem register_spare (hmax : m.maxPending < 2 ^ 32) (hroom : m.len < m.maxPending)
    (destination : SocketAddr) (method : QueryMethod) (now : Instant) :
    ∃ id m', m.register destination method now = (.ok id, m') ∧ m.pending.get? id = none ∧
      m'.pending = m.pending.insert (m.added id destination method now) ∧
      m'.maxPending = m.maxPending ∧
      ∀ other, 0 < m.spare other → other ≠ id ∧ m.spare other ≤ m'.spare other + 1 := by
  have hfree := exists_free m.nextCounter (show m.len < m.maxPending + 1 by omega) (by omega)
  obtain ⟨k, hk, htaken, hid, hloop⟩ := registerLoop_first destination method now _ m hfree
  have hregister : m.register destination method now =
      registerLoop destination method now (m.maxPending + 1) m := by
    unfold register
    rw [if_neg (Nat.not_le.2 hroom)]
  rw [hloop] at hregister
  refine ⟨_, _, hregister, hid, rfl, rfl, fun other hpos => ⟨?_, ?_⟩⟩
  · obtain ⟨n, hn, hother, -⟩ := spare_split hpos htaken
    rw [hother]
    exact add_ne (BitVec.isLt _) (by omega) (by omega)
  · obtain ⟨n, hn, -, hspare⟩ := spare_split hpos htaken
    have hbound : m.ahead other < 2 ^ 32 := BitVec.isLt _
    have hnext : ({ m with
        nextCounter := m.nextCounter + BitVec.ofNat 32 k + 1
        pending := m.pending.insert
          (m.added (m.nextCounter + BitVec.ofNat 32 k) destination method now) } :
        TransactionManager).ahead other = n := by
      unfold ahead at hn hbound ⊢
      simp only
      bv_omega
    have hsame := freeIds_mono (t := m.pending) (u := m.pending.insert
        (m.added (m.nextCounter + BitVec.ofNat 32 k) destination method now)) n
        (m.nextCounter + BitVec.ofNat 32 k + 1) (fun j hj hsome => by
      have hne := add_ne (c := m.nextCounter + BitVec.ofNat 32 k) (j := 0) (k := j + 1)
        (by omega) (by omega) (by omega)
      rw [BitVec.add_zero, ← add_succ] at hne
      rw [Table.get?_insert] at hsome
      rwa [if_neg (show (m.added (m.nextCounter + BitVec.ofNat 32 k) destination method now).id ≠ _ from
        hne)] at hsome)
    have hhead : freeIds m.pending (n + 1) (m.nextCounter + BitVec.ofNat 32 k) =
        1 + freeIds m.pending n (m.nextCounter + BitVec.ofNat 32 k + 1) := by
      rw [freeIds, if_neg (by simp [hid])]
    rw [hspare, hhead, Nat.add_comm]
    unfold spare
    rw [hnext]
    exact Nat.succ_le_succ hsame

end TransactionManager
end BtSniffer
