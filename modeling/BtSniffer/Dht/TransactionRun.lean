import BtSniffer.Dht.Transaction
import Mathlib.Data.List.Perm.Subperm

/-!
# Transaction matching

* `registerLoop_free` — the search for an id succeeds, wherever the counter stands, because fewer ids
  are in use than it tries.
* `complete_ok_iff`, `complete_unchanged` — which datagrams match and which change nothing.
* `TransactionLog` — a run with the transactions that entered and left it.
* `transaction_matching` — the manager after every run.
-/

set_option autoImplicit false

namespace BtSniffer

open Relational

/-! ## Ids on the wire -/

theorem tryFrom_toByteBuf (id : TransactionId) : TransactionId.tryFrom id.toByteBuf = .ok id := by
  unfold TransactionId.toByteBuf TransactionId.tryFrom
  simp only
  congr 1
  apply BitVec.eq_of_getLsbD_eq
  intro i hi
  simp only [BitVec.getLsbD_append, BitVec.getLsbD_extractLsb']
  by_cases h1 : i < 8
  · simp [h1]
  · by_cases h2 : i - 8 < 8
    · rw [if_neg h1, if_pos h2, show 8 + (i - 8) = i from by omega]
      simp [h2]
    · by_cases h3 : i - 8 - 8 < 8
      · rw [if_neg h1, if_neg h2, if_pos h3, show 16 + (i - 8 - 8) = i from by omega]
        simp [h3]
      · have h4 : i - 8 - 8 - 8 < 8 := by omega
        rw [if_neg h1, if_neg h2, if_neg h3, show 24 + (i - 8 - 8 - 8) = i from by omega]
        simp [h4]

theorem toByteBuf_append (a b c d : UInt8) :
    TransactionId.toByteBuf (a.toBitVec ++ b.toBitVec ++ c.toBitVec ++ d.toBitVec) =
      [a, b, c, d] := by
  have hbyte : ∀ (x : UInt8) (start : Nat),
      (∀ i < 8, (a.toBitVec ++ b.toBitVec ++ c.toBitVec ++ d.toBitVec).getLsbD (start + i) =
        x.toBitVec.getLsbD i) →
      (⟨(a.toBitVec ++ b.toBitVec ++ c.toBitVec ++ d.toBitVec).extractLsb' start 8⟩ : UInt8) =
        x := by
    intro x start h
    apply UInt8.toBitVec_inj.1
    apply BitVec.eq_of_getLsbD_eq
    intro i hi
    rw [BitVec.getLsbD_extractLsb', h i hi]
    simp [hi]
  unfold TransactionId.toByteBuf
  rw [hbyte a 24, hbyte b 16, hbyte c 8, hbyte d 0]
  all_goals
    intro i hi
    simp only [BitVec.getLsbD_append]
  · rw [if_pos (by omega), Nat.zero_add]
  · rw [if_neg (by omega), if_pos (by omega)]
    congr 1
    omega
  · rw [if_neg (by omega), if_neg (by omega), if_pos (by omega)]
    congr 1
    omega
  · rw [if_neg (by omega), if_neg (by omega), if_neg (by omega)]
    congr 1
    omega

/-- An id is accepted exactly if it is the four bytes the word is written as. -/
theorem tryFrom_ok_iff {bytes : List UInt8} {id : TransactionId} :
    TransactionId.tryFrom bytes = .ok id ↔ bytes = id.toByteBuf := by
  constructor
  · intro h
    match bytes, h with
    | [a, b, c, d], h =>
      cases h
      exact (toByteBuf_append a b c d).symm
  · rintro rfl
    exact tryFrom_toByteBuf id

theorem tryFrom_error_iff {bytes : List UInt8} {e : TransactionError} :
    TransactionId.tryFrom bytes = .error e ↔
      bytes.length ≠ 4 ∧ e = .invalidTransactionIdLength bytes.length := by
  match bytes with
  | [] => simp [TransactionId.tryFrom, eq_comm]
  | [a] => simp [TransactionId.tryFrom, eq_comm]
  | [a, b] => simp [TransactionId.tryFrom, eq_comm]
  | [a, b, c] => simp [TransactionId.tryFrom, eq_comm]
  | [a, b, c, d] => simp [TransactionId.tryFrom]
  | a :: b :: c :: d :: e' :: rest => simp [TransactionId.tryFrom, eq_comm]

namespace TransactionManager

variable {m m' : TransactionManager}

/-! ## Registration -/

/-- The transaction a registration adds. -/
def added (m : TransactionManager) (id : TransactionId) (destination : SocketAddr)
    (method : QueryMethod) (now : Instant) : PendingTransaction :=
  ⟨id, destination, method, now, now + m.timeout⟩

/-- Among more consecutive ids than there are transactions, one is free. -/
theorem exists_free (counter : BitVec 32) {turns : Nat} (hlen : m.len < turns)
    (hturns : turns ≤ 2 ^ 32) :
    ∃ k < turns, m.pending.get? (counter + BitVec.ofNat 32 k) = none := by
  by_contra hnone
  have hsub : (List.range turns).map (fun k => counter + BitVec.ofNat 32 k) ⊆
      m.pending.rows.map PendingTransaction.id := by
    intro id hid
    obtain ⟨k, hk, rfl⟩ := List.mem_map.1 hid
    rw [List.mem_range] at hk
    cases hget : m.pending.get? (counter + BitVec.ofNat 32 k) with
    | none => exact absurd ⟨k, hk, hget⟩ hnone
    | some x =>
      obtain ⟨hx, hxk⟩ := Table.get?_eq_some.1 hget
      exact List.mem_map.2 ⟨x, hx, hxk⟩
  have hnodup : ((List.range turns).map (fun k => counter + BitVec.ofNat 32 k)).Nodup := by
    refine List.Nodup.map_on ?_ List.nodup_range
    intro a ha b hb hab
    rw [List.mem_range] at ha hb
    have hword : BitVec.ofNat 32 a = BitVec.ofNat 32 b := (BitVec.add_right_inj counter).1 hab
    have hnat := congrArg BitVec.toNat hword
    rwa [BitVec.toNat_ofNat, BitVec.toNat_ofNat, Nat.mod_eq_of_lt (by omega),
      Nat.mod_eq_of_lt (by omega)] at hnat
  have hle := (hnodup.subperm hsub).length_le
  rw [List.length_map, List.length_map, List.length_range] at hle
  unfold len at hlen
  omega

/-- The loop stops at a free id, if one of its turns meets one. -/
theorem registerLoop_free (destination : SocketAddr) (method : QueryMethod) (now : Instant) :
    ∀ (turns : Nat) (m : TransactionManager),
      (∃ k < turns, m.pending.get? (m.nextCounter + BitVec.ofNat 32 k) = none) →
      ∃ id counter, m.pending.get? id = none ∧
        registerLoop destination method now turns m = (.ok id, { m with
          nextCounter := counter, pending := m.pending.insert (m.added id destination method now) })
  | 0, m, ⟨k, hk, _⟩ => absurd hk (Nat.not_lt_zero k)
  | turns + 1, m, ⟨k, hk, hfree⟩ => by
    unfold registerLoop TransactionId.fromCounter
    cases hget : m.pending.get? m.nextCounter with
    | none =>
      refine ⟨m.nextCounter, m.nextCounter + 1, hget, ?_⟩
      simp [hget, added]
    | some x =>
      -- the first id is taken, so the free one is met later
      have hpos : k ≠ 0 := by
        rintro rfl
        rw [BitVec.add_zero, hget] at hfree
        cases hfree
      obtain ⟨j, rfl⟩ := Nat.exists_eq_succ_of_ne_zero hpos
      have hnext : m.nextCounter + 1 + BitVec.ofNat 32 j = m.nextCounter + BitVec.ofNat 32 (j + 1) := by
        rw [BitVec.add_assoc, BitVec.ofNat_add, BitVec.add_comm 1]
        rfl
      obtain ⟨id, counter, hid, hloop⟩ := registerLoop_free destination method now turns
        { m with nextCounter := m.nextCounter + 1 } ⟨j, by omega, by rw [hnext]; exact hfree⟩
      refine ⟨id, counter, hid, ?_⟩
      simp only [hget, Option.isSome_some, if_true]
      exact hloop

/-- **Registration** fails exactly at capacity; otherwise it adds one transaction with a free id. -/
theorem register_cases (hmax : m.maxPending < 2 ^ 32) (destination : SocketAddr)
    (method : QueryMethod) (now : Instant) :
    (m.maxPending ≤ m.len ∧
        m.register destination method now = (.error (.atCapacity m.maxPending), m)) ∨
      (m.len < m.maxPending ∧ ∃ id counter, m.pending.get? id = none ∧
        m.register destination method now = (.ok id, { m with
          nextCounter := counter
          pending := m.pending.insert (m.added id destination method now) })) := by
  unfold register
  by_cases hfull : m.len ≥ m.maxPending
  · exact .inl ⟨hfull, by rw [if_pos hfull]⟩
  · rw [if_neg hfull]
    have hlt : m.len < m.maxPending := by omega
    have hfree := exists_free m.nextCounter (show m.len < m.maxPending + 1 by omega) (by omega)
    exact .inr ⟨hlt, registerLoop_free destination method now _ m hfree⟩

/-! ## Completion -/

/-- What a completion can do. -/
theorem complete_cases (m : TransactionManager) (t : List UInt8) (source : SocketAddr)
    (now : Instant) :
    (t.length ≠ 4 ∧
        m.complete t source now = (.error (.invalidTransactionIdLength t.length), m)) ∨
      (∃ id, t = id.toByteBuf ∧ m.pending.get? id = none ∧
        m.complete t source now = (.error (.unknownTransaction id), m)) ∨
      ∃ x, m.pending.get? x.id = some x ∧ t = x.id.toByteBuf ∧
        ((x.destination ≠ source ∧
            m.complete t source now = (.error (.sourceMismatch x.id x.destination source), m)) ∨
          (x.destination = source ∧ x.deadline ≤ now ∧
            m.complete t source now =
              (.error (.expired x), { m with pending := m.pending.erase x.id })) ∨
          (x.destination = source ∧ now < x.deadline ∧
            m.complete t source now =
              (.ok ⟨x, now⟩, { m with pending := m.pending.erase x.id }))) := by
  unfold complete
  cases ht : TransactionId.tryFrom t with
  | error e =>
    obtain ⟨hlen, rfl⟩ := tryFrom_error_iff.1 ht
    exact .inl ⟨hlen, rfl⟩
  | ok id =>
    have hid := tryFrom_ok_iff.1 ht
    cases hget : m.pending.get? id with
    | none => exact .inr (.inl ⟨id, hid, hget, by simp [hget]⟩)
    | some x =>
      obtain ⟨hx, rfl⟩ := Table.get?_eq_some.1 hget
      refine .inr (.inr ⟨x, hget, hid, ?_⟩)
      by_cases hsource : x.destination = source
      · by_cases hdue : x.deadline ≤ now
        · exact .inr (.inl ⟨hsource, hdue, by simp [hget, hsource, hdue]⟩)
        · exact .inr (.inr ⟨hsource, not_le.1 hdue, by simp [hget, hsource, hdue]⟩)
      · exact .inl ⟨hsource, by simp [hget, hsource]⟩

theorem toByteBuf_inj {a b : TransactionId} (h : a.toByteBuf = b.toByteBuf) : a = b := by
  have ha := tryFrom_toByteBuf a
  rw [h, tryFrom_toByteBuf] at ha
  exact (Except.ok.inj ha).symm

theorem complete_ok_iff {t : List UInt8} {source : SocketAddr} {now : Instant}
    {r : CompletedTransaction} :
    (m.complete t source now).1 = .ok r ↔ ∃ x ∈ m.pending.rows, t = x.id.toByteBuf ∧
      x.destination = source ∧ now < x.deadline ∧ r = ⟨x, now⟩ := by
  constructor
  · intro h
    rcases complete_cases m t source now with ⟨-, hc⟩ | ⟨id, -, -, hc⟩ |
      ⟨x, hx, ht, ⟨-, hc⟩ | ⟨-, -, hc⟩ | ⟨hsource, hdue, hc⟩⟩ <;> rw [hc] at h <;> cases h
    exact ⟨x, (Table.get?_eq_some.1 hx).1, ht, hsource, hdue, rfl⟩
  · rintro ⟨x, hx, ht, hsource, hdue, rfl⟩
    have hget : m.pending.get? x.id = some x := Table.get?_key hx
    unfold complete
    rw [tryFrom_ok_iff.2 ht]
    simp [hget, hsource, not_le.2 hdue]

/-- A datagram of the wrong length, with an unknown id or from the wrong source changes nothing. -/
theorem complete_unchanged {t : List UInt8} {source : SocketAddr} {now : Instant}
    (h : ¬ ∃ x ∈ m.pending.rows, t = x.id.toByteBuf ∧ x.destination = source) :
    (m.complete t source now).2 = m := by
  rcases complete_cases m t source now with ⟨-, hc⟩ | ⟨id, -, -, hc⟩ |
    ⟨x, hx, ht, ⟨-, hc⟩ | ⟨hsource, -, hc⟩ | ⟨hsource, -, hc⟩⟩
  · rw [hc]
  · rw [hc]
  · rw [hc]
  · exact absurd ⟨x, (Table.get?_eq_some.1 hx).1, ht, hsource⟩ h
  · exact absurd ⟨x, (Table.get?_eq_some.1 hx).1, ht, hsource⟩ h

/-! ## Expiry -/

theorem mem_expire {now : Instant} {x : PendingTransaction} :
    x ∈ (m.expire now).1 ↔ x ∈ m.pending.rows ∧ x.deadline ≤ now := by
  unfold expire
  rw [List.mem_insertionSort, List.mem_filter, decide_eq_true_eq]

theorem mem_expire_left {now : Instant} {x : PendingTransaction} :
    x ∈ (m.expire now).2.pending.rows ↔ x ∈ m.pending.rows ∧ now < x.deadline := by
  unfold expire
  rw [Table.mem_delete, decide_eq_false_iff_not, not_le]

/-- The ids are distinct, so the order is strict. -/
theorem expire_sorted (m : TransactionManager) (now : Instant) :
    (m.expire now).1.Pairwise (fun a b => expiryKey a < expiryKey b) := by
  have hsorted : (m.expire now).1.Pairwise (Table.orderBy expiryKey) :=
    List.pairwise_insertionSort _ _
  have hnodup : (m.expire now).1.Nodup :=
    (List.perm_insertionSort _ _).nodup_iff.2 (m.pending.nodup_rows.filter _)
  refine (hsorted.and hnodup).imp_of_mem ?_
  intro a b ha hb hab
  obtain ⟨hle, hne⟩ := hab
  refine lt_of_le_of_ne hle (fun heq => hne ?_)
  have hid : a.id.toNat = b.id.toNat := congrArg (fun k => (ofLex k).2) heq
  exact Table.eq_of_key (mem_expire.1 ha).1 (mem_expire.1 hb).1 (BitVec.eq_of_toNat_eq hid)

end TransactionManager

/-! ## Runs -/

/-- A call of the manager. -/
inductive TransactionOp where
  | register (destination : SocketAddr) (method : QueryMethod) (now : Instant)
  | complete (transactionId : List UInt8) (source : SocketAddr) (now : Instant)
  | cancel (id : TransactionId)
  | expire (now : Instant)

/-- How a transaction leaves the manager: with its response, with a response past its deadline, by
`cancel` or by `expire`. -/
inductive Departure where
  | completed
  | late
  | cancelled
  | expired
  deriving DecidableEq, Repr

/-- A manager with the transactions that entered it and those that left it. -/
structure TransactionLog where
  manager : TransactionManager
  registered : List PendingTransaction
  departed : List (Departure × PendingTransaction)

namespace TransactionLog

/-- The transaction a registration reports. -/
def entering (result : Except TransactionError TransactionId) (after : TransactionManager) :
    List PendingTransaction :=
  match result with
  | .ok id => (after.pending.get? id).toList
  | .error _ => []

/-- The transaction a completion reports. -/
def leaving : Except TransactionError CompletedTransaction → List (Departure × PendingTransaction)
  | .ok r => [(.completed, r.transaction)]
  | .error (.expired x) => [(.late, x)]
  | .error _ => []

/-- One call. -/
def step (log : TransactionLog) : TransactionOp → TransactionLog
  | .register destination method now =>
    let (result, m) := log.manager.register destination method now
    { log with manager := m, registered := log.registered ++ entering result m }
  | .complete transactionId source now =>
    let (result, m) := log.manager.complete transactionId source now
    { log with manager := m, departed := log.departed ++ leaving result }
  | .cancel id =>
    let (result, m) := log.manager.cancel id
    { log with manager := m, departed := log.departed ++ result.toList.map (Departure.cancelled, ·) }
  | .expire now =>
    let (result, m) := log.manager.expire now
    { log with manager := m, departed := log.departed ++ result.map (Departure.expired, ·) }

/-- A manager before its first call. -/
def start (timeout : Duration) (maxPending : Nat) (counter : BitVec 32) : TransactionLog :=
  ⟨.withInitialCounter timeout maxPending counter, [], []⟩

/-- A run. -/
def run (log : TransactionLog) (ops : List TransactionOp) : TransactionLog := ops.foldl step log

/-- What holds after every call. -/
structure Inv (timeout : Duration) (maxPending : Nat) (log : TransactionLog) : Prop where
  timeout_eq : log.manager.timeout = timeout
  limit : log.manager.maxPending = maxPending
  bounded : log.manager.len ≤ maxPending
  /-- What entered is what is outstanding and what left. -/
  balance : log.registered.Perm (log.manager.pending.rows ++ log.departed.map Prod.snd)

variable {timeout : Duration} {maxPending : Nat} {log : TransactionLog}

/-- A transaction that leaves moves from one side of the balance to the other. -/
theorem balance_erase {m : TransactionManager} {x : PendingTransaction} {registered : List PendingTransaction}
    {departed : List (Departure × PendingTransaction)} (hx : m.pending.get? x.id = some x)
    (h : registered.Perm (m.pending.rows ++ departed.map Prod.snd)) (how : Departure) :
    registered.Perm
      ((m.pending.erase x.id).rows ++ (departed ++ [(how, x)]).map Prod.snd) := by
  refine h.trans ?_
  rw [List.map_append, List.map_singleton]
  calc m.pending.rows ++ departed.map Prod.snd
      |>.Perm (x :: (m.pending.erase x.id).rows ++ departed.map Prod.snd) :=
        (Table.perm_erase hx).append_right _
    _ |>.Perm ((m.pending.erase x.id).rows ++ (departed.map Prod.snd ++ [x])) := by
        rw [List.cons_append, ← List.append_assoc]
        exact (List.perm_append_singleton x _).symm

/-- **One call keeps the invariant.** -/
theorem Inv.step (hmax : maxPending < 2 ^ 32) (h : log.Inv timeout maxPending) (op : TransactionOp) :
    (log.step op).Inv timeout maxPending := by
  obtain ⟨htimeout, hlimit, hbounded, hbalance⟩ := h
  cases op with
  | register destination method now =>
    rcases TransactionManager.register_cases (hlimit ▸ hmax) destination method now with
      ⟨-, hc⟩ | ⟨hlt, id, counter, hfree, hc⟩
    · simp only [TransactionLog.step, hc, entering, List.append_nil]
      exact ⟨htimeout, hlimit, hbounded, hbalance⟩
    · have hadded : log.manager.pending.get? (log.manager.added id destination method now).id =
          none := hfree
      have hrows := Table.insert_of_none hadded
      simp only [TransactionLog.step, hc]
      refine ⟨htimeout, hlimit, ?_, ?_⟩
      · unfold TransactionManager.len at hlt ⊢
        simp only [hrows, List.length_append, List.length_singleton]
        omega
      · have hget : entering (.ok id) { log.manager with
            nextCounter := counter
            pending := log.manager.pending.insert (log.manager.added id destination method now) } =
              [log.manager.added id destination method now] := by
          simp [entering, TransactionManager.added]
        rw [hget]
        simp only [hrows, List.append_assoc, List.singleton_append]
        exact (hbalance.append_right _).trans (by
          rw [List.append_assoc]
          exact (List.perm_append_singleton _ _).append_left _)
  | complete t source now =>
    rcases log.manager.complete_cases t source now with ⟨-, hc⟩ | ⟨id, -, -, hc⟩ |
      ⟨x, hx, -, ⟨-, hc⟩ | ⟨-, -, hc⟩ | ⟨-, -, hc⟩⟩
    · simp only [TransactionLog.step, hc, leaving, List.append_nil]
      exact ⟨htimeout, hlimit, hbounded, hbalance⟩
    · simp only [TransactionLog.step, hc, leaving, List.append_nil]
      exact ⟨htimeout, hlimit, hbounded, hbalance⟩
    · simp only [TransactionLog.step, hc, leaving, List.append_nil]
      exact ⟨htimeout, hlimit, hbounded, hbalance⟩
    · simp only [TransactionLog.step, hc, leaving]
      exact ⟨htimeout, hlimit, (Table.length_erase_le _ _).trans hbounded,
        balance_erase hx hbalance _⟩
    · simp only [TransactionLog.step, hc, leaving]
      exact ⟨htimeout, hlimit, (Table.length_erase_le _ _).trans hbounded,
        balance_erase hx hbalance _⟩
  | cancel id =>
    simp only [TransactionLog.step, TransactionManager.cancel]
    refine ⟨htimeout, hlimit, (Table.length_erase_le _ _).trans hbounded, ?_⟩
    cases hx : log.manager.pending.get? id with
    | none =>
      rw [Table.erase_of_none hx]
      simpa using hbalance
    | some x =>
      obtain ⟨-, rfl⟩ := Table.get?_eq_some.1 hx
      exact balance_erase hx hbalance _
  | expire now =>
    refine ⟨htimeout, hlimit, (List.length_filter_le _ _).trans hbounded, ?_⟩
    have hsplit : log.manager.pending.rows.Perm
        ((log.manager.expire now).2.pending.rows ++ (log.manager.expire now).1) :=
      (List.filter_append_perm (fun x : PendingTransaction => decide (now ≥ x.deadline)) _).symm.trans
        (((List.perm_insertionSort (Table.orderBy TransactionManager.expiryKey) _).symm.append_right
          _).trans List.perm_append_comm)
    have hsnd : ((log.manager.expire now).1.map (Departure.expired, ·)).map Prod.snd =
        (log.manager.expire now).1 := by
      rw [List.map_map]
      exact List.map_id _
    simp only [TransactionLog.step]
    rw [List.map_append, hsnd]
    calc log.registered
        |>.Perm (log.manager.pending.rows ++ log.departed.map Prod.snd) := hbalance
      _ |>.Perm ((log.manager.expire now).2.pending.rows ++ (log.manager.expire now).1 ++
          log.departed.map Prod.snd) := hsplit.append_right _
      _ |>.Perm ((log.manager.expire now).2.pending.rows ++
          (log.departed.map Prod.snd ++ (log.manager.expire now).1)) := by
        rw [List.append_assoc]
        exact List.perm_append_comm.append_left _

/-- **Every run keeps the invariant.** -/
theorem inv_run (hmax : maxPending < 2 ^ 32) (counter : BitVec 32) (ops : List TransactionOp) :
    ((start timeout maxPending counter).run ops).Inv timeout maxPending := by
  have hrun : ∀ (ops : List TransactionOp) (log : TransactionLog), log.Inv timeout maxPending →
      (log.run ops).Inv timeout maxPending := by
    intro ops
    induction ops with
    | nil => exact fun log h => h
    | cons op rest ih => exact fun log h => ih _ (h.step hmax op)
  exact hrun ops _ ⟨rfl, rfl, Nat.zero_le _, List.Perm.refl _⟩

/-- Entries and departures of one id alternate. -/
theorem Inv.alternate (h : log.Inv timeout maxPending) (id : TransactionId) :
    log.registered.countP (fun x => x.id == id) =
      log.departed.countP (fun d => d.2.id == id) +
        if (log.manager.pending.get? id).isSome then 1 else 0 := by
  have hrows : log.manager.pending.rows.countP (fun x => x.id == id) =
      if (log.manager.pending.get? id).isSome then 1 else 0 := by
    have hone := Table.count_eq_ite_get? log.manager.pending id (fun _ => true)
    simp only [Bool.and_true, Table.count] at hone
    rw [show (fun x : PendingTransaction => x.id == id) = fun x => decide (x.id = id) from rfl, hone]
    cases log.manager.pending.get? id <;> rfl
  rw [h.balance.countP_eq, List.countP_append, hrows, List.countP_map, Nat.add_comm]
  rfl

end TransactionLog

/-- **Transaction matching.**  After any sequence of calls with any times, wherever the counter
started and however often it wrapped:

* outstanding ids are distinct and there are at most `max_pending` of them;
* a registration fails exactly if `max_pending` transactions are outstanding, always with
  `AtCapacity`, and otherwise adds one transaction under an id that was free;
* a completion succeeds exactly for the id of an outstanding transaction, from its destination and
  before its deadline; past the deadline it reports the transaction as expired and removes it; a
  datagram of the wrong length, with an unknown id or from the wrong source changes nothing;
* `expire` returns the outstanding transactions that are due, ordered by deadline and id, and keeps
  the others;
* what was registered is what is outstanding and what left, and for every id departures alternate
  with registrations. -/
theorem transaction_matching (timeout : Duration) (maxPending : Nat) (hmax : maxPending < 2 ^ 32)
    (counter : BitVec 32) (ops : List TransactionOp) :
    let log := (TransactionLog.start timeout maxPending counter).run ops
    let m := log.manager
    ((m.pending.rows.map PendingTransaction.id).Nodup ∧ m.pending.rows.length ≤ maxPending) ∧
    (∀ destination method now,
      ((∃ e, (m.register destination method now).1 = .error e) ↔
        m.pending.rows.length = maxPending) ∧
      (∀ e, (m.register destination method now).1 = .error e →
        e = .atCapacity maxPending ∧ (m.register destination method now).2 = m) ∧
      ∀ id, (m.register destination method now).1 = .ok id →
        (∀ x ∈ m.pending.rows, x.id ≠ id) ∧
          (m.register destination method now).2.pending.rows =
            m.pending.rows ++ [⟨id, destination, method, now, now + timeout⟩]) ∧
    (∀ t source now,
      (∀ r, (m.complete t source now).1 = .ok r ↔ ∃ x ∈ m.pending.rows,
        t = x.id.toByteBuf ∧ x.destination = source ∧ now < x.deadline ∧ r = ⟨x, now⟩) ∧
      (∀ x ∈ m.pending.rows, t = x.id.toByteBuf → x.destination = source →
        (x.deadline ≤ now → (m.complete t source now).1 = .error (.expired x)) ∧
          (m.complete t source now).2.pending.rows.Perm
            (m.pending.rows.filter (fun y => y.id ≠ x.id))) ∧
      ((t.length ≠ 4 ∨ (∀ x ∈ m.pending.rows, t ≠ x.id.toByteBuf) ∨
          ∃ x ∈ m.pending.rows, t = x.id.toByteBuf ∧ x.destination ≠ source) →
        (m.complete t source now).2 = m)) ∧
    (∀ now,
      (∀ x, x ∈ (m.expire now).1 ↔ x ∈ m.pending.rows ∧ x.deadline ≤ now) ∧
      (m.expire now).1.Pairwise (fun a b =>
        a.deadline < b.deadline ∨ (a.deadline = b.deadline ∧ a.id < b.id)) ∧
      ∀ x, x ∈ (m.expire now).2.pending.rows ↔ x ∈ m.pending.rows ∧ now < x.deadline) ∧
    log.registered.Perm (m.pending.rows ++ log.departed.map Prod.snd) ∧
    ∀ id, log.registered.countP (fun x => x.id == id) =
      log.departed.countP (fun d => d.2.id == id) +
        if (m.pending.get? id).isSome then 1 else 0 := by
  intro log m
  have hinv : log.Inv timeout maxPending := TransactionLog.inv_run hmax counter ops
  have hlimit : m.maxPending = maxPending := hinv.limit
  have hbounded : m.len ≤ maxPending := hinv.bounded
  refine ⟨⟨m.pending.nodup, hbounded⟩, ?_, ?_, ?_, hinv.balance, hinv.alternate⟩
  · intro destination method now
    rcases TransactionManager.register_cases (hlimit ▸ hmax) destination method now with
      ⟨hfull, hc⟩ | ⟨hlt, id, next, hfree, hc⟩
    · rw [hc, hlimit]
      refine ⟨⟨fun _ => ?_, fun _ => ⟨_, rfl⟩⟩, ?_, ?_⟩
      · exact le_antisymm hbounded (hlimit ▸ hfull)
      · intro e he
        cases he
        exact ⟨rfl, rfl⟩
      · intro id hid
        cases hid
    · rw [hc]
      refine ⟨⟨fun ⟨e, he⟩ => (by cases he), fun heq => ?_⟩, ?_, ?_⟩
      · unfold TransactionManager.len at hlt
        omega
      · intro e he
        cases he
      · intro id' hid
        cases hid
        refine ⟨Table.get?_eq_none.1 hfree, ?_⟩
        have hadded : m.pending.get? (m.added id destination method now).id = none := hfree
        rw [Table.insert_of_none hadded, TransactionManager.added, hinv.timeout_eq]
  · intro t source now
    refine ⟨fun r => TransactionManager.complete_ok_iff, ?_, ?_⟩
    · intro x hx ht hsource
      have hget : m.pending.get? x.id = some x := Table.get?_key hx
      have hrows : (m.pending.erase x.id).rows = m.pending.rows.filter (fun y => y.id ≠ x.id) := by
        unfold Table.erase
        rw [Table.rows_delete]
        exact List.filter_congr (fun y _ => by simp)
      unfold TransactionManager.complete
      rw [tryFrom_ok_iff.2 ht]
      refine ⟨fun hdue => by simp [hget, hsource, hdue], ?_⟩
      rw [← hrows]
      by_cases hdue : x.deadline ≤ now
      · simp [hget, hsource, hdue]
      · simp [hget, hsource, hdue]
    · intro hbad
      apply TransactionManager.complete_unchanged
      rintro ⟨x, hx, ht, hsource⟩
      rcases hbad with hlen | hunknown | ⟨y, hy, hty, hmismatch⟩
      · rw [ht] at hlen
        exact hlen rfl
      · exact hunknown x hx ht
      · have hxy : x.id = y.id := TransactionManager.toByteBuf_inj (ht.symm.trans hty)
        rw [Table.eq_of_key hx hy hxy] at hsource
        exact hmismatch hsource
  · intro now
    refine ⟨fun x => TransactionManager.mem_expire, ?_, fun x => TransactionManager.mem_expire_left⟩
    refine (m.expire_sorted now).imp ?_
    intro a b hab
    exact (Prod.Lex.toLex_lt_toLex).1 hab

/-- A manager whose counter wraps between its two registrations. -/
theorem transaction_matching_wrap :
    let ops : List TransactionOp := [.register (.v4 0x7f000001 6881) .ping 0,
      .register (.v4 0x7f000002 6881) .ping 0]
    ((TransactionLog.start 5 2 0xffffffff).run ops).manager.pending.rows.length ≤ 2 :=
  (transaction_matching 5 2 (by decide) 0xffffffff _).1.2

end BtSniffer
