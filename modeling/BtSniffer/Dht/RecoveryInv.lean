import BtSniffer.Dht.Recovery
import BtSniffer.Dht.TransactionRun

/-!
# Contacts that are held

A saved contact is in the recovery queue or has an active ping until its ping was tried; the active
ping is forgotten when it fails before it was sent.

* `Held` and `Inv` are what is kept; `Passes` is what a queued ping needs.
* `advanceOutbound_inv`, `accepted_inv` and `advanceRecovery_inv` keep the invariant.
-/

set_option autoImplicit false

namespace BtSniffer.Recovery

open Relational

variable {contacts : List SavedContact} {d : Dispatcher} {now : Nat} {answers : Nat → Answer}

/-! ## Snapshots -/

/-- Every contact that is merged keeps its ID in the table. -/
theorem mem_merge : ∀ (l : List SavedContact) (t : Table SavedContact SavedContact.id)
    {id : NodeId}, (id ∈ l.map SavedContact.id ∨ (t.get? id).isSome = true) →
    ((l.foldl (fun t c => t.insert c) t).get? id).isSome = true
  | [], _, id, h => by
    rcases h with h | h
    · cases h
    · exact h
  | c :: rest, t, id, h => by
    refine mem_merge rest (t.insert c) ?_
    by_cases hc : c.id = id
    · refine .inr ?_
      rw [Table.get?_insert, if_pos hc]
      rfl
    · rcases h with h | h
      · rcases List.mem_cons.1 h with heq | h
        · exact absurd heq.symm hc
        · exact .inl h
      · refine .inr ?_
        rw [Table.get?_insert, if_neg hc]
        exact h

/-- **A snapshot that is not cut holds every contact** that is queued, active or routed. -/
theorem mem_savedContacts {p : Progress} {snapshot : List SavedContact} {id : NodeId}
    (hroom : (mergedContacts p snapshot).rows.length ≤ SNAPSHOT_LIMIT)
    (h : id ∈ p.queued.map SavedContact.id ∨ (p.active.get? id).isSome = true) :
    id ∈ (savedContacts p snapshot).map SavedContact.id := by
  have hmerged : ((mergedContacts p snapshot).get? id).isSome = true := by
    refine mem_merge _ _ (.inl ?_)
    rw [List.map_append, List.map_append, List.mem_append, List.mem_append]
    rcases h with h | h
    · exact .inl (.inl h)
    · obtain ⟨c, hc⟩ := Option.isSome_iff_exists.1 h
      obtain ⟨hmem, hid⟩ := Table.get?_eq_some.1 hc
      exact .inl (.inr (List.mem_map.2 ⟨c, hmem, hid⟩))
  obtain ⟨c, hc⟩ := Option.isSome_iff_exists.1 hmerged
  obtain ⟨hmem, hid⟩ := Table.get?_eq_some.1 hc
  refine List.mem_map.2 ⟨c, ?_, hid⟩
  unfold savedContacts
  rw [List.take_of_length_le (by rw [List.length_insertionSort]; exact hroom),
    List.mem_insertionSort]
  exact hmem

/-! ## Contacts that are held -/

/-- Every contact was tried, or is queued for recovery, or has an active ping. -/
def Held (contacts : List SavedContact) (d : Dispatcher) : Prop :=
  ∀ c ∈ contacts, c.id ∈ d.tried ∨ c.id ∈ d.recovery.queued.map SavedContact.id ∨
    (d.recovery.active.get? c.id).isSome = true

/-- What is kept besides: the requests fit the transactions. -/
structure Inv (contacts : List SavedContact) (d : Dispatcher) : Prop where
  held : Held contacts d
  fits : d.transactions.len + d.queued.length ≤ d.transactions.maxPending
  bound : d.transactions.maxPending < 2 ^ 32

/-- A change that leaves the recovery alone. -/
theorem Held.frame {d' : Dispatcher} (h : Held contacts d) (hr : d'.recovery = d.recovery)
    (ht : d'.tried = d.tried) : Held contacts d' := by
  unfold Held at h ⊢
  rw [hr, ht]
  exact h

/-- A purpose other than a recovery ping ends without a trace in the recovery. -/
theorem finishStartError_other {purpose : Purpose} (h : purpose.recovers = none) :
    d.finishStartError purpose = d := by
  cases purpose with
  | recovery id => cases h
  | _ => rfl

/-- A settled ping is recorded as tried. -/
theorem Held.settle (h : Held contacts d) (purpose : Purpose) :
    Held contacts (d.settle purpose) := by
  cases purpose with
  | recovery id =>
    intro c hc
    by_cases hid : c.id = id
    · exact .inl (List.mem_append_right _ (List.mem_singleton.2 hid))
    · rcases h c hc with ht | hq | ha
      · exact .inl (List.mem_append_left _ ht)
      · exact .inr (.inl hq)
      · refine .inr (.inr ?_)
        show ((d.recovery.active.erase id).get? c.id).isSome = true
        rw [Table.get?_erase, if_neg hid]
        exact ha
  | _ => exact h

/-! ## Transactions -/

theorem len_erase_le (m : TransactionManager) (id : TransactionId) :
    ({ m with pending := m.pending.erase id } : TransactionManager).len ≤ m.len :=
  Table.length_erase_le m.pending id

theorem len_cancel_le (m : TransactionManager) (id : TransactionId) :
    (m.cancel id).2.len ≤ m.len ∧ (m.cancel id).2.maxPending = m.maxPending :=
  ⟨len_erase_le m id, rfl⟩

theorem len_cancels_le : ∀ (ids : List TransactionId) (m : TransactionManager),
    (ids.foldl (fun m id => (m.cancel id).2) m).len ≤ m.len ∧
      (ids.foldl (fun m id => (m.cancel id).2) m).maxPending = m.maxPending
  | [], m => ⟨Nat.le_refl _, rfl⟩
  | id :: rest, m => by
    obtain ⟨hle, hmax⟩ := len_cancels_le rest (m.cancel id).2
    exact ⟨hle.trans (len_cancel_le m id).1, hmax⟩

theorem len_complete_le (m : TransactionManager) (t : List UInt8) (source : SocketAddr)
    (now : Nat) :
    (m.complete t source now).2.len ≤ m.len ∧
      (m.complete t source now).2.maxPending = m.maxPending := by
  rcases m.complete_cases t source now with ⟨-, heq⟩ | ⟨id, -, -, heq⟩ | ⟨x, -, -, hx⟩
  · rw [heq]
    exact ⟨Nat.le_refl _, rfl⟩
  · rw [heq]
    exact ⟨Nat.le_refl _, rfl⟩
  · rcases hx with ⟨-, heq⟩ | ⟨-, -, heq⟩ | ⟨-, -, heq⟩
    · rw [heq]
      exact ⟨Nat.le_refl _, rfl⟩
    · rw [heq]
      exact ⟨len_erase_le m x.id, rfl⟩
    · rw [heq]
      exact ⟨len_erase_le m x.id, rfl⟩

/-! ## The queue of requests -/

/-- Another state with the same recovery, and room for `extra` more transactions. -/
structure Keeps (extra : Nat) (d d' : Dispatcher) : Prop where
  recovery : d'.recovery = d.recovery
  tried : d'.tried = d.tried
  queued : d'.queued = d.queued
  len : d'.transactions.len ≤ d.transactions.len + extra
  maxPending : d'.transactions.maxPending = d.transactions.maxPending

/-- A request is registered when there is room, and its send decides how it goes on. -/
theorem sendRpc_cases (hroom : d.transactions.len < d.transactions.maxPending)
    (hbound : d.transactions.maxPending < 2 ^ 32) (q : Queued) (sent : Bool) :
    ∃ d', Keeps 1 d d' ∧
      d.sendRpc q sent now = if sent = true then d' else d'.finishStartError q.purpose := by
  rcases TransactionManager.register_cases hbound q.remote.address q.method now with
    ⟨hfull, -⟩ | ⟨-, id, counter, hfree, heq⟩
  · omega
  · let m : TransactionManager := { d.transactions with
      nextCounter := counter
      pending := d.transactions.pending.insert
        (d.transactions.added id q.remote.address q.method now) }
    have hlen : m.len ≤ d.transactions.len + 1 := Table.length_insert_le _ _
    unfold Dispatcher.sendRpc
    rw [heq]
    cases sent with
    | true =>
      exact ⟨{ d with
        transactions := m, pending := d.pending.insert ⟨id, q.remote, q.purpose⟩ },
        ⟨rfl, rfl, rfl, hlen, rfl⟩, rfl⟩
    | false =>
      exact ⟨{ d with
        transactions := (m.cancel id).2
        pending := (d.pending.insert ⟨id, q.remote, q.purpose⟩).erase id },
        ⟨rfl, rfl, rfl, (len_cancel_le m id).1.trans hlen, rfl⟩, rfl⟩

/-- The ping of a queued recovery is not lost to its limit, its encoding or its socket. -/
def Passes (now : Nat) (q : Queued) (answer : Answer) : Prop :=
  q.purpose.recovers ≠ none →
    now < q.deadline ∧ answer.encodes = true ∧ (answer.granted = true → answer.sent = true)

/-- One turn of the loop keeps what is held. -/
theorem visit_inv {q : Queued} {answer : Answer} {rest : Nat} (h : Held contacts d)
    (hfits : d.transactions.len + d.queued.length + (rest + 1) ≤ d.transactions.maxPending)
    (hbound : d.transactions.maxPending < 2 ^ 32) (hpass : Passes now q answer) :
    Held contacts (d.visit now q answer) ∧
      (d.visit now q answer).transactions.len + (d.visit now q answer).queued.length + rest ≤
        d.transactions.maxPending ∧
      (d.visit now q answer).transactions.maxPending = d.transactions.maxPending := by
  obtain ⟨d', hkeeps, hsend⟩ := @sendRpc_cases d now (by omega) hbound q answer.sent
  have hsent : Held contacts d' := h.frame hkeeps.recovery hkeeps.tried
  have hlen := hkeeps.len
  have hroom : d'.transactions.len + d'.queued.length + rest ≤ d.transactions.maxPending := by
    rw [hkeeps.queued]
    omega
  have hdropped : d.transactions.len + d.queued.length + rest ≤ d.transactions.maxPending := by
    omega
  unfold Dispatcher.visit
  by_cases hother : q.purpose.recovers = none
  · -- another purpose leaves the recovery alone, however it ends
    rw [finishStartError_other hother, hsend, finishStartError_other hother]
    split
    · exact ⟨h, hdropped, rfl⟩
    · split
      · exact ⟨h, hdropped, rfl⟩
      · split
        · exact ⟨h, hdropped, rfl⟩
        · split
          · rw [ite_self]
            exact ⟨hsent, hroom, hkeeps.maxPending⟩
          · refine ⟨h, ?_, rfl⟩
            simp only [List.length_append, List.length_singleton]
            omega
  · obtain ⟨hearly, hencodes, hgranted⟩ := hpass hother
    have hkind : q.purpose.cancellable = false := by
      cases hp : q.purpose with
      | recovery id => rfl
      | _ => exact absurd (by rw [hp]; rfl) hother
    rw [hkind, if_neg (by simp), if_neg (Nat.not_le.2 hearly), hencodes, if_neg (by simp)]
    by_cases hg : answer.granted = true
    · rw [if_pos hg, hsend, if_pos (hgranted hg)]
      exact ⟨hsent, hroom, hkeeps.maxPending⟩
    · rw [if_neg hg]
      refine ⟨h, ?_, rfl⟩
      simp only [List.length_append, List.length_singleton]
      omega

/-- The loop keeps what is held, when every recovery ping that it meets passes. -/
theorem outboundLoop_inv : ∀ (queue : List Queued) (index : Nat) {d : Dispatcher},
    Held contacts d →
    d.transactions.len + d.queued.length + queue.length ≤ d.transactions.maxPending →
    d.transactions.maxPending < 2 ^ 32 →
    (∀ i q, queue[i]? = some q → Passes now q (answers (index + i))) →
    Inv contacts (Dispatcher.outboundLoop now answers queue index d)
  | [], _, _, h, hfits, hbound, _ => ⟨h, hfits, hbound⟩
  | q :: rest, index, d, h, hfits, hbound, hpass => by
    have hfirst : Passes now q (answers index) := hpass 0 q rfl
    obtain ⟨hheld, hroom, hmax⟩ := visit_inv h hfits hbound hfirst
    refine outboundLoop_inv rest (index + 1) hheld ?_ ?_ ?_
    · rw [hmax]
      exact hroom
    · rw [hmax]
      exact hbound
    · intro i p hp
      rw [Nat.add_right_comm]
      exact hpass (i + 1) p hp

theorem advanceOutbound_inv (h : Inv contacts d)
    (hpass : ∀ i q, d.queued[i]? = some q → Passes now q (answers i)) :
    Inv contacts (d.advanceOutbound now answers) := by
  refine outboundLoop_inv d.queued 0 (h.held.frame rfl rfl) ?_ h.bound ?_
  · show d.transactions.len + 0 + d.queued.length ≤ d.transactions.maxPending
    rw [Nat.add_zero]
    exact h.fits
  · intro i q hq
    rw [Nat.zero_add]
    exact hpass i q hq

/-! ## Starting requests -/

/-- `start_rpc` queues the request. -/
def Dispatcher.Accepts (d : Dispatcher) (purpose : Purpose) (permit : Bool) : Prop :=
  d.identityPaused = false ∧ d.occupied < d.limit (d.reserveFor purpose) ∧
    ¬ (purpose = .verification ∧ permit = false)

instance {purpose : Purpose} {permit : Bool} : Decidable (d.Accepts purpose permit) :=
  inferInstanceAs (Decidable (_ ∧ _ ∧ ¬ (_ ∧ _)))

/-- A request that is not accepted fails at once; an accepted one joins the queue. -/
theorem startRpc_eq (d : Dispatcher) (remote : RemoteNode) (method : QueryMethod)
    (purpose : Purpose) (permit : Bool) (now : Nat) (answers : Nat → Answer) :
    d.startRpc remote method purpose permit now answers =
      if d.Accepts purpose permit then
        Dispatcher.advanceOutbound
          { d with queued := d.queued ++ [⟨remote, method, purpose, now + QUEUE_TIMEOUT⟩] }
          now answers
      else d.finishStartError purpose := by
  unfold Dispatcher.startRpc
  by_cases hp : d.identityPaused = true
  · have hnot : ¬ d.Accepts purpose permit := fun h => Bool.false_ne_true (h.1.symm.trans hp)
    rw [if_pos hp, if_neg hnot]
  · rw [if_neg hp]
    by_cases hl : d.limit (d.reserveFor purpose) ≤ d.occupied
    · rw [if_pos hl, if_neg (fun h : d.Accepts purpose permit => Nat.not_le.2 h.2.1 hl)]
    · rw [if_neg hl]
      by_cases hv : purpose = .verification ∧ permit = false
      · rw [if_pos hv, if_neg (fun h : d.Accepts purpose permit => h.2.2 hv)]
      · rw [if_neg hv, if_pos]
        exact ⟨by simpa using hp, Nat.not_le.1 hl, hv⟩

/-- An accepted request keeps what is held, when the queue and the request itself pass. -/
theorem accepted_inv (h : Inv contacts d) {remote : RemoteNode} {method : QueryMethod}
    {purpose : Purpose} {permit : Bool} (hacc : d.Accepts purpose permit)
    (hpass : ∀ i q, d.queued[i]? = some q → Passes now q (answers i))
    (hnew : Passes now ⟨remote, method, purpose, now + QUEUE_TIMEOUT⟩ (answers d.queued.length)) :
    Inv contacts (d.startRpc remote method purpose permit now answers) := by
  rw [startRpc_eq, if_pos hacc]
  have hroom : d.transactions.len + (d.queued.length + 1) ≤ d.transactions.maxPending := by
    have hlt := hacc.2.1
    unfold Dispatcher.occupied Dispatcher.limit at hlt
    omega
  refine advanceOutbound_inv (d := { d with
    queued := d.queued ++ [⟨remote, method, purpose, now + QUEUE_TIMEOUT⟩] })
    ⟨h.held.frame rfl rfl, ?_, h.bound⟩ ?_
  · simp only [List.length_append, List.length_singleton]
    exact hroom
  · intro i q hq
    rcases Nat.lt_trichotomy i d.queued.length with hi | hi | hi
    · rw [List.getElem?_append_left hi] at hq
      exact hpass i q hq
    · subst hi
      rw [List.getElem?_append_right (Nat.le_refl _), Nat.sub_self] at hq
      cases hq
      exact hnew
    · rw [List.getElem?_eq_none (by simp; omega)] at hq
      cases hq

/-- The contact whose ping `advance_recovery` starts. -/
def Dispatcher.nextPing (d : Dispatcher) (now : Nat) : Option SavedContact :=
  if d.identityPaused then none
  else if (d.recovery.deadline d.recoveryCapacity).all (fun at_ => decide (now < at_)) then none
  else d.recovery.queued.head?

/-- A recovery that moves on takes the first contact of its queue. -/
theorem advanceRecovery_inv (h : Inv contacts d)
    (hpass : ∀ c, d.nextPing now = some c →
      (∀ i q, d.queued[i]? = some q → Passes now q (answers i)) ∧
      (answers d.queued.length).encodes = true ∧
      ((answers d.queued.length).granted = true → (answers d.queued.length).sent = true)) :
    Inv contacts (d.advanceRecovery now answers) := by
  unfold Dispatcher.advanceRecovery
  unfold Dispatcher.nextPing at hpass
  by_cases hpaused : d.identityPaused = true
  · rw [if_pos hpaused]
    exact h
  · have hp : d.identityPaused = false := by simpa using hpaused
    rw [if_neg hpaused]
    by_cases hdue : (d.recovery.deadline d.recoveryCapacity).all
        (fun at_ => decide (now < at_)) = true
    · rw [if_pos hdue]
      exact h
    · rw [if_neg hdue]
      rw [if_neg hpaused, if_neg hdue] at hpass
      cases hq : d.recovery.queued with
      | nil => exact h
      | cons c rest =>
        rw [hq] at hpass
        obtain ⟨hqueue, hencodes, hgranted⟩ := hpass c rfl
        -- the capacity of the recovery is the capacity of its request
        have hcapacity : d.recoveryCapacity = true := by
          by_contra hc
          refine hdue ?_
          unfold Progress.deadline
          rw [if_neg (fun hd => hc hd.1)]
          rfl
        have hmoved : Inv contacts { d with recovery :=
            { queued := rest
              active := d.recovery.active.insert c
              next := some (now + RECOVERY_PACE) } } := by
          refine ⟨?_, h.fits, h.bound⟩
          intro x hx
          rcases h.held x hx with ht | hqueued | ha
          · exact .inl ht
          · rw [hq, List.map_cons, List.mem_cons] at hqueued
            rcases hqueued with heq | hqueued
            · refine .inr (.inr ?_)
              show ((d.recovery.active.insert c).get? x.id).isSome = true
              rw [Table.get?_insert, if_pos heq.symm]
              rfl
            · exact .inr (.inl hqueued)
          · refine .inr (.inr ?_)
            show ((d.recovery.active.insert c).get? x.id).isSome = true
            rw [Table.get?_insert]
            split
            · rfl
            · exact ha
        have hlt : d.occupied < d.limit (max d.reservedUserTransactions 1) :=
          of_decide_eq_true hcapacity
        have hnew : Passes now ⟨⟨c.address, some c.id⟩, .ping, .recovery c.id, now + QUEUE_TIMEOUT⟩
            (answers d.queued.length) :=
          fun _ => ⟨Nat.lt_add_of_pos_right (by decide), hencodes, hgranted⟩
        have hacc : Dispatcher.Accepts { d with recovery :=
            { queued := rest
              active := d.recovery.active.insert c
              next := some (now + RECOVERY_PACE) } } (.recovery c.id) true :=
          ⟨hp, hlt, (fun hv => by cases hv.1)⟩
        exact accepted_inv hmoved hacc hqueue hnew

end BtSniffer.Recovery
