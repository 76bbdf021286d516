import BtSniffer.Dht.DispatcherAccounts
import BtSniffer.Dht.TransactionCounter

/-!
# The books of the dispatcher

The queue, the pending queries and their transactions, and the way of a query between them.

* `Books` — every pending query has its transaction, but for those that have just expired (`late`); no
  id of these is used again by the registrations that a step may still make (`starts`, and `moving` for
  the queries that the loop of `advance_outbound` has in hand).
* `Open` — the books, with the accounts of the queries that are queued, pending or in hand.
* `Open.advanceOutbound`, `Open.startRpc` — the way to the socket keeps both.
-/

set_option autoImplicit false

namespace BtSniffer

open Relational

namespace Dispatcher

variable {d d' : Dispatcher} {asked : List Caller} {now : Nat} {hand : List Purpose} {p : Purpose}
  {late : List TransactionId} {moving starts : Nat} {id : TransactionId}

/-! ## Books -/

/-- The ids of the pending queries. -/
def ids (d : Dispatcher) : List TransactionId := d.pending.rows.map PendingDispatch.id

/-- The ids of the transactions. -/
def registered (d : Dispatcher) : List TransactionId :=
  d.transactions.pending.rows.map PendingTransaction.id

/-- Every pending query has its transaction, or has just lost it; the counter does not come to an id that
was lost within the registrations that may follow; and there is room for the queries that are moved
without the places that are kept for the user. -/
structure Books (d : Dispatcher) (late : List TransactionId) (moving starts : Nat) : Prop where
  ids : d.ids.Perm (d.registered ++ late)
  spare : ∀ id ∈ late, d.queued.length + moving + starts ≤ d.transactions.spare id
  small : d.transactions.maxPending < 2 ^ 32
  room : d.occupied + moving ≤ d.automaticLimit

/-- The parts that the books are about. -/
def traffic (d : Dispatcher) : List Queued × Table PendingDispatch PendingDispatch.id ×
    TransactionManager × MaintenanceSettings :=
  (d.queued, d.pending, d.transactions, d.maintenance.config)

theorem Books.frame (h : d.Books late moving starts) (ht : d'.traffic = d.traffic) :
    d'.Books late moving starts := by
  simp only [traffic, Prod.mk.injEq] at ht
  obtain ⟨hq, hp, hm, hc⟩ := ht
  constructor
  · unfold Dispatcher.ids registered
    rw [hp, hm]
    exact h.ids
  · rw [hq, hm]
    exact h.spare
  · rw [hm]
    exact h.small
  · unfold occupied automaticLimit
    rw [hq, hm, hc]
    exact h.room

theorem Books.room_le (h : d.Books late moving starts) :
    d.occupied + moving ≤ d.transactions.maxPending :=
  h.room.trans (Nat.sub_le _ _)

/-- Fewer registrations may follow. -/
theorem Books.fewer (h : d.Books late moving starts) {moving' starts' : Nat}
    (hm : moving' ≤ moving) (hs : starts' ≤ starts) : d.Books late moving' starts' where
  ids := h.ids
  spare := fun id hid => by
    have := h.spare id hid
    omega
  small := h.small
  room := by
    have := h.room
    omega

/-- While no id is lost, any number of registrations may follow. -/
theorem Books.more (h : d.Books [] moving starts) (starts' : Nat) : d.Books [] moving starts' where
  ids := h.ids
  spare := fun _ hid => absurd hid List.not_mem_nil
  small := h.small
  room := h.room

/-- An id is pending exactly if it is registered or has just expired, and not both. -/
theorem Books.nodup (h : d.Books late moving starts) : (d.registered ++ late).Nodup :=
  h.ids.nodup_iff.1 d.pending.nodup

/-! ## Open queries -/

/-- The purposes that are queued or pending. -/
def outstanding (d : Dispatcher) : List Purpose :=
  d.queued.map Queued.purpose ++ d.pending.rows.map PendingDispatch.purpose

theorem outstanding_frame (ht : d'.traffic = d.traffic) : d'.outstanding = d.outstanding := by
  simp only [traffic, Prod.mk.injEq] at ht
  unfold outstanding
  rw [ht.1, ht.2.1]

/-- The books, and the accounts of the open purposes with those in hand. -/
structure Open (d : Dispatcher) (asked : List Caller) (now : Nat) (hand : List Purpose)
    (late : List TransactionId) (moving starts : Nat) : Prop where
  books : d.Books late moving starts
  accounts : d.Accounts asked now (d.outstanding ++ hand)

theorem Open.frame (h : d.Open asked now hand late moving starts) (ht : d'.traffic = d.traffic)
    (hp : d'.parts = d.parts) : d'.Open asked now hand late moving starts :=
  ⟨h.books.frame ht, outstanding_frame ht ▸ h.accounts.frame hp⟩

theorem Open.fewer (h : d.Open asked now hand late moving starts) {moving' starts' : Nat}
    (hm : moving' ≤ moving) (hs : starts' ≤ starts) : d.Open asked now hand late moving' starts' :=
  ⟨h.books.fewer hm hs, h.accounts⟩

/-- A purpose in hand is settled without a change of the traffic. -/
theorem Open.settle (h : d.Open asked now (p :: hand) late moving starts)
    (ht : d'.traffic = d.traffic)
    (ha : d.Accounts asked now (p :: (d.outstanding ++ hand)) →
      d'.Accounts asked now (d.outstanding ++ hand)) : d'.Open asked now hand late moving starts := by
  refine ⟨h.books.frame ht, ?_⟩
  rw [outstanding_frame ht]
  exact ha (h.accounts.perm List.perm_middle)

theorem finishStartError_traffic (d : Dispatcher) (p : Purpose) (error : QueryError) (now : Nat) :
    (d.finishStartError p error now).traffic = d.traffic := by
  cases p with
  | sampling request =>
    unfold finishStartError
    simp only
    split <;> rfl
  | _ => rfl

theorem Open.finishStartError (h : d.Open asked now (p :: hand) late moving starts)
    (error : QueryError) :
    (d.finishStartError p error now).Open asked now hand late moving starts :=
  h.settle (finishStartError_traffic d p error now) (fun ha => ha.finishStartError error)

theorem Open.more (h : d.Open asked now hand [] moving starts) (starts' : Nat) :
    d.Open asked now hand [] moving starts' :=
  ⟨h.books.more starts', h.accounts⟩

/-! ## A pending query is taken out -/

/-- The open purposes without a pending query. -/
theorem outstanding_erase {x : PendingDispatch} (hx : d.pending.get? id = some x) :
    d.outstanding.Perm
      (x.purpose :: { d with pending := d.pending.erase id }.outstanding) := by
  unfold outstanding
  have hrows := (Table.perm_erase hx).map PendingDispatch.purpose
  exact (hrows.append_left _).trans List.perm_middle

/-- **A pending query and its transaction are taken out.** -/
theorem Open.takeOut (h : d.Open asked now hand late moving starts) {x : PendingDispatch}
    (hx : d.pending.get? id = some x) (ht : (d.transactions.pending.get? id).isSome) :
    { d with
      transactions := { d.transactions with pending := d.transactions.pending.erase id }
      pending := d.pending.erase id }.Open asked now (x.purpose :: hand) late moving starts := by
  obtain ⟨y, hy⟩ := Option.isSome_iff_exists.1 ht
  obtain ⟨hids, hspare, hsmall, hroom⟩ := h.books
  have hpending := (Table.perm_erase hx).map PendingDispatch.id
  have htransactions := (Table.perm_erase hy).map PendingTransaction.id
  have hxid : x.id = id := (Table.get?_eq_some.1 hx).2
  have hyid : y.id = id := (Table.get?_eq_some.1 hy).2
  refine ⟨⟨?_, ?_, hsmall, ?_⟩, ?_⟩
  · rw [List.map_cons, hxid] at hpending
    rw [List.map_cons, hyid] at htransactions
    exact ((hpending.symm.trans hids).trans (htransactions.append_right _)).cons_inv
  · intro other hother
    exact (hspare other hother).trans (TransactionManager.spare_erase d.transactions id other)
  · unfold occupied automaticLimit TransactionManager.len at *
    have := Table.length_erase_le d.transactions.pending id
    simp only
    omega
  · refine h.accounts.perm (((outstanding_erase hx).append_right _).trans ?_) |>.frame rfl
    exact List.perm_middle.symm

/-- **A pending query that has just expired is taken out.** -/
theorem Open.takeLate (h : d.Open asked now hand (id :: late) moving starts) : ∃ x,
    d.pending.get? id = some x ∧
      { d with pending := d.pending.erase id }.Open asked now (x.purpose :: hand) late moving
        starts := by
  have hmem : id ∈ d.ids := h.books.ids.mem_iff.2 (by simp)
  obtain ⟨x, hx, rfl⟩ := List.mem_map.1 hmem
  have hget := Table.get?_key hx
  obtain ⟨hids, hspare, hsmall, hroom⟩ := h.books
  have hpending := (Table.perm_erase hget).map PendingDispatch.id
  refine ⟨x, hget, ⟨?_, ?_, hsmall, hroom⟩, ?_⟩
  · have hmiddle : (d.registered ++ x.id :: late).Perm (x.id :: (d.registered ++ late)) :=
      List.perm_middle
    exact ((hpending.symm.trans hids).trans hmiddle).cons_inv
  · exact fun other hother => hspare other (List.mem_cons_of_mem _ hother)
  · refine h.accounts.perm (((outstanding_erase hget).append_right _).trans ?_) |>.frame rfl
    exact List.perm_middle.symm

/-! ## A query is sent -/

/-- **A query is registered.** -/
theorem Open.register (h : d.Open asked now (p :: hand) late (moving + 1) starts)
    (remote : Recovery.RemoteNode) (method : QueryMethod) :
    ∃ id transactions, d.transactions.register remote.address method now = (.ok id, transactions) ∧
      { d with
        transactions := transactions
        pending := d.pending.insert ⟨id, remote, p⟩ }.Open asked now hand late moving starts ∧
      (transactions.pending.get? id).isSome := by
  obtain ⟨hids, hspare, hsmall, hroom⟩ := h.books
  have hlen : d.transactions.len < d.transactions.maxPending := by
    have := h.books.room_le
    unfold occupied at this
    omega
  obtain ⟨id, m, hregister, hfree', hpending, hmax, hothers⟩ :=
    TransactionManager.register_spare hsmall hlen remote.address method now
  let x : PendingDispatch := ⟨id, remote, p⟩
  have hfree : d.pending.get? id = none := by
    refine Table.get?_eq_none.2 fun z hz heq => ?_
    have hmem : id ∈ d.ids := List.mem_map.2 ⟨z, hz, heq⟩
    rcases List.mem_append.1 (hids.mem_iff.1 hmem) with hid | hid
    · obtain ⟨y, hy, hyid⟩ := List.mem_map.1 hid
      exact Table.get?_eq_none.1 hfree' y hy hyid
    · have := hspare id hid
      exact (hothers id (by omega)).1 rfl
  have hrows : (d.pending.insert x).rows = d.pending.rows ++ [x] := Table.insert_of_none hfree
  have hrows' : m.pending.rows =
      d.transactions.pending.rows ++ [d.transactions.added id remote.address method now] := by
    rw [hpending]
    exact Table.insert_of_none hfree'
  refine ⟨id, m, hregister, ⟨⟨?_, ?_, ?_, ?_⟩, ?_⟩, ?_⟩
  · have hnew : ((d.ids ++ [id]) : List TransactionId).Perm ((d.registered ++ [id]) ++ late) := by
      rw [List.append_assoc, List.singleton_append]
      exact ((List.perm_append_singleton _ _).trans (hids.cons _)).trans List.perm_middle.symm
    unfold Dispatcher.ids registered at *
    simp only [x] at *
    rw [hrows, hrows', List.map_append, List.map_append]
    exact hnew
  · intro other hother
    have hle := hspare other hother
    have := (hothers other (by omega)).2
    simp only
    omega
  · simp only
    omega
  · have hone : m.len = d.transactions.len + 1 := by
      unfold TransactionManager.len
      rw [hrows', List.length_append, List.length_singleton]
    unfold occupied automaticLimit at *
    simp only
    omega
  · refine h.accounts.perm ?_ |>.frame rfl
    unfold outstanding
    simp only [x] at *
    rw [hrows, List.map_append, List.append_assoc, List.append_assoc, List.append_assoc]
    exact .refl _
  · rw [hpending]
    simp [TransactionManager.added]

/-- **A registered query is handed to the socket**; one that is refused is taken out again. -/
theorem Open.transmit {q : Queued} (h : d.Open asked now hand late moving starts)
    (hx : d.pending.get? id = some ⟨id, q.remote, q.purpose⟩)
    (ht : (d.transactions.pending.get? id).isSome) :
    (d.transmit id q now).Open asked now hand late moving starts := by
  unfold Dispatcher.transmit
  simp only
  split
  · exact h.frame rfl rfl
  · have htaken : { d.asked with
        transactions := (d.transactions.cancel id).2
        pending := d.pending.erase id }.Open asked now (q.purpose :: hand) late moving starts :=
      (h.takeOut hx ht).frame rfl rfl
    exact htaken.finishStartError _

/-- **A query that leaves the queue is sent**, or ends here. -/
theorem Open.sendRpc {q : Queued} (h : d.Open asked now (q.purpose :: hand) late (moving + 1) starts) :
    (d.sendRpc q now).Open asked now hand late moving starts := by
  obtain ⟨id, transactions, hreg, hopen, hsome⟩ := h.register q.remote q.query.fields.1
  unfold Dispatcher.sendRpc
  rw [hreg]
  refine hopen.transmit ?_ hsome
  simp only [Table.get?_insert, if_pos]

/-- A query has to wait. -/
theorem Open.postpone {q : Queued}
    (h : d.Open asked now (q.purpose :: hand) late (moving + 1) starts) (wait : Nat) :
    (d.postpone q wait now).Open asked now hand late moving starts := by
  obtain ⟨hids, hspare, hsmall, hroom⟩ := h.books
  have hlen : (d.queued ++ [q]).length = d.queued.length + 1 := by simp
  unfold Dispatcher.postpone
  refine ⟨⟨hids, fun id hid => ?_, hsmall, ?_⟩, ?_⟩
  · have := hspare id hid
    simp only [hlen] at *
    omega
  · unfold occupied automaticLimit at *
    simp only [hlen] at *
    omega
  · refine h.accounts.perm ?_ |>.frame rfl
    unfold outstanding
    simp only [List.map_append, List.map_singleton, List.append_assoc, List.singleton_append]
    refine List.Perm.append_left _ ?_
    exact List.perm_middle

/-- **One turn of the loop of `advance_outbound`.** -/
theorem Open.visit {q : Queued} (h : d.Open asked now (q.purpose :: hand) late (moving + 1) starts) :
    (d.visit q now).Open asked now hand late moving starts := by
  have hasked : d.asked.Open asked now (q.purpose :: hand) late (moving + 1) starts := h.frame rfl rfl
  have hdone := hasked.fewer (Nat.le_succ moving) le_rfl
  unfold Dispatcher.visit
  simp only
  split
  · rename_i hgone
    rw [Bool.and_eq_true] at hgone
    obtain ⟨caller, hcaller⟩ := Option.isSome_iff_exists.1 hgone.1
    exact hdone.settle rfl (fun ha => ha.reclaim hcaller)
  · split
    · exact hdone.finishStartError _
    · split
      · exact hdone.finishStartError _
      · split
        · exact hasked.sendRpc
        · exact hasked.postpone _

theorem Open.outboundLoop : ∀ (queue : List Queued) {d : Dispatcher},
    d.Open asked now (queue.map Queued.purpose ++ hand) late queue.length starts →
    (outboundLoop now queue d).Open asked now hand late 0 starts
  | [], _, h => h
  | q :: rest, d, h => by
    unfold Dispatcher.outboundLoop
    rw [List.map_cons, List.cons_append, List.length_cons] at h
    exact Open.outboundLoop rest h.visit

/-- **`advance_outbound` keeps the books and the accounts.** -/
theorem Open.advanceOutbound (h : d.Open asked now hand late 0 starts) :
    (d.advanceOutbound now).Open asked now hand late 0 starts := by
  obtain ⟨hids, hspare, hsmall, hroom⟩ := h.books
  unfold Dispatcher.advanceOutbound
  refine Open.outboundLoop d.queued ⟨⟨hids, fun id hid => ?_, hsmall, ?_⟩, ?_⟩
  · have := hspare id hid
    simp only [List.length_nil] at *
    omega
  · unfold occupied automaticLimit at *
    simp only [List.length_nil] at *
    omega
  · refine h.accounts.perm ?_ |>.frame rfl
    unfold outstanding
    rw [List.map_nil, List.nil_append, List.append_assoc]
    exact List.perm_append_comm_assoc _ _ _

/-- A query that is admitted. -/
theorem Open.enqueue (h : d.Open asked now (p :: hand) late 0 (starts + 1))
    (hroom : d.occupied < d.automaticLimit) (remote : Recovery.RemoteNode)
    (query : Outbound) : (d.enqueue remote query p now).Open asked now hand late 0 starts := by
  obtain ⟨hids, hspare, hsmall, -⟩ := h.books
  unfold Dispatcher.enqueue
  refine Open.advanceOutbound ⟨⟨hids, fun id hid => ?_, hsmall, ?_⟩, ?_⟩
  · have := hspare id hid
    simp only [List.length_append, List.length_singleton] at *
    omega
  · unfold occupied automaticLimit at *
    simp only [List.length_append, List.length_singleton] at *
    omega
  · refine h.accounts.perm ?_ |>.frame rfl
    unfold outstanding
    simp only [List.map_append, List.map_singleton, List.append_assoc, List.singleton_append]
    refine List.Perm.append_left _ ?_
    exact List.perm_middle

/-- **`start_rpc` keeps the books and the accounts**: the purpose in hand is queued, sent or settled. A
ping of the user has to find room before. -/
theorem Open.startRpc (h : d.Open asked now (p :: hand) late 0 (starts + 1))
    (hping : ∀ caller, p = .userPing caller → d.occupied < d.automaticLimit)
    (remote : Recovery.RemoteNode) (query : Outbound) :
    (d.startRpc remote query p now).Open asked now hand late 0 starts := by
  have hdone := h.fewer le_rfl (Nat.le_succ starts)
  have hasked : d.asked.Open asked now (p :: hand) late 0 (starts + 1) := h.frame rfl rfl
  unfold Dispatcher.startRpc
  split
  · exact hdone.finishStartError _
  · simp only
    split
    · exact hdone.finishStartError _
    · rename_i hlimit
      have hroom : d.occupied < d.automaticLimit := by
        cases p with
        | userPing caller => exact hping caller rfl
        | _ => exact Nat.lt_of_not_le hlimit
      split
      · split
        · exact hasked.enqueue hroom remote query
        · exact (hasked.fewer le_rfl (Nat.le_succ starts)).finishStartError _
      · exact h.enqueue hroom remote query

end Dispatcher

end BtSniffer
