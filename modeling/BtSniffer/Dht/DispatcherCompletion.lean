import BtSniffer.Dht.DispatcherTraffic

/-!
# Ends of queries keep the books

* `Open.finishSuccess`, `Open.finishNetworkFailure` — a pending query is settled; a bucket probe may
  start one more query.
* `Open.expireTransactions`, `Open.handleResponse`, `Open.handleError` — so do all pending queries that
  have expired, and the one that a datagram answers.
-/

set_option autoImplicit false

namespace BtSniffer

open Relational

/-! ## Routing -/

namespace RoutingTable

variable {t : RoutingTable} {now : Nat}

/-- An operation that would panic leaves the table. -/
theorem shape_getD {α : Type} (h : t.Shape) {result : Option (α × RoutingTable)} {default : α}
    (hshape : ∀ a t', result = some (a, t') → t'.Shape) :
    (result.getD (default, t)).2.Shape := by
  cases hr : result with
  | none => exact h
  | some r => exact hshape r.1 r.2 hr

theorem Shape.recordFailure (h : t.Shape) (id : NodeId) :
    ((t.recordFailure id now).getD (none, t)).2.Shape := by
  refine shape_getD h fun a t' hr => ?_
  have happly : t.apply (.recordFailure id) now = some ([], t') := by
    simp only [apply, hr, Option.map_some]
  exact apply_shape h happly

theorem Shape.reconsiderCandidate (h : t.Shape) (c : NodeContact) :
    ((t.reconsiderCandidate c now).getD (.rejectedFull, t)).2.Shape := by
  refine shape_getD h fun a t' hr => ?_
  have happly : t.apply (.reconsiderCandidate c) now = some (a.issued, t') := by
    simp only [apply, hr, Option.map_some]
  exact apply_shape h happly

theorem Shape.observeResponse (h : t.Shape) (id : NodeId) (address : SocketAddr) :
    ((t.observeResponse id address now).getD (.rejectedFull, t)).2.Shape := by
  refine shape_getD h fun a t' hr => ?_
  have happly : t.apply (.observeResponse id address) now = some (a.issued, t') := by
    simp only [apply, hr, Option.map_some]
  exact apply_shape h happly

theorem Shape.observeQuery (h : t.Shape) (id : NodeId) (address : SocketAddr) (readOnly : Bool) :
    ((t.observeQuery id address readOnly now).getD (.updated, t)).2.Shape := by
  refine shape_getD h fun a t' hr => ?_
  have happly : t.apply (.observeQuery id address readOnly) now = some ([], t') := by
    simp only [apply, hr, Option.map_some]
  exact apply_shape h happly

end RoutingTable

namespace Dispatcher

variable {d d' : Dispatcher} {asked : List Caller} {now : Nat} {hand purposes : List Purpose}
  {p : Purpose} {late : List TransactionId} {starts : Nat}

/-! ## What begins -/

/-- The routing table may change. -/
theorem Accounts.reroute (h : d.Accounts asked now purposes) {t : RoutingTable} (ht : t.Shape) :
    { d with routing := t }.Accounts asked now purposes :=
  { h with routing := ht }

theorem Open.reroute (h : d.Open asked now hand late 0 starts) {t : RoutingTable} (ht : t.Shape) :
    { d with routing := t }.Open asked now hand late 0 starts :=
  ⟨h.books.frame rfl, h.accounts.reroute ht⟩

/-- A purpose begins without a change of the traffic. -/
theorem Open.enter (h : d.Open asked now hand late 0 starts) (ht : d'.traffic = d.traffic)
    (ha : d.Accounts asked now (d.outstanding ++ hand) →
      d'.Accounts asked now (p :: (d.outstanding ++ hand))) :
    d'.Open asked now (p :: hand) late 0 starts := by
  refine ⟨h.books.frame ht, ?_⟩
  rw [outstanding_frame ht]
  exact (ha h.accounts).perm List.perm_middle.symm

theorem Accounts.beginProbe (h : d.Accounts asked now purposes) {incumbent : NodeContact}
    (hnew : d.bucketProbes.get? (incumbent.id, incumbent.address) = none)
    (remaining : List NodeContact) (candidate : NodeContact) (attempt : Nat) :
    { d with bucketProbes := d.bucketProbes.insertNew (incumbent.id, incumbent.address) }.Accounts
      asked now (.bucketProbe incumbent remaining candidate attempt :: purposes) where
  verifications := h.verifications
  probes := h.probes.opens rfl hnew
  recovery := h.recovery
  waiting := h.waiting
  lookup := h.lookup
  sampler := h.sampler
  callers := h.callers
  routing := h.routing

/-- **A bucket probe starts**, unless its incumbent is probed already. -/
theorem Open.startBucketProbe (h : d.Open asked now hand late 0 (starts + 1))
    (incumbent : NodeContact) (remaining : List NodeContact) (candidate : NodeContact)
    (attempt : Nat) :
    (d.startBucketProbe incumbent remaining candidate attempt now).Open asked now hand late 0
      starts := by
  unfold Dispatcher.startBucketProbe
  simp only
  split
  · exact h.fewer le_rfl (Nat.le_succ starts)
  · rename_i hnew
    have hnone := Option.not_isSome_iff_eq_none.1 hnew
    have hbegin : { d with
        bucketProbes := d.bucketProbes.insertNew (incumbent.id, incumbent.address) }.Open asked now
        (.bucketProbe incumbent remaining candidate attempt :: hand) late 0 (starts + 1) :=
      h.enter rfl (fun ha => ha.beginProbe hnone remaining candidate attempt)
    exact hbegin.startRpc (fun _ hp => by cases hp) _ _

theorem Open.handleInsertOutcome (h : d.Open asked now hand late 0 (starts + 1))
    (outcome : InsertOutcome) :
    (d.handleInsertOutcome outcome now).Open asked now hand late 0 starts := by
  unfold Dispatcher.handleInsertOutcome
  split
  · exact h.startBucketProbe _ _ _ _
  · exact h.fewer le_rfl (Nat.le_succ starts)

theorem Open.reconsider (h : d.Open asked now hand late 0 (starts + 1)) (candidate : NodeContact) :
    (d.reconsider candidate now).Open asked now hand late 0 starts := by
  unfold Dispatcher.reconsider
  exact (h.reroute (h.accounts.routing.reconsiderCandidate candidate)).handleInsertOutcome _

/-! ## Success -/

theorem Open.endProbe {incumbent candidate : NodeContact} {remaining : List NodeContact}
    {attempt : Nat}
    (h : d.Open asked now (.bucketProbe incumbent remaining candidate attempt :: hand) late 0 starts) :
    { d with bucketProbes := d.bucketProbes.erase (incumbent.id, incumbent.address) }.Open asked now
      hand late 0 starts :=
  h.settle rfl (fun ha => ha.endProbe)

theorem Open.probeAnswered {incumbent candidate : NodeContact} {remaining : List NodeContact}
    {attempt : Nat}
    (h : d.Open asked now (.bucketProbe incumbent remaining candidate attempt :: hand) late 0
      (starts + 1)) :
    (d.probeAnswered incumbent remaining candidate now).Open asked now hand late 0 starts := by
  unfold Dispatcher.probeAnswered
  simp only
  split
  · exact h.endProbe.reconsider candidate
  · exact h.endProbe.startBucketProbe _ _ _ _

/-- **A query has succeeded.** -/
theorem Open.finishSuccess (h : d.Open asked now (p :: hand) late 0 (starts + 1))
    (responderId : NodeId) (decoded : Validated) :
    (d.finishSuccess p responderId decoded now).Open asked now hand late 0 starts := by
  have hdone := h.fewer le_rfl (Nat.le_succ starts)
  cases p with
  | fetch caller =>
    unfold Dispatcher.finishSuccess
    simp only
    split
    · exact hdone.settle rfl (fun ha => ha.reply rfl _)
    · exact hdone.settle rfl (fun ha => ha.reclaim rfl)
  | recovery id => exact hdone.settle rfl (fun ha => ha.endRecovery)
  | sampling request =>
    unfold Dispatcher.finishSuccess
    simp only
    split
    · exact hdone.settle rfl (fun ha => ha.endSampling (fun hd => hd.success _ _))
    · exact hdone.settle rfl (fun ha => ha.endSampling (fun hd => hd.nodes _ _))
  | userPing caller => exact hdone.settle rfl (fun ha => ha.reply rfl _)
  | verification key => exact hdone.settle rfl (fun ha => ha.endVerification)
  | bucketProbe incumbent remaining candidate attempt => exact h.probeAnswered
  | maintenanceLookup nodeId =>
    exact hdone.settle rfl (fun ha => ha.endLookup (fun hw => hw.completeSuccess _ _))

/-! ## Failure -/

theorem Open.recordFailure (h : d.Open asked now hand late 0 starts) (id : NodeId) :
    (d.recordFailure id now).2.Open asked now hand late 0 starts :=
  h.reroute (h.accounts.routing.recordFailure id)

theorem Open.blame (h : d.Open asked now hand late 0 starts) (remote : Recovery.RemoteNode)
    (error : QueryError) : (d.blame remote error now).Open asked now hand late 0 starts := by
  unfold Dispatcher.blame recordExpectedFailure
  split
  · exact h
  · split
    · exact h
    · exact h.recordFailure _

/-- The second probe of an incumbent takes over the key of the first. -/
theorem Accounts.retryProbe {incumbent candidate : NodeContact} {remaining : List NodeContact}
    {attempt attempt' : Nat}
    (h : d.Accounts asked now (.bucketProbe incumbent remaining candidate attempt :: purposes)) :
    d.Accounts asked now (.bucketProbe incumbent remaining candidate attempt' :: purposes) where
  verifications := h.verifications
  probes := h.probes.passes rfl
  recovery := h.recovery
  waiting := h.waiting
  lookup := h.lookup
  sampler := h.sampler
  callers := h.callers
  routing := h.routing

theorem Open.probeFailed {incumbent candidate : NodeContact} {remaining : List NodeContact}
    {attempt : Nat}
    (h : d.Open asked now (.bucketProbe incumbent remaining candidate attempt :: hand) late 0
      (starts + 1)) :
    (d.probeFailed incumbent remaining candidate attempt now).Open asked now hand late 0 starts := by
  have hfailed := h.recordFailure incumbent.id
  unfold Dispatcher.probeFailed
  simp only
  split
  · exact hfailed.endProbe.reconsider candidate
  · split
    · have hagain : (d.recordFailure incumbent.id now).2.Open asked now
          (.bucketProbe incumbent remaining candidate (attempt + 1) :: hand) late 0 (starts + 1) :=
        ⟨hfailed.books, ((hfailed.accounts.perm List.perm_middle).retryProbe).perm
          List.perm_middle.symm⟩
      exact hagain.startRpc (fun _ hp => by cases hp) _ _
    · exact hfailed.endProbe.fewer le_rfl (Nat.le_succ starts)

/-- **A query has failed.** -/
theorem Open.finishNetworkFailure (h : d.Open asked now (p :: hand) late 0 (starts + 1))
    (remote : Recovery.RemoteNode) (error : QueryError) :
    (d.finishNetworkFailure remote p error now).Open asked now hand late 0 starts := by
  have hdone := h.fewer le_rfl (Nat.le_succ starts)
  cases p with
  | fetch caller => exact (hdone.blame remote error).settle rfl (fun ha => ha.reply rfl _)
  | recovery id => exact hdone.settle rfl (fun ha => ha.endRecovery)
  | sampling request =>
    exact (hdone.blame remote error).settle rfl (fun ha => ha.endSampling (fun hd => hd.failure _))
  | userPing caller => exact (hdone.blame remote error).settle rfl (fun ha => ha.reply rfl _)
  | verification key => exact hdone.settle rfl (fun ha => ha.endVerification)
  | bucketProbe incumbent remaining candidate attempt => exact h.probeFailed
  | maintenanceLookup nodeId =>
    exact (hdone.blame remote error).settle rfl
      (fun ha => ha.endLookup (fun hw => hw.completeFailure))

/-! ## Expiry -/

/-- Transactions end, and their queries are still pending. -/
theorem Open.lose (h : d.Open asked now hand [] 0 0)
    {t : Table PendingTransaction PendingTransaction.id} {lost : List TransactionId}
    (hperm : d.registered.Perm (t.rows.map PendingTransaction.id ++ lost))
    (hspare : ∀ id ∈ lost, d.queued.length + starts ≤
      TransactionManager.spare { d.transactions with pending := t } id) :
    { d with transactions := { d.transactions with pending := t } }.Open asked now hand lost 0
      starts := by
  obtain ⟨hids, -, hsmall, hroom⟩ := h.books
  refine ⟨⟨?_, hspare, hsmall, ?_⟩, h.accounts.frame rfl⟩
  · rw [List.append_nil] at hids
    exact hids.trans hperm
  · have hlen := hperm.length_eq
    unfold registered at hlen
    rw [List.length_map, List.length_append, List.length_map] at hlen
    unfold occupied automaticLimit TransactionManager.len at *
    simp only
    omega

theorem Open.failPending {x : PendingTransaction} (h : d.Open asked now hand (x.id :: late) 0
    (starts + 1)) (error : QueryError) :
    (d.failPending x.id error now).Open asked now hand late 0 starts := by
  obtain ⟨p, hp, hopen⟩ := h.takeLate
  unfold Dispatcher.failPending
  rw [hp]
  exact hopen.finishNetworkFailure _ _

theorem Open.failAll : ∀ (lost : List PendingTransaction) {d : Dispatcher},
    d.Open asked now hand (lost.map PendingTransaction.id) 0 (lost.length + starts) →
    (lost.foldl (fun d x => d.failPending x.id .timeout now) d).Open asked now hand [] 0 starts
  | [], _, h => h.fewer le_rfl (Nat.le_add_left _ _)
  | x :: rest, d, h => by
    rw [List.length_cons, Nat.add_right_comm] at h
    exact Open.failAll rest (h.failPending .timeout)

/-- The transactions that expire and those that stay. -/
theorem expire_perm (m : TransactionManager) (now : Nat) :
    (m.pending.rows.map PendingTransaction.id).Perm
      ((m.expire now).2.pending.rows.map PendingTransaction.id ++
        (m.expire now).1.map PendingTransaction.id) := by
  unfold TransactionManager.expire
  simp only [Table.rows_delete]
  rw [← List.map_append]
  refine List.Perm.map _ ?_
  have hsplit := List.filter_append_perm (fun x : PendingTransaction => decide (now ≥ x.deadline))
    m.pending.rows
  refine hsplit.symm.trans (List.perm_append_comm.trans ?_)
  exact (List.Perm.refl _).append (List.perm_insertionSort _ _).symm

/-- The counter does not come to an id that has expired while its query is still being settled: it is
further away than there are places. -/
def Unspent (m : TransactionManager) (now : Nat) : Prop :=
  ∀ x ∈ (m.expire now).1, m.maxPending ≤ m.ahead x.id

instance (m : TransactionManager) (now : Nat) : Decidable (Unspent m now) :=
  inferInstanceAs (Decidable (∀ x ∈ (m.expire now).1, _))

/-- **`expire_transactions`** settles every query whose transaction has expired. -/
theorem Open.expireTransactions (h : d.Open asked now [] [] 0 0) (hfar : Unspent d.transactions now) :
    (d.expireTransactions now).Open asked now [] [] 0 0 := by
  have hperm := expire_perm d.transactions now
  have hlen := hperm.length_eq
  have hroom := h.books.room_le
  unfold occupied TransactionManager.len at hroom
  rw [List.length_map, List.length_append, List.length_map, List.length_map] at hlen
  unfold Dispatcher.expireTransactions
  refine Open.failAll (d.transactions.expire now).1 (h.lose hperm fun id hid => ?_)
  obtain ⟨x, hx, rfl⟩ := List.mem_map.1 hid
  have hfree := TransactionManager.le_freeIds (d.transactions.ahead x.id) d.transactions.nextCounter
    (d.transactions.expire now).2.pending (BitVec.isLt _).le
  have hspare : (d.transactions.expire now).2.spare x.id = TransactionManager.freeIds
      (d.transactions.expire now).2.pending (d.transactions.ahead x.id) d.transactions.nextCounter :=
    rfl
  have hahead := hfar x hx
  change d.queued.length + _ ≤ (d.transactions.expire now).2.spare x.id
  omega

/-! ## Datagrams -/

theorem Open.observeExternal (h : d.Open asked now hand late 0 starts) (source : SocketAddr)
    (bytes : Option (List UInt8)) :
    (d.observeExternal source bytes now).Open asked now hand late 0 starts := by
  unfold Dispatcher.observeExternal
  split
  · exact h
  · split
    · exact h.frame rfl rfl
    · exact h

/-- **A response that is accepted** may start two queries: those of its bucket probe and of its own
sender. -/
theorem Open.deliver (h : d.Open asked now (p :: hand) late 0 (starts + 1 + 1)) (received : Received)
    (response : ResponseArgs) (decoded : Validated) :
    (d.deliver p received response decoded now).Open asked now hand late 0 starts := by
  have hopen := h.observeExternal received.source received.message.ip
  unfold Dispatcher.deliver
  exact ((hopen.reroute (hopen.accounts.routing.observeResponse _ _)).finishSuccess _ _
    ).handleInsertOutcome _

/-- A transaction has a pending query. -/
theorem Open.pending_of_transaction (h : d.Open asked now hand late 0 starts)
    {x : PendingTransaction} (hx : d.transactions.pending.get? x.id = some x) :
    ∃ p, d.pending.get? x.id = some p ∧ p.id = x.id := by
  have hmem : x.id ∈ d.ids :=
    h.books.ids.mem_iff.2 (List.mem_append_left _ (List.mem_map_of_mem (Table.get?_eq_some.1 hx).1))
  obtain ⟨p, hp, hid⟩ := List.mem_map.1 hmem
  exact ⟨p, hid ▸ Table.get?_key hp, hid⟩

/-- A transaction that is answered too late ends with its query. -/
theorem Open.failLate (h : d.Open asked now hand [] 0 0) {x : PendingTransaction}
    (hx : d.transactions.pending.get? x.id = some x) :
    ({ d with transactions :=
      { d.transactions with pending := d.transactions.pending.erase x.id } }.failPending x.id .timeout
        now).Open asked now hand [] 0 0 := by
  obtain ⟨p, hp, -⟩ := h.pending_of_transaction hx
  have htaken := (h.takeOut hp (by rw [hx]; rfl)).more 1
  unfold Dispatcher.failPending
  simp only [hp]
  exact htaken.finishNetworkFailure _ _

/-- **`handle_response`** settles the query that the datagram answers, and no other one. -/
theorem Open.handleResponse (h : d.Open asked now hand [] 0 0) (received : Received) :
    (d.handleResponse received now).Open asked now hand [] 0 0 := by
  unfold Dispatcher.handleResponse
  rcases TransactionManager.complete_cases d.transactions received.message.t received.source now with
    ⟨-, hc⟩ | ⟨id, -, -, hc⟩ | ⟨x, hx, -, ⟨-, hc⟩ | ⟨-, -, hc⟩ | ⟨-, -, hc⟩⟩
  all_goals rw [hc]
  · exact h.frame rfl rfl
  · exact h.frame rfl rfl
  · exact h.frame rfl rfl
  · exact h.failLate hx
  · obtain ⟨p, hp, hid⟩ := h.pending_of_transaction hx
    have htaken := (h.takeOut hp (by rw [hx]; rfl)).more 2
    simp only [hp, hid]
    split
    · exact (htaken.fewer le_rfl one_le_two).finishNetworkFailure _ _
    · exact htaken.deliver _ _ _

/-- **`handle_error`** does so too. -/
theorem Open.handleError (h : d.Open asked now hand [] 0 0) (received : Received) :
    (d.handleError received now).Open asked now hand [] 0 0 := by
  unfold Dispatcher.handleError
  rcases TransactionManager.complete_cases d.transactions received.message.t received.source now with
    ⟨-, hc⟩ | ⟨id, -, -, hc⟩ | ⟨x, hx, -, ⟨-, hc⟩ | ⟨-, -, hc⟩ | ⟨-, -, hc⟩⟩
  all_goals
    simp only
    rw [hc]
  · exact h.frame rfl rfl
  · exact h.frame rfl rfl
  · exact h.frame rfl rfl
  · exact h.failLate hx
  · obtain ⟨p, hp, hid⟩ := h.pending_of_transaction hx
    have htaken := (h.takeOut hp (by rw [hx]; rfl)).more 1
    simp only [hp, hid]
    split
    · exact htaken.finishNetworkFailure _ _
    · split
      · exact (htaken.observeExternal _ _).finishNetworkFailure _ _
      · exact htaken.finishNetworkFailure _ _

end Dispatcher

end BtSniffer
