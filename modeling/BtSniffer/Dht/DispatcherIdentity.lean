import BtSniffer.Dht.DispatcherSteps

/-!
# A change of identity keeps the books

* `Open.clearQueries` — every query is given up, with its caller and its request.
* `switchIdentity_cases` — the database answers to the flush and to `bind`; the new identity is adopted
  only if both succeed.
* `Open.rotateIdentity` — the whole change.
-/

set_option autoImplicit false

namespace BtSniffer

open Relational

/-- Saved contacts are one for each node. -/
theorem Recovery.savedContacts_nodup (p : Recovery.Progress) (snapshot : List Recovery.SavedContact) :
    ((Recovery.savedContacts p snapshot).map Recovery.SavedContact.id).Nodup := by
  have hsorted : ((Recovery.mergedContacts p snapshot).rows.insertionSort
      Recovery.snapshotOrder).map Recovery.SavedContact.id |>.Nodup :=
    ((List.perm_insertionSort _ _).map _).nodup_iff.2 (Recovery.mergedContacts p snapshot).nodup
  exact hsorted.sublist ((List.take_sublist _ _).map _)

namespace Dispatcher

variable {d d' : Dispatcher} {asked : List Caller} {now current : Nat} {hand purposes : List Purpose}
  {p : Purpose} {error : QueryError}

/-! ## Giving up what is queued -/

theorem Open.giveUpQueued (error : QueryError) : ∀ (queue : List Queued) {d : Dispatcher},
    d.Open asked now (queue.map Queued.purpose ++ hand) [] 0 0 →
    (queue.foldl (fun d q => d.finishStartError q.purpose error now) d).Open asked now hand [] 0 0
  | [], _, h => h
  | _ :: rest, _, h => Open.giveUpQueued error rest (h.finishStartError error)

theorem giveUpQueued_frame (error : QueryError) (now : Nat) : ∀ (queue : List Queued) (d : Dispatcher),
    (queue.foldl (fun d q => d.finishStartError q.purpose error now) d).traffic = d.traffic
  | [], _ => rfl
  | q :: rest, d =>
    (giveUpQueued_frame error now rest _).trans (finishStartError_traffic d q.purpose error now)

theorem finishStartError_paused (d : Dispatcher) (p : Purpose) (error : QueryError) (now : Nat) :
    (d.finishStartError p error now).identityPaused = d.identityPaused := by
  cases p with
  | sampling request =>
    unfold finishStartError
    simp only
    split <;> rfl
  | _ => rfl

theorem giveUpQueued_paused (error : QueryError) (now : Nat) :
    ∀ (queue : List Queued) (d : Dispatcher),
      (queue.foldl (fun d q => d.finishStartError q.purpose error now) d).identityPaused =
        d.identityPaused
  | [], _ => rfl
  | q :: rest, d =>
    (giveUpQueued_paused error now rest _).trans (finishStartError_paused d q.purpose error now)

/-! ## Giving up what is pending -/

/-- The transactions of pending queries are cancelled. -/
def cancelAll (m : TransactionManager) (ps : List PendingDispatch) : TransactionManager :=
  ps.foldl (fun m p => (m.cancel p.id).2) m

theorem mem_cancelAll : ∀ (ps : List PendingDispatch) (m : TransactionManager)
    {x : PendingTransaction}, x ∈ (cancelAll m ps).pending.rows →
      x ∈ m.pending.rows ∧ x.id ∉ ps.map PendingDispatch.id
  | [], _, _, hx => ⟨hx, List.not_mem_nil⟩
  | p :: rest, m, x, hx => by
    obtain ⟨hmem, hrest⟩ := mem_cancelAll rest _ hx
    obtain ⟨hold, hne⟩ := Table.mem_erase.1 hmem
    refine ⟨hold, ?_⟩
    rw [List.map_cons, List.mem_cons, not_or]
    exact ⟨hne, hrest⟩

theorem cancelAll_maxPending : ∀ (ps : List PendingDispatch) (m : TransactionManager),
    (cancelAll m ps).maxPending = m.maxPending
  | [], _ => rfl
  | _ :: rest, _ => cancelAll_maxPending rest _

/-- **What `clear_queries` does with the pending queries**: callers get the error, requests of the
sampler are cancelled. -/
theorem dropPending_eq (error : QueryError) (now : Nat) :
    ∀ (ps : List PendingDispatch) (d : Dispatcher), ps.foldl (dropPending error now) d = { d with
      transactions := cancelAll d.transactions ps
      sampler := (ps.filterMap (fun p => p.purpose.request?)).foldl
        (fun s r => s.cancelRequest r now now) d.sampler
      journal := { d.journal with
        replies := (ps.filterMap (fun p => p.purpose.caller?)).foldl
          (fun replies caller => (caller, .error error) :: replies) d.journal.replies } }
  | [], _ => rfl
  | p :: rest, d => by
    rw [List.foldl_cons, dropPending_eq error now rest]
    unfold dropPending
    obtain ⟨id, remote, purpose⟩ := p
    cases purpose <;> rfl

theorem replies_callers (error : QueryError) : ∀ (callers : List Caller)
    (replies : List (Caller × Except QueryError QueryReply)),
    ((callers.foldl (fun replies caller => (caller, .error error) :: replies) replies).map
      Prod.fst).Perm (callers ++ replies.map Prod.fst)
  | [], _ => .refl _
  | caller :: rest, replies =>
    (replies_callers error rest ((caller, .error error) :: replies)).trans List.perm_middle

/-! ## `clear_queries` -/

/-- `clear_queries` once the queue was given up. -/
def clearPending (d : Dispatcher) (error : QueryError) (now : Nat) : Dispatcher :=
  { d.pending.rows.foldl (dropPending error now) { d with pending := .empty } with
    queueDeadline := none
    verifications := .empty
    bucketProbes := .empty
    maintenance := d.maintenance.clear }

/-- Every queued query is given up. -/
def clearQueue (d : Dispatcher) (error : QueryError) (now : Nat) : Dispatcher :=
  d.queued.foldl (fun d q => d.finishStartError q.purpose error now) { d with queued := [] }

theorem clearQueries_eq (d : Dispatcher) (error : QueryError) (now : Nat) :
    d.clearQueries error now = (d.clearQueue error now).clearPending error now := by
  have hmaintenance : ∀ d₁ : Dispatcher, (d₁.pending.rows.foldl (dropPending error now)
      { d₁ with pending := .empty }).maintenance = d₁.maintenance := by
    intro d₁
    rw [dropPending_eq]
  unfold clearQueries clearPending clearQueue
  simp only [hmaintenance]

theorem Open.clearQueue (h : d.Open asked now [] [] 0 0) (error : QueryError) :
    (d.clearQueue error now).Open asked now [] [] 0 0 := by
  have hqueue := h.unqueue (fun _ => false)
  simp only [List.filter_false, Bool.not_false, List.filter_true] at hqueue
  exact Open.giveUpQueued error d.queued hqueue

theorem clearQueue_queued (d : Dispatcher) (error : QueryError) (now : Nat) :
    (d.clearQueue error now).queued = [] := by
  have htraffic := giveUpQueued_frame error now d.queued { d with queued := [] }
  simp only [traffic, Prod.mk.injEq] at htraffic
  exact htraffic.1

theorem clearQueue_paused (d : Dispatcher) (error : QueryError) (now : Nat) :
    (d.clearQueue error now).identityPaused = d.identityPaused :=
  giveUpQueued_paused error now d.queued { d with queued := [] }

section ClearPending

variable (h : d.Open asked now [] [] 0 0) (hqueued : d.queued = []) (error)

include h

/-- Every transaction was one of a pending query. -/
theorem clearPending_transactions :
    (d.clearPending error now).transactions.pending.rows = [] := by
  unfold clearPending
  rw [dropPending_eq]
  refine List.eq_nil_iff_forall_not_mem.2 fun x hx => ?_
  obtain ⟨hmem, hnot⟩ := mem_cancelAll d.pending.rows d.transactions hx
  refine hnot (h.books.ids.mem_iff.2 ?_)
  rw [List.append_nil]
  exact List.mem_map_of_mem hmem

include hqueued

theorem clearPending_books : (d.clearPending error now).Books [] 0 0 := by
  have hrows := clearPending_transactions error h
  have hmax : (d.clearPending error now).transactions.maxPending = d.transactions.maxPending := by
    unfold clearPending
    rw [dropPending_eq]
    exact cancelAll_maxPending _ _
  have hpending : (d.clearPending error now).pending = .empty := by
    unfold clearPending
    rw [dropPending_eq]
  have hqueue : (d.clearPending error now).queued = [] := by
    unfold clearPending
    rw [dropPending_eq]
    exact hqueued
  refine ⟨?_, fun _ hid => absurd hid List.not_mem_nil, hmax ▸ h.books.small, ?_⟩
  · unfold Dispatcher.ids registered
    rw [hpending, hrows]
    exact .refl _
  · unfold occupied TransactionManager.len
    rw [hrows, hqueue]
    exact Nat.zero_le _

omit h in
theorem clearPending_outstanding : (d.clearPending error now).outstanding = [] := by
  unfold clearPending
  rw [dropPending_eq]
  unfold outstanding
  simp only [hqueued]
  rfl

omit h in
/-- The open purposes are those of the pending queries. -/
theorem outstanding_of_queued {β : Type} (f : Purpose → Option β) :
    (d.outstanding ++ []).filterMap f = d.pending.rows.filterMap (fun p => f p.purpose) := by
  unfold outstanding
  rw [hqueued, List.append_nil, List.map_nil, List.nil_append, List.filterMap_map]
  rfl

/-- Every caller has got a reply. -/
theorem clearPending_callers : asked.Perm
    ((d.clearPending error now).journal.replies.map Prod.fst ++
      (d.clearPending error now).journal.reclaimed) := by
  have hcallers := h.accounts.callers
  rw [outstanding_of_queued hqueued] at hcallers
  unfold clearPending
  rw [dropPending_eq]
  refine hcallers.trans ?_
  rw [← List.append_assoc]
  exact (replies_callers error _ _).symm.append_right _

theorem clearPending_sampler : (d.clearPending error now).sampler.Driven now [] := by
  have hsampler := h.accounts.sampler
  rw [outstanding_of_queued hqueued] at hsampler
  unfold clearPending
  rw [dropPending_eq]
  exact Sampler.Driven.cancelAll _ hsampler

/-- **While the identity is paused, nothing is open after `clear_queries`.** -/
theorem Open.clearPending (hpaused : d.identityPaused = true) :
    (d.clearPending error now).Open asked now [] [] 0 0 := by
  refine ⟨clearPending_books error h hqueued, ?_⟩
  rw [clearPending_outstanding error hqueued, List.append_nil]
  have hsampler := clearPending_sampler error h hqueued
  have hcallers := clearPending_callers error h hqueued
  unfold Dispatcher.clearPending at hsampler hcallers ⊢
  rw [dropPending_eq] at hsampler hcallers ⊢
  refine ⟨.refl _, .refl _, fun hfalse => ?_, h.accounts.waiting, ?_, hsampler, hcallers,
    h.accounts.routing⟩
  · rw [show d.identityPaused = false from hfalse] at hpaused
    cases hpaused
  · exact (MaintenanceState.waits_none rfl).2 rfl

end ClearPending

/-- **`clear_queries` gives up every query.** -/
theorem Open.clearQueries (h : d.Open asked now [] [] 0 0) (hpaused : d.identityPaused = true)
    (error : QueryError) : (d.clearQueries error now).Open asked now [] [] 0 0 ∧
      (d.clearQueries error now).outstanding = [] := by
  have hqueued := clearQueue_queued d error now
  rw [clearQueries_eq]
  exact ⟨Open.clearPending error (h.clearQueue error) hqueued ((clearQueue_paused d error now).trans hpaused),
    clearPending_outstanding error hqueued⟩

/-! ## The new identity -/

/-- The dispatcher when all queries of the old identity were given up. -/
def quit (d : Dispatcher) (now : Nat) : Dispatcher :=
  { d with identityPaused := true }.cancelForIdentity now

/-- **What `rotate_identity` does from there on**: the sampler changes as in `Sampler.rotateIdentity`, and
the identity is adopted only if the database has been flushed and has stored it. -/
theorem switchIdentity_cases {ip : IpAddr} {contacts : List Recovery.SavedContact}
    {events : List (Nat × StorageEvent)} {bound : Except StorageError LocalIdentity} {random : NodeId}
    (h : d.switchIdentity ip contacts events bound random now current = some d') :
    ∃ result s s', (d.quit now).sampler.prepareIdentityChange events random now = some (result, s) ∧
      (d.quit now).sampler.rotateIdentity events bound random now current = some s' ∧
      ((∃ e, s' = s.markStorageFault e current ∧ d' = { d.quit now with sampler := s' }) ∨
        ∃ identity, result = .ok () ∧ bound = .ok identity ∧ s' = s.identityChanged identity ∧
          d' = { d.quit now with sampler := s' }.adopt identity ip contacts now) := by
  obtain ⟨⟨result, s⟩, hprepared, rfl⟩ := Option.map_eq_some_iff.1 h
  have hprepared' : (d.quit now).sampler.prepareIdentityChange events random now =
      some (result, s) := hprepared
  unfold Sampler.rotateIdentity
  rw [hprepared']
  cases result with
  | error e => exact ⟨_, _, _, rfl, rfl, .inl ⟨e, rfl, rfl⟩⟩
  | ok _ =>
    cases bound with
    | error e => exact ⟨_, _, _, rfl, rfl, .inl ⟨e, rfl, rfl⟩⟩
    | ok identity => exact ⟨_, _, _, rfl, rfl, .inr ⟨identity, rfl, rfl, rfl, rfl⟩⟩

/-- A dispatcher without open queries adopts an identity. -/
theorem Open.adopt (h : d.Open asked current [] [] 0 0) (hopen : d.outstanding = [])
    (identity : LocalIdentity) (ip : IpAddr) {contacts : List Recovery.SavedContact}
    (hcontacts : (contacts.map Recovery.SavedContact.id).Nodup) :
    (d.adopt identity ip contacts now).Open asked current [] [] 0 0 := by
  obtain ⟨hbooks, haccounts⟩ := h
  have hsame : (d.adopt identity ip contacts now).outstanding = [] := hopen
  rw [hopen] at haccounts
  refine ⟨hbooks.frame rfl, ?_⟩
  rw [hsame]
  exact
    { verifications := haccounts.verifications
      probes := haccounts.probes
      recovery := fun _ => .refl _
      waiting := ⟨hcontacts, fun _ _ => rfl⟩
      lookup := (MaintenanceState.waits_none rfl).2 rfl
      sampler := haccounts.sampler
      callers := haccounts.callers
      routing := RoutingTable.new_shape _ _ _ }

theorem Open.later (h : d.Open asked now [] [] 0 0) {t : Nat} (hle : now ≤ t) :
    d.Open asked t [] [] 0 0 :=
  ⟨h.books, h.accounts.later hle⟩

theorem Open.quit (h : d.Open asked now [] [] 0 0) :
    (d.quit now).Open asked now [] [] 0 0 ∧ (d.quit now).outstanding = [] := by
  have hpaused : { d with identityPaused := true }.Open asked now [] [] 0 0 :=
    ⟨h.books.frame rfl, { h.accounts with recovery := fun hfalse => by cases hfalse }⟩
  exact hpaused.clearQueries rfl .identityChanged

/-- **A change of identity, from its pause on.** -/
theorem Open.switchIdentity (h : d.Open asked now [] [] 0 0) (hle : now ≤ current) {ip : IpAddr}
    {contacts : List Recovery.SavedContact} {events : List (Nat × StorageEvent)}
    {bound : Except StorageError LocalIdentity} {random : NodeId}
    (hcontacts : (contacts.map Recovery.SavedContact.id).Nodup)
    (hswitch : d.switchIdentity ip contacts events bound random now current = some d') :
    d'.Open asked current [] [] 0 0 := by
  obtain ⟨hquit, hnone⟩ := h.quit
  obtain ⟨_, _, s', -, hrotate, hcases⟩ := switchIdentity_cases hswitch
  have hsame : { d.quit now with sampler := s' }.outstanding = [] := hnone
  have hchanged : { d.quit now with sampler := s' }.Open asked current [] [] 0 0 := by
    have ha := hquit.accounts
    rw [hnone] at ha
    refine ⟨hquit.books.frame rfl, ?_⟩
    rw [hsame]
    exact
      { verifications := ha.verifications
        probes := ha.probes
        recovery := ha.recovery
        waiting := ha.waiting
        lookup := ha.lookup
        sampler := ha.sampler.rotateIdentity hle hrotate
        callers := ha.callers
        routing := ha.routing }
  rcases hcases with ⟨-, -, rfl⟩ | ⟨identity, -, -, -, rfl⟩
  · exact hchanged
  · exact hchanged.adopt hsame identity ip hcontacts

/-- **`rotate_identity` keeps the books.** -/
theorem Open.rotateIdentity (h : d.Open asked now [] [] 0 0) (hle : now ≤ current)
    {events : List (Nat × StorageEvent)} {bound : Except StorageError LocalIdentity} {random : NodeId}
    (hrotate : d.rotateIdentity events bound random now current = some d') :
    d'.Open asked current [] [] 0 0 := by
  unfold Dispatcher.rotateIdentity at hrotate
  split at hrotate
  · cases hrotate
    exact h.later hle
  · rename_i ip _
    have hnone : { d with pendingExternalIp := none }.Open asked now [] [] 0 0 := h.frame rfl rfl
    simp only at hrotate
    split at hrotate
    · cases hrotate
      exact hnone.later hle
    · split at hrotate
      · cases hrotate
        exact (hnone.drive (fun hd => hd.markStorageFault _)).later hle
      · rename_i contacts hsaved
        refine hnone.switchIdentity hle ?_ hrotate
        unfold savedContacts at hsaved
        split at hsaved
        · cases hsaved
        · cases hsnapshot : ({ d with pendingExternalIp := none } : Dispatcher).routing.snapshot now _ with
          | error e =>
            rw [hsnapshot] at hsaved
            cases hsaved
          | ok snapshot =>
            rw [hsnapshot] at hsaved
            cases hsaved
            exact Recovery.savedContacts_nodup _ _

end Dispatcher

end BtSniffer
