import BtSniffer.Dht.RecoveryInv

/-!
# Saved contacts over a run

* `Harmless` — an event that lets no queued recovery ping fail before it was sent.
* `contact_lost` — a ping that waits for its quota until its local limit loses its contact.
* `contacts_kept` — runs of harmless events lose no contact before its ping was tried.
-/

set_option autoImplicit false

namespace BtSniffer.Recovery

open Relational

variable {contacts : List SavedContact} {d : Dispatcher} {now : Nat} {answers : Nat → Answer}

/-! ## Requests that end -/

/-- Settling a request leaves the other requests alone. -/
theorem settle_requests (d : Dispatcher) (purpose : Purpose) :
    (d.settle purpose).transactions = d.transactions ∧ (d.settle purpose).queued = d.queued := by
  cases purpose with
  | _ => exact ⟨rfl, rfl⟩

/-- Taking a request out of the pending ones settles it. -/
theorem settlePending_inv (h : Inv contacts d) (id : TransactionId) :
    Inv contacts (d.settlePending id) := by
  unfold Dispatcher.settlePending
  cases d.pending.get? id with
  | none => exact h
  | some p =>
    have hheld : Held contacts { d with pending := d.pending.erase id } := h.held.frame rfl rfl
    obtain ⟨htransactions, hqueued⟩ :=
      settle_requests { d with pending := d.pending.erase id } p.purpose
    refine ⟨hheld.settle p.purpose, ?_, ?_⟩
    · show TransactionManager.len (Dispatcher.settle _ p.purpose).transactions + _ ≤ _
      rw [htransactions, hqueued]
      exact h.fits
    · show TransactionManager.maxPending (Dispatcher.settle _ p.purpose).transactions < 2 ^ 32
      rw [htransactions]
      exact h.bound

/-- Fewer transactions keep the invariant. -/
theorem Inv.fewer (h : Inv contacts d) {m : TransactionManager}
    (hlen : m.len ≤ d.transactions.len) (hmax : m.maxPending = d.transactions.maxPending) :
    Inv contacts { d with transactions := m } := by
  have hfits := h.fits
  have hbound := h.bound
  refine ⟨h.held.frame rfl rfl, ?_, ?_⟩
  · show m.len + d.queued.length ≤ m.maxPending
    omega
  · show m.maxPending < 2 ^ 32
    omega

theorem received_inv (h : Inv contacts d) (t : List UInt8) (source : SocketAddr) :
    Inv contacts (d.received t source now) := by
  obtain ⟨hlen, hmax⟩ := len_complete_le d.transactions t source now
  unfold Dispatcher.received
  split
  · rename_i completed transactions heq
    rw [heq] at hlen hmax
    exact settlePending_inv (h.fewer hlen hmax) _
  · rename_i transaction transactions heq
    rw [heq] at hlen hmax
    exact settlePending_inv (h.fewer hlen hmax) _
  · rename_i transactions heq
    rw [heq] at hlen hmax
    exact h.fewer hlen hmax

theorem settleAll_inv : ∀ (expired : List PendingTransaction) {d : Dispatcher}, Inv contacts d →
    Inv contacts (expired.foldl (fun d transaction => d.settlePending transaction.id) d)
  | [], _, h => h
  | transaction :: rest, _, h => settleAll_inv rest (settlePending_inv h transaction.id)

theorem expireTransactions_inv (h : Inv contacts d) (now : Nat) :
    Inv contacts (d.expireTransactions now) :=
  settleAll_inv _ (h.fewer (List.length_filter_le _ _) rfl)

/-! ## Requests that are dropped -/

theorem cancelFetchQueries_inv (h : Inv contacts d) (gone : RemoteNode → Bool) :
    Inv contacts (d.cancelFetchQueries gone) := by
  have hqueue := List.length_filter_le
    (fun q : Queued => !(q.purpose.cancellable && gone q.remote)) d.queued
  obtain ⟨hlen, hmax⟩ := len_cancels_le
    ((d.pending.rows.filter (fun p => p.purpose.cancellable && gone p.remote)).map
      PendingDispatch.id) d.transactions
  have hmax' : (d.cancelFetchQueries gone).transactions.maxPending = d.transactions.maxPending :=
    hmax
  refine ⟨h.held.frame rfl rfl, ?_, ?_⟩
  · rw [hmax']
    exact (Nat.add_le_add hlen hqueue).trans h.fits
  · rw [hmax']
    exact h.bound

theorem discardQueuedSampling_inv (h : Inv contacts d) : Inv contacts d.discardQueuedSampling := by
  refine ⟨h.held.frame rfl rfl, ?_, h.bound⟩
  exact (Nat.add_le_add_left (List.length_filter_le _ _) _).trans h.fits

/-- Failing every queued request changes the active pings only. -/
theorem failAll_eq : ∀ (queue : List Queued) (d : Dispatcher),
    ∃ active, queue.foldl (fun d q => d.finishStartError q.purpose) d =
      { d with recovery := { d.recovery with active := active } } ∧
      ((∀ q ∈ queue, q.purpose.recovers = none) → active = d.recovery.active)
  | [], d => ⟨d.recovery.active, rfl, fun _ => rfl⟩
  | q :: rest, d => by
    obtain ⟨active, heq, hkeep⟩ := failAll_eq rest (d.finishStartError q.purpose)
    refine ⟨active, ?_, ?_⟩
    · rw [List.foldl_cons, heq]
      cases q.purpose <;> rfl
    · intro hnone
      rw [hkeep (fun p hp => hnone p (List.mem_cons_of_mem _ hp)),
        finishStartError_other (hnone q List.mem_cons_self)]

/-- What `clear_queries` leaves. -/
theorem clearQueries_eq (d : Dispatcher) :
    ∃ active m, d.clearQueries = { d with
        queued := [], pending := .empty, transactions := m
        recovery := { d.recovery with active := active } } ∧
      m.len ≤ d.transactions.len ∧ m.maxPending = d.transactions.maxPending ∧
      ((∀ q ∈ d.queued, q.purpose.recovers = none) → active = d.recovery.active) := by
  obtain ⟨active, heq, hkeep⟩ := failAll_eq d.queued { d with queued := [] }
  unfold Dispatcher.clearQueries
  simp only [heq]
  obtain ⟨hlen, hmax⟩ := len_cancels_le (d.pending.rows.map PendingDispatch.id) d.transactions
  exact ⟨active, _, rfl, hlen, hmax, hkeep⟩

/-! ## Harmless events -/

namespace Dispatcher

/-- Every recovery ping of the queue passes. -/
def QueuePasses (d : Dispatcher) (now : Nat) (answers : Nat → Answer) : Prop :=
  ∀ i q, d.queued[i]? = some q → Passes now q (answers i)

/-- No recovery ping waits in the queue. -/
def NoneQueued (d : Dispatcher) : Prop := ∀ q ∈ d.queued, q.purpose.recovers = none

/-- No queued recovery ping fails, and no identity change cuts the contacts it saves. -/
def Harmless (d : Dispatcher) : Event → Prop
  | .start _ _ purpose permit now answers =>
    purpose.recovers = none → d.Accepts purpose permit → d.QueuePasses now answers
  | .outbound now answers => d.QueuePasses now answers
  | .recover now answers =>
    d.nextPing now ≠ none →
      d.QueuePasses now answers ∧ (answers d.queued.length).encodes = true ∧
        ((answers d.queued.length).granted = true → (answers d.queued.length).sent = true)
  | .rotate (.ok snapshot) true true _ =>
    (mergedContacts d.recovery snapshot).rows.length ≤ SNAPSHOT_LIMIT
  | .rotate (.ok _) _ _ _ => d.NoneQueued
  | .shutdown => d.NoneQueued
  | _ => True

/-- Every event of a run is harmless where it happens. -/
def HarmlessRun (d : Dispatcher) : List Event → Prop
  | [] => True
  | event :: rest => d.Harmless event ∧ (d.step event).HarmlessRun rest

end Dispatcher

theorem clearQueries_inv (h : Inv contacts d) (hnone : d.NoneQueued) :
    Inv contacts d.clearQueries := by
  obtain ⟨active, m, heq, hlen, hmax, hkeep⟩ := clearQueries_eq d
  have hfits := h.fits
  have hbound := h.bound
  rw [heq, hkeep hnone]
  refine ⟨h.held.frame rfl rfl, ?_, ?_⟩
  · show m.len + 0 ≤ m.maxPending
    omega
  · show m.maxPending < 2 ^ 32
    omega

/-- An identity change that goes through queues the saved contacts again. -/
theorem rotated_inv (h : Inv contacts d) {snapshot : List SavedContact}
    (hroom : (mergedContacts d.recovery snapshot).rows.length ≤ SNAPSHOT_LIMIT) :
    Inv contacts (d.rotateIdentity (.ok snapshot) true true now) := by
  obtain ⟨active, m, heq, hlen, hmax, -⟩ := clearQueries_eq { d with identityPaused := true }
  have hfits := h.fits
  have hbound := h.bound
  have hm : m.maxPending = d.transactions.maxPending := hmax
  have hl : m.len ≤ d.transactions.len := hlen
  have hrotated : d.rotateIdentity (.ok snapshot) true true now =
      { d with
        identityPaused := false, queued := [], pending := .empty, transactions := m
        recovery := ⟨savedContacts d.recovery snapshot, .empty, some now⟩ } := by
    unfold Dispatcher.rotateIdentity
    simp only [heq]
    rfl
  rw [hrotated]
  refine ⟨?_, ?_, ?_⟩
  · intro c hc
    rcases h.held c hc with ht | hheld
    · exact .inl ht
    · exact .inr (.inl (mem_savedContacts hroom hheld))
  · show m.len + 0 ≤ m.maxPending
    omega
  · show m.maxPending < 2 ^ 32
    omega

/-- An identity change that fails leaves the identity paused and the queries cleared. -/
theorem paused_inv (h : Inv contacts d) (hnone : d.NoneQueued) :
    Inv contacts (Dispatcher.clearQueries { d with identityPaused := true }) :=
  clearQueries_inv ⟨h.held.frame rfl rfl, h.fits, h.bound⟩ hnone

/-- A harmless event keeps the invariant. -/
theorem step_inv (h : Inv contacts d) (event : Event) (hharmless : d.Harmless event) :
    Inv contacts (d.step event) := by
  cases event with
  | start remote method purpose permit now answers =>
    show Inv contacts (if purpose.recovers.isSome = true then d
      else d.startRpc remote method purpose permit now answers)
    by_cases hother : purpose.recovers = none
    · rw [if_neg (by rw [hother]; simp)]
      by_cases hacc : d.Accepts purpose permit
      · exact accepted_inv h hacc (hharmless hother hacc) (fun hping => absurd hother hping)
      · rw [startRpc_eq, if_neg hacc, finishStartError_other hother]
        exact h
    · rw [if_pos (Option.isSome_iff_ne_none.2 hother)]
      exact h
  | outbound now answers => exact advanceOutbound_inv h hharmless
  | recover now answers =>
    refine advanceRecovery_inv h ?_
    intro c hc
    exact hharmless (by rw [hc]; exact Option.some_ne_none c)
  | received t source now => exact received_inv h t source
  | expire now => exact expireTransactions_inv h now
  | cancelFetches gone => exact cancelFetchQueries_inv h gone
  | discardSampling => exact discardQueuedSampling_inv h
  | rotate snapshot prepared bound now =>
    cases snapshot with
    | error e => exact h
    | ok snapshot =>
      cases prepared with
      | false => exact paused_inv h hharmless
      | true =>
        cases bound with
        | false => exact paused_inv h hharmless
        | true => exact rotated_inv h hharmless
  | shutdown => exact clearQueries_inv h hharmless

/-- A run of harmless events keeps the invariant in every state that it reaches. -/
theorem run_inv : ∀ (events : List Event) {d : Dispatcher}, Inv contacts d →
    d.HarmlessRun events → ∀ before, before <+: events → Inv contacts (d.run before)
  | events, _, h, _, [], _ => h
  | [], _, _, _, event :: before, hprefix => by
    cases List.prefix_nil.1 hprefix
  | event :: rest, d, h, hharmless, e :: before, hprefix => by
    obtain ⟨rfl, hrest⟩ := List.cons_prefix_cons.1 hprefix
    exact run_inv rest (step_inv h e hharmless.1) hharmless.2 before hrest

/-! ## Contacts that are kept -/

/-- Every contact whose ping was not tried is in each snapshot that is not cut. -/
def Kept (contacts : List SavedContact) (d : Dispatcher) : Prop :=
  ∀ c ∈ contacts, c.id ∉ d.tried →
    ∀ snapshot, (mergedContacts d.recovery snapshot).rows.length ≤ SNAPSHOT_LIMIT →
      c.id ∈ (savedContacts d.recovery snapshot).map SavedContact.id

theorem Held.kept (h : Held contacts d) : Kept contacts d := by
  intro c hc htried snapshot hroom
  rcases h c hc with ht | hheld
  · exact absurd ht htried
  · exact mem_savedContacts hroom hheld

/-- What `attach_storage` leaves to a new dispatcher. -/
theorem attached_inv {timeout maxPending reserved : Nat} {routing identity : LocalIdentity}
    {saved : List SavedContact} {policy : AddressPolicy} (hmax : maxPending < 2 ^ 32)
    (hattach : (Dispatcher.new timeout maxPending reserved).attachStorage routing identity saved
      policy now = .ok d) :
    Inv (keptContacts identity policy saved []) d := by
  unfold Dispatcher.attachStorage at hattach
  split at hattach
  · cases hattach
  · cases hattach
    exact ⟨fun c hc => .inr (.inl (List.mem_map_of_mem hc)), Nat.zero_le _, hmax⟩

/-- A saved contact. -/
def exampleContact : SavedContact := ⟨1, .v4 0x08080808 6881, 0⟩

/-- The identity that it is saved for. -/
def exampleIdentity : LocalIdentity := ⟨0, .ipv4⟩

/-- The ping of the contact waits for its quota until its local limit: it never reaches the socket,
and the contact is in no snapshot any more. -/
theorem contact_lost :
    ¬ ∀ (timeout maxPending reserved : Nat) (routing identity : LocalIdentity)
        (saved : List SavedContact) (policy : AddressPolicy) (now : Nat) (d : Dispatcher)
        (events : List Event),
      maxPending < 2 ^ 32 →
      (Dispatcher.new timeout maxPending reserved).attachStorage routing identity saved policy
        now = .ok d →
      Kept (keptContacts identity policy saved []) (d.run events) := by
  intro h
  have hkept := h QUEUE_TIMEOUT 64 1 exampleIdentity exampleIdentity [exampleContact] .publicOnly 0
    _ [.recover 0 (fun _ => ⟨false, true, false, false⟩),
      .outbound QUEUE_TIMEOUT (fun _ => ⟨false, true, false, false⟩)] (by decide) rfl
  have hmem := hkept exampleContact (by decide) (by decide) [] (by decide)
  revert hmem
  decide

/-- **No contact is lost before it was tried**, as long as no recovery ping fails in the queue. -/
theorem contacts_kept (timeout maxPending reserved : Nat) (hmax : maxPending < 2 ^ 32)
    (routing identity : LocalIdentity) (saved : List SavedContact) (policy : AddressPolicy)
    (now : Nat) (d : Dispatcher)
    (hattach : (Dispatcher.new timeout maxPending reserved).attachStorage routing identity saved
      policy now = .ok d)
    (events : List Event) (hharmless : d.HarmlessRun events) (before : List Event)
    (hbefore : before <+: events) :
    Kept (keptContacts identity policy saved []) (d.run before) :=
  (run_inv events (attached_inv hmax hattach) hharmless before hbefore).held.kept

/-- A contact whose ping is on its way when the dispatcher shuts down is kept. -/
theorem contacts_kept_pending :
    ∃ d, (Dispatcher.new QUEUE_TIMEOUT 64 1).attachStorage exampleIdentity exampleIdentity
        [exampleContact] .publicOnly 0 = .ok d ∧
      Kept [exampleContact]
        (d.run [.recover 0 (fun _ => ⟨false, true, true, true⟩), .shutdown]) := by
  refine ⟨_, rfl, contacts_kept QUEUE_TIMEOUT 64 1 (by decide) exampleIdentity exampleIdentity
    [exampleContact] .publicOnly 0 _ rfl
    [.recover 0 (fun _ => ⟨false, true, true, true⟩), .shutdown] ⟨?_, ?_, trivial⟩ _
    (List.prefix_refl _)⟩
  · intro _
    refine ⟨?_, rfl, fun _ => rfl⟩
    intro i q hq
    cases hq
  · intro q hq
    cases hq

end BtSniffer.Recovery
