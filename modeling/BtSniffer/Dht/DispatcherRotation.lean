import BtSniffer.Dht.DispatcherRun
import BtSniffer.Dht.DispatcherSteadyOps

/-!
# Changes of identity in a run

* `Identified` — the routing table and the database have the identity that is stored; while it is paused
  the sampler has a fault, and no address waits.
* `GivenUp` — nothing is open any more, and the callers were told; `Open.quit_givenUp` shows that
  `cancel_for_identity` does this.
* `Rotation` — what a change of identity can do; `Rotation.identified` keeps `Identified`.
* `Rested` — after a turn of the queue, what waits has time left.
* `dispatcher_identity`, `dispatcher_rotation`, `dispatcher_halted`, `dispatcher_wakeup` — what follows
  for every run.
-/

set_option autoImplicit false

namespace BtSniffer

open Relational

namespace Dispatcher

variable {d d' : Dispatcher} {now current : Nat}

/-! ## The identity of the parts -/

/-- The parts of the dispatcher have one identity, or the dispatcher has stopped. -/
structure Identified (d : Dispatcher) : Prop where
  stored : d.identityStore.isSome → d.sampler.identity?.isSome
  aligned : d.identityPaused = false → ∀ identity, d.identityStore = some identity →
    d.routing.owner = (identity.nodeId, identity.family) ∧ d.sampler.identity? = some identity
  halted : d.identityPaused = true →
    d.sampler.status.storageError.isSome ∧ d.pendingExternalIp = none

theorem Continues.identified (h : Continues now d d') (hd : d.Identified) : d'.Identified := by
  have hstamp := h.stamp
  simp only [Dispatcher.stamp, Prod.mk.injEq] at hstamp
  obtain ⟨⟨hpaused, hstore⟩, howner, hidentity⟩ := hstamp
  refine ⟨?_, ?_, fun hp => ?_⟩
  · rw [hstore, hidentity]
    exact hd.stored
  · rw [hpaused, hstore, howner, hidentity]
    exact hd.aligned
  · rw [hpaused] at hp
    obtain ⟨herror, hip⟩ := hd.halted hp
    exact ⟨h.fault herror, (h.quiet hp).2.trans hip⟩

theorem Starts.identified (h : Starts now d) : d.Identified := by
  have hblank := h.blank
  have hhalted : ∀ {d : Dispatcher}, d.Blank → d.identityPaused = true →
      d.sampler.status.storageError.isSome ∧ d.pendingExternalIp = none := by
    intro d hb hp
    rw [hb.paused] at hp
    cases hp
  cases h with
  | created hmax h =>
    unfold withBudget at h
    split at h
    · cases h
    · cases h
      exact ⟨fun hsome => (by cases hsome), fun _ _ heq => (by cases heq), hhalted hblank⟩
  | attached _ h =>
    unfold attachStorage at h
    split at h
    · cases h
    · rename_i hfits
      obtain ⟨s, hs, rfl⟩ := map_ok h
      have hidentity := (attachStorage_idle hs).2
      rw [not_or, not_or, not_not, not_not] at hfits
      refine ⟨fun _ => ?_, fun _ identity heq => ?_, hhalted hblank⟩
      · exact Option.isSome_iff_exists.2 ⟨_, hidentity⟩
      · cases heq
        refine ⟨?_, hidentity⟩
        unfold RoutingTable.owner
        rw [hfits.1, hfits.2.1]

theorem Blank.sane (h : d.Blank) : d.Sane now := by
  refine ⟨fun hp => ?_, fun q hq => ?_, fun q hq => ?_, h.routing⟩
  · rw [h.paused] at hp
    cases hp
  · rw [h.queued] at hq
    cases hq
  · rw [h.queued] at hq
    cases hq

theorem Sane.later (h : d.Sane now) {t : Nat} (hle : now ≤ t) : d.Sane t :=
  { h with punctual := fun q hq => (h.punctual q hq).trans (Nat.add_le_add_right hle _) }

/-! ## The change as a whole -/

/-- The parts that giving up queries does not change. -/
def rest (d : Dispatcher) : (Bool × Option LocalIdentity × Option IpAddr) ×
    (RoutingTable × AddressConsensus) × List (SocketAddr × KrpcMessage) × List Caller :=
  ((d.identityPaused, d.identityStore, d.pendingExternalIp), (d.routing, d.security),
    d.journal.sent, d.journal.reclaimed)

/-- The replies when some callers got an error, one after the other. -/
def told (error : QueryError) (callers : List Caller)
    (replies : List (Caller × Except QueryError QueryReply)) : List (Caller × Except QueryError QueryReply) :=
  callers.foldl (fun replies caller => (caller, .error error) :: replies) replies

theorem told_eq (error : QueryError) : ∀ (callers : List Caller)
    (replies : List (Caller × Except QueryError QueryReply)), told error callers replies =
      (callers.map (fun caller => (caller, .error error))).reverse ++ replies
  | [], _ => rfl
  | caller :: callers, replies => by
    rw [List.map_cons, List.reverse_cons, List.append_assoc]
    exact told_eq error callers _

theorem finishStartError_rest (d : Dispatcher) (p : Purpose) (error : QueryError) (now : Nat) :
    (d.finishStartError p error now).rest = d.rest ∧
      d.sampler.Keeps (d.finishStartError p error now).sampler ∧
      (d.finishStartError p error now).journal.replies =
        told error p.caller?.toList d.journal.replies := by
  cases p with
  | sampling request =>
    unfold finishStartError
    simp only
    split
    · exact ⟨rfl, Sampler.keeps_uncertainSend _ _ _ _, rfl⟩
    · exact ⟨rfl, Sampler.keeps_abandonUnsent _ _ _, rfl⟩
  | _ => exact ⟨rfl, .refl _, rfl⟩

theorem giveUpQueued_rest (error : QueryError) (now : Nat) :
    ∀ (queue : List Queued) (d : Dispatcher),
      let d' := queue.foldl (fun d q => d.finishStartError q.purpose error now) d
      d'.rest = d.rest ∧ d.sampler.Keeps d'.sampler ∧ d'.journal.replies =
        told error (queue.filterMap (fun q => q.purpose.caller?)) d.journal.replies
  | [], d => ⟨rfl, .refl _, rfl⟩
  | q :: queue, d => by
    obtain ⟨hrest₁, hkeeps₁, hreplies₁⟩ := finishStartError_rest d q.purpose error now
    obtain ⟨hrest, hkeeps, hreplies⟩ :=
      giveUpQueued_rest error now queue (d.finishStartError q.purpose error now)
    refine ⟨hrest.trans hrest₁, hkeeps₁.trans hkeeps, hreplies.trans ?_⟩
    rw [hreplies₁]
    cases hcaller : q.purpose.caller? with
    | none =>
      rw [List.filterMap_cons_none (f := fun q : Queued => q.purpose.caller?) hcaller]
      rfl
    | some caller =>
      rw [List.filterMap_cons_some (f := fun q : Queued => q.purpose.caller?) hcaller]
      rfl

/-- **`clear_queries` leaves the identity and the routing table, sends nothing, and tells the callers of
all open queries.** -/
theorem clearQueries_rest (d : Dispatcher) (error : QueryError) (now : Nat) :
    (d.clearQueries error now).rest = d.rest ∧
      d.sampler.Keeps (d.clearQueries error now).sampler ∧
      (d.clearQueries error now).journal.replies =
        told error (d.outstanding.filterMap Purpose.caller?) d.journal.replies := by
  obtain ⟨hrest, hkeeps, hreplies⟩ := giveUpQueued_rest error now d.queued { d with queued := [] }
  have hpending : (d.clearQueue error now).pending = d.pending := by
    have htraffic := giveUpQueued_frame error now d.queued { d with queued := [] }
    simp only [traffic, Prod.mk.injEq] at htraffic
    exact htraffic.2.1
  rw [clearQueries_eq]
  unfold clearPending
  rw [dropPending_eq]
  refine ⟨hrest, hkeeps.trans
    (Sampler.keeps_foldl (fun s r => Sampler.keeps_cancelRequest s r now now) _ _), ?_⟩
  have hqueue : (d.clearQueue error now).journal.replies =
      told error (d.queued.filterMap (fun q => q.purpose.caller?)) d.journal.replies := hreplies
  simp only [hqueue, hpending]
  unfold told outstanding
  rw [List.filterMap_append, List.filterMap_map, List.filterMap_map, List.foldl_append]
  rfl

/-- Nothing is queued or pending. -/
theorem outstanding_nil : d.outstanding = [] ↔ d.queued = [] ∧ d.pending.rows = [] := by
  unfold outstanding
  rw [List.append_eq_nil_iff, List.map_eq_nil_iff, List.map_eq_nil_iff]

/-- All queries were given up: nothing is open, and every caller got `IdentityChanged`. -/
structure GivenUp (open_ : List Purpose) (journal : Journal) (d' : Dispatcher) : Prop where
  outstanding : d'.outstanding = []
  transactions : d'.transactions.pending.rows = []
  verifications : d'.verifications = .empty
  probes : d'.bucketProbes = .empty
  lookup : d'.maintenance.lookup = none
  replies : d'.journal.replies = ((open_.filterMap Purpose.caller?).map
    (fun caller => (caller, .error .identityChanged))).reverse ++ journal.replies
  reclaimed : d'.journal.reclaimed = journal.reclaimed
  sent : d'.journal.sent = journal.sent

theorem GivenUp.frame {open_ : List Purpose} {journal : Journal} (h : GivenUp open_ journal d)
    (htraffic : d'.traffic = d.traffic) (hverifications : d'.verifications = d.verifications)
    (hprobes : d'.bucketProbes = d.bucketProbes) (hlookup : d'.maintenance.lookup = none)
    (hjournal : d'.journal = d.journal) : GivenUp open_ journal d' := by
  refine ⟨(outstanding_frame htraffic).trans h.outstanding, ?_, hverifications.trans h.verifications,
    hprobes.trans h.probes, hlookup, ?_, ?_, ?_⟩
  · simp only [traffic, Prod.mk.injEq] at htraffic
    rw [htraffic.2.2.1]
    exact h.transactions
  · rw [hjournal]
    exact h.replies
  · rw [hjournal]
    exact h.reclaimed
  · rw [hjournal]
    exact h.sent

/-- **`cancel_for_identity` gives up all queries.** -/
theorem Open.quit_givenUp {asked : List Caller} (h : d.Open asked now [] [] 0 0) :
    GivenUp d.outstanding d.journal (d.quit now) := by
  obtain ⟨hrest, -, hreplies⟩ :=
    clearQueries_rest { d with identityPaused := true } .identityChanged now
  simp only [rest, Prod.mk.injEq] at hrest
  obtain ⟨hopen, houtstanding⟩ := h.quit
  refine ⟨houtstanding, ?_, rfl, rfl, rfl, hreplies.trans (told_eq _ _ _), hrest.2.2.2, hrest.2.2.1⟩
  have hids := hopen.books.ids
  unfold Dispatcher.ids registered at hids
  rw [(outstanding_nil.1 houtstanding).2, List.append_nil] at hids
  exact List.map_eq_nil_iff.1 hids.nil_eq.symm

/-- What a change of identity can do to the dispatcher. -/
inductive Rotation (d : Dispatcher) (t : Nat) (bound : Except StorageError LocalIdentity) :
    Dispatcher → Prop
  /-- There is no new address, or no database. -/
  | nothing : Rotation d t bound { d with pendingExternalIp := none }
  /-- The contacts cannot be saved. -/
  | unsaved (e : StorageError) (hsaved : d.savedContacts t = .error e) :
      Rotation d t bound
        { d with pendingExternalIp := none, sampler := d.sampler.markStorageFault e t }
  /-- The database could not be flushed or did not store the identity. -/
  | failed {d' : Dispatcher} (hgiven : GivenUp d.outstanding d.journal d')
      (hpaused : d'.identityPaused = true) (hexternal : d'.pendingExternalIp = none)
      (hstore : d'.identityStore = d.identityStore) (hrouting : d'.routing = d.routing)
      (hidentity : d'.sampler.identity? = d.sampler.identity?)
      (herror : d'.sampler.status.storageError.isSome) : Rotation d t bound d'
  /-- The identity is adopted. -/
  | adopted {d' : Dispatcher} {identity : LocalIdentity} {ip : IpAddr}
      {contacts : List Recovery.SavedContact} (hsome : d.identityStore.isSome)
      (hbound : bound = .ok identity) (hip : d.pendingExternalIp = some ip)
      (hsaved : d.savedContacts t = .ok contacts) (hgiven : GivenUp d.outstanding d.journal d')
      (hpaused : d'.identityPaused = false) (hexternal : d'.pendingExternalIp = none)
      (hstore : d'.identityStore = some identity)
      (hrouting : d'.routing = .new identity.nodeId identity.family t)
      (hidentity : d'.sampler.identity? = d.sampler.identity?.map (fun _ => identity))
      (herror : d'.sampler.status.storageError = none)
      (hrecovery : d'.recovery = ⟨contacts, .empty, some t⟩)
      (hsecurity : d'.security = d.security.committed ip t) : Rotation d t bound d'

/-- **A change of identity is done as a whole or not at all.** -/
theorem rotation {asked : List Caller} (h : d.Open asked now [] [] 0 0)
    {events : List (Nat × StorageEvent)} {bound : Except StorageError LocalIdentity} {random : NodeId}
    (hrotate : d.rotateIdentity events bound random now current = some d') :
    Rotation d now bound d' := by
  unfold rotateIdentity at hrotate
  split at hrotate
  · rename_i hnone
    cases hrotate
    have hsame : { d with pendingExternalIp := none } = d := by
      rw [← hnone]
    have hnothing : Rotation d now bound { d with pendingExternalIp := none } := .nothing
    rwa [hsame] at hnothing
  · rename_i ip hip
    simp only at hrotate
    split at hrotate
    · cases hrotate
      exact .nothing
    · rename_i hstore
      have hsome : d.identityStore.isSome :=
        Option.ne_none_iff_isSome.1 (mt Option.isNone_iff_eq_none.2 hstore)
      have hsaved_eq : ({ d with pendingExternalIp := none } : Dispatcher).savedContacts now =
          d.savedContacts now := rfl
      rw [hsaved_eq] at hrotate
      split at hrotate
      · rename_i e he
        cases hrotate
        exact .unsaved e he
      · rename_i contacts hsaved
        have hopen : { d with pendingExternalIp := none }.Open asked now [] [] 0 0 :=
          h.frame rfl rfl
        have hgiven := hopen.quit_givenUp
        obtain ⟨result, s, s', hprepare, -, hcases⟩ := switchIdentity_cases hrotate
        obtain ⟨hrest, hkeeps, -⟩ := clearQueries_rest
          { d with pendingExternalIp := none, identityPaused := true } .identityChanged now
        simp only [rest, Prod.mk.injEq] at hrest
        obtain ⟨⟨hpaused, hold, hexternal⟩, ⟨hrouting, hsecurity⟩, -⟩ := hrest
        obtain ⟨hkeeps', hok⟩ := Sampler.keeps_prepareIdentityChange hprepare
        have hidentity : s.identity? = d.sampler.identity? := (hkeeps.trans hkeeps').identity
        rcases hcases with ⟨e, rfl, rfl⟩ | ⟨identity, hresult, hbound, rfl, rfl⟩
        · refine .failed (hgiven.frame rfl rfl rfl rfl rfl) hpaused hexternal hold hrouting ?_ rfl
          exact (Sampler.keeps_markStorageFault s e current).identity.trans hidentity
        · refine .adopted hsome hbound hip hsaved (hgiven.frame rfl rfl rfl rfl rfl) rfl hexternal rfl
            rfl ?_ (hok hresult) rfl ?_
          · exact (Sampler.identityChanged_identity? s identity).trans
              (congrArg (Option.map _) hidentity)
          · exact congrArg (fun c : AddressConsensus => c.committed ip now) hsecurity

/-- A dispatcher without open queries is sane. -/
theorem sane_of_outstanding (h : d.outstanding = []) (hrouting : d.routing.Shape) : d.Sane now := by
  obtain ⟨hqueued, hpending⟩ := outstanding_nil.1 h
  refine ⟨fun _ => ⟨hqueued, hpending⟩, fun q hq => ?_, fun q hq => ?_, hrouting⟩
  · rw [hqueued] at hq
    cases hq
  · rw [hqueued] at hq
    cases hq

/-- **A change of identity leaves the parts with one identity**, or stops the dispatcher. -/
theorem Rotation.identified {t : Nat} {bound : Except StorageError LocalIdentity}
    (h : Rotation d t bound d') (hs : d.Sane t) (hd : d.Identified) :
    d'.Sane t ∧ d'.Identified := by
  cases h with
  | nothing =>
    refine ⟨⟨hs.paused, hs.punctual, hs.awake, hs.routing⟩, hd.stored, hd.aligned, fun hp => ?_⟩
    exact ⟨(hd.halted hp).1, rfl⟩
  | unsaved e hsaved =>
    have hkeeps := Sampler.keeps_markStorageFault d.sampler e t
    refine ⟨⟨hs.paused, hs.punctual, hs.awake, hs.routing⟩, ?_, ?_, fun _ => ⟨rfl, rfl⟩⟩
    · simp only [hkeeps.identity]
      exact hd.stored
    · simp only [hkeeps.identity]
      exact hd.aligned
  | failed hgiven hpaused hexternal hstore hrouting hidentity herror =>
    refine ⟨sane_of_outstanding hgiven.outstanding (hrouting ▸ hs.routing), ?_, fun hp => ?_,
      fun _ => ⟨herror, hexternal⟩⟩
    · rw [hstore, hidentity]
      exact hd.stored
    · rw [hpaused] at hp
      cases hp
  | adopted hsome _ _ _ hgiven hpaused _ hstore hrouting hidentity =>
    obtain ⟨old, hold⟩ := Option.isSome_iff_exists.1 (hd.stored hsome)
    rw [hold] at hidentity
    refine ⟨sane_of_outstanding hgiven.outstanding (hrouting ▸ RoutingTable.new_shape _ _ _),
      fun _ => ?_, fun _ identity heq => ?_, fun hp => ?_⟩
    · rw [hidentity]
      rfl
    · rw [hstore] at heq
      cases heq
      refine ⟨?_, hidentity⟩
      rw [hrouting]
      rfl
    · rw [hpaused] at hp
      cases hp

/-! ## The queue after a turn -/

/-- What waits in the queue has time left, and the dispatcher wakes up later, if something waits. -/
structure Rested (d : Dispatcher) (now : Nat) : Prop where
  ahead : ∀ q ∈ d.queued, now < q.deadline
  wakes : d.queueDeadline = none ↔ d.queued = []
  later : ∀ at_, d.queueDeadline = some at_ → now < at_

theorem Rested.frame (h : d.Rested now) (hqueued : d'.queued = d.queued)
    (hdeadline : d'.queueDeadline = d.queueDeadline) : d'.Rested now :=
  ⟨hqueued ▸ h.ahead, by rw [hqueued, hdeadline]; exact h.wakes, hdeadline ▸ h.later⟩

theorem Rested.finishStartError (h : d.Rested now) (p : Purpose) (error : QueryError) :
    (d.finishStartError p error now).Rested now := by
  cases p with
  | sampling request =>
    unfold Dispatcher.finishStartError
    simp only
    split <;> exact h.frame rfl rfl
  | _ => exact h.frame rfl rfl

theorem Rested.sendRpc (h : d.Rested now) (q : Queued) : (d.sendRpc q now).Rested now := by
  unfold Dispatcher.sendRpc transmit
  split
  · refine Rested.finishStartError ?_ q.purpose _
    exact h.frame rfl rfl
  · simp only
    split
    · exact h.frame rfl rfl
    · refine Rested.finishStartError ?_ q.purpose _
      exact h.frame rfl rfl

/-- A query that is put back has time left, and so has the dispatcher. -/
theorem Rested.postpone (h : d.Rested now) {q : Queued} {wait : Nat} (hq : now < q.deadline)
    (hwait : 0 < wait) : (d.postpone q wait now).Rested now := by
  unfold Dispatcher.postpone earlier
  have hnew : now < min (now + wait) q.deadline := lt_min (Nat.lt_add_of_pos_right hwait) hq
  refine ⟨fun x hx => ?_, ?_, fun at_ hat => ?_⟩
  · rcases List.mem_append.1 hx with hx | hx
    · exact h.ahead x hx
    · rw [List.mem_singleton.1 hx]
      exact hq
  · simp
  · cases Option.some.inj hat
    cases hold : d.queueDeadline with
    | none => exact hnew
    | some old => exact lt_min (h.later old hold) hnew

theorem Rested.visit (h : d.Rested now) (q : Queued) : (d.visit q now).Rested now := by
  have hasked : d.asked.Rested now := h.frame rfl rfl
  unfold Dispatcher.visit
  simp only
  split
  · exact hasked.frame rfl rfl
  · split
    · exact hasked.finishStartError q.purpose _
    · rename_i hdeadline
      split
      · exact hasked.finishStartError q.purpose _
      · split
        · exact hasked.sendRpc q
        · rename_i hwait
          exact hasked.postpone (Nat.lt_of_not_le hdeadline) (Nat.pos_of_ne_zero hwait)

theorem Rested.outboundLoop : ∀ (queue : List Queued) {d : Dispatcher}, d.Rested now →
    (Dispatcher.outboundLoop now queue d).Rested now
  | [], _, h => h
  | q :: rest, _, h => Rested.outboundLoop rest (h.visit q)

/-- **After a turn of the queue** everything in it has time left. -/
theorem advanceOutbound_rested (d : Dispatcher) : (d.advanceOutbound now).Rested now := by
  refine Rested.outboundLoop d.queued ⟨fun q hq => ?_, ?_, fun at_ hat => ?_⟩
  · cases hq
  · simp
  · cases hat

end Dispatcher

namespace DispatcherRun

open Dispatcher (Act Starts Rotation)

variable {st st' : DispatcherRun} {t : Nat} {a : Act}

/-! ## Runs -/

/-- **Every run keeps its identity in one piece.** -/
theorem reached_identified (h : Reached st) :
    st.dispatcher.Sane st.now ∧ st.dispatcher.Identified := by
  induction h with
  | initial h => exact ⟨h.blank.sane, h.identified⟩
  | @step st st' t a hreached ok hstep ih =>
    obtain ⟨hnow, hends, hact, heq, -⟩ := step_cases hstep
    have hsane := ih.1.later hnow
    cases a with
    | rotate events bound random current =>
      obtain ⟨hsane', hidentified⟩ :=
        (Dispatcher.rotation ((reached_open hreached).later hnow) hact).identified hsane ih.2
      rw [heq]
      exact ⟨hsane'.later hends, hidentified⟩
    | _ =>
      have hcontinues := Dispatcher.steady_act rfl hact hsane
      rw [heq]
      exact ⟨hcontinues.sane, hcontinues.identified ih.2⟩

/-- A dispatcher that has stopped stays as it is with every step. -/
theorem step_halted (h : Reached st) (hp : st.dispatcher.identityPaused = true)
    (hstep : st.step t a = some st') : st'.dispatcher.identityPaused = true ∧
      st'.dispatcher.journal.sent = st.dispatcher.journal.sent ∧
      st'.dispatcher.stamp = st.dispatcher.stamp := by
  obtain ⟨hnow, -, hact, -⟩ := step_cases hstep
  obtain ⟨hsane, hidentified⟩ := reached_identified h
  cases a with
  | rotate events bound random current =>
    have hsame : some st.dispatcher = some st'.dispatcher := by
      rw [← hact]
      simp only [Dispatcher.act, Dispatcher.rotateIdentity, (hidentified.halted hp).2]
    rw [← Option.some.inj hsame]
    exact ⟨hp, rfl, rfl⟩
  | _ =>
    have hcontinues := Dispatcher.steady_act rfl hact (hsane.later hnow)
    exact ⟨hcontinues.paused.trans hp, (hcontinues.quiet hp).1, hcontinues.stamp⟩

/-! ## Runs that are computed -/

/-- The dispatcher of node 0 with a database. -/
def stored (answers : Nat → Answer) : Option DispatcherRun :=
  (small answers).bind (fun st =>
    match st.dispatcher.attachStorage ⟨0, 0⟩ ⟨1, 0, .ipv4⟩ [] [] .localUnicast 0 with
    | .ok d => some ⟨d, 0, []⟩
    | .error _ => none)

theorem reached_stored {answers : Nat → Answer} {steps : List (Nat × Act)} {st : DispatcherRun}
    (h : (stored answers).bind (calls steps) = some st) : Reached st := by
  obtain ⟨st₁, hstored, hcalls⟩ := Option.bind_eq_some_iff.1 h
  obtain ⟨st₀, hsmall, hmatch⟩ := Option.bind_eq_some_iff.1 hstored
  split at hmatch
  · rename_i d hd
    cases hmatch
    obtain ⟨d₀, hd₀, rfl⟩ := small_starts hsmall
    exact (follows_calls steps .refl hcalls).reached (.initial (.attached hd₀ hd))
  · cases hmatch

/-- Node `n` at 1.1.1.1, 2.2.2.2 and so on. -/
def outside (n : Nat) : SocketAddr := .new (.v4 (BitVec.ofNat 32 (0x01010101 * n))) 6881

/-- It answers, and says that the address of the dispatcher is 8.8.8.8. -/
def vote (id : TransactionId) (n : Nat) : Dispatcher.Received :=
  let answer := answerOf id n
  { answer with source := outside n, message := { answer.message with ip := some [8, 8, 8, 8, 0, 1] } }

/-- Three nodes say so, and a fetch is open. -/
def voteScript : List (Nat × Act) :=
  [(0, .bootstrapPing 0 ⟨outside 1, none⟩), (0, .response (vote 0 1)),
    (1, .bootstrapPing 1 ⟨outside 2, none⟩), (1, .response (vote 1 2)),
    (2, .bootstrapPing 2 ⟨outside 3, none⟩), (2, .response (vote 2 3)),
    (3, .getPeers 3 ⟨host 3, none⟩ 5 false)]

/-- The identity of node 77. -/
def successor : LocalIdentity := ⟨1, 77, .ipv4⟩

/-- A change of identity, with the answer of the database. -/
def change (bound : Except StorageError LocalIdentity) : Act := .rotate [] bound 0 4

/-- A run that is about to change its identity, which may succeed or fail. -/
theorem exists_voted : ∃ st, Reached st ∧
    st.dispatcher.outstanding.map Purpose.cls = [.collector] ∧
    (st.step 4 (change (.ok successor))).any (fun st' =>
      decide (st'.dispatcher.identityStore = some successor)) ∧
    (st.step 4 (change (.error .locked))).any (fun st' => st'.dispatcher.identityPaused) := by
  have hrun : ((stored (fun _ => ready)).bind (calls voteScript)).any (fun st =>
      decide (st.dispatcher.outstanding.map Purpose.cls = [.collector] ∧
        (st.step 4 (change (.ok successor))).any (fun st' =>
          decide (st'.dispatcher.identityStore = some successor)) ∧
        (st.step 4 (change (.error .locked))).any (fun st' => st'.dispatcher.identityPaused))) =
      true := by
    decide +kernel
  obtain ⟨st, hst, hany⟩ := (Option.any_eq_true _ _).1 hrun
  exact ⟨st, reached_stored hst, of_decide_eq_true hany⟩

/-! ## What a change of identity leaves -/

/-- **The identity is one**, in every run: the routing table and the database have the one that is
stored. While it is paused nothing is open, no address waits for a change, and sampling has a fault. -/
theorem dispatcher_identity (h : Reached st) :
    (st.dispatcher.identityPaused = false → ∀ identity, st.dispatcher.identityStore = some identity →
      st.dispatcher.routing.localId = identity.nodeId ∧
      st.dispatcher.routing.addressFamily = identity.family ∧
      st.dispatcher.sampler.durable.map Durable.identity = some identity) ∧
    (st.dispatcher.identityPaused = true → st.dispatcher.outstanding = [] ∧
      st.dispatcher.pendingExternalIp = none ∧
      st.dispatcher.sampler.status.storageError.isSome) := by
  obtain ⟨hsane, hidentified⟩ := reached_identified h
  refine ⟨fun hp identity hstore => ?_, fun hp => ?_⟩
  · obtain ⟨howner, hsampler⟩ := hidentified.aligned hp identity hstore
    exact ⟨congrArg Prod.fst howner, congrArg Prod.snd howner, hsampler⟩
  · obtain ⟨hfault, hip⟩ := hidentified.halted hp
    exact ⟨Dispatcher.outstanding_nil.2 (hsane.paused hp), hip, hfault⟩

theorem dispatcher_identity_voted : ∃ st, Reached st ∧
    st.dispatcher.identityStore = some successor ∧
    (st.dispatcher.identityPaused = false → st.dispatcher.routing.localId = 77) := by
  obtain ⟨st, hreached, -, hadopted, -⟩ := exists_voted
  obtain ⟨st', hstep, hstore⟩ := (Option.any_eq_true _ _).1 hadopted
  have hreached' : Reached st' := hreached.step (fun h => by cases h) hstep
  have hstored := of_decide_eq_true hstore
  exact ⟨st', hreached', hstored,
    fun hp => ((dispatcher_identity hreached').1 hp successor hstored).1⟩

/-- **A change of identity is done as a whole or not at all**, in every run. -/
theorem dispatcher_rotation (h : Reached st) {events : List (Nat × StorageEvent)}
    {bound : Except StorageError LocalIdentity} {random : NodeId} {current : Nat}
    (hstep : st.step t (.rotate events bound random current) = some st') :
    Rotation st.dispatcher t bound st'.dispatcher := by
  obtain ⟨hnow, -, hact, -⟩ := step_cases hstep
  exact Dispatcher.rotation ((reached_open h).later hnow) hact

theorem dispatcher_rotation_voted : ∃ st st' : DispatcherRun, Reached st ∧
    st.dispatcher.outstanding.map Purpose.cls = [.collector] ∧
    st'.dispatcher.identityStore = some successor ∧
    Rotation st.dispatcher 4 (.ok successor) st'.dispatcher := by
  obtain ⟨st, hreached, hopen, hadopted, -⟩ := exists_voted
  obtain ⟨st', hstep, hstore⟩ := (Option.any_eq_true _ _).1 hadopted
  exact ⟨st, st', hreached, hopen, of_decide_eq_true hstore, dispatcher_rotation hreached hstep⟩

/-- **A change of identity that failed ends all queries for good**: however the run goes on, nothing is
sent or open any more, and every caller has been answered. -/
theorem dispatcher_halted (h : Reached st) (hp : st.dispatcher.identityPaused = true)
    (hfollows : Follows st st') :
    st'.dispatcher.identityPaused = true ∧
      st'.dispatcher.journal.sent = st.dispatcher.journal.sent ∧
      st'.dispatcher.identityStore = st.dispatcher.identityStore ∧
      st'.dispatcher.outstanding = [] ∧
      st'.asked.Perm (st'.dispatcher.journal.replies.map Prod.fst ++
        st'.dispatcher.journal.reclaimed) := by
  have hkept : st'.dispatcher.identityPaused = true ∧
      st'.dispatcher.journal.sent = st.dispatcher.journal.sent ∧
      st'.dispatcher.stamp = st.dispatcher.stamp := by
    induction hfollows with
    | refl => exact ⟨hp, rfl, rfl⟩
    | step hfollows ok hstep ih =>
      obtain ⟨hp₁, hsent, hstamp⟩ := step_halted (hfollows.reached h) ih.1 hstep
      exact ⟨hp₁, hsent.trans ih.2.1, hstamp.trans ih.2.2⟩
  have hreached := hfollows.reached h
  have houtstanding : st'.dispatcher.outstanding = [] :=
    Dispatcher.outstanding_nil.2 ((reached_identified hreached).1.paused hkept.1)
  have hcallers := (reached_open hreached).accounts.callers
  rw [houtstanding] at hcallers
  exact ⟨hkept.1, hkept.2.1, congrArg (fun s => s.1.2) hkept.2.2, houtstanding, hcallers⟩

theorem dispatcher_halted_voted : ∃ st st' : DispatcherRun, Reached st ∧
    st.dispatcher.identityPaused = true ∧
    Follows st st' ∧ st'.asked = 8 :: st.asked ∧
    st'.dispatcher.journal.sent = st.dispatcher.journal.sent := by
  obtain ⟨st, hreached, -, -, hfailed⟩ := exists_voted
  obtain ⟨st', hstep, hpaused⟩ := (Option.any_eq_true _ _).1 hfailed
  have hreached' : Reached st' := hreached.step (fun h => by cases h) hstep
  have hask : st'.step st'.now (.getPeers 8 ⟨host 3, none⟩ 5 false) =
      some ⟨st'.dispatcher.getPeers 8 ⟨host 3, none⟩ 5 false st'.now, st'.now, 8 :: st'.asked⟩ :=
    if_pos ⟨le_rfl, le_rfl⟩
  have hfollows := Follows.step (.refl : Follows st' st') (fun h => by cases h) hask
  exact ⟨st', _, hreached', hpaused, hfollows, rfl,
    (dispatcher_halted hreached' hpaused hfollows).2.1⟩

/-- **Nothing waits for longer than `QUEUE_TIMEOUT`**, in every run: the dispatcher wakes up by the
deadline of every queued query, and after its turn every one that is left has time, as it has itself. -/
theorem dispatcher_wakeup (h : Reached st) :
    (∀ q ∈ st.dispatcher.queued, q.deadline ≤ st.now + Recovery.QUEUE_TIMEOUT ∧
      ∃ at_, st.dispatcher.queueDeadline = some at_ ∧ at_ ≤ q.deadline) ∧
    ∀ t st', st.step t .outbound = some st' →
      (∀ q ∈ st'.dispatcher.queued, t < q.deadline) ∧
      (st'.dispatcher.queueDeadline = none ↔ st'.dispatcher.queued = []) ∧
      ∀ at_, st'.dispatcher.queueDeadline = some at_ → t < at_ := by
  obtain ⟨hsane, -⟩ := reached_identified h
  refine ⟨fun q hq => ⟨hsane.punctual q hq, hsane.awake q hq⟩, fun t st' hstep => ?_⟩
  obtain ⟨-, -, hact, -⟩ := step_cases hstep
  have hrested : st'.dispatcher.Rested t := by
    rw [← Option.some.inj hact]
    exact Dispatcher.advanceOutbound_rested st.dispatcher
  exact ⟨hrested.ahead, hrested.wakes, hrested.later⟩

theorem dispatcher_wakeup_waiting : ∃ st, Reached st ∧ st.dispatcher.queued.length = 1 ∧
    ∀ q ∈ st.dispatcher.queued, q.deadline ≤ st.now + Recovery.QUEUE_TIMEOUT := by
  have hrun : ((small (fun _ => { ready with wait := 5 })).bind
      (calls [(0, .bootstrapPing 7 ⟨host 1, none⟩)])).any (fun st =>
        decide (st.dispatcher.queued.length = 1)) = true := by
    decide +kernel
  obtain ⟨st, hst, hany⟩ := (Option.any_eq_true _ _).1 hrun
  have hreached := reached_small hst
  exact ⟨st, hreached, of_decide_eq_true hany, fun q hq => ((dispatcher_wakeup hreached).1 q hq).1⟩

end DispatcherRun

end BtSniffer
