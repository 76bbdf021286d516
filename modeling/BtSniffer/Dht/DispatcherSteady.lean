import BtSniffer.Dht.DispatcherCompletion
import BtSniffer.Dht.SamplerKeeps

/-!
# What the dispatcher keeps between changes of identity

* `Sane` — while the identity is paused nothing is queued or pending; every queued query ends within
  `QUEUE_TIMEOUT`, and the dispatcher wakes up by then.
* `Steady` — an operation keeps this, the identity and a storage fault; while the identity is paused it
  sends nothing, and no new address is noticed.
* `Steady.trans` — so do operations in a row; the rest of the module goes through them all.
-/

set_option autoImplicit false

namespace BtSniffer

open Relational

namespace RoutingTable

variable {t : RoutingTable} {now : Nat}

/-- The parts of a routing table that only a new identity changes. -/
def owner (t : RoutingTable) : NodeId × AddressFamily := (t.localId, t.addressFamily)

/-- An operation that would panic leaves the owner. -/
theorem owner_getD {α : Type} {result : Option (α × RoutingTable)} {default : α}
    (h : ∀ a t', result = some (a, t') → t'.owner = t.owner) :
    (result.getD (default, t)).2.owner = t.owner := by
  cases hr : result with
  | none => rfl
  | some r => exact h r.1 r.2 hr

theorem apply_owner {t' : RoutingTable} {op : Op} {issued : List NodeContact} (ht : t.Shape)
    (h : t.apply op now = some (issued, t')) : t'.owner = t.owner := by
  obtain ⟨hid, hfamily⟩ := apply_fields ht h
  unfold owner
  rw [hid, hfamily]

theorem recordFailure_owner (h : t.Shape) (id : NodeId) :
    ((t.recordFailure id now).getD (none, t)).2.owner = t.owner := by
  refine owner_getD fun a t' hr => ?_
  have happly : t.apply (.recordFailure id) now = some ([], t') := by
    simp only [apply, hr, Option.map_some]
  exact apply_owner h happly

theorem reconsiderCandidate_owner (h : t.Shape) (c : NodeContact) :
    ((t.reconsiderCandidate c now).getD (.rejectedFull, t)).2.owner = t.owner := by
  refine owner_getD fun a t' hr => ?_
  have happly : t.apply (.reconsiderCandidate c) now = some (a.issued, t') := by
    simp only [apply, hr, Option.map_some]
  exact apply_owner h happly

theorem observeResponse_owner (h : t.Shape) (id : NodeId) (address : SocketAddr) :
    ((t.observeResponse id address now).getD (.rejectedFull, t)).2.owner = t.owner := by
  refine owner_getD fun a t' hr => ?_
  have happly : t.apply (.observeResponse id address) now = some (a.issued, t') := by
    simp only [apply, hr, Option.map_some]
  exact apply_owner h happly

theorem observeQuery_owner (h : t.Shape) (id : NodeId) (address : SocketAddr) (readOnly : Bool) :
    ((t.observeQuery id address readOnly now).getD (.updated, t)).2.owner = t.owner := by
  refine owner_getD fun a t' hr => ?_
  have happly : t.apply (.observeQuery id address readOnly) now = some ([], t') := by
    simp only [apply, hr, Option.map_some]
  exact apply_owner h happly

end RoutingTable

namespace Dispatcher

variable {d d' d'' : Dispatcher} {now : Nat} {p : Purpose}

/-! ## Definitions -/

/-- The identity as the parts of the dispatcher hold it. -/
def stamp (d : Dispatcher) : (Bool × Option LocalIdentity) × (NodeId × AddressFamily) ×
    Option LocalIdentity :=
  ((d.identityPaused, d.identityStore), d.routing.owner, d.sampler.identity?)

/-- While the identity is paused nothing is queued or pending; a queued query ends in time, and the
dispatcher wakes up for it. -/
structure Sane (d : Dispatcher) (now : Nat) : Prop where
  paused : d.identityPaused = true → d.queued = [] ∧ d.pending.rows = []
  punctual : ∀ q ∈ d.queued, q.deadline ≤ now + Recovery.QUEUE_TIMEOUT
  awake : ∀ q ∈ d.queued, ∃ at_, d.queueDeadline = some at_ ∧ at_ ≤ q.deadline
  routing : d.routing.Shape

/-- What an operation keeps. -/
structure Continues (now : Nat) (d d' : Dispatcher) : Prop where
  sane : d'.Sane now
  stamp : d'.stamp = d.stamp
  fault : d.sampler.status.storageError.isSome → d'.sampler.status.storageError.isSome
  quiet : d.identityPaused = true →
    d'.journal.sent = d.journal.sent ∧ d'.pendingExternalIp = d.pendingExternalIp

/-- An operation goes on from a sane dispatcher. -/
def Steady (now : Nat) (d d' : Dispatcher) : Prop := d.Sane now → Continues now d d'

theorem Continues.paused (h : Continues now d d') : d'.identityPaused = d.identityPaused :=
  congrArg (fun s => s.1.1) h.stamp

theorem Steady.refl (d : Dispatcher) : Steady now d d := fun hs => ⟨hs, rfl, id, fun _ => ⟨rfl, rfl⟩⟩

/-- **Operations in a row.** -/
theorem Steady.trans (h : Steady now d d') (h' : Steady now d' d'') : Steady now d d'' := by
  intro hs
  have h₁ := h hs
  have h₂ := h' h₁.sane
  refine ⟨h₂.sane, h₂.stamp.trans h₁.stamp, fun he => h₂.fault (h₁.fault he), fun hp => ?_⟩
  obtain ⟨hsent₁, hip₁⟩ := h₁.quiet hp
  obtain ⟨hsent₂, hip₂⟩ := h₂.quiet (h₁.paused.trans hp)
  exact ⟨hsent₂.trans hsent₁, hip₂.trans hip₁⟩

theorem Steady.foldl {α : Type} {f : Dispatcher → α → Dispatcher} (hf : ∀ d x, Steady now d (f d x)) :
    ∀ (l : List α) (d : Dispatcher), Steady now d (l.foldl f d)
  | [], d => .refl d
  | x :: rest, d => (hf d x).trans (Steady.foldl hf rest (f d x))

/-! ## Changes of single parts -/

/-- The parts that are queued, pending, sent or the identity. -/
def core (d : Dispatcher) : (Bool × Option LocalIdentity × Option IpAddr) × (List Queued × Option Nat) ×
    Table PendingDispatch PendingDispatch.id × List (SocketAddr × KrpcMessage) × RoutingTable :=
  ((d.identityPaused, d.identityStore, d.pendingExternalIp), (d.queued, d.queueDeadline), d.pending,
    d.journal.sent, d.routing)

/-- Other parts may change, and so may the sampler. -/
theorem Steady.frame (hcore : d'.core = d.core) (hkeeps : d.sampler.Keeps d'.sampler) :
    Steady now d d' := by
  simp only [core, Prod.mk.injEq] at hcore
  obtain ⟨⟨hpaused, hstore, hip⟩, ⟨hqueued, hdeadline⟩, hpending, hsent, hrouting⟩ := hcore
  intro hs
  refine ⟨⟨?_, ?_, ?_, ?_⟩, ?_, hkeeps.fault, fun _ => ⟨hsent, hip⟩⟩
  · rw [hpaused, hqueued, hpending]
    exact hs.paused
  · rw [hqueued]
    exact hs.punctual
  · rw [hqueued, hdeadline]
    exact hs.awake
  · rw [hrouting]
    exact hs.routing
  · unfold stamp
    rw [hpaused, hstore, hrouting, hkeeps.identity]

/-- Parts that do not matter. -/
theorem Steady.of_eq (hcore : d'.core = d.core) (hsampler : d'.sampler = d.sampler) :
    Steady now d d' :=
  .frame hcore (hsampler ▸ .refl _)

theorem steady_asked (d : Dispatcher) : Steady now d d.asked := .of_eq rfl rfl

theorem steady_reroute {t : RoutingTable} (hshape : d.routing.Shape → t.Shape)
    (howner : d.routing.Shape → t.owner = d.routing.owner) : Steady now d { d with routing := t } := by
  intro hs
  refine ⟨⟨hs.paused, hs.punctual, hs.awake, hshape hs.routing⟩, ?_, id, fun _ => ⟨rfl, rfl⟩⟩
  unfold stamp
  rw [howner hs.routing]

/-- A pending query is taken out. -/
theorem steady_erase (d : Dispatcher) (m : TransactionManager) (id : TransactionId) :
    Steady now d { d with transactions := m, pending := d.pending.erase id } := by
  intro hs
  refine ⟨⟨fun hp => ?_, hs.punctual, hs.awake, hs.routing⟩, rfl, fun he => he, fun _ => ⟨rfl, rfl⟩⟩
  obtain ⟨hqueued, hpending⟩ := hs.paused hp
  refine ⟨hqueued, List.eq_nil_iff_forall_not_mem.2 fun x hx => ?_⟩
  have hmem := (Table.mem_erase.1 hx).1
  rw [hpending] at hmem
  exact List.not_mem_nil hmem

/-- Queries are taken out of the queue. -/
theorem steady_unqueue (d : Dispatcher) (keep : Queued → Bool) :
    Steady now d { d with queued := d.queued.filter keep } := by
  intro hs
  refine ⟨⟨fun hp => ?_, fun q hq => hs.punctual q (List.mem_filter.1 hq).1,
    fun q hq => hs.awake q (List.mem_filter.1 hq).1, hs.routing⟩, rfl, fun he => he, fun _ => ⟨rfl, rfl⟩⟩
  obtain ⟨hqueued, hpending⟩ := hs.paused hp
  exact ⟨by simp [hqueued], hpending⟩

/-! ## The way to the socket -/

theorem steady_finishStartError (d : Dispatcher) (p : Purpose) (error : QueryError) :
    Steady now d (d.finishStartError p error now) := by
  cases p with
  | sampling request =>
    unfold finishStartError
    simp only
    split
    · exact .frame rfl (Sampler.keeps_uncertainSend _ _ _ _)
    · exact .frame rfl (Sampler.keeps_abandonUnsent _ _ _)
  | _ => exact .of_eq rfl rfl

/-- A query is registered while the identity is not paused. -/
theorem steady_insert (hp : d.identityPaused = false) (m : TransactionManager) (x : PendingDispatch) :
    Steady now d { d with transactions := m, pending := d.pending.insert x } := by
  intro hs
  refine ⟨⟨fun hpaused => ?_, hs.punctual, hs.awake, hs.routing⟩, rfl, fun he => he, fun _ => ⟨rfl, rfl⟩⟩
  rw [show d.identityPaused = true from hpaused] at hp
  cases hp

theorem steady_transmit (hp : d.identityPaused = false) (id : TransactionId) (q : Queued) :
    Steady now d (d.transmit id q now) := by
  unfold transmit
  simp only
  split
  · intro hs
    refine ⟨⟨hs.paused, hs.punctual, hs.awake, hs.routing⟩, rfl, fun he => he, fun hpaused => ?_⟩
    rw [hpaused] at hp
    cases hp
  · exact ((steady_asked d).trans (steady_erase d.asked _ id)).trans
      (steady_finishStartError _ q.purpose _)

theorem steady_sendRpc (hp : d.identityPaused = false) (q : Queued) :
    Steady now d (d.sendRpc q now) := by
  unfold sendRpc
  split
  · rename_i m _
    have hm : Steady now d { d with transactions := m } := .of_eq rfl rfl
    exact hm.trans (steady_finishStartError _ q.purpose _)
  · rename_i id m _
    have hp' : { d with
        transactions := m, pending := d.pending.insert ⟨id, q.remote, q.purpose⟩ }.identityPaused =
        false := hp
    exact (steady_insert hp m _).trans (steady_transmit hp' id q)

theorem earlier_le {deadline : Option Nat} {at_ bound : Nat}
    (h : at_ ≤ bound ∨ ∃ old, deadline = some old ∧ old ≤ bound) :
    ∃ time, earlier deadline at_ = some time ∧ time ≤ bound := by
  unfold earlier
  refine ⟨_, rfl, ?_⟩
  cases deadline with
  | none =>
    rcases h with h | ⟨old, hold, -⟩
    · exact h
    · cases hold
  | some old =>
    simp only [Option.elim_some]
    rcases h with h | ⟨old', hold, hle⟩
    · exact (min_le_right _ _).trans h
    · cases hold
      exact (min_le_left _ _).trans hle

theorem steady_postpone (hp : d.identityPaused = false) {q : Queued}
    (hq : q.deadline ≤ now + Recovery.QUEUE_TIMEOUT) (wait : Nat) :
    Steady now d (d.postpone q wait now) := by
  intro hs
  unfold postpone
  refine ⟨⟨fun hpaused => ?_, fun x hx => ?_, fun x hx => ?_, hs.routing⟩, rfl, fun he => he,
    fun _ => ⟨rfl, rfl⟩⟩
  · rw [show d.identityPaused = true from hpaused] at hp
    cases hp
  · rcases List.mem_append.1 hx with hx | hx
    · exact hs.punctual x hx
    · rw [List.mem_singleton.1 hx]
      exact hq
  · rcases List.mem_append.1 hx with hx | hx
    · exact earlier_le (.inr (hs.awake x hx))
    · rw [List.mem_singleton.1 hx]
      exact earlier_le (.inl (min_le_right _ _))

theorem steady_visit (hp : d.identityPaused = false) {q : Queued}
    (hq : q.deadline ≤ now + Recovery.QUEUE_TIMEOUT) : Steady now d (d.visit q now) := by
  have hp' : d.asked.identityPaused = false := hp
  unfold visit
  refine (steady_asked d).trans ?_
  simp only
  split
  · exact .of_eq rfl rfl
  · split
    · exact steady_finishStartError _ q.purpose _
    · split
      · exact steady_finishStartError _ q.purpose _
      · split
        · exact steady_sendRpc hp' q
        · exact steady_postpone hp' hq _

theorem steady_outboundLoop : ∀ (queue : List Queued) {d : Dispatcher}, d.identityPaused = false →
    (∀ q ∈ queue, q.deadline ≤ now + Recovery.QUEUE_TIMEOUT) →
    Steady now d (outboundLoop now queue d)
  | [], d, _, _ => .refl d
  | q :: rest, d, hp, hqueue => by
    have hvisit := steady_visit hp (hqueue q List.mem_cons_self)
    intro hs
    have hrest := steady_outboundLoop rest ((hvisit hs).paused.trans hp)
      (fun x hx => hqueue x (List.mem_cons_of_mem _ hx))
    exact hvisit.trans hrest hs

/-- The queue is taken out as a whole. -/
theorem steady_takeQueue (d : Dispatcher) :
    Steady now d { d with queued := [], queueDeadline := none } := by
  intro hs
  exact ⟨⟨fun hp => ⟨rfl, (hs.paused hp).2⟩, fun _ hq => absurd hq List.not_mem_nil,
    fun _ hq => absurd hq List.not_mem_nil, hs.routing⟩, rfl, fun he => he, fun _ => ⟨rfl, rfl⟩⟩

/-- The loop over queries that end in time. -/
theorem steady_takeLoop (hp : d.identityPaused = false) {queue : List Queued}
    (hqueue : ∀ q ∈ queue, q.deadline ≤ now + Recovery.QUEUE_TIMEOUT) :
    Steady now d (outboundLoop now queue { d with queued := [], queueDeadline := none }) := by
  have hp' : { d with queued := [], queueDeadline := none }.identityPaused = false := hp
  exact (steady_takeQueue d).trans (steady_outboundLoop queue hp' hqueue)

theorem steady_advanceOutbound (d : Dispatcher) : Steady now d (d.advanceOutbound now) := by
  intro hs
  unfold advanceOutbound
  by_cases hp : d.identityPaused = true
  · rw [(hs.paused hp).1]
    exact steady_takeQueue d hs
  · exact steady_takeLoop (Bool.not_eq_true _ ▸ hp) hs.punctual hs

theorem steady_enqueue (hp : d.identityPaused = false) (remote : Recovery.RemoteNode)
    (query : Outbound) (p : Purpose) : Steady now d (d.enqueue remote query p now) := by
  intro hs
  unfold enqueue advanceOutbound
  refine steady_takeLoop hp (fun q hq => ?_) hs
  rcases List.mem_append.1 hq with hq | hq
  · exact hs.punctual q hq
  · rw [List.mem_singleton.1 hq]

theorem steady_startRpc (d : Dispatcher) (remote : Recovery.RemoteNode) (query : Outbound)
    (p : Purpose) : Steady now d (d.startRpc remote query p now) := by
  unfold startRpc
  split
  · exact steady_finishStartError d p _
  · rename_i hpaused
    have hp : d.identityPaused = false := Bool.not_eq_true _ ▸ hpaused
    have hp' : d.asked.identityPaused = false := hp
    simp only
    split
    · exact steady_finishStartError d p _
    · split
      · split
        · exact (steady_asked d).trans (steady_enqueue hp' remote query p)
        · exact (steady_asked d).trans (steady_finishStartError _ p _)
      · exact steady_enqueue hp remote query p

end Dispatcher

end BtSniffer
