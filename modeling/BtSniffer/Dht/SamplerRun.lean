import BtSniffer.Dht.SamplerIdentity

/-!
# Runs of the sampler

A run calls the sampler at times that do not decrease. It holds the requests that were returned and
not given back, and it remembers the cooldown ends that were recorded, the sample requests that failed
with error 204 and the fallbacks that were returned.

* `Fresh` — a session starts, or the identity changes, only when no request is held. The dispatcher
  does so: `stop_sampler` and `cancel_for_identity` abandon or cancel all of them.
* `sampler_schedule` — the guarantees of the scheduler in every state of such a run.
* `late_failure` — a request of an earlier session that fails in a later one takes a row of its own.
-/

set_option autoImplicit false

namespace BtSniffer

open Relational

/-! ## Steps -/

/-- The state of a run. -/
structure SamplerRun where
  sampler : Sampler
  now : Nat
  held : List Request
  ends : List CooldownEnd
  unsupported : List NodeId
  fallbacks : List NodeId

/-- A call of the sampler. -/
inductive SamplerCall where
  | start (config : SamplerConfig) (maxPending : Nat) (random : NodeId)
  | stop
  | next (routing : RoutingTable) (capacity : Nat) (output : OutputState) (random : NodeId)
  | addNodes (nodes : List DiscoveredNode) (routing : RoutingTable)
  | success (r : Request) (response : Sampler.SampleResponse) (routing : RoutingTable)
  | nodes (r : Request) (nodes : List DiscoveredNode) (routing : RoutingTable)
  | failure (r : Request) (error : QueryError)
  | uncertainSend (r : Request)
  | abandonUnsent (r : Request)
  | cancelRequest (r : Request)
  | drop (r : Request)
  | reserveRequest (r : Request)
  | takeReserved (capacity : Nat)
  | reserved (result : Except StorageError CooldownLease)
  | settled (index : Nat) (result : Except StorageError Unit)
  | acceptPermit
  | rotateIdentity (events : List (Nat × StorageEvent)) (bound : Except StorageError LocalIdentity)
      (random : NodeId)

namespace SamplerRun

/-- The Node IDs of fallbacks among the requests. -/
def fallbackIds (requests : List Request) : List NodeId :=
  (requests.filter (fun r => decide (r.kind = .findNodeFallback))).map (fun r => r.node.id)

/-- The Node ID of a sample request that failed with error 204. -/
def unsupportedIds (r : Request) (error : QueryError) : List NodeId :=
  if r.kind = .sample ∧ error.isUnsupported then [r.node.id] else []

/-- The request is given back. -/
def give (st : SamplerRun) (r : Request) (sampler : Sampler) (ends : List CooldownEnd) :
    Option SamplerRun :=
  if r ∈ st.held then
    some { st with sampler := sampler, held := st.held.erase r, ends := ends }
  else none

/-- A call at the time `t`; a storage fault is marked at the time `current`. -/
def call (st : SamplerRun) (t current : Nat) : SamplerCall → Option SamplerRun
  | .start config maxPending random =>
    some { st with sampler := (st.sampler.start config maxPending t random).2 }
  | .stop =>
    some { st with
      sampler := st.sampler.stop t
      ends := st.sampler.stopEnds st.held t ++ st.ends }
  | .next routing capacity output random =>
    let result := st.sampler.next routing capacity t output random
    some { st with
      sampler := result.1
      held := result.2.toList ++ st.held
      fallbacks := fallbackIds result.2.toList ++ st.fallbacks }
  | .addNodes nodes routing => some { st with sampler := st.sampler.addNodes nodes routing t }
  | .success r response routing =>
    st.give r (st.sampler.success r response routing t current)
      (st.sampler.successEnds r response.interval t ++ st.ends)
  | .nodes r nodes routing =>
    st.give r (st.sampler.nodes r nodes routing t current) (Sampler.nodesEnds r t ++ st.ends)
  | .failure r error =>
    (st.give r (st.sampler.failure r error t current)
      (st.sampler.failureEnds r error t ++ st.ends)).map
        (fun st => { st with unsupported := unsupportedIds r error ++ st.unsupported })
  | .uncertainSend r =>
    st.give r (st.sampler.uncertainSend r t current) (Sampler.cancelEnds r t ++ st.ends)
  | .abandonUnsent r => st.give r (st.sampler.abandonUnsent r t) (Sampler.lift r st.ends)
  | .cancelRequest r =>
    st.give r (st.sampler.cancelRequest r t current) (Sampler.cancelEnds r t ++ st.ends)
  | .drop r => st.give r st.sampler st.ends
  | .reserveRequest r =>
    let result := st.sampler.reserveRequest r t current
    (st.give r result.1 st.ends).map (fun st => { st with held := result.2.toList ++ st.held })
  | .takeReserved capacity =>
    let result := st.sampler.takeReserved capacity t
    some { st with sampler := result.1, held := result.2.toList ++ st.held }
  | .reserved result =>
    (st.sampler.durable.bind Durable.reserving).map (fun reservation => { st with
      sampler := st.sampler.reserved reservation result t
      ends := st.sampler.reservedEnds reservation result st.ends })
  | .settled index result => some { st with sampler := st.sampler.settled index result t }
  | .acceptPermit => some { st with sampler := st.sampler.acceptPermit }
  | .rotateIdentity events bound random =>
    (st.sampler.rotateIdentity events bound random t current).map (fun sampler => { st with
      sampler := sampler
      ends := Sampler.flushEnds events (st.sampler.rejectReservations t) st.ends })

/-- One step of a run. -/
def step (st : SamplerRun) (t current : Nat) (c : SamplerCall) : Option SamplerRun :=
  if st.now ≤ t ∧ t ≤ current then (st.call t current c).map (fun st => { st with now := current })
  else none

/-- A sampler without a session and without requests, as it is made and after `attach_storage`. -/
def Initial (st : SamplerRun) : Prop :=
  st.sampler.session = none ∧ st.sampler.ready? = none ∧ st.sampler.reserving? = none ∧
    st.held = [] ∧ st.ends = [] ∧ st.unsupported = [] ∧ st.fallbacks = []

/-- The states reached by steps that are allowed. -/
inductive Reached (allowed : SamplerRun → SamplerCall → Prop) : SamplerRun → Prop
  | initial {st : SamplerRun} (h : st.Initial) : Reached allowed st
  | step {st st' : SamplerRun} {t current : Nat} {c : SamplerCall} (h : Reached allowed st)
      (ok : allowed st c) (hstep : st.step t current c = some st') : Reached allowed st'

/-- Any calls. -/
def AnyCall (_ : SamplerRun) (_ : SamplerCall) : Prop := True

/-- A session starts, or the identity changes, only when no request is held. -/
def Fresh (st : SamplerRun) : SamplerCall → Prop
  | .start .. => st.held = []
  | .rotateIdentity .. => st.held = []
  | _ => True

/-! ## The invariant -/

/-- The invariant of a run at the time `t`. -/
structure Inv (st : SamplerRun) (t : Nat) : Prop where
  safe : st.sampler.Safe t st.held st.ends
  counted : ∀ id, st.fallbacks.count id ≤ st.unsupported.count id ∧
    (st.sampler.HasFallback id → st.fallbacks.count id < st.unsupported.count id)

variable {st st' : SamplerRun} {t current : Nat}

theorem Initial.inv (h : st.Initial) : Inv st st.now := by
  obtain ⟨hsession, hready, hreserving, hheld, hends, hunsupported, hfallbacks⟩ := h
  have hlive : st.sampler.live st.held = [] := by
    simp [Sampler.live, hready, hreserving, hheld]
  have hnone : ∀ a, st.sampler.session ≠ some a := by
    simp [hsession]
  refine ⟨⟨?_, ?_, ?_, ?_, ?_, ?_, ?_, ?_, ?_, ?_, ?_⟩, ?_⟩
  · exact fun a ha => absurd ha (hnone a)
  · exact fun a ha => absurd ha (hnone a)
  · exact fun a ha => absurd ha (hnone a)
  · exact fun a ha => absurd ha (hnone a)
  · simp [hheld, hready]
  · simp [hreserving]
  · exact fun _ => hready
  · simp [hlive]
  · simp [hlive]
  · simp [hends]
  · simp [hends]
  · intro id
    rw [hunsupported, hfallbacks]
    refine ⟨le_rfl, ?_⟩
    rintro ⟨a, c, ha, -⟩
    exact absurd ha (hnone a)

/-- The counts after a step that gives no candidate a fallback. -/
theorem counted_of_noFallback {s s' : Sampler} {fallbacks unsupported : List NodeId}
    (h : ∀ id, fallbacks.count id ≤ unsupported.count id ∧
      (s.HasFallback id → fallbacks.count id < unsupported.count id))
    (hno : Sampler.NoFallback s s') (id : NodeId) :
    fallbacks.count id ≤ unsupported.count id ∧
      (s'.HasFallback id → fallbacks.count id < unsupported.count id) :=
  ⟨(h id).1, fun hid => (h id).2 (hno id hid)⟩

/-- **A request is given back**: what the outcome keeps when the request is out, it keeps here. -/
theorem Inv.give (h : Inv st t) {r : Request} {s' : Sampler} {ends' : List CooldownEnd}
    (hgive : st.give r s' ends' = some st')
    (hsafe : ∀ out, st.sampler.Safe t (r :: out) st.ends → s'.Safe t out ends')
    (hno : Sampler.NoFallback st.sampler s') : Inv st' t := by
  unfold SamplerRun.give at hgive
  split at hgive
  · rename_i hmem
    cases hgive
    exact ⟨hsafe _ (h.safe.perm (List.perm_cons_erase hmem)), counted_of_noFallback h.counted hno⟩
  · cases hgive

/-- A sample request that fails with error 204 is counted. -/
theorem Inv.failure (h : Inv st t) {r : Request} {error : QueryError}
    (hcall : st.call t current (.failure r error) = some st') : Inv st' t := by
  obtain ⟨st₁, hgive, rfl⟩ := Option.map_eq_some_iff.1 hcall
  unfold SamplerRun.give at hgive
  split at hgive
  · rename_i hmem
    cases hgive
    have hsafe := h.safe.perm (List.perm_cons_erase hmem)
    refine ⟨hsafe.failure error t current, ?_⟩
    intro id
    have hcount := h.counted id
    simp only [List.count_append]
    refine ⟨by omega, fun hid => ?_⟩
    rcases Sampler.failure_fallback _ r error t current id hid with hold | ⟨rfl, hunsupported⟩
    · have := hcount.2 hold
      omega
    · unfold unsupportedIds
      rw [if_pos hunsupported, List.count_singleton_self]
      omega
  · cases hgive

/-- A fallback that is returned is counted. -/
theorem Inv.next (h : Inv st t) (routing : RoutingTable) (capacity : Nat) (output : OutputState)
    (random : NodeId) (hcall : st.call t current (.next routing capacity output random) = some st') :
    Inv st' t := by
  have hret := Sampler.next_returns h.safe routing capacity output random
  cases hcall
  refine ⟨hret.safe, ?_⟩
  intro id
  have hcount := h.counted id
  simp only [List.count_append]
  cases hres : (st.sampler.next routing capacity t output random).2 with
  | none =>
    simp only [fallbackIds, Option.toList_none, List.filter_nil, List.map_nil, List.count_nil,
      Nat.zero_add]
    exact ⟨hcount.1, fun hid => hcount.2 (hret.fallback id hid)⟩
  | some r =>
    by_cases hkind : r.kind = .findNodeFallback
    · obtain ⟨hhas, hnot⟩ := hret.used r hres hkind
      have hids : fallbackIds (some r).toList = [r.node.id] := by simp [fallbackIds, hkind]
      rw [hids, List.count_singleton]
      by_cases hid : r.node.id = id
      · subst hid
        have hlt := hcount.2 hhas
        refine ⟨by simp; omega, fun hid => absurd hid hnot⟩
      · simp only [beq_iff_eq, hid, if_false, Nat.zero_add]
        exact ⟨hcount.1, fun hid => hcount.2 (hret.fallback id hid)⟩
    · have hids : fallbackIds (some r).toList = [] := by simp [fallbackIds, hkind]
      rw [hids, List.count_nil, Nat.zero_add]
      exact ⟨hcount.1, fun hid => hcount.2 (hret.fallback id hid)⟩

/-- **Every call keeps the invariant.** -/
theorem Inv.call (h : Inv st t) {c : SamplerCall} (ok : Fresh st c)
    (hcall : st.call t current c = some st') : Inv st' t := by
  cases c with
  | start config maxPending random =>
    cases hcall
    have hheld : st.held = [] := ok
    have hsafe := h.safe
    rw [hheld] at hsafe
    refine ⟨?_, counted_of_noFallback h.counted (Sampler.start_fallback _ _ _ _ _)⟩
    simp only [hheld]
    exact hsafe.start config maxPending t random le_rfl
  | stop =>
    cases hcall
    exact ⟨h.safe.stop t, counted_of_noFallback h.counted (Sampler.stop_mild _ t).fallback⟩
  | next routing capacity output random => exact h.next routing capacity output random hcall
  | addNodes nodes routing =>
    cases hcall
    exact ⟨h.safe.frame (Sampler.frame_addNodes _ _ _ _),
      counted_of_noFallback h.counted (Sampler.addNodes_mild _ _ _ _).fallback⟩
  | success r response routing =>
    exact h.give hcall (fun _ hs => hs.success response routing t current)
      (Sampler.success_mild _ _ _ _ _ _).fallback
  | nodes r nodes routing =>
    exact h.give hcall (fun _ hs => hs.nodes nodes routing t current)
      (Sampler.nodes_mild _ _ _ _ _ _).fallback
  | failure r error => exact h.failure hcall
  | uncertainSend r =>
    exact h.give hcall (fun _ hs => hs.uncertainSend t current)
      (Sampler.uncertainSend_mild _ _ _ _).fallback
  | abandonUnsent r =>
    exact h.give hcall (fun _ hs => hs.abandonUnsent t) (Sampler.abandonUnsent_mild _ _ _).fallback
  | cancelRequest r =>
    exact h.give hcall (fun _ hs => hs.cancelRequest t current)
      (Sampler.cancelRequest_mild _ _ _ _).fallback
  | drop r => exact h.give hcall (fun _ hs => hs.drop) (.refl _)
  | reserveRequest r =>
    obtain ⟨st₁, hgive, rfl⟩ := Option.map_eq_some_iff.1 hcall
    unfold SamplerRun.give at hgive
    split at hgive
    · rename_i hmem
      cases hgive
      exact ⟨(h.safe.perm (List.perm_cons_erase hmem)).reserveRequest t current,
        counted_of_noFallback h.counted (Sampler.reserveRequest_mild _ _ _ _).fallback⟩
    · cases hgive
  | takeReserved capacity =>
    cases hcall
    exact ⟨h.safe.takeReserved capacity t,
      counted_of_noFallback h.counted (Sampler.takeReserved_mild _ _ _).fallback⟩
  | reserved result =>
    obtain ⟨reservation, hres, rfl⟩ := Option.map_eq_some_iff.1 hcall
    obtain ⟨d, hd, hreserving⟩ := Option.bind_eq_some_iff.1 hres
    exact ⟨h.safe.reserved hd hreserving result t,
      counted_of_noFallback h.counted (Sampler.reserved_mild _ _ _ _).fallback⟩
  | settled index result =>
    cases hcall
    exact ⟨h.safe.settled index result t,
      counted_of_noFallback h.counted (Sampler.settled_mild _ _ _ _).fallback⟩
  | acceptPermit =>
    cases hcall
    exact ⟨h.safe.frame (Sampler.frame_acceptPermit _),
      counted_of_noFallback h.counted (Sampler.acceptPermit_mild _).fallback⟩
  | rotateIdentity events bound random =>
    obtain ⟨s', hrotate, rfl⟩ := Option.map_eq_some_iff.1 hcall
    have hheld : st.held = [] := ok
    have hsafe := h.safe
    rw [hheld] at hsafe
    refine ⟨?_, counted_of_noFallback h.counted (Sampler.rotateIdentity_mild hrotate).fallback⟩
    simp only [hheld]
    exact hsafe.rotateIdentity hrotate

theorem Inv.later (h : Inv st t) {t' : Nat} (hle : t ≤ t') : Inv st t' :=
  ⟨h.safe.later hle, h.counted⟩

/-- **The invariant holds in every state of a run.** -/
theorem Reached.inv (h : Reached Fresh st) : Inv st st.now := by
  induction h with
  | initial h => exact h.inv
  | @step st st' t current c _ ok hstep ih =>
    unfold SamplerRun.step at hstep
    split at hstep
    · rename_i htime
      obtain ⟨st₁, hcall, rfl⟩ := Option.map_eq_some_iff.1 hstep
      have hinv := (ih.later htime.1).call ok hcall
      exact ⟨(hinv.later htime.2).safe, hinv.counted⟩
    · cases hstep

/-! ## The guarantees -/

/-- What the scheduler guarantees in a state of a run. -/
structure Guarantees (st : SamplerRun) : Prop where
  /-- Few requests are in flight, each Node ID and each IP is asked once, and the requests that are
  held are among them. -/
  parallel : ∀ a, st.sampler.session = some a →
    a.inFlight.rows.length ≤ a.config.parallelism ∧ (a.inFlight.rows.map Prod.fst).Nodup ∧
      (a.inFlight.rows.map Prod.snd).Nodup ∧ ∀ r ∈ st.held, r.place ∈ a.inFlight.rows
  /-- No sample request is returned before an end that was recorded and not lifted. -/
  cooldown : ∀ routing capacity t output random r, st.now ≤ t →
    (st.sampler.next routing capacity t output random).2 = some r → r.kind = .sample →
      ∀ m ∈ st.ends, m.Concerns r.node → m.until_ ≤ t
  /-- A fallback is returned at most once for each error 204. -/
  fallback : ∀ id, st.fallbacks.count id ≤ st.unsupported.count id
  /-- The maps stay within their capacities. -/
  capacity : ∀ a, st.sampler.session = some a →
    st.sampler.ids.rows.length ≤ a.config.cooldownCapacity ∧
      st.sampler.ips.rows.length ≤ a.config.cooldownCapacity ∧
        a.candidates.rows.length ≤ a.config.candidateCapacity
  /-- A node in flight is not given up. -/
  kept : ∀ a, st.sampler.session = some a → ∀ e ∈ a.inFlight.rows, ∃ c,
    a.candidates.get? e.1 = some (e.1, c) ∧ c.node.ip = e.2

/-- **The scheduler is safe**: in every state of a run whose sessions start when no request is
held. -/
theorem sampler_schedule (st : SamplerRun) (h : Reached Fresh st) : Guarantees st := by
  have hinv := h.inv
  refine ⟨?_, ?_, ?_, ?_, ?_⟩
  · intro a ha
    have htidy := hinv.safe.tidy a ha
    refine ⟨htidy.parallel, a.inFlight.nodup, htidy.distinct, ?_⟩
    exact fun r hr => hinv.safe.sent a ha r (List.mem_append_left _ hr)
  · intro routing capacity t output random r hnow hres hkind m hm hconcerns
    have hret := Sampler.next_returns (hinv.safe.later hnow) routing capacity output random
    exact hret.cool r hres hkind m hm hconcerns
  · exact fun id => (hinv.counted id).1
  · intro a ha
    have hbound := hinv.safe.bounded a ha
    exact ⟨hbound.1, hbound.2, (hinv.safe.tidy a ha).capacity⟩
  · exact fun a ha => (hinv.safe.tidy a ha).keyed.kept

/-! ## Runs of calls -/

/-- Calls with their times, as long as each is accepted. -/
def calls (ok : SamplerRun → SamplerCall → Bool) :
    List (Nat × SamplerCall) → SamplerRun → Option SamplerRun
  | [], st => some st
  | (t, c) :: rest, st => if ok st c then (st.step t t c).bind (calls ok rest) else none

theorem reached_calls {allowed : SamplerRun → SamplerCall → Prop}
    {ok : SamplerRun → SamplerCall → Bool} (hok : ∀ st c, ok st c = true → allowed st c) :
    ∀ (list : List (Nat × SamplerCall)) {st st' : SamplerRun}, Reached allowed st →
      calls ok list st = some st' → Reached allowed st'
  | [], _, _, h, hcalls => by
    cases hcalls
    exact h
  | (t, c) :: rest, st, st', h, hcalls => by
    rw [calls] at hcalls
    split at hcalls
    · rename_i hc
      obtain ⟨st₁, hstep, hrest⟩ := Option.bind_eq_some_iff.1 hcalls
      exact reached_calls hok rest (.step h (hok st c hc) hstep) hrest
    · cases hcalls

/-- `Fresh` as a test. -/
def isFresh (st : SamplerRun) : SamplerCall → Bool
  | .start .. => st.held.isEmpty
  | .rotateIdentity .. => st.held.isEmpty
  | _ => true

theorem fresh_of_isFresh (st : SamplerRun) (c : SamplerCall) (h : isFresh st c = true) :
    Fresh st c := by
  cases c with
  | start => simpa [isFresh, Fresh] using h
  | rotateIdentity => simpa [isFresh, Fresh] using h
  | _ => trivial

/-- A new sampler. -/
def fresh : SamplerRun := ⟨.default, 0, [], [], [], []⟩

theorem initial_fresh : fresh.Initial := ⟨rfl, rfl, rfl, rfl, rfl, rfl, rfl⟩

/-- A configuration with room for one cooldown. -/
def oneCooldown : SamplerConfig := ⟨1, 1, 2, 1, 1, 1, 1, 1, 1, 1, .localUnicast⟩

/-- A table without contacts. -/
def noContacts : RoutingTable := .new 0 .ipv4 0

/-- The node number `n`. -/
def node (n : Nat) : DiscoveredNode := ⟨n, .v4 (0x0a000000 + n) 6881⟩

/-- The request for the node number `n` in session `generation`. -/
def request (generation n : Nat) : Request := ⟨generation, none, node n, 0, .sample, true⟩

/-- `next` with a free slot. -/
def nextCall : SamplerCall := .next noContacts 1 ⟨false, true⟩ 0

/-- A session asks the node number `n`. -/
def ask (t n : Nat) : List (Nat × SamplerCall) :=
  [(t, .start oneCooldown 2 0), (t, .addNodes [node n] noContacts), (t, nextCall)]

/-- The only node answers with error 204 and gets its fallback. -/
def unsupportedRun : List (Nat × SamplerCall) :=
  ask 0 1 ++ [(1, .failure (request 1 1) (.remote 204 [])), (1, nextCall)]

theorem sampler_schedule_fallback : ∃ st, Reached Fresh st ∧ st.fallbacks = [1] ∧
    st.ends.length = 1 ∧ Guarantees st := by
  have hrun : ((calls isFresh unsupportedRun fresh).any (fun st =>
      decide (st.fallbacks = [1] ∧ st.ends.length = 1))) = true := by
    decide +kernel
  obtain ⟨st, hst, hany⟩ := (Option.any_eq_true _ _).1 hrun
  have hreached : Reached Fresh st := reached_calls fresh_of_isFresh _ (.initial initial_fresh) hst
  obtain ⟨hfallbacks, hends⟩ := of_decide_eq_true hany
  exact ⟨st, hreached, hfallbacks, hends, sampler_schedule st hreached⟩

/-- A request is stopped while in flight; after six hours another session asks another node, and only
then the first request fails. -/
def lateFailure : List (Nat × SamplerCall) :=
  ask 0 1 ++ [(1, .stop)] ++ ask (1 + UNSUPPORTED_FOR) 2 ++
    [(1 + UNSUPPORTED_FOR, .failure (request 1 1) .timeout)]

/-- **A request of an earlier session takes a row of its own**: the cooldowns exceed their
capacity. -/
theorem late_failure : ∃ st a, Reached AnyCall st ∧ st.sampler.session = some a ∧
    a.config.cooldownCapacity < st.sampler.ids.rows.length := by
  have hrun : ((calls (fun _ _ => true) lateFailure fresh).any (fun st =>
      st.sampler.session.any (fun a =>
        decide (a.config.cooldownCapacity < st.sampler.ids.rows.length)))) = true := by
    decide +kernel
  obtain ⟨st, hst, hany⟩ := (Option.any_eq_true _ _).1 hrun
  obtain ⟨a, ha, hlt⟩ := (Option.any_eq_true _ _).1 hany
  refine ⟨st, a, ?_, ha, of_decide_eq_true hlt⟩
  exact reached_calls (fun _ _ _ => trivial) _ (.initial initial_fresh) hst

end SamplerRun

end BtSniffer
