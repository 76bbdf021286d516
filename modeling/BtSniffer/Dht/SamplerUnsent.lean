import BtSniffer.Dht.SamplerBackoff

/-!
# Requests that are not sent

A run selects a sample request, the request waits, and it is given up before it is sent.

* `call_clean`, `call_dropped` — what a call does to a node that has no failures on record, and to the
  node of a ready request that is given up.
* `Abandons` — the ways in which a step gives up a request; each leaves no failures on record.
* `unsent_backoff` — the other cooldowns stay, and the failures of the node itself are kept just when
  there are none; `forgotten_failure` is a node whose failure is forgotten.
-/

set_option autoImplicit false

namespace BtSniffer

open Relational

namespace Sampler

variable {s s' : Sampler} {now : Nat} {ends : List CooldownEnd}

/-! ## The request that waits for its lease -/

theorem reserving?_eq (s : Sampler) :
    s.reserving? = (s.durable.bind Durable.reserving).map Reservation.request := by
  unfold reserving?
  cases s.durable <;> rfl

theorem settling_reserving (s : Sampler) (f : List Settlement → List Settlement) :
    (s.mapDurable fun d => { d with settling := f d.settling }).durable.bind Durable.reserving =
      s.durable.bind Durable.reserving := by
  unfold mapDurable
  cases s.durable <;> rfl

theorem delaySend_durable (s : Sampler) (t : Nat) : (s.delaySend t).durable = s.durable := by
  unfold delaySend
  cases s.session <;> rfl

theorem abandonUnsent_reserving (s : Sampler) (r : Request) (t : Nat) :
    (s.abandonUnsent r t).durable.bind Durable.reserving = s.durable.bind Durable.reserving := by
  unfold abandonUnsent
  simp only
  rw [delaySend_durable, ← finished_durable s r]
  split
  · cases r.lease with
    | none => rfl
    | some lease =>
      exact settling_reserving ((s.finished r).forget r) fun settling => settling ++ [.abandon lease]
  · rfl

theorem dropReady_reserving (s : Sampler) (t : Nat) :
    (s.dropReady t).durable.bind Durable.reserving = s.durable.bind Durable.reserving := by
  unfold dropReady
  split
  · rfl
  · rw [abandonUnsent_reserving]
    unfold mapDurable
    cases s.durable <;> rfl

theorem markStorageFault_reserving (s : Sampler) (error : StorageError) (t : Nat) :
    (s.markStorageFault error t).durable.bind Durable.reserving =
      s.durable.bind Durable.reserving := by
  rw [← dropReady_reserving s t]
  unfold markStorageFault stop
  simp only
  cases (s.dropReady t).session <;> rfl

theorem settled_reserving (s : Sampler) (index : Nat) (result : Except StorageError Unit) (t : Nat) :
    (s.settled index result t).durable.bind Durable.reserving =
      s.durable.bind Durable.reserving := by
  have hdone := settling_reserving s fun settling => settling.eraseIdx index
  unfold settled
  simp only
  split
  · exact (markStorageFault_reserving _ _ t).trans hdone
  · exact hdone

/-! ## Late answers -/

/-- An answer after which no request waits for a lease. -/
theorem reserved_reserving (s : Sampler) (reservation : Reservation)
    (result : Except StorageError CooldownLease) (t : Nat) :
    (s.reserved reservation result t).durable.bind Durable.reserving = none := by
  have hdone : (s.mapDurable fun d => { d with reserving := none }).durable.bind Durable.reserving =
      none := by
    unfold mapDurable
    cases s.durable <;> rfl
  unfold reserved
  simp only
  split
  · exact (markStorageFault_reserving _ _ t).trans hdone
  · split
    · unfold mapDurable
      cases s.durable <;> rfl
    · exact (abandonUnsent_reserving _ _ t).trans hdone

/-- **A request whose lease comes too late leaves no failures on record.** -/
theorem reserved_noFailures {reservation : Reservation} (hstale : ¬ s.Current reservation.request)
    (hkind : reservation.request.kind = .sample) (lease : CooldownLease) (t : Nat) :
    (s.reserved reservation (.ok lease) t).NoFailures reservation.request.node.id := by
  have hleased : { reservation.request with lease := some lease }.kind = .sample := hkind
  have hno := abandonUnsent_noFailures (s.mapDurable fun d => { d with reserving := none }) hleased t
  rw [reserved_stale hstale]
  exact hno

theorem storageEvent_reserving {event : StorageEvent} {t : Nat}
    (hevent : s.storageEvent event t = some s')
    (hnone : s.durable.bind Durable.reserving = none) :
    s'.durable.bind Durable.reserving = none ∧ ∀ result, event ≠ .reserved result := by
  cases event with
  | reserved result =>
    obtain ⟨reservation, hreserving, -⟩ := Option.map_eq_some_iff.1 hevent
    cases hnone.symm.trans hreserving
  | settled index result =>
    obtain ⟨-, heq⟩ := Option.ite_none_right_eq_some.1 hevent
    cases heq
    exact ⟨(settled_reserving s index result t).trans hnone, nofun⟩

/-- Only a request that waits is answered. -/
theorem flushStorage_unanswered : ∀ (events : List (Nat × StorageEvent)) {s s' : Sampler},
    flushStorage events s = some s' → s.durable.bind Durable.reserving = none →
    ∀ t result, (t, .reserved result) ∉ events
  | [], _, _, _, _ => nofun
  | (current, event) :: rest, s, s', hflush, hnone => by
    obtain ⟨s₁, hevent, hrest⟩ := Option.bind_eq_some_iff.1 hflush
    obtain ⟨hnone₁, hne⟩ := storageEvent_reserving hevent hnone
    intro t result hmem
    rcases List.mem_cons.1 hmem with heq | hmem
    · cases heq
      exact hne result rfl
    · exact flushStorage_unanswered rest hrest hnone₁ t result hmem

/-- The same, while the identity changes. -/
theorem Flushing.late : ∀ (events : List (Nat × StorageEvent)) {s s' : Sampler}
    {ends : List CooldownEnd} {reservation : Reservation} {t : Nat} {lease : CooldownLease},
    Flushing s now ends → Sampler.flushStorage events s = some s' →
    s.durable.bind Durable.reserving = some reservation → reservation.request.kind = .sample →
    (t, .reserved (.ok lease)) ∈ events → s'.NoFailures reservation.request.node.id
  | [], _, _, _, _, _, _, _, _, _, _, hmem => nomatch hmem
  | (current, event) :: rest, s, s', ends, reservation, t, lease, h, hflush, hreserving, hkind,
      hmem => by
    obtain ⟨s₁, hevent, hrest⟩ := Option.bind_eq_some_iff.1 hflush
    cases event with
    | settled index result =>
      have hmem' : (t, .reserved (.ok lease)) ∈ rest := by simpa using hmem
      have h₁ := h.event hevent
      obtain ⟨-, heq⟩ := Option.ite_none_right_eq_some.1 hevent
      cases heq
      have hreserving₁ := (settled_reserving s index result current).trans hreserving
      exact Flushing.late rest h₁ hrest hreserving₁ hkind hmem'
    | reserved result =>
      obtain ⟨reservation', hreserving', rfl⟩ := Option.map_eq_some_iff.1 hevent
      cases hreserving.symm.trans hreserving'
      have hnone := reserved_reserving s reservation result current
      rcases List.mem_cons.1 hmem with heq | hmem
      · cases heq
        have hstale : ¬ s.Current reservation.request := by
          refine h.stale ?_
          rw [reserving?_eq, hreserving]
          rfl
        have hno := reserved_noFailures hstale hkind lease current
        exact flushStorage_clean rest hrest hno
      · exact absurd hmem (flushStorage_unanswered rest hrest hnone t _)

end Sampler

namespace SamplerRun

variable {st st' : SamplerRun} {t current : Nat} {id : NodeId}

/-! ## Calls -/

/-- The call is not a failure of a request to the node. -/
def Spares (id : NodeId) (c : SamplerCall) : Prop :=
  ∀ q error, c = .failure q error → q.node.id ≠ id

theorem give_sampler {r : Request} {s' : Sampler} {ends : List CooldownEnd}
    (hgive : st.give r s' ends = some st') : st'.sampler = s' := by
  unfold give at hgive
  split at hgive
  · cases hgive
    rfl
  · cases hgive

/-- What a call does, but for an answer about a reservation and a request that is taken. -/
theorem call_tidies {c : SamplerCall} (hspares : Spares id c)
    (hcall : st.call t current c = some st') :
    st.sampler.Tidies id st'.sampler ∨ (∃ capacity, c = .takeReserved capacity) ∨
      ∃ result, c = .reserved result := by
  cases c with
  | start config maxPending random =>
    cases hcall
    exact .inl (Sampler.start_tidies _ config maxPending t random)
  | next routing capacity output random =>
    cases hcall
    exact .inl (Sampler.next_tidies _ routing capacity t output random)
  | stop =>
    cases hcall
    exact .inl (Sampler.stop_tidies _ t)
  | addNodes nodes routing =>
    cases hcall
    exact .inl (.of_frame (Sampler.frame_addNodes _ _ _ _))
  | success r response routing =>
    exact .inl (give_sampler hcall ▸ Sampler.success_tidies _ r response routing t current)
  | nodes r nodes routing =>
    exact .inl (give_sampler hcall ▸ Sampler.nodes_tidies _ r nodes routing t current)
  | failure r error =>
    obtain ⟨st₁, hgive, rfl⟩ := Option.map_eq_some_iff.1 hcall
    have hother := Sampler.failure_tidies st.sampler error t current (hspares r error rfl)
    exact .inl (give_sampler hgive ▸ hother)
  | uncertainSend r =>
    exact .inl (give_sampler hcall ▸ Sampler.uncertainSend_tidies _ r t current)
  | abandonUnsent r => exact .inl (give_sampler hcall ▸ Sampler.abandonUnsent_tidies _ r t)
  | cancelRequest r =>
    exact .inl (give_sampler hcall ▸ Sampler.cancelRequest_tidies _ r t current)
  | drop r => exact .inl (give_sampler hcall ▸ .refl _)
  | reserveRequest r =>
    obtain ⟨st₁, hgive, rfl⟩ := Option.map_eq_some_iff.1 hcall
    exact .inl (give_sampler hgive ▸ Sampler.reserveRequest_tidies _ r t current)
  | takeReserved capacity => exact .inr (.inl ⟨capacity, rfl⟩)
  | reserved result => exact .inr (.inr ⟨result, rfl⟩)
  | settled index result =>
    cases hcall
    exact .inl (Sampler.settled_tidies _ index result t)
  | acceptPermit =>
    cases hcall
    exact .inl (.of_frame (Sampler.frame_acceptPermit _))
  | rotateIdentity events bound random =>
    obtain ⟨s', hrotate, rfl⟩ := Option.map_eq_some_iff.1 hcall
    exact .inl (Sampler.rotateIdentity_tidies hrotate)

/-- **A node without failures stays without**, until a request to it fails. -/
theorem call_clean {c : SamplerCall} (hspares : Spares id c)
    (hcall : st.call t current c = some st') (hno : st.sampler.NoFailures id) :
    st'.sampler.NoFailures id := by
  rcases call_tidies hspares hcall with htidies | ⟨capacity, rfl⟩ | ⟨result, rfl⟩
  · exact htidies.clean hno
  · cases hcall
    exact Sampler.takeReserved_clean _ capacity t hno
  · obtain ⟨reservation, -, rfl⟩ := Option.map_eq_some_iff.1 hcall
    exact Sampler.reserved_clean _ reservation result t hno

/-- **A ready request that is given up leaves no failures on record.** -/
theorem call_dropped {c : SamplerCall} {q : Request} (hspares : Spares q.node.id c)
    (hcall : st.call t current c = some st') (hq : st.sampler.ready? = some q)
    (hkind : q.kind = .sample) (hnone : st'.sampler.ready? = none)
    (htaken : ∀ capacity, c ≠ .takeReserved capacity) : st'.sampler.NoFailures q.node.id := by
  rcases call_tidies hspares hcall with htidies | ⟨capacity, rfl⟩ | ⟨result, rfl⟩
  · rcases htidies.dropped q hq hkind rfl with hsome | hno
    · cases hnone.symm.trans hsome
    · exact hno
  · exact absurd rfl (htaken capacity)
  · obtain ⟨reservation, -, rfl⟩ := Option.map_eq_some_iff.1 hcall
    exact Sampler.reserved_dropped _ reservation result t hq hkind hnone

/-! ## Runs -/

/-- A step of the kind that `ok` allows. -/
def Moves (ok : SamplerRun → SamplerCall → SamplerRun → Prop) (st st' : SamplerRun) : Prop :=
  ∃ t current c, ok st c st' ∧ st.step t current c = some st'

/-- The request was returned and not given back; it may have got its lease. -/
def Out (st : SamplerRun) (r : Request) : Prop := ∃ q ∈ st.sampler.live st.held, q.bare = r.bare

/-- The request goes on waiting. -/
def Waiting (r : Request) (st : SamplerRun) (c : SamplerCall) (st' : SamplerRun) : Prop :=
  Fresh st c ∧ st'.Out r

/-- No request to the node fails. -/
def Sparing (id : NodeId) (st : SamplerRun) (c : SamplerCall) (_ : SamplerRun) : Prop :=
  Fresh st c ∧ Spares id c

theorem step_call {c : SamplerCall} (hstep : st.step t current c = some st') :
    st.now ≤ t ∧ ∃ st₁, st.call t current c = some st₁ ∧ st' = { st₁ with now := current } := by
  unfold SamplerRun.step at hstep
  split at hstep
  · rename_i htime
    obtain ⟨st₁, hcall, rfl⟩ := Option.map_eq_some_iff.1 hstep
    exact ⟨htime.1, st₁, hcall, rfl⟩
  · cases hstep

/-- The request that fails has its Node ID and its IP alone. -/
theorem failure_apart {q : Request} {error : QueryError} (h : Reached Fresh st)
    (hstep : st.step t current (.failure q error) = some st') :
    st.sampler.Apart (st.held.erase q) q := by
  obtain ⟨-, st₁, hcall, rfl⟩ := step_call hstep
  obtain ⟨st₂, hgive, rfl⟩ := Option.map_eq_some_iff.1 hcall
  unfold give at hgive
  split at hgive
  · rename_i hmem
    cases hgive
    exact (h.inv.safe.perm (List.perm_cons_erase hmem)).apart
  · cases hgive

theorem step_clean {c : SamplerCall} (hspares : Spares id c)
    (hstep : st.step t current c = some st') (hno : st.sampler.NoFailures id) :
    st'.sampler.NoFailures id := by
  obtain ⟨-, st₁, hcall, rfl⟩ := step_call hstep
  have hclean := call_clean hspares hcall hno
  exact hclean

theorem waiting_reached {r : Request} (h : Reached Fresh st) (hout : st.Out r)
    (hmoves : Relation.ReflTransGen (Moves (Waiting r)) st st') : Reached Fresh st' ∧ st'.Out r := by
  induction hmoves with
  | refl => exact ⟨h, hout⟩
  | tail _ hmove ih =>
    obtain ⟨t, current, c, ok, hstep⟩ := hmove
    exact ⟨ih.1.step ok.1 hstep, ok.2⟩

theorem sparing_clean (hmoves : Relation.ReflTransGen (Moves (Sparing id)) st st')
    (hno : st.sampler.NoFailures id) : st'.sampler.NoFailures id := by
  induction hmoves with
  | refl => exact hno
  | tail _ hmove ih =>
    obtain ⟨t, current, c, ok, hstep⟩ := hmove
    exact step_clean ok.2 hstep ih

/-! ## A request that is given up -/

/-- The step gives a request to `abandon_unsent`. -/
inductive Abandons (st : SamplerRun) (c : SamplerCall) (st' : SamplerRun) : Request → Prop
  /-- It was not sent: the queue timed out, the quota was used up, the sampler stops. -/
  | called {r : Request} (hc : c = .abandonUnsent r) : Abandons st c st' r
  /-- It has its lease when the sampler stops or the identity changes. -/
  | ready {r : Request} (hready : st.sampler.ready? = some r) (hnone : st'.sampler.ready? = none)
      (htaken : ∀ capacity, c ≠ .takeReserved capacity) : Abandons st c st' r
  /-- Its lease comes when its session is over. -/
  | late {reservation : Reservation} {lease : CooldownLease}
      (hreserving : st.sampler.durable.bind Durable.reserving = some reservation)
      (hc : c = .reserved (.ok lease)) (hstale : ¬ st.sampler.Current reservation.request) :
      Abandons st c st' { reservation.request with lease := some lease }
  /-- Its lease comes while the identity changes. -/
  | rotated {reservation : Reservation} {lease : CooldownLease} {time : Nat}
      {events : List (Nat × StorageEvent)} {bound : Except StorageError LocalIdentity}
      {random : NodeId}
      (hreserving : st.sampler.durable.bind Durable.reserving = some reservation)
      (hc : c = .rotateIdentity events bound random)
      (hevent : (time, .reserved (.ok lease)) ∈ events) :
      Abandons st c st' { reservation.request with lease := some lease }

/-- **A sample request that is given up leaves no failures on record.** -/
theorem Abandons.noFailures {c : SamplerCall} {r : Request} (h : Reached Fresh st) (ok : Fresh st c)
    (hstep : st.step t current c = some st') (hgiven : Abandons st c st' r) (hkind : r.kind = .sample) :
    st'.sampler.NoFailures r.node.id := by
  obtain ⟨-, st₁, hcall, rfl⟩ := step_call hstep
  cases hgiven with
  | called hc =>
    subst hc
    rw [give_sampler hcall]
    exact Sampler.abandonUnsent_noFailures _ hkind t
  | ready hready hnone htaken =>
    have hspares : Spares r.node.id c := by
      rintro q error rfl hid
      have hlive : r ∈ st.sampler.live (st.held.erase q) :=
        Sampler.mem_live.2 (.inr (.inl hready))
      exact (failure_apart h hstep r hlive).1 hid.symm
    have hno := call_dropped hspares hcall hready hkind hnone htaken
    exact hno
  | @late reservation lease hreserving hc hstale =>
    subst hc
    obtain ⟨reservation', hreserving', rfl⟩ := Option.map_eq_some_iff.1 hcall
    cases hreserving.symm.trans hreserving'
    exact Sampler.reserved_noFailures hstale hkind lease t
  | @rotated reservation lease time events bound random hreserving hc hevent =>
    subst hc
    obtain ⟨s', hrotate, rfl⟩ := Option.map_eq_some_iff.1 hcall
    obtain ⟨result, hresult, -⟩ := Option.map_eq_some_iff.1 hrotate
    obtain ⟨s₁, hflush, -⟩ := Option.map_eq_some_iff.1 hresult
    have hheld : st.held = [] := ok
    have hsafe := h.inv.safe
    rw [hheld] at hsafe
    have hreserving₁ : (st.sampler.rejectReservations t).durable.bind Durable.reserving =
        some reservation := (Sampler.dropReady_reserving _ t).trans hreserving
    have hno := Sampler.Flushing.late events (hsafe.rejectReservations t) hflush hreserving₁ hkind
      hevent
    exact Sampler.rotateIdentity_clean hflush hrotate hno

/-- The other cooldowns stay, but for some that are over. -/
structure OthersStay (node : DiscoveredNode) (s s' : Sampler) (now : Nat) : Prop where
  ids : ∀ j ≠ node.id, s'.ids.get? j = s.ids.get? j ∨
    (s'.ids.get? j = none ∧ ∃ c, s.ids.get? j = some (j, c) ∧ c.until_ ≤ now)
  ips : ∀ ip ≠ node.ip, s'.ips.get? ip = s.ips.get? ip ∨
    (s'.ips.get? ip = none ∧ ∃ u, s.ips.get? ip = some (ip, u) ∧ u ≤ now)

/-- The request `r`, which `next` returned at `t` in `st`, is given up as `r'` at `t'` in `st₂` and
leaves no trace in the backoff. -/
structure LeavesNoTrace (st st₁ st₂ st₃ : SamplerRun) (r r' : Request) (t t' : Nat) :
    Prop where
  /-- However the run goes on, the next failure of the node counts as it would have before. -/
  counted : ∀ st₄, Relation.ReflTransGen (Moves (Sparing r.node.id)) st₃ st₄ →
    st₄.sampler.failuresAfter r.node.id = st.sampler.failuresAfter r.node.id
  /-- The selection changes no other cooldown. -/
  selected : OthersStay r.node st.sampler st₁.sampler t
  /-- Nor does `abandon_unsent`. -/
  released : OthersStay r.node st₂.sampler (st₂.sampler.abandonUnsent r' t') t'
  /-- A cooldown that it removes was recorded for the request itself. -/
  own : ∀ m ∈ st₂.ends, t' < m.until_ → m.Concerns r.node → m.owner = some r.bare

theorem next_others {s : Sampler} {routing : RoutingTable} {capacity : Nat} {output : OutputState}
    {random : NodeId} {r : Request} (hres : (s.next routing capacity t output random).2 = some r) :
    OthersStay r.node s (s.next routing capacity t output random).1 t := by
  have hrows : Sampler.Rows s t (s.next routing capacity t output random) :=
    Sampler.next_rows s routing capacity output random
  unfold Sampler.Rows at hrows
  rw [hres] at hrows
  obtain ⟨s₀, hexpires, hids, hips, -⟩ := hrows
  refine ⟨fun j hj => ?_, fun ip hip => ?_⟩
  · rw [hids, Table.get?_insertNew, if_neg hj.symm, Option.or_none]
    exact hexpires.ids j
  · rw [hips, Table.get?_insertNew, if_neg hip.symm, Option.or_none]
    exact hexpires.ips ip

/-- `abandon_unsent` removes the cooldowns of a sample request. -/
theorem abandonUnsent_cooldowns (s : Sampler) {r : Request} (hkind : r.kind = .sample) (t : Nat) :
    (s.abandonUnsent r t).ids = s.ids.erase r.node.id ∧
      (s.abandonUnsent r t).ips = s.ips.erase r.node.ip := by
  have hforget : ((s.finished r).forget r).ids = s.ids.erase r.node.id ∧
      ((s.finished r).forget r).ips = s.ips.erase r.node.ip := by
    unfold Sampler.forget Sampler.finished
    cases s.session with
    | none => exact ⟨rfl, rfl⟩
    | some a => exact ⟨rfl, rfl⟩
  unfold Sampler.abandonUnsent
  simp only [hkind, if_true]
  rw [(Sampler.frame_delaySend _ t).ids, (Sampler.frame_delaySend _ t).ips]
  cases r.lease with
  | none => exact hforget
  | some lease => exact hforget

theorem abandonUnsent_others (s : Sampler) {r : Request} (hkind : r.kind = .sample) (t' : Nat) :
    OthersStay r.node s (s.abandonUnsent r t') t' := by
  obtain ⟨hids, hips⟩ := abandonUnsent_cooldowns s hkind t'
  refine ⟨fun j hj => .inl ?_, fun ip hip => .inl ?_⟩
  · rw [hids, Table.get?_erase, if_neg hj]
  · rw [hips, Table.get?_erase, if_neg hip]

/-- The first step of the wait, and what holds until the request is given up. -/
theorem next_waits {routing : RoutingTable} {capacity : Nat} {output : OutputState} {random : NodeId}
    {r : Request} (hnext : st.step t current (.next routing capacity output random) = some st')
    (hres : (st.sampler.next routing capacity t output random).2 = some r) :
    st'.Out r ∧ st'.sampler = (st.sampler.next routing capacity t output random).1 := by
  obtain ⟨-, st₁, hcall, rfl⟩ := step_call hnext
  cases hcall
  refine ⟨⟨r, Sampler.mem_live.2 (.inl ?_), rfl⟩, rfl⟩
  simp [hres]

/-- **A request that is not sent leaves no trace in the backoff, just when its node has no failures on
record.** -/
theorem unsent_backoff {st st₁ st₂ st₃ : SamplerRun} {routing : RoutingTable} {capacity : Nat}
    {output : OutputState} {random : NodeId} {t current t' current' : Nat} {r r' : Request}
    {c : SamplerCall} (h : Reached Fresh st)
    (hnext : st.step t current (.next routing capacity output random) = some st₁)
    (hres : (st.sampler.next routing capacity t output random).2 = some r)
    (hkind : r.kind = .sample) (hwait : Relation.ReflTransGen (Moves (Waiting r)) st₁ st₂)
    (hbare : r'.bare = r.bare) (ok : Fresh st₂ c) (hstep : st₂.step t' current' c = some st₃)
    (hgiven : Abandons st₂ c st₃ r') :
    LeavesNoTrace st st₁ st₂ st₃ r r' t t' ↔ st.sampler.NoFailures r.node.id := by
  obtain ⟨hout₁, hsampler₁⟩ := next_waits hnext hres
  have hfresh : Fresh st (.next routing capacity output random) := trivial
  obtain ⟨hreached₂, q, hq, hqbare⟩ := waiting_reached (h.step hfresh hnext) hout₁ hwait
  have hnode : r'.node = r.node := by
    have hbare' : r'.bare.node = r.bare.node := by rw [hbare]
    exact hbare'
  have hkind' : r'.kind = .sample := by
    have hbare' : r'.bare.kind = r.bare.kind := by rw [hbare]
    exact hbare'.trans hkind
  have hno₃ : st₃.sampler.NoFailures r.node.id :=
    hnode ▸ hgiven.noFailures hreached₂ ok hstep hkind'
  constructor
  · intro htrace
    have hcount := htrace.counted st₃ .refl
    exact Sampler.failuresAfter_eq_one.1 (hcount.symm.trans (Sampler.failuresAfter_eq_one.2 hno₃))
  · intro hno
    refine ⟨fun st₄ hmoves => ?_, ?_, ?_, ?_⟩
    · rw [Sampler.failuresAfter_eq_one.2 (sparing_clean hmoves hno₃),
        Sampler.failuresAfter_eq_one.2 hno]
    · rw [hsampler₁]
      exact next_others hres
    · exact hnode ▸ abandonUnsent_others _ hkind' t'
    · intro m hm hlt hconcerns
      have hsafe := hreached₂.inv.safe.later (step_call hstep).1
      have hqnode : q.bare.node = r.bare.node := by rw [hqbare]
      have hqkind : q.bare.kind = r.bare.kind := by rw [hqbare]
      rw [← hqbare]
      exact (hsafe.owned m hm hlt q hq (hqkind.trans hkind) (hqnode ▸ hconcerns)).1

/-! ## A request that is not sent -/

/-- A configuration with room for two cooldowns, which double after a failure. -/
def doubling : SamplerConfig := ⟨1, 1, 2, 1, 1, 1, 1, 1, 4, 2, .localUnicast⟩

/-- The node number 1 becomes a candidate. -/
def onlyNode : List (Nat × SamplerCall) :=
  [(0, .start doubling 2 0), (0, .addNodes [node 1] noContacts)]

/-- The node was asked once and failed, and another round begins. -/
def failedOnce : List (Nat × SamplerCall) :=
  onlyNode ++ [(0, nextCall), (1, .failure (request 1 1) .timeout), (2, nextCall)]

/-- After the calls, the node number 1 is selected at `t` and given up at `t + 1`. -/
theorem selected_and_abandoned (list : List (Nat × SamplerCall)) (t : Nat)
    (h : (calls isFresh list fresh).any (fun st =>
      decide ((st.sampler.next noContacts 1 t ⟨false, true⟩ 0).2 = some (request 1 1)) &&
        (st.step t t nextCall).any
          (fun st₁ => (st₁.step (t + 1) (t + 1) (.abandonUnsent (request 1 1))).isSome)) = true) :
    ∃ st st₁ st₂, calls isFresh list fresh = some st ∧ Reached Fresh st ∧
      (st.sampler.next noContacts 1 t ⟨false, true⟩ 0).2 = some (request 1 1) ∧
      st.step t t nextCall = some st₁ ∧
      st₁.step (t + 1) (t + 1) (.abandonUnsent (request 1 1)) = some st₂ := by
  obtain ⟨st, hst, hany⟩ := (Option.any_eq_true _ _).1 h
  rw [Bool.and_eq_true, decide_eq_true_eq] at hany
  obtain ⟨hres, hnext⟩ := hany
  obtain ⟨st₁, hst₁, hsome⟩ := (Option.any_eq_true _ _).1 hnext
  obtain ⟨st₂, hst₂⟩ := Option.isSome_iff_exists.1 hsome
  exact ⟨st, st₁, st₂, hst, reached_calls fresh_of_isFresh _ (.initial initial_fresh) hst, hres, hst₁,
    hst₂⟩

theorem unsent_backoff_first : ∃ st st₁ st₂,
    LeavesNoTrace st st₁ st₁ st₂ (request 1 1) (request 1 1) 0 1 := by
  obtain ⟨st, st₁, st₂, hst, hreached, hres, hnext, habandon⟩ :=
    selected_and_abandoned onlyNode 0 (by decide +kernel)
  have hcount : (calls isFresh onlyNode fresh).map (fun st => st.sampler.failuresAfter 1) = some 1 := by
    decide +kernel
  rw [hst] at hcount
  have hno : st.sampler.NoFailures 1 := Sampler.failuresAfter_eq_one.1 (Option.some.inj hcount)
  have ok : Fresh st₁ (.abandonUnsent (request 1 1)) := trivial
  exact ⟨st, st₁, st₂, (unsent_backoff hreached hnext hres rfl .refl rfl ok habandon
    (.called rfl)).2 hno⟩

/-- **A failure is forgotten**: the node failed once, and its next failure counts as the first. -/
theorem forgotten_failure : ∃ st st₁ st₂, Reached Fresh st ∧ st.step 3 3 nextCall = some st₁ ∧
    (st.sampler.next noContacts 1 3 ⟨false, true⟩ 0).2 = some (request 1 1) ∧
    st₁.step 4 4 (.abandonUnsent (request 1 1)) = some st₂ ∧
    st.sampler.failuresAfter 1 = 2 ∧ st₁.sampler.failuresAfter 1 = 2 ∧
    st₂.sampler.failuresAfter 1 = 1 ∧
    Sampler.backoff doubling 2 = 2 ∧ Sampler.backoff doubling 1 = 1 ∧
    ¬ LeavesNoTrace st st₁ st₁ st₂ (request 1 1) (request 1 1) 3 4 := by
  obtain ⟨st, st₁, st₂, hst, hreached, hres, hnext, habandon⟩ :=
    selected_and_abandoned failedOnce 3 (by decide +kernel)
  have hcount : (calls isFresh failedOnce fresh).map (fun st => (st.sampler.failuresAfter 1,
      (st.sampler.next noContacts 1 3 ⟨false, true⟩ 0).1.failuresAfter 1)) = some (2, 2) := by
    decide +kernel
  rw [hst] at hcount
  obtain ⟨htwo, htwo₁⟩ := Prod.mk.inj (Option.some.inj hcount)
  rw [← (next_waits hnext hres).2] at htwo₁
  obtain ⟨-, st₁', hcall, hst₂⟩ := step_call habandon
  have hone : st₂.sampler.failuresAfter 1 = 1 := by
    refine Sampler.failuresAfter_eq_one.2 ?_
    rw [hst₂, give_sampler hcall]
    exact Sampler.abandonUnsent_noFailures (r := request 1 1) _ rfl 4
  refine ⟨st, st₁, st₂, hreached, hnext, hres, habandon, htwo, htwo₁, hone, by decide, by decide, ?_⟩
  intro htrace
  have hsame : st₂.sampler.failuresAfter 1 = st.sampler.failuresAfter 1 := htrace.counted st₂ .refl
  omega

end SamplerRun

end BtSniffer
