import BtSniffer.Dht.SamplerWakeup
import Mathlib.Logic.Relation

/-!
# Failures on record

The failures of a node are kept in the row of its Node ID, also when its cooldown is over.

* `Tidies` — a node without failures stays without, and a ready request that is given up leaves none.
  It holds of the operations on the way to an outcome; `failure` counts for its own node only.
* `Expires` — only cooldowns that are over are dropped; `next_rows` is what `next` does to them.
-/

set_option autoImplicit false

namespace BtSniffer

open Relational

namespace Sampler

variable {s s' : Sampler} {id : NodeId} {now : Nat}

/-- No failures of the node are on record. -/
def NoFailures (s : Sampler) (id : NodeId) : Prop :=
  ∀ c, s.ids.get? id = some (id, c) → c.failures = 0

/-- Then the next failure is the first one. -/
theorem failuresAfter_eq_one : s.failuresAfter id = 1 ↔ s.NoFailures id := by
  unfold failuresAfter NoFailures
  cases hget : s.ids.get? id with
  | none => simp
  | some e =>
    obtain ⟨key, c⟩ := e
    obtain rfl : key = id := (Table.get?_eq_some.1 hget).2
    simp only [Option.elim_some, Option.some.injEq, Prod.mk.injEq, true_and, forall_eq']
    omega

theorem NoFailures.of_get (h : s.NoFailures id)
    (hget : s'.ids.get? id = s.ids.get? id ∨ s'.ids.get? id = none) : s'.NoFailures id := by
  intro c hc
  rcases hget with hget | hget
  · exact h c (hget ▸ hc)
  · rw [hget] at hc
    cases hc

theorem NoFailures.of_none (h : s.ids.get? id = none) : s.NoFailures id := by
  intro c hc
  rw [h] at hc
  cases hc

/-- A node without failures stays without, and a ready request to it that is given up leaves none. -/
structure Tidies (id : NodeId) (s s' : Sampler) : Prop where
  clean : s.NoFailures id → s'.NoFailures id
  dropped : ∀ q, s.ready? = some q → q.kind = .sample → q.node.id = id →
    s'.ready? = some q ∨ s'.NoFailures id

/-- The requests of the sampler stay. -/
theorem Tidies.of_ready (hready : s'.ready? = s.ready?)
    (hclean : s.NoFailures id → s'.NoFailures id) : Tidies id s s' :=
  ⟨hclean, fun _ hq _ _ => .inl (hready.trans hq)⟩

theorem Tidies.of_durable (hdurable : s'.durable = s.durable)
    (hclean : s.NoFailures id → s'.NoFailures id) : Tidies id s s' :=
  .of_ready (by unfold ready?; rw [hdurable]) hclean

theorem Tidies.of_ids (hdurable : s'.durable = s.durable) (hids : s'.ids = s.ids) :
    Tidies id s s' :=
  .of_durable hdurable fun h => h.of_get (.inl (by rw [hids]))

theorem Tidies.of_frame (h : Frame s s') : Tidies id s s' :=
  .of_ready h.ready fun hno => hno.of_get (.inl (by rw [h.ids]))

theorem Tidies.refl (s : Sampler) : Tidies id s s := .of_ids rfl rfl

theorem Tidies.trans {s₁ s₂ s₃ : Sampler} (h : Tidies id s₁ s₂) (h' : Tidies id s₂ s₃) :
    Tidies id s₁ s₃ := by
  refine ⟨h'.clean ∘ h.clean, fun q hq hkind hid => ?_⟩
  rcases h.dropped q hq hkind hid with hready | hno
  · exact h'.dropped q hready hkind hid
  · exact .inr (h'.clean hno)

/-! ## Operations -/

theorem finished_tidies (s : Sampler) (r : Request) : Tidies id s (s.finished r) :=
  .of_ids (finished_durable s r) (finished_ids s r)

/-- A cooldown that counts no failure of the node. -/
theorem cooldown_tidies (s : Sampler) (node : DiscoveredNode) (until_ failures : Nat)
    (h : node.id = id → failures = 0) : Tidies id s (s.cooldown node until_ failures) := by
  refine .of_durable rfl fun hno c hc => ?_
  unfold cooldown at hc
  simp only [Table.get?_insert] at hc
  split at hc
  · rename_i hid
    cases hc
    exact h hid
  · exact hno c hc

theorem forget_noFailures (s : Sampler) (r : Request) : (s.forget r).NoFailures r.node.id :=
  .of_none (Table.get?_erase_self _ _)

theorem forget_tidies (s : Sampler) (r : Request) : Tidies id s (s.forget r) := by
  refine .of_durable rfl fun hno => hno.of_get ?_
  unfold forget
  simp only [Table.get?_erase]
  split
  · exact .inr rfl
  · exact .inl rfl

theorem abandonUnsent_tidies (s : Sampler) (r : Request) (t : Nat) :
    Tidies id s (s.abandonUnsent r t) := by
  unfold abandonUnsent
  refine (finished_tidies s r).trans (.trans ?_ (.of_frame (frame_delaySend _ t)))
  split
  · refine (forget_tidies _ r).trans ?_
    cases r.lease with
    | none => exact .refl _
    | some lease => exact .of_frame (frame_pushSettlement _ _)
  · exact .refl _

/-- **A sample request that is given up leaves no failures on record.** -/
theorem abandonUnsent_noFailures (s : Sampler) {r : Request} (hkind : r.kind = .sample) (t : Nat) :
    (s.abandonUnsent r t).NoFailures r.node.id := by
  unfold abandonUnsent
  simp only [hkind, if_true]
  refine (Tidies.of_frame (frame_delaySend _ t)).clean ?_
  cases r.lease with
  | none => exact forget_noFailures _ r
  | some lease => exact (Tidies.of_frame (frame_pushSettlement _ _)).clean (forget_noFailures _ r)

theorem dropReady_tidies (s : Sampler) (t : Nat) : Tidies id s (s.dropReady t) := by
  unfold dropReady
  cases hready : s.durable.bind Durable.ready with
  | none => exact .refl s
  | some r =>
    have hclear : s.NoFailures id →
        (s.mapDurable fun d => { d with ready := none }).NoFailures id := fun h => h.of_get (.inl rfl)
    refine ⟨fun h => (abandonUnsent_tidies _ r t).clean (hclear h), fun q hq hkind hid => .inr ?_⟩
    cases hready.symm.trans hq
    exact hid ▸ abandonUnsent_noFailures _ hkind t

theorem dropReady_ready (s : Sampler) (t : Nat) : (s.dropReady t).ready? = none := by
  unfold dropReady
  cases hready : s.durable.bind Durable.ready with
  | none => exact hready
  | some r => exact (abandonUnsent_ready _ r t).trans (ready?_clear s)

theorem holdInFlight_tidies (s : Sampler) (a : SamplingSession) (t : Nat) :
    Tidies id s { s.holdInFlight a t with session := none } := by
  refine .of_durable rfl fun hno c hc => ?_
  unfold holdInFlight at hc
  simp only [Table.get?_update] at hc
  obtain ⟨e, he, heq⟩ := Option.map_eq_some_iff.1 hc
  obtain ⟨key, old⟩ := e
  obtain rfl : key = id := (Table.get?_eq_some.1 he).2
  have hold := hno old he
  split at heq
  · cases heq
    exact hold
  · cases heq
    exact hold

theorem stop_tidies (s : Sampler) (t : Nat) : Tidies id s (s.stop t) := by
  unfold stop
  simp only
  refine (dropReady_tidies s t).trans ?_
  cases ha : (s.dropReady t).session with
  | none => exact .of_ids rfl rfl
  | some a => exact (holdInFlight_tidies _ a t).trans (.of_ids rfl rfl)

theorem markStorageFault_tidies (s : Sampler) (error : StorageError) (t : Nat) :
    Tidies id s (s.markStorageFault error t) :=
  (stop_tidies s t).trans (.of_ids rfl rfl)

theorem settleRequest_tidies (s : Sampler) (r : Request) (t current : Nat) :
    Tidies id s (s.settleRequest r t current) := by
  unfold settleRequest
  split
  · split
    · exact markStorageFault_tidies s _ current
    · simp only
      split
      · exact .of_frame (frame_pushSettlement _ _)
      · exact markStorageFault_tidies s _ current
  · exact .refl s

theorem cancelRequest_tidies (s : Sampler) (r : Request) (t current : Nat) :
    Tidies id s (s.cancelRequest r t current) := by
  unfold cancelRequest
  -- the sum stays opaque, else the kernel unrolls its product
  obtain ⟨add, hadd⟩ : ∃ add, checkedAdd = add := ⟨_, rfl⟩
  rw [hadd]
  cases r.lease with
  | none => exact .refl s
  | some lease =>
    simp only
    cases add t ((max lease.durationMs 21600000).toNat * 1000000) with
    | none => exact markStorageFault_tidies s _ current
    | some until_ =>
      refine (cooldown_tidies s r.node until_ 0 fun _ => rfl).trans ?_
      simp only
      split
      · exact .refl _
      · exact .of_frame (frame_pushSettlement _ _)

theorem uncertainSend_tidies (s : Sampler) (r : Request) (t current : Nat) :
    Tidies id s (s.uncertainSend r t current) :=
  (finished_tidies s r).trans (cancelRequest_tidies _ r t current)

theorem success_tidies (s : Sampler) (r : Request) (response : SampleResponse)
    (routing : RoutingTable) (t current : Nat) :
    Tidies id s (s.success r response routing t current) := by
  unfold success
  refine (finished_tidies s r).trans ?_
  simp only
  split
  · exact .refl _
  · rename_i a _
    split
    · exact markStorageFault_tidies _ _ current
    · have hcool : Tidies id (s.finished r) ((s.finished r).cooldown r.node
          (t + max response.interval a.config.minimumInterval) 0) :=
        cooldown_tidies _ r.node _ 0 fun _ => rfl
      have hsettled := hcool.trans (settleRequest_tidies _ r t current)
      exact (hsettled.trans (.of_frame (frame_addNodes _ response.nodes routing t))).trans
        (.of_ids rfl rfl)

theorem nodes_tidies (s : Sampler) (r : Request) (nodes : List DiscoveredNode)
    (routing : RoutingTable) (t current : Nat) :
    Tidies id s (s.nodes r nodes routing t current) := by
  unfold Sampler.nodes
  refine (finished_tidies s r).trans (.trans (.trans ?_ (settleRequest_tidies _ r t current))
    (.of_frame (frame_addNodes _ nodes routing t)))
  split
  · have hcount : Tidies id (s.finished r) (s.finished r).countUnsupported := .of_ids rfl rfl
    exact hcount.trans (cooldown_tidies _ r.node _ 0 fun _ => rfl)
  · exact .refl _

/-- A failure of another node. -/
theorem failure_tidies (s : Sampler) {r : Request} (error : QueryError) (t current : Nat)
    (hother : r.node.id ≠ id) : Tidies id s (s.failure r error t current) := by
  unfold failure
  refine (finished_tidies s r).trans ?_
  simp only
  split
  · exact .refl _
  · rename_i a _
    refine Tidies.trans ?_ (settleRequest_tidies _ r t current)
    split
    · have hmark : Tidies id (s.finished r) ((s.finished r).markFallback r.node.id).countUnsupported :=
        .of_ids rfl rfl
      exact hmark.trans (cooldown_tidies _ r.node _ 0 fun _ => rfl)
    · have hcount : Tidies id (s.finished r) { s.finished r with status := { (s.finished r).status with
          failed := (s.finished r).status.failed + 1 } } := .of_ids rfl rfl
      exact hcount.trans (cooldown_tidies _ r.node _ _ fun h => absurd h hother)

theorem reserveRequest_tidies (s : Sampler) (r : Request) (t current : Nat) :
    Tidies id s (s.reserveRequest r t current).1 := by
  unfold reserveRequest
  split
  · exact .refl s
  · rename_i d hd
    split
    · exact .refl s
    · split
      · exact .refl s
      · simp only
        split
        · exact markStorageFault_tidies s _ current
        · split
          · refine .of_ready ?_ fun hno => hno.of_get (.inl rfl)
            unfold ready?
            rw [hd]
            rfl
          · exact markStorageFault_tidies s _ current

/-- A request that is taken keeps its row. -/
theorem takeReserved_clean (s : Sampler) (capacity t : Nat) (h : s.NoFailures id) :
    (s.takeReserved capacity t).1.NoFailures id := by
  unfold takeReserved
  split
  · split
    · exact h
    · split
      · exact h.of_get (.inl rfl)
      · exact h.of_get (.inl rfl)
  · exact h

theorem unreserve_tidies (s : Sampler) :
    Tidies id s (s.mapDurable fun d => { d with reserving := none }) := by
  refine .of_ready ?_ fun hno => hno.of_get (.inl rfl)
  unfold ready? mapDurable
  cases s.durable <;> rfl

theorem settled_tidies (s : Sampler) (index : Nat) (result : Except StorageError Unit)
    (current : Nat) : Tidies id s (s.settled index result current) := by
  have hdone : Tidies id s (s.mapDurable fun d => { d with settling := d.settling.eraseIdx index }) :=
    .of_frame (frame_settling s fun settling => settling.eraseIdx index)
  unfold settled
  simp only
  split
  · exact hdone.trans (markStorageFault_tidies _ _ current)
  · exact hdone

theorem start_tidies (s : Sampler) (config : SamplerConfig) (maxPending t : Nat) (random : NodeId) :
    Tidies id s (s.start config maxPending t random).2 := by
  have hprune : Tidies id s { s with
      ids := s.ids.delete (fun e => decide (e.2.until_ ≤ t))
      ips := s.ips.delete (fun e => decide (e.2 ≤ t)) } := by
    refine .of_durable rfl fun hno => hno.of_get ?_
    simp only [Table.get?_delete]
    cases s.ids.get? id with
    | none => exact .inl rfl
    | some e =>
      rw [Option.filter_some]
      split
      · exact .inl rfl
      · exact .inr rfl
  unfold start
  split
  · exact .refl s
  split
  · exact .refl s
  split
  · exact .refl s
  split
  · exact .refl s
  simp only
  split
  · exact hprune
  · exact hprune.trans (.of_ids rfl rfl)

theorem reserved_clean (s : Sampler) (reservation : Reservation)
    (result : Except StorageError CooldownLease) (current : Nat) (h : s.NoFailures id) :
    (s.reserved reservation result current).NoFailures id := by
  have hdone := (unreserve_tidies s).clean h
  unfold reserved
  simp only
  split
  · exact (markStorageFault_tidies _ _ current).clean hdone
  · split
    · exact hdone.of_get (.inl rfl)
    · exact (abandonUnsent_tidies _ _ current).clean hdone

/-- A ready request that an answer of the database drops leaves no failures on record. -/
theorem reserved_dropped (s : Sampler) (reservation : Reservation)
    (result : Except StorageError CooldownLease) (current : Nat) {q : Request}
    (hq : s.ready? = some q) (hkind : q.kind = .sample)
    (hnone : (s.reserved reservation result current).ready? = none) :
    (s.reserved reservation result current).NoFailures q.node.id := by
  have hdone : (s.mapDurable fun d => { d with reserving := none }).ready? = some q := by
    rw [← hq]
    unfold ready? mapDurable
    cases s.durable <;> rfl
  unfold reserved at hnone ⊢
  simp only at hnone ⊢
  split at hnone
  · rcases (markStorageFault_tidies _ _ current).dropped q hdone hkind rfl with hsome | hno
    · cases hnone.symm.trans hsome
    · exact hno
  · split at hnone
    · obtain ⟨d, hd, -⟩ := Option.bind_eq_some_iff.1 hdone
      unfold ready? mapDurable at hnone
      unfold mapDurable at hd
      rw [hd] at hnone
      cases hnone
    · rw [abandonUnsent_ready, hdone] at hnone
      cases hnone

theorem storageEvent_clean {event : StorageEvent} {current : Nat}
    (hevent : s.storageEvent event current = some s') (h : s.NoFailures id) : s'.NoFailures id := by
  cases event with
  | reserved result =>
    obtain ⟨reservation, -, rfl⟩ := Option.map_eq_some_iff.1 hevent
    exact reserved_clean s reservation result current h
  | settled index result =>
    obtain ⟨-, heq⟩ := Option.ite_none_right_eq_some.1 hevent
    cases heq
    exact (settled_tidies s index result current).clean h

theorem flushStorage_clean : ∀ (events : List (Nat × StorageEvent)) {s s' : Sampler},
    flushStorage events s = some s' → s.NoFailures id → s'.NoFailures id
  | [], s, s', hflush, h => by
    unfold flushStorage at hflush
    split at hflush
    · cases hflush
    · cases hflush
      exact h
  | (current, event) :: rest, s, s', hflush, h => by
    obtain ⟨s₁, hevent, hrest⟩ := Option.bind_eq_some_iff.1 hflush
    exact flushStorage_clean rest hrest (storageEvent_clean hevent h)

/-- What a change of identity does after the database was flushed. -/
theorem rotateIdentity_clean {events : List (Nat × StorageEvent)}
    {bound : Except StorageError LocalIdentity} {random : NodeId} {t current : Nat} {s₁ : Sampler}
    (hflush : flushStorage events (s.rejectReservations t) = some s₁)
    (h : s.rotateIdentity events bound random t current = some s') (hno : s₁.NoFailures id) :
    s'.NoFailures id := by
  obtain ⟨result, hresult, rfl⟩ := Option.map_eq_some_iff.1 h
  obtain ⟨s₂, hflush₂, rfl⟩ := Option.map_eq_some_iff.1 hresult
  cases hflush.symm.trans hflush₂
  cases s₁.status.storageError with
  | some e => exact (markStorageFault_tidies s₁ e current).clean hno
  | none =>
    have hover : (s₁.startOver random t).NoFailures id := hno.of_get (.inl rfl)
    cases bound with
    | error e => exact (markStorageFault_tidies _ e current).clean hover
    | ok identity => exact hover.of_get (.inl rfl)

/-- A change of identity gives up the request that is ready. -/
theorem rotateIdentity_tidies {events : List (Nat × StorageEvent)}
    {bound : Except StorageError LocalIdentity} {random : NodeId} {t current : Nat}
    (h : s.rotateIdentity events bound random t current = some s') : Tidies id s s' := by
  obtain ⟨result, hresult, -⟩ := Option.map_eq_some_iff.1 h
  obtain ⟨s₁, hflush, -⟩ := Option.map_eq_some_iff.1 hresult
  have hgeneration : Tidies id s { s with generation := s.generation + 1 } := .of_ids rfl rfl
  have hreject : Tidies id s (s.rejectReservations t) :=
    hgeneration.trans (dropReady_tidies _ t)
  have hclean : (s.rejectReservations t).NoFailures id → s'.NoFailures id := fun hno =>
    rotateIdentity_clean hflush h (flushStorage_clean events hflush hno)
  refine ⟨fun hno => hclean (hreject.clean hno), fun q hq hkind hid => .inr (hclean ?_)⟩
  rcases hreject.dropped q hq hkind hid with hready | hno
  · cases (dropReady_ready _ t).symm.trans hready
  · exact hno

/-! ## What `next` does to cooldowns -/

/-- Cooldowns stay, but for some that are over. -/
structure Expires (s s' : Sampler) (now : Nat) : Prop where
  ids : ∀ j, s'.ids.get? j = s.ids.get? j ∨
    (s'.ids.get? j = none ∧ ∃ c, s.ids.get? j = some (j, c) ∧ c.until_ ≤ now)
  ips : ∀ ip, s'.ips.get? ip = s.ips.get? ip ∨
    (s'.ips.get? ip = none ∧ ∃ u, s.ips.get? ip = some (ip, u) ∧ u ≤ now)

theorem Expires.of_eq (hids : s'.ids = s.ids) (hips : s'.ips = s.ips) : Expires s s' now :=
  ⟨fun _ => .inl (by rw [hids]), fun _ => .inl (by rw [hips])⟩

theorem Expires.congr {s₁ s₂ : Sampler} (h : Expires s s₁ now) (hids : s₂.ids = s₁.ids)
    (hips : s₂.ips = s₁.ips) : Expires s s₂ now :=
  ⟨fun j => hids ▸ h.ids j, fun ip => hips ▸ h.ips ip⟩

/-- A deletion of rows, all of which are over. -/
theorem get?_delete_over {ρ κ : Type} [DecidableEq κ] {t : Table (κ × ρ) Prod.fst}
    {p : κ × ρ → Bool} {P : ρ → Prop} (hp : ∀ e, p e = true → P e.2) (k : κ) :
    (t.delete p).get? k = t.get? k ∨
      ((t.delete p).get? k = none ∧ ∃ v, t.get? k = some (k, v) ∧ P v) := by
  rw [Table.get?_delete]
  cases hget : t.get? k with
  | none => exact .inl rfl
  | some e =>
    obtain ⟨key, v⟩ := e
    obtain rfl : key = k := (Table.get?_eq_some.1 hget).2
    rw [Option.filter_some]
    split
    · exact .inl rfl
    · rename_i hover
      refine .inr ⟨rfl, v, rfl, hp (key, v) ?_⟩
      simpa using hover

theorem dropExpired_expires (s : Sampler) (a : SamplingSession) (now : Nat) :
    Expires s (s.dropExpired a now) now := by
  unfold dropExpired
  rw [Table.ite_delete, Table.ite_delete]
  refine ⟨fun j => get?_delete_over (P := fun c : Cooldown => c.until_ ≤ now) (fun e he => ?_) j,
    fun ip => get?_delete_over (P := fun u => u ≤ now) (fun e he => ?_) ip⟩
  · rw [Bool.and_eq_true, Bool.and_eq_true] at he
    exact of_decide_eq_true he.2.1
  · rw [Bool.and_eq_true, Bool.and_eq_true] at he
    exact of_decide_eq_true he.2.1

/-- What `next` does to the cooldowns: some that are over are dropped, and the node that it selects,
whose cooldowns are over, has rows from then on. -/
def Rows (s : Sampler) (now : Nat) (result : Sampler × Option Request) : Prop :=
  match result.2 with
  | none => Expires s result.1 now
  | some r => ∃ s₀, Expires s s₀ now ∧ result.1.ids = s₀.ids.insertNew (r.node.id, ⟨now, 0⟩) ∧
      result.1.ips = s₀.ips.insertNew (r.node.ip, now) ∧ (r.kind = .sample →
        (∀ c, s₀.ids.get? r.node.id = some (r.node.id, c) → c.until_ ≤ now) ∧
        ∀ u, s₀.ips.get? r.node.ip = some (r.node.ip, u) → u ≤ now)

theorem nextSelect_rows (s : Sampler) (a : SamplingSession) (random : NodeId) :
    Rows s now (s.nextSelect a random now) := by
  have hdrop := dropExpired_expires s a now
  unfold nextSelect
  simp only
  cases hc : (a.selectCandidate (s.dropExpired a now).ids (s.dropExpired a now).ips now).candidate with
  | some c =>
    refine ⟨s.dropExpired a now, hdrop, rfl, rfl, fun hkind => ?_⟩
    have hdue := (selectCandidate_spec hc).2.due
    have hsample : c.kind = .sample := hkind
    unfold SamplingSession.due at hdue
    rw [if_neg (by simp [hsample])] at hdue
    refine ⟨fun x hx => ?_, fun u hu => ?_⟩
    · have hid : (s.dropExpired a now).ids.get? c.node.id = some (c.node.id, x) := hx
      rw [hid] at hdue
      exact (le_max_left _ _).trans hdue
    · have hip : (s.dropExpired a now).ips.get? c.node.ip = some (c.node.ip, u) := hu
      rw [hip] at hdue
      exact (le_max_right _ _).trans hdue
  | none =>
    have hidle : ∀ selection, Expires s ((s.dropExpired a now).nextIdle a selection random now) now := by
      intro selection
      unfold nextIdle
      split
      · exact hdrop.congr rfl rfl
      · split
        · exact hdrop.congr rfl rfl
        · exact hdrop.congr rfl rfl
    exact hidle _

theorem nextSelect_durable (s : Sampler) (a : SamplingSession) (random : NodeId) :
    (s.nextSelect a random now).1.durable = s.durable := by
  unfold nextSelect
  simp only
  split
  · rfl
  · unfold nextIdle
    split
    · rfl
    · split
      · rfl
      · rfl

/-- The cooldowns and what the database has stay. -/
structure Stays (s s' : Sampler) : Prop where
  ids : s'.ids = s.ids
  ips : s'.ips = s.ips
  durable : s'.durable = s.durable

/-- `next` pauses, or it chooses a candidate. -/
theorem next_cases (s : Sampler) (routing : RoutingTable) (capacity : Nat) (output : OutputState)
    (random : NodeId) :
    (∃ s', s.next routing capacity now output random = (s', none) ∧ Stays s s') ∨
      ∃ s₀ a, s.next routing capacity now output random = s₀.nextSelect a random now ∧
        Stays s s₀ := by
  unfold next
  simp only
  split
  · exact .inl ⟨_, rfl, rfl, rfl, rfl⟩
  split
  · exact .inl ⟨_, rfl, rfl, rfl, rfl⟩
  unfold nextIn
  simp only
  split
  · exact .inl ⟨_, rfl, rfl, rfl, rfl⟩
  split
  · exact .inl ⟨_, rfl, rfl, rfl, rfl⟩
  unfold nextRound
  split
  · exact .inl ⟨_, rfl, rfl, rfl, rfl⟩
  split
  · exact .inl ⟨_, rfl, rfl, rfl, rfl⟩
  simp only
  split
  · exact .inl ⟨_, rfl, rfl, rfl, rfl⟩
  split
  · split
    · exact .inl ⟨_, rfl, rfl, rfl, rfl⟩
    · exact .inl ⟨_, rfl, rfl, rfl, rfl⟩
  · exact .inr ⟨_, _, rfl, rfl, rfl, rfl⟩

/-- The cooldowns are those of another state. -/
theorem Rows.of_stays {result : Sampler × Option Request} (h : Rows s' now result)
    (hs : Stays s s') : Rows s now result := by
  unfold Rows at h ⊢
  split at h
  · exact ⟨fun j => hs.ids ▸ h.ids j, fun ip => hs.ips ▸ h.ips ip⟩
  · obtain ⟨s₀, hexpires, hrest⟩ := h
    exact ⟨s₀, ⟨fun j => hs.ids ▸ hexpires.ids j, fun ip => hs.ips ▸ hexpires.ips ip⟩, hrest⟩

/-- **What `next` does to the cooldowns.** -/
theorem next_rows (s : Sampler) (routing : RoutingTable) (capacity : Nat) (output : OutputState)
    (random : NodeId) : Rows s now (s.next routing capacity now output random) := by
  rcases next_cases s routing capacity output random with ⟨s', heq, hs⟩ | ⟨s₀, a, heq, hs⟩
  · rw [heq]
    exact Expires.of_eq hs.ids hs.ips
  · rw [heq]
    exact (nextSelect_rows s₀ a random).of_stays hs

theorem next_durable (s : Sampler) (routing : RoutingTable) (capacity : Nat) (output : OutputState)
    (random : NodeId) : (s.next routing capacity now output random).1.durable = s.durable := by
  rcases next_cases s routing capacity output random with ⟨s', heq, hs⟩ | ⟨s₀, a, heq, hs⟩
  · rw [heq]
    exact hs.durable
  · rw [heq]
    exact (nextSelect_durable s₀ a random).trans hs.durable

/-- `next` counts no failure. -/
theorem next_tidies (s : Sampler) (routing : RoutingTable) (capacity t : Nat) (output : OutputState)
    (random : NodeId) : Tidies id s (s.next routing capacity t output random).1 := by
  refine .of_durable (next_durable s routing capacity output random) fun hno => ?_
  have hexpires : ∀ s₀, Expires s s₀ t → s₀.NoFailures id := by
    intro s₀ h
    rcases h.ids id with hsame | ⟨hnone, -⟩
    · exact hno.of_get (.inl hsame)
    · exact .of_none hnone
  have hrows : Rows s t (s.next routing capacity t output random) :=
    next_rows s routing capacity output random
  unfold Rows at hrows
  split at hrows
  · exact hexpires _ hrows
  · rename_i r _
    obtain ⟨s₀, h, hids, -⟩ := hrows
    intro c hc
    rw [hids, Table.get?_insertNew] at hc
    cases hold : s₀.ids.get? id with
    | some e =>
      rw [hold, Option.some_or] at hc
      exact hexpires s₀ h c (hold.trans hc)
    | none =>
      rw [hold, Option.none_or] at hc
      split at hc
      · cases hc
        rfl
      · cases hc

end Sampler

end BtSniffer
