import BtSniffer.Dht.SamplerSchedule

/-!
# Fallbacks of candidates

Only a sample request that fails with error 204 gives its candidate a fallback, and only `next` asks a
candidate.

* `Mild` — no candidate gets a fallback, and none is asked. It holds of every operation but `next`,
  `start` and `failure`; `failure_fallback` and `failure_quiet` are about the last one.
-/

set_option autoImplicit false

namespace BtSniffer

open Relational

namespace Sampler

variable {s s' : Sampler}

/-- No candidate is asked in the session, if it goes on. -/
def Quiet (s s' : Sampler) : Prop :=
  ∀ b, s'.session = some b → ∃ a, s.session = some a ∧ a.Quiet b

theorem Quiet.trans {s₁ s₂ s₃ : Sampler} (h : Quiet s₁ s₂) (h' : Quiet s₂ s₃) : Quiet s₁ s₃ := by
  intro c hc
  obtain ⟨b, hb, hquiet'⟩ := h' c hc
  obtain ⟨a, ha, hquiet⟩ := h b hb
  exact ⟨a, ha, hquiet.trans hquiet'⟩

theorem Quiet.of_some {a b : SamplingSession} (ha : s.session = some a) (hb : s'.session = some b)
    (h : a.Quiet b) : Quiet s s' := by
  intro b' hb'
  rw [hb] at hb'
  cases hb'
  exact ⟨a, ha, h⟩

/-- No candidate gets a fallback, and none is asked. -/
structure Mild (s s' : Sampler) : Prop where
  fallback : NoFallback s s'
  quiet : Quiet s s'

theorem Mild.of_session (h : s'.session = s.session) : Mild s s' :=
  ⟨.of_session h, fun b hb => ⟨b, h ▸ hb, .refl b⟩⟩

theorem Mild.refl (s : Sampler) : Mild s s := .of_session rfl

theorem Mild.trans {s₁ s₂ s₃ : Sampler} (h : Mild s₁ s₂) (h' : Mild s₂ s₃) : Mild s₁ s₃ :=
  ⟨h.fallback.trans h'.fallback, h.quiet.trans h'.quiet⟩

theorem Mild.of_none (h : s'.session = none) : Mild s s' := by
  refine ⟨.of_none h, fun b hb => ?_⟩
  rw [h] at hb
  cases hb

theorem Mild.of_some {a b : SamplingSession} (ha : s.session = some a) (hb : s'.session = some b)
    (hfallback : a.NoNewFallback b) (hquiet : a.Quiet b) : Mild s s' :=
  ⟨.of_some ha hb hfallback, .of_some ha hb hquiet⟩

/-- What is in flight and the pace change, the candidates do not. -/
theorem Mild.of_candidates {a b : SamplingSession} (ha : s.session = some a)
    (hb : s'.session = some b) (hconfig : b.config = a.config) (hqueries : b.queries = a.queries)
    (hcandidates : b.candidates = a.candidates) : Mild s s' := by
  refine .of_some ha hb (fun id c hc hkind => ⟨c, hcandidates ▸ hc, hkind⟩) ⟨hconfig, hqueries.le, ?_⟩
  intro row hrow hvisited
  rw [hcandidates] at hrow
  exact ⟨row, hrow, hvisited⟩

theorem finished_mild (s : Sampler) (r : Request) : Mild s (s.finished r) := by
  unfold Sampler.finished
  cases ha : s.session with
  | none => exact .refl s
  | some a => exact .of_candidates ha rfl rfl rfl rfl

theorem delaySend_mild (s : Sampler) (now : Nat) : Mild s (s.delaySend now) := by
  unfold delaySend
  cases ha : s.session with
  | none => exact .refl s
  | some a => exact .of_candidates ha rfl rfl rfl rfl

theorem abandonUnsent_mild (s : Sampler) (r : Request) (now : Nat) :
    Mild s (s.abandonUnsent r now) := by
  unfold abandonUnsent
  refine (finished_mild s r).trans (.trans ?_ (delaySend_mild _ now))
  split
  · cases r.lease with
    | none => exact .of_session rfl
    | some lease => exact .of_session rfl
  · exact .refl _

theorem stop_session (s : Sampler) (now : Nat) : (s.stop now).session = none := by
  unfold stop
  cases ha : (s.dropReady now).session with
  | none => simp [ha]
  | some a => simp [ha]

theorem stop_mild (s : Sampler) (now : Nat) : Mild s (s.stop now) :=
  .of_none (stop_session s now)

theorem markStorageFault_mild (s : Sampler) (error : StorageError) (now : Nat) :
    Mild s (s.markStorageFault error now) :=
  .of_none (stop_session s now)

theorem addNodes_mild (s : Sampler) (nodes : List DiscoveredNode) (routing : RoutingTable)
    (now : Nat) : Mild s (s.addNodes nodes routing now) := by
  unfold addNodes
  cases ha : s.session with
  | none => exact .of_none rfl
  | some a =>
    exact .of_some ha rfl (SamplingSession.addNodes_fallback nodes)
      (SamplingSession.addNodes_quiet nodes)

theorem settleRequest_mild (s : Sampler) (r : Request) (now current : Nat) :
    Mild s (s.settleRequest r now current) := by
  unfold settleRequest
  split
  · split
    · exact markStorageFault_mild s _ current
    · simp only
      split
      · exact .of_session rfl
      · exact markStorageFault_mild s _ current
  · exact .refl s

theorem cancelRequest_mild (s : Sampler) (r : Request) (now current : Nat) :
    Mild s (s.cancelRequest r now current) := by
  unfold cancelRequest
  -- the sum stays opaque, else the kernel unrolls its product
  obtain ⟨add, hadd⟩ : ∃ add, checkedAdd = add := ⟨_, rfl⟩
  rw [hadd]
  cases r.lease with
  | none => exact .refl s
  | some lease =>
    simp only
    cases add now ((max lease.durationMs 21600000).toNat * 1000000) with
    | none => exact markStorageFault_mild s _ current
    | some until_ =>
      simp only
      split
      · exact .of_session rfl
      · exact .of_session rfl

theorem uncertainSend_mild (s : Sampler) (r : Request) (now current : Nat) :
    Mild s (s.uncertainSend r now current) :=
  (finished_mild s r).trans (cancelRequest_mild _ r now current)

theorem success_mild (s : Sampler) (r : Request) (response : SampleResponse)
    (routing : RoutingTable) (now current : Nat) :
    Mild s (s.success r response routing now current) := by
  unfold success
  refine (finished_mild s r).trans ?_
  simp only
  split
  · exact .refl _
  · rename_i a _
    split
    · exact markStorageFault_mild _ _ current
    · have hcool : Mild (s.finished r) ((s.finished r).cooldown r.node
          (now + max response.interval a.config.minimumInterval) 0) := .of_session rfl
      have hnodes := hcool.trans ((settleRequest_mild _ r now current).trans
        (addNodes_mild _ response.nodes routing now))
      exact ⟨hnodes.fallback, hnodes.quiet⟩

theorem nodes_mild (s : Sampler) (r : Request) (nodes : List DiscoveredNode)
    (routing : RoutingTable) (now current : Nat) :
    Mild s (s.nodes r nodes routing now current) := by
  unfold Sampler.nodes
  refine (finished_mild s r).trans (.trans (.trans ?_ (settleRequest_mild _ r now current))
    (addNodes_mild _ nodes routing now))
  split
  · exact .of_session rfl
  · exact .refl _

/-- A fallback that is marked is for its candidate alone. -/
theorem markFallback_cases (s : Sampler) (id j : NodeId) (h : (s.markFallback id).HasFallback j) :
    j = id ∨ s.HasFallback j := by
  obtain ⟨b, c, hb, hc, hkind⟩ := h
  unfold markFallback at hb
  obtain ⟨a, ha, rfl⟩ := Option.map_eq_some_iff.1 hb
  simp only [Table.get?_update] at hc
  obtain ⟨row, hrow, heq⟩ := Option.map_eq_some_iff.1 hc
  have hkey : row.1 = j := (Table.get?_eq_some.1 hrow).2
  split at heq
  · rename_i hid
    exact .inl (hkey ▸ of_decide_eq_true hid)
  · cases heq
    exact .inr ⟨a, c, ha, hrow, hkind⟩

/-- **Error 204 gives the candidate of a sample request its fallback**; other failures give none. -/
theorem failure_fallback (s : Sampler) (r : Request) (error : QueryError) (now current : Nat)
    (id : NodeId) (h : (s.failure r error now current).HasFallback id) :
    s.HasFallback id ∨ (id = r.node.id ∧ r.kind = .sample ∧ error.isUnsupported = true) := by
  unfold failure at h
  simp only at h
  split at h
  · exact .inl ((finished_mild s r).fallback id h)
  · rename_i a _
    replace h := (settleRequest_mild _ r now current).fallback id h
    split at h
    · rename_i hunsupported
      have hmark : ((s.finished r).markFallback r.node.id).HasFallback id := h
      rcases markFallback_cases _ _ _ hmark with heq | hold
      · exact .inr ⟨heq, hunsupported⟩
      · exact .inl ((finished_mild s r).fallback id hold)
    · have hold : (s.finished r).HasFallback id := h
      exact .inl ((finished_mild s r).fallback id hold)

theorem markFallback_quiet (s : Sampler) (id : NodeId) : Quiet s (s.markFallback id) := by
  intro b hb
  unfold markFallback at hb
  obtain ⟨a, ha, rfl⟩ := Option.map_eq_some_iff.1 hb
  refine ⟨a, ha, ⟨rfl, le_rfl, fun row' hrow' hvisited => ?_⟩⟩
  simp only [Table.rows_update] at hrow'
  obtain ⟨row, hrow, rfl⟩ := List.mem_map.1 hrow'
  refine ⟨row, hrow, ?_⟩
  split at hvisited
  · exact hvisited
  · exact hvisited

/-- A failure asks no candidate. -/
theorem failure_quiet (s : Sampler) (r : Request) (error : QueryError) (now current : Nat) :
    Quiet s (s.failure r error now current) := by
  unfold failure
  simp only
  split
  · exact (finished_mild s r).quiet
  · rename_i a _
    refine (finished_mild s r).quiet.trans (.trans ?_ (settleRequest_mild _ r now current).quiet)
    split
    · exact markFallback_quiet _ _
    · exact (Mild.refl (s.finished r)).quiet

theorem reserveRequest_mild (s : Sampler) (r : Request) (now current : Nat) :
    Mild s (s.reserveRequest r now current).1 := by
  unfold reserveRequest
  split
  · exact .refl s
  · split
    · exact .refl s
    · split
      · exact .refl s
      · simp only
        split
        · exact markStorageFault_mild s _ current
        · split
          · exact .of_session rfl
          · exact markStorageFault_mild s _ current

theorem takeReserved_mild (s : Sampler) (capacity now : Nat) :
    Mild s (s.takeReserved capacity now).1 := by
  unfold takeReserved
  split
  · rename_i d a hd ha
    split
    · exact .refl s
    · split
      · exact .of_session rfl
      · exact .of_candidates ha rfl rfl rfl rfl
  · exact .refl s

theorem reserved_mild (s : Sampler) (reservation : Reservation)
    (result : Except StorageError CooldownLease) (now : Nat) :
    Mild s (s.reserved reservation result now) := by
  have hdone : Mild s (s.mapDurable fun d => { d with reserving := none }) := .of_session rfl
  unfold reserved
  simp only
  split
  · exact hdone.trans (markStorageFault_mild _ _ now)
  · split
    · exact .of_session rfl
    · exact hdone.trans (abandonUnsent_mild _ _ now)

theorem settled_mild (s : Sampler) (index : Nat) (result : Except StorageError Unit)
    (now : Nat) : Mild s (s.settled index result now) := by
  have hdone : Mild s (s.mapDurable fun d => { d with settling := d.settling.eraseIdx index }) :=
    .of_session rfl
  unfold settled
  simp only
  split
  · exact hdone.trans (markStorageFault_mild _ _ now)
  · exact .of_session rfl

theorem start_fallback (s : Sampler) (config : SamplerConfig) (maxPending now : Nat)
    (random : NodeId) : NoFallback s (s.start config maxPending now random).2 := by
  unfold start
  split
  · exact .refl s
  split
  · exact .refl s
  split
  · exact .refl s
  split
  · exact .refl s
  simp only
  split
  · exact .of_session rfl
  · rintro id ⟨a, c, ⟨⟩, hc, -⟩
    cases hc

end Sampler

end BtSniffer
