import BtSniffer.Dht.SamplerIdentity

/-!
# What the sampler keeps

* `Keeps` — the identity of the database stays, and so does a storage fault.
* `keeps_next`, `keeps_success`, `keeps_failure`, … — every operation but the change of identity does.
-/

set_option autoImplicit false

namespace BtSniffer

open Relational

namespace Sampler

variable {s s' s'' : Sampler} {now current : Nat} {r : Request}

/-- The identity that the sampler gives to the database. -/
def identity? (s : Sampler) : Option LocalIdentity := s.durable.map Durable.identity

/-- The identity stays, and so does a storage fault. -/
structure Keeps (s s' : Sampler) : Prop where
  identity : s'.identity? = s.identity?
  fault : s.status.storageError.isSome → s'.status.storageError.isSome

theorem Keeps.refl (s : Sampler) : s.Keeps s := ⟨rfl, id⟩

theorem Keeps.trans (h : s.Keeps s') (h' : s'.Keeps s'') : s.Keeps s'' :=
  ⟨h'.identity.trans h.identity, fun he => h'.fault (h.fault he)⟩

/-- Other parts do not matter. -/
theorem Keeps.of_eq (hdurable : s'.durable = s.durable)
    (herror : s'.status.storageError = s.status.storageError) : s.Keeps s' :=
  ⟨congrArg (Option.map Durable.identity) hdurable, fun he => herror ▸ he⟩

/-! ## Parts of operations -/

theorem keeps_mapDurable {f : Durable → Durable} (hf : ∀ d, (f d).identity = d.identity) :
    s.Keeps (s.mapDurable f) := by
  refine ⟨?_, id⟩
  unfold identity? mapDurable
  simp only [Option.map_map]
  exact congrArg (fun g => s.durable.map g) (funext hf)

theorem keeps_finished (s : Sampler) (r : Request) : s.Keeps (s.finished r) := by
  unfold finished
  split
  · exact .refl s
  · exact .of_eq rfl rfl

theorem keeps_delaySend (s : Sampler) (now : Nat) : s.Keeps (s.delaySend now) := by
  unfold delaySend
  split
  · exact .refl s
  · exact .of_eq rfl rfl

theorem keeps_pushSettlement (s : Sampler) (settlement : Settlement) :
    s.Keeps (s.pushSettlement settlement) :=
  keeps_mapDurable (fun _ => rfl)

theorem keeps_abandonUnsent (s : Sampler) (r : Request) (now : Nat) :
    s.Keeps (s.abandonUnsent r now) := by
  unfold abandonUnsent
  refine (keeps_finished s r).trans (.trans ?_ (keeps_delaySend _ now))
  split
  · have hforget : (s.finished r).Keeps ((s.finished r).forget r) := .of_eq rfl rfl
    simp only
    split
    · exact hforget.trans (keeps_pushSettlement _ _)
    · exact hforget
  · exact .refl _

theorem keeps_dropReady (s : Sampler) (now : Nat) : s.Keeps (s.dropReady now) := by
  unfold dropReady
  split
  · exact .refl s
  · exact .trans (keeps_mapDurable (f := fun d => { d with ready := none }) fun _ => rfl)
      (keeps_abandonUnsent _ _ now)

theorem keeps_stop (s : Sampler) (now : Nat) : s.Keeps (s.stop now) := by
  unfold stop
  refine (keeps_dropReady s now).trans ?_
  simp only
  split
  · exact .of_eq rfl rfl
  · exact .of_eq rfl rfl

theorem keeps_markStorageFault (s : Sampler) (error : StorageError) (current : Nat) :
    s.Keeps (s.markStorageFault error current) :=
  ⟨(keeps_stop s current).identity, fun _ => rfl⟩

theorem keeps_settleRequest (s : Sampler) (r : Request) (now current : Nat) :
    s.Keeps (s.settleRequest r now current) := by
  unfold settleRequest
  split
  · split
    · exact keeps_markStorageFault s _ current
    · simp only
      split
      · exact keeps_pushSettlement s _
      · exact keeps_markStorageFault s _ current
  · exact .refl s

theorem keeps_addNodes (s : Sampler) (found : List DiscoveredNode) (routing : RoutingTable)
    (now : Nat) : s.Keeps (s.addNodes found routing now) := .of_eq rfl rfl

/-! ## Operations -/

theorem keeps_cancelRequest (s : Sampler) (r : Request) (now current : Nat) :
    s.Keeps (s.cancelRequest r now current) := by
  unfold cancelRequest
  -- the sum stays opaque, else the kernel unrolls its product
  obtain ⟨add, hadd⟩ : ∃ add, checkedAdd = add := ⟨_, rfl⟩
  rw [hadd]
  cases r.lease with
  | none => exact .refl s
  | some lease =>
    simp only
    cases add now ((max lease.durationMs 21600000).toNat * 1000000) with
    | none => exact keeps_markStorageFault s _ current
    | some until_ =>
      have hcooldown : s.Keeps (s.cooldown r.node until_ 0) := .of_eq rfl rfl
      simp only
      split
      · exact hcooldown
      · exact hcooldown.trans (keeps_pushSettlement _ _)

theorem keeps_uncertainSend (s : Sampler) (r : Request) (now current : Nat) :
    s.Keeps (s.uncertainSend r now current) :=
  (keeps_finished s r).trans (keeps_cancelRequest _ r now current)

theorem keeps_success (s : Sampler) (r : Request) (response : SampleResponse)
    (routing : RoutingTable) (now current : Nat) :
    s.Keeps (s.success r response routing now current) := by
  refine (keeps_finished s r).trans ?_
  unfold success
  simp only
  split
  · exact .refl _
  · split
    · exact keeps_markStorageFault _ _ current
    · rename_i session _ _ _
      have hcooldown : (s.finished r).Keeps ((s.finished r).cooldown r.node
          (now + max response.interval session.config.minimumInterval) 0) := .of_eq rfl rfl
      exact hcooldown.trans ((keeps_settleRequest _ r now current).trans
        ((keeps_addNodes _ response.nodes routing now).trans (.of_eq rfl rfl)))

theorem keeps_nodes (s : Sampler) (r : Request) (found : List DiscoveredNode) (routing : RoutingTable)
    (now current : Nat) : s.Keeps (s.nodes r found routing now current) := by
  refine (keeps_finished s r).trans (.trans ?_ ((keeps_settleRequest _ r now current).trans
    (keeps_addNodes _ found routing now)))
  split
  · exact .of_eq rfl rfl
  · exact .refl _

theorem keeps_failure (s : Sampler) (r : Request) (error : QueryError) (now current : Nat) :
    s.Keeps (s.failure r error now current) := by
  refine (keeps_finished s r).trans ?_
  unfold failure
  simp only
  split
  · exact .refl _
  · refine .trans ?_ (keeps_settleRequest _ r now current)
    split
    · exact .of_eq rfl rfl
    · exact .of_eq rfl rfl

theorem keeps_reserveRequest (s : Sampler) (r : Request) (now current : Nat) :
    s.Keeps (s.reserveRequest r now current).1 := by
  unfold reserveRequest
  split
  · exact .refl s
  · rename_i durable hdurable
    split
    · exact .refl s
    · split
      · exact .refl s
      · simp only
        split
        · exact keeps_markStorageFault s _ current
        · split
          · refine ⟨?_, id⟩
            unfold identity?
            rw [hdurable]
            rfl
          · exact keeps_markStorageFault s _ current

theorem keeps_takeReserved (s : Sampler) (capacity now : Nat) :
    s.Keeps (s.takeReserved capacity now).1 := by
  unfold takeReserved
  split
  · rename_i durable session hdurable hsession
    split
    · exact .refl s
    · split
      · exact .of_eq rfl rfl
      · refine ⟨?_, id⟩
        unfold identity?
        rw [hdurable]
        rfl
  · exact .refl s

theorem keeps_nextIn (s : Sampler) (session : SamplingSession) (capacity : Nat) (output : OutputState)
    (random : NodeId) (now : Nat) : s.Keeps (s.nextIn session capacity output random now).1 := by
  unfold nextIn
  simp only
  split
  · exact .of_eq rfl rfl
  · split
    · exact .of_eq rfl rfl
    · unfold nextRound
      split
      · exact .of_eq rfl rfl
      · split
        · exact .of_eq rfl rfl
        · simp only
          split
          · exact .of_eq rfl rfl
          · split
            · split
              · exact .of_eq rfl rfl
              · exact .of_eq rfl rfl
            · unfold nextSelect
              simp only
              split
              · exact .of_eq rfl rfl
              · unfold nextIdle
                split
                · exact .of_eq rfl rfl
                · split
                  · exact .of_eq rfl rfl
                  · exact .of_eq rfl rfl

theorem keeps_next (s : Sampler) (routing : RoutingTable) (capacity now : Nat) (output : OutputState)
    (random : NodeId) : s.Keeps (s.next routing capacity now output random).1 := by
  unfold next
  simp only
  split
  · exact .of_eq rfl rfl
  · split
    · exact .of_eq rfl rfl
    · have hclear : s.Keeps { s with deadline := none } := .of_eq rfl rfl
      exact hclear.trans (keeps_nextIn _ _ capacity output random now)

theorem keeps_start (s : Sampler) (config : SamplerConfig) (maxPending now : Nat) (random : NodeId) :
    s.Keeps (s.start config maxPending now random).2 := by
  unfold start
  split
  · exact .refl s
  · rename_i herror
    split
    · exact .refl s
    · split
      · exact .refl s
      · split
        · exact .refl s
        · simp only
          split
          · exact .of_eq rfl rfl
          · exact ⟨rfl, fun he => absurd he herror⟩

theorem keeps_acceptPermit (s : Sampler) : s.Keeps s.acceptPermit := .of_eq rfl rfl

theorem keeps_storageEvent {event : StorageEvent} (h : s.storageEvent event current = some s') :
    s.Keeps s' := by
  cases event with
  | reserved result =>
    obtain ⟨reservation, -, rfl⟩ := Option.map_eq_some_iff.1 h
    unfold reserved
    refine .trans (keeps_mapDurable (f := fun d => { d with reserving := none }) fun _ => rfl) ?_
    simp only
    split
    · exact keeps_markStorageFault _ _ current
    · split
      · exact keeps_mapDurable fun _ => rfl
      · exact keeps_abandonUnsent _ _ current
  | settled index result =>
    obtain ⟨-, heq⟩ := Option.ite_none_right_eq_some.1 h
    cases heq
    unfold settled
    refine .trans (keeps_mapDurable
      (f := fun d => { d with settling := d.settling.eraseIdx index }) fun _ => rfl) ?_
    simp only
    split
    · exact keeps_markStorageFault _ _ current
    · exact .refl _

/-! ## A change of identity -/

theorem keeps_flushStorage : ∀ (events : List (Nat × StorageEvent)) {s s' : Sampler},
    flushStorage events s = some s' → s.Keeps s'
  | [], s, s', h => by
    unfold flushStorage at h
    split at h
    · cases h
    · cases h
      exact .refl s
  | (current, event) :: rest, s, s', h => by
    obtain ⟨s₁, hevent, hrest⟩ := Option.bind_eq_some_iff.1 h
    exact (keeps_storageEvent hevent).trans (keeps_flushStorage rest hrest)

/-- The database is flushed for the old identity; a fault ends the change. -/
theorem keeps_prepareIdentityChange {events : List (Nat × StorageEvent)} {random : NodeId}
    {result : Except StorageError Unit}
    (h : s.prepareIdentityChange events random now = some (result, s')) :
    s.Keeps s' ∧ (result = .ok () → s'.status.storageError = none) := by
  obtain ⟨s₁, hflush, heq⟩ := Option.map_eq_some_iff.1 h
  have hreject : s.Keeps (s.rejectReservations now) := by
    have hcounted : s.Keeps { s with generation := s.generation + 1 } := .of_eq rfl rfl
    exact hcounted.trans (keeps_dropReady _ now)
  have hkeeps := hreject.trans (keeps_flushStorage events hflush)
  split at heq
  · cases heq
    refine ⟨hkeeps, fun hok => ?_⟩
    cases hok
  · rename_i hnone
    cases heq
    exact ⟨hkeeps.trans (.of_eq rfl rfl), fun _ => hnone⟩

/-- The database gets the new identity. -/
theorem identityChanged_identity? (s : Sampler) (identity : LocalIdentity) :
    (s.identityChanged identity).identity? = s.identity?.map (fun _ => identity) := by
  unfold identityChanged identity? mapDurable
  cases s.durable <;> rfl

/-- Operations in a row. -/
theorem keeps_foldl {α : Type} {f : Sampler → α → Sampler} (hf : ∀ (s : Sampler) (x : α), s.Keeps (f s x)) :
    ∀ (l : List α) (s : Sampler), s.Keeps (l.foldl f s)
  | [], s => .refl s
  | x :: rest, s => (hf s x).trans (keeps_foldl hf rest (f s x))

end Sampler

end BtSniffer
