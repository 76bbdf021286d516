import BtSniffer.Dht.SamplerRun

/-!
# The sampler as the dispatcher calls it

* `Called` — the sampler is one that was called as `SamplerRun` allows, and holds these requests.
* `Over` — it was stopped, and not because of the database.
* `Driven` — such a sampler holds nothing; so a session starts only when nothing is held.
-/

set_option autoImplicit false

namespace BtSniffer

open Relational

namespace Sampler

variable {s s' : Sampler} {now t current : Nat} {held held' : List Request} {r : Request}

/-! ## Calls -/

/-- The sampler is the one of an allowed run that holds these requests. -/
def Called (s : Sampler) (now : Nat) (held : List Request) : Prop :=
  ∃ st : SamplerRun, SamplerRun.Reached SamplerRun.Fresh st ∧ st.sampler = s ∧ st.held.Perm held ∧
    st.now ≤ now

theorem Called.perm (h : s.Called now held) (hp : held.Perm held') : s.Called now held' := by
  obtain ⟨st, hr, hs, hh, hn⟩ := h
  exact ⟨st, hr, hs, hh.trans hp, hn⟩

theorem Called.later (h : s.Called now held) (hle : now ≤ t) : s.Called t held := by
  obtain ⟨st, hr, hs, hh, hn⟩ := h
  exact ⟨st, hr, hs, hh, hn.trans hle⟩

/-- **One call of the sampler.** -/
theorem Called.call (h : s.Called now held) (hle : now ≤ current) {c : SamplerCall}
    (hok : ∀ st : SamplerRun, st.held.Perm held → SamplerRun.Fresh st c)
    (hcall : ∀ st : SamplerRun, st.sampler = s → st.held.Perm held →
      ∃ st', st.call now current c = some st' ∧ st'.sampler = s' ∧ st'.held.Perm held') :
    s'.Called current held' := by
  obtain ⟨st, hr, hs, hh, hn⟩ := h
  obtain ⟨st', hst', hs', hh'⟩ := hcall st hs hh
  have hstep : st.step now current c = some { st' with now := current } := by
    unfold SamplerRun.step
    rw [if_pos ⟨hn, hle⟩, hst']
    rfl
  exact ⟨_, .step hr (hok st hh) hstep, hs', hh', le_rfl⟩

/-- A request is given back. -/
theorem give_held {st : SamplerRun} (hh : st.held.Perm (r :: held)) (s' : Sampler)
    (ends : List CooldownEnd) : ∃ st', st.give r s' ends = some st' ∧ st'.sampler = s' ∧
      st'.held.Perm held := by
  refine ⟨_, if_pos (hh.mem_iff.2 List.mem_cons_self), rfl, ?_⟩
  have herase := hh.erase r
  rwa [List.erase_cons_head] at herase

theorem Called.success (h : s.Called now (r :: held)) (response : SampleResponse)
    (routing : RoutingTable) : (s.success r response routing now now).Called now held := by
  refine h.call le_rfl (c := .success r response routing) (fun _ _ => trivial) ?_
  rintro st rfl hh
  exact give_held hh _ _

theorem Called.nodes (h : s.Called now (r :: held)) (found : List DiscoveredNode)
    (routing : RoutingTable) : (s.nodes r found routing now now).Called now held := by
  refine h.call le_rfl (c := .nodes r found routing) (fun _ _ => trivial) ?_
  rintro st rfl hh
  exact give_held hh _ _

theorem Called.failure (h : s.Called now (r :: held)) (error : QueryError) :
    (s.failure r error now now).Called now held := by
  refine h.call le_rfl (c := .failure r error) (fun _ _ => trivial) ?_
  rintro st rfl hh
  obtain ⟨st', hgive, hs', hh'⟩ := give_held hh (st.sampler.failure r error now now)
    (st.sampler.failureEnds r error now ++ st.ends)
  refine ⟨{ st' with unsupported := SamplerRun.unsupportedIds r error ++ st'.unsupported }, ?_, hs',
    hh'⟩
  unfold SamplerRun.call
  simp only [hgive, Option.map_some]

theorem Called.uncertainSend (h : s.Called now (r :: held)) :
    (s.uncertainSend r now now).Called now held := by
  refine h.call le_rfl (c := .uncertainSend r) (fun _ _ => trivial) ?_
  rintro st rfl hh
  exact give_held hh _ _

theorem Called.abandonUnsent (h : s.Called now (r :: held)) :
    (s.abandonUnsent r now).Called now held := by
  refine h.call le_rfl (c := .abandonUnsent r) (fun _ _ => trivial) ?_
  rintro st rfl hh
  exact give_held hh _ _

theorem Called.cancelRequest (h : s.Called now (r :: held)) :
    (s.cancelRequest r now now).Called now held := by
  refine h.call le_rfl (c := .cancelRequest r) (fun _ _ => trivial) ?_
  rintro st rfl hh
  exact give_held hh _ _

theorem Called.stop (h : s.Called now held) : (s.stop now).Called now held := by
  refine h.call le_rfl (c := .stop) (fun _ _ => trivial) ?_
  rintro st rfl hh
  exact ⟨_, rfl, rfl, hh⟩

theorem Called.acceptPermit (h : s.Called now held) : s.acceptPermit.Called now held := by
  refine h.call le_rfl (c := .acceptPermit) (fun _ _ => trivial) ?_
  rintro st rfl hh
  exact ⟨_, rfl, rfl, hh⟩

/-- What `next` returns is held. -/
theorem Called.next (h : s.Called now held) (routing : RoutingTable) (capacity : Nat)
    (output : OutputState) (random : NodeId) :
    (s.next routing capacity now output random).1.Called now
      ((s.next routing capacity now output random).2.toList ++ held) := by
  refine h.call le_rfl (c := .next routing capacity output random) (fun _ _ => trivial) ?_
  rintro st rfl hh
  exact ⟨_, rfl, rfl, hh.append_left _⟩

theorem Called.takeReserved (h : s.Called now held) (capacity : Nat) :
    (s.takeReserved capacity now).1.Called now ((s.takeReserved capacity now).2.toList ++ held) := by
  refine h.call le_rfl (c := .takeReserved capacity) (fun _ _ => trivial) ?_
  rintro st rfl hh
  exact ⟨_, rfl, rfl, hh.append_left _⟩

/-- A request that is reserved is held again when it is returned. -/
theorem Called.reserveRequest (h : s.Called now (r :: held)) :
    (s.reserveRequest r now now).1.Called now ((s.reserveRequest r now now).2.toList ++ held) := by
  refine h.call le_rfl (c := .reserveRequest r) (fun _ _ => trivial) ?_
  rintro st rfl hh
  obtain ⟨st', hgive, hs', hh'⟩ := give_held hh (st.sampler.reserveRequest r now now).1 st.ends
  refine ⟨{ st' with held := (st.sampler.reserveRequest r now now).2.toList ++ st'.held }, ?_, hs',
    hh'.append_left _⟩
  unfold SamplerRun.call
  simp only [hgive, Option.map_some]

theorem Called.storageEvent (h : s.Called now held) {event : StorageEvent}
    (hevent : s.storageEvent event now = some s') : s'.Called now held := by
  cases event with
  | reserved result =>
    refine h.call le_rfl (c := .reserved result) (fun _ _ => trivial) ?_
    rintro st rfl hh
    obtain ⟨reservation, hres, rfl⟩ := Option.map_eq_some_iff.1 hevent
    refine ⟨{ st with
      sampler := st.sampler.reserved reservation result now
      ends := st.sampler.reservedEnds reservation result st.ends }, ?_, rfl, hh⟩
    unfold SamplerRun.call
    simp only [hres, Option.map_some]
  | settled index result =>
    refine h.call le_rfl (c := .settled index result) (fun _ _ => trivial) ?_
    rintro st rfl hh
    obtain ⟨-, heq⟩ := Option.ite_none_right_eq_some.1 hevent
    cases heq
    exact ⟨_, rfl, rfl, hh⟩

/-- A fault that is marked is the answer to a settlement that the sampler does not wait for. -/
theorem Called.markStorageFault (h : s.Called now held) (error : StorageError) :
    (s.markStorageFault error now).Called now held := by
  have hsame : s.markStorageFault error now =
      s.settled (s.durable.elim 0 (fun d => d.settling.length)) (.error error) now := by
    unfold Sampler.settled mapDurable
    cases hd : s.durable with
    | none =>
      have hs : { s with durable := none } = s := by
        rw [← hd]
      simp only [Option.map_none, hs]
    | some d =>
      have hs : { s with durable := some { d with settling := d.settling } } = s := by
        rw [show some { d with settling := d.settling } = s.durable from hd.symm]
      simp only [Option.map_some, Option.elim_some, List.eraseIdx_of_length_le (le_refl d.settling.length), hs]
  rw [hsame]
  refine h.call le_rfl
    (c := .settled (s.durable.elim 0 (fun d => d.settling.length)) (.error error))
    (fun _ _ => trivial) ?_
  rintro st rfl hh
  exact ⟨_, rfl, rfl, hh⟩

/-- A session starts when nothing is held. -/
theorem Called.start (h : s.Called now []) (config : SamplerConfig) (maxPending : Nat)
    (random : NodeId) : (s.start config maxPending now random).2.Called now [] := by
  refine h.call le_rfl (c := .start config maxPending random)
    (fun st hh => List.perm_nil.1 hh) ?_
  rintro st rfl hh
  exact ⟨_, rfl, rfl, hh⟩

/-- The identity changes when nothing is held. -/
theorem Called.rotateIdentity (h : s.Called now []) (hle : now ≤ current)
    {events : List (Nat × StorageEvent)} {bound : Except StorageError LocalIdentity} {random : NodeId}
    (hrotate : s.rotateIdentity events bound random now current = some s') :
    s'.Called current [] := by
  refine h.call hle (c := .rotateIdentity events bound random)
    (fun st hh => List.perm_nil.1 hh) ?_
  rintro st rfl hh
  refine ⟨{ st with
    sampler := s'
    ends := Sampler.flushEnds events (st.sampler.rejectReservations now) st.ends }, ?_, rfl, hh⟩
  unfold SamplerRun.call
  simp only [hrotate, Option.map_some]

/-- All that is held is cancelled. -/
theorem Called.cancelAll : ∀ (requests : List Request) {s : Sampler}, s.Called now requests →
    (requests.foldl (fun s r => s.cancelRequest r now now) s).Called now []
  | [], _, h => h
  | _ :: rest, _, h => Called.cancelAll rest h.cancelRequest

/-! ## Sessions that are over -/

/-- The sampler was stopped, and not because of the database. -/
def Over (s : Sampler) : Prop := s.session = none ∧ s.status.storageError = none

theorem over_finished (h : (s.finished r).Over) : s.Over := by
  unfold finished at h
  split at h
  · exact h
  · cases h.1

theorem over_delaySend (h : (s.delaySend now).Over) : s.Over := by
  unfold delaySend at h
  split at h
  · exact h
  · cases h.1

theorem not_over_fault {error : StorageError} : ¬ (s.markStorageFault error now).Over := by
  rintro ⟨-, herror⟩
  cases herror

theorem over_abandonUnsent (h : (s.abandonUnsent r now).Over) : s.Over := by
  have hland := over_delaySend h
  refine over_finished (r := r) ?_
  split at hland
  · split at hland
    · exact hland
    · exact hland
  · exact hland

theorem over_cancelRequest (h : (s.cancelRequest r now current).Over) : s.Over := by
  unfold cancelRequest at h
  -- the sum stays opaque, else the kernel unrolls its product
  obtain ⟨add, hadd⟩ : ∃ add, checkedAdd = add := ⟨_, rfl⟩
  rw [hadd] at h
  cases hlease : r.lease with
  | none =>
    rw [hlease] at h
    exact h
  | some lease =>
    rw [hlease] at h
    simp only at h
    cases hsum : add now ((max lease.durationMs 21600000).toNat * 1000000) with
    | none =>
      rw [hsum] at h
      exact absurd h not_over_fault
    | some until_ =>
      rw [hsum] at h
      simp only at h
      split at h
      · exact h
      · exact h

theorem over_settleRequest (h : (s.settleRequest r now current).Over) : s.Over := by
  unfold settleRequest at h
  split at h
  · split at h
    · exact absurd h not_over_fault
    · simp only at h
      split at h
      · exact h
      · exact absurd h not_over_fault
  · exact h

theorem over_addNodes {found : List DiscoveredNode} {routing : RoutingTable}
    (h : (s.addNodes found routing now).Over) : s.Over :=
  ⟨Option.map_eq_none_iff.1 h.1, h.2⟩

theorem over_success {response : SampleResponse} {routing : RoutingTable}
    (h : (s.success r response routing now current).Over) : s.Over := by
  refine over_finished (r := r) ?_
  unfold success at h
  simp only at h
  split at h
  · exact h
  · split at h
    · exact absurd h not_over_fault
    · have hsettled : (Sampler.settleRequest _ r now current).Over := over_addNodes h
      have hland := over_settleRequest hsettled
      exact hland

theorem over_nodes {found : List DiscoveredNode} {routing : RoutingTable}
    (h : (s.nodes r found routing now current).Over) : s.Over := by
  refine over_finished (r := r) ?_
  have hsettled := over_settleRequest (over_addNodes h)
  split at hsettled
  · exact hsettled
  · exact hsettled

theorem over_failure {error : QueryError} (h : (s.failure r error now current).Over) : s.Over := by
  refine over_finished (r := r) ?_
  unfold failure at h
  simp only at h
  split at h
  · exact h
  · have hsettled := over_settleRequest h
    split at hsettled
    · exact ⟨Option.map_eq_none_iff.1 hsettled.1, hsettled.2⟩
    · exact hsettled

theorem over_reserveRequest (h : (s.reserveRequest r now current).1.Over) : s.Over := by
  unfold reserveRequest at h
  split at h
  · exact h
  · split at h
    · exact h
    · split at h
      · exact h
      · simp only at h
        split at h
        · exact absurd h not_over_fault
        · split at h
          · exact h
          · exact absurd h not_over_fault

theorem over_storageEvent {event : StorageEvent} (hevent : s.storageEvent event now = some s')
    (h : s'.Over) : s.Over := by
  cases event with
  | reserved result =>
    obtain ⟨reservation, -, rfl⟩ := Option.map_eq_some_iff.1 hevent
    unfold reserved at h
    simp only at h
    split at h
    · exact absurd h not_over_fault
    · split at h
      · exact h
      · have hdropped := over_abandonUnsent h
        exact hdropped
  | settled index result =>
    obtain ⟨-, heq⟩ := Option.ite_none_right_eq_some.1 hevent
    cases heq
    unfold settled at h
    simp only at h
    split at h
    · exact absurd h not_over_fault
    · exact h

/-- A request is taken only in a session, which goes on. -/
theorem over_takeReserved {capacity : Nat} (h : (s.takeReserved capacity now).1.Over) :
    s.Over ∧ (s.takeReserved capacity now).2 = none := by
  unfold takeReserved at h ⊢
  split
  · rename_i durable session hdurable hsession
    rw [hdurable, hsession] at h
    simp only at h
    split at h
    · rename_i hwait
      rw [if_pos hwait]
      exact ⟨h, rfl⟩
    · split at h
      · cases h.1
      · cases h.1
  · exact ⟨by simpa only using h, rfl⟩

/-- `next` from the check of the output on does not end the session. -/
theorem nextRound_session {session a : SamplingSession} {output : OutputState} {random : NodeId}
    (hs : s.session = some a) : (s.nextRound session output random now).1.session ≠ none := by
  have hkept : s.session ≠ none := by
    rw [hs]
    exact Option.some_ne_none _
  unfold nextRound
  split
  · exact hkept
  · split
    · exact hkept
    · simp only
      split
      · exact Option.some_ne_none _
      · split
        · split
          · exact Option.some_ne_none _
          · exact Option.some_ne_none _
        · unfold nextSelect
          simp only
          split
          · exact Option.some_ne_none _
          · unfold nextIdle
            split
            · exact Option.some_ne_none _
            · split
              · exact Option.some_ne_none _
              · exact Option.some_ne_none _

/-- `next` never ends a session. -/
theorem nextIn_session (s : Sampler) (session : SamplingSession) (capacity : Nat)
    (output : OutputState) (random : NodeId) (now : Nat) :
    (s.nextIn session capacity output random now).1.session ≠ none := by
  unfold nextIn
  simp only
  split
  · exact Option.some_ne_none _
  · split
    · exact Option.some_ne_none _
    · exact nextRound_session rfl

/-- `next` returns a request only in a session, which goes on. -/
theorem over_next {routing : RoutingTable} {capacity : Nat} {output : OutputState} {random : NodeId}
    (h : (s.next routing capacity now output random).1.Over) :
    s.Over ∧ (s.next routing capacity now output random).2 = none := by
  unfold next at h ⊢
  simp only at h ⊢
  split
  · rename_i hbusy
    rw [if_pos hbusy] at h
    exact ⟨h, rfl⟩
  · rename_i hidle
    rw [if_neg hidle] at h
    cases hsession : s.session with
    | none =>
      simp only [hsession] at h ⊢
      exact ⟨⟨hsession, h.2⟩, trivial⟩
    | some session =>
      simp only [hsession] at h
      exact absurd h.1 (nextIn_session _ _ _ _ _ _)

/-- A session that is running, or a fault, keeps `start` out. -/
theorem start_of_not_over {config : SamplerConfig} {maxPending : Nat} {random : NodeId}
    (h : ¬ s.Over) : (s.start config maxPending now random).2 = s := by
  unfold start
  split
  · rfl
  · rename_i herror
    split
    · rfl
    · split
      · rfl
      · rename_i hsession
        exact absurd ⟨Option.not_isSome_iff_eq_none.1 hsession,
          Option.not_isSome_iff_eq_none.1 herror⟩ h

/-! ## The sampler of the dispatcher -/

/-- The sampler was called as allowed, and holds nothing once its session is over. -/
def Driven (s : Sampler) (now : Nat) (held : List Request) : Prop :=
  s.Called now held ∧ (s.Over → held = [])

theorem Driven.perm (h : s.Driven now held) (hp : held.Perm held') : s.Driven now held' :=
  ⟨h.1.perm hp, fun hover => List.nil_perm.1 (h.2 hover ▸ hp)⟩

theorem Driven.later (h : s.Driven now held) (hle : now ≤ t) : s.Driven t held :=
  ⟨h.1.later hle, h.2⟩

/-- **A request is given back**, by a call that leaves a session that is not over. -/
theorem Driven.settle (h : s.Driven now (r :: held)) (hcalled : s'.Called now held)
    (hover : s'.Over → s.Over) : s'.Driven now held :=
  ⟨hcalled, fun hs => absurd (h.2 (hover hs)) (List.cons_ne_nil _ _)⟩

theorem Driven.success (h : s.Driven now (r :: held)) (response : SampleResponse)
    (routing : RoutingTable) : (s.success r response routing now now).Driven now held :=
  h.settle (h.1.success response routing) over_success

theorem Driven.nodes (h : s.Driven now (r :: held)) (found : List DiscoveredNode)
    (routing : RoutingTable) : (s.nodes r found routing now now).Driven now held :=
  h.settle (h.1.nodes found routing) over_nodes

theorem Driven.failure (h : s.Driven now (r :: held)) (error : QueryError) :
    (s.failure r error now now).Driven now held :=
  h.settle (h.1.failure error) over_failure

theorem Driven.uncertainSend (h : s.Driven now (r :: held)) :
    (s.uncertainSend r now now).Driven now held :=
  h.settle h.1.uncertainSend (fun hover => over_finished (over_cancelRequest hover))

theorem Driven.abandonUnsent (h : s.Driven now (r :: held)) :
    (s.abandonUnsent r now).Driven now held :=
  h.settle h.1.abandonUnsent over_abandonUnsent

theorem Driven.cancelRequest (h : s.Driven now (r :: held)) :
    (s.cancelRequest r now now).Driven now held :=
  h.settle h.1.cancelRequest over_cancelRequest

theorem Driven.acceptPermit (h : s.Driven now held) : s.acceptPermit.Driven now held :=
  ⟨h.1.acceptPermit, fun hover => h.2 ⟨Option.map_eq_none_iff.1 hover.1, hover.2⟩⟩

/-- A request that is reserved is held again when it is returned. -/
theorem Driven.reserveRequest (h : s.Driven now (r :: held)) :
    (s.reserveRequest r now now).1.Driven now ((s.reserveRequest r now now).2.toList ++ held) :=
  ⟨h.1.reserveRequest,
    fun hover => absurd (h.2 (over_reserveRequest hover)) (List.cons_ne_nil _ _)⟩

theorem Driven.takeReserved (h : s.Driven now held) (capacity : Nat) :
    (s.takeReserved capacity now).1.Driven now
      ((s.takeReserved capacity now).2.toList ++ held) := by
  refine ⟨h.1.takeReserved capacity, fun hover => ?_⟩
  obtain ⟨hold, hnone⟩ := over_takeReserved hover
  rw [hnone, h.2 hold]
  rfl

/-- What `next` returns is held. -/
theorem Driven.next (h : s.Driven now held) (routing : RoutingTable) (capacity : Nat)
    (output : OutputState) (random : NodeId) :
    (s.next routing capacity now output random).1.Driven now
      ((s.next routing capacity now output random).2.toList ++ held) := by
  refine ⟨h.1.next routing capacity output random, fun hover => ?_⟩
  obtain ⟨hold, hnone⟩ := over_next hover
  rw [hnone, h.2 hold]
  rfl

theorem Driven.storageEvent (h : s.Driven now held) {event : StorageEvent}
    (hevent : s.storageEvent event now = some s') : s'.Driven now held :=
  ⟨h.1.storageEvent hevent, fun hover => h.2 (over_storageEvent hevent hover)⟩

theorem Driven.markStorageFault (h : s.Driven now held) (error : StorageError) :
    (s.markStorageFault error now).Driven now held :=
  ⟨h.1.markStorageFault error, fun hover => absurd hover not_over_fault⟩

/-- **A session starts only when nothing is held.** -/
theorem Driven.start (h : s.Driven now held) (config : SamplerConfig) (maxPending : Nat)
    (random : NodeId) : (s.start config maxPending now random).2.Driven now held := by
  by_cases hold : s.Over
  · obtain rfl := h.2 hold
    exact ⟨h.1.start config maxPending random, fun _ => rfl⟩
  · rwa [start_of_not_over hold]

/-- The identity changes when nothing is held. -/
theorem Driven.rotateIdentity (h : s.Driven now []) (hle : now ≤ current)
    {events : List (Nat × StorageEvent)} {bound : Except StorageError LocalIdentity} {random : NodeId}
    (hrotate : s.rotateIdentity events bound random now current = some s') :
    s'.Driven current [] :=
  ⟨h.1.rotateIdentity hle hrotate, fun _ => rfl⟩

/-- All that is held is cancelled. -/
theorem Driven.cancelAll : ∀ (requests : List Request) {s : Sampler}, s.Driven now requests →
    (requests.foldl (fun s r => s.cancelRequest r now now) s).Driven now []
  | [], _, h => h
  | _ :: rest, _, h => Driven.cancelAll rest h.cancelRequest

/-- **The sampler is stopped, and what it holds is cancelled.** -/
theorem Driven.stopAll (h : s.Driven now held) :
    (held.foldl (fun s r => s.cancelRequest r now now) (s.stop now)).Driven now [] :=
  ⟨Called.cancelAll held h.1.stop, fun _ => rfl⟩

end Sampler

end BtSniffer
