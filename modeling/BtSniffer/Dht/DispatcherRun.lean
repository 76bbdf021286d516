import BtSniffer.Dht.DispatcherIdentity

/-!
# Runs of the dispatcher

A run takes steps at times that do not decrease. It remembers the callers of all commands.

* `Starts` — the dispatcher that `with_budget` makes, with or without storage.
* `Allowed` — the counter of the transactions does not come round to an id while it expires.
* `Follows` — how a run goes on from one of its states.
* `reached_open` — the books and the accounts in every state of a run.
* `dispatcher_transactions`, `dispatcher_ledgers`, `dispatcher_lookup`, `dispatcher_callers`,
  `dispatcher_sampler`, `dispatcher_sampling` — what they say.
-/

set_option autoImplicit false

namespace BtSniffer

open Relational

namespace Dispatcher

variable {d : Dispatcher} {now : Nat}

/-! ## Starting -/

/-- The dispatcher that `with_budget` makes for a new routing table, with or without storage; the
address that was cached and the pause after its last change may be restored before. -/
inductive Starts (now : Nat) : Dispatcher → Prop
  | created {localId : NodeId} {family : AddressFamily} {timeout maxPending : Nat}
      {config : DispatcherConfig} {clock : Clock} {answers : Nat → Answer} {d : Dispatcher}
      (hmax : maxPending < 2 ^ 32)
      (h : withBudget (.new localId family now) (.new timeout maxPending) config clock answers now =
        .ok d) : Starts now d
  | attached {d d' : Dispatcher} {security : AddressConsensus} {clock : Clock}
      {identity : LocalIdentity} {contacts : List Recovery.SavedContact}
      {cooldowns : List RestoredCooldown} {policy : AddressPolicy} (hstart : Starts now d)
      (h : { d with security := security }.attachStorage clock identity contacts cooldowns policy now =
        .ok d') : Starts now d'

/-- A sampler without a session, as `attach_storage` finds and leaves it. -/
def IdleSampler (s : Sampler) : Prop :=
  s.session = none ∧ s.ready? = none ∧ s.reserving? = none

/-- What every turn of a loop keeps, the loop keeps. -/
theorem foldlM_keeps {σ α ε β : Type} {f : σ → α → Except ε σ} {g : σ → β}
    (hf : ∀ s x s', f s x = .ok s' → g s' = g s) : ∀ (l : List α) {s s' : σ},
    l.foldlM f s = .ok s' → g s' = g s
  | [], _, _, h => by
    cases h
    rfl
  | x :: rest, s, s', h => by
    rw [List.foldlM_cons] at h
    cases hx : f s x with
    | error e =>
      rw [hx] at h
      cases h
    | ok s₁ =>
      rw [hx] at h
      exact (foldlM_keeps hf rest h).trans (hf s x s₁ hx)

/-- A computation that succeeds, step by step. -/
theorem bind_ok {ε α β : Type} {x : Except ε α} {f : α → Except ε β} {b : β}
    (h : x >>= f = .ok b) : ∃ a, x = .ok a ∧ f a = .ok b := by
  cases x with
  | error e => cases h
  | ok a => exact ⟨a, rfl, h⟩

theorem map_ok {ε α β : Type} {x : Except ε α} {f : α → β} {b : β} (h : x.map f = .ok b) :
    ∃ a, x = .ok a ∧ f a = b := by
  cases x with
  | error e => cases h
  | ok a => exact ⟨a, rfl, Except.ok.inj h⟩

theorem attachStorage_idle {s s' : Sampler} {clock : Clock} {identity : LocalIdentity}
    {cooldowns : List RestoredCooldown}
    (h : s.attachStorage clock identity cooldowns now = .ok s') :
    IdleSampler s' ∧ s'.durable.map Durable.identity = some identity := by
  unfold Sampler.attachStorage at h
  -- The sum of the times is opaque, or the kernel would compute it.
  obtain ⟨add, hadd⟩ : ∃ add, checkedAdd now = add := ⟨_, rfl⟩
  rw [hadd] at h
  split at h
  · cases h
  · rename_i hfree
    have hsession : s.session = none := by
      simpa using (not_or.1 hfree).1
    obtain ⟨s₁, hfold, heq⟩ := bind_ok h
    cases heq
    refine ⟨⟨?_, rfl, rfl⟩, rfl⟩
    refine (foldlM_keeps (g := Sampler.session) (fun s x s' hx => ?_) cooldowns hfold).trans hsession
    cases x with
    | id node remaining failures =>
      simp only at hx
      split at hx
      · cases hx
      · split at hx
        · cases hx
        · cases hx
          rfl
    | ip ip remaining =>
      simp only at hx
      split at hx
      · cases hx
      · split at hx
        · cases hx
        · cases hx
          rfl

/-- The contacts that are kept are one for each node. -/
theorem keptContacts_nodup (identity : Recovery.LocalIdentity) (policy : AddressPolicy) :
    ∀ (contacts : List Recovery.SavedContact) (seen : List NodeId),
      ((Recovery.keptContacts identity policy contacts seen).map Recovery.SavedContact.id).Nodup ∧
        ∀ c ∈ Recovery.keptContacts identity policy contacts seen, c.id ∉ seen
  | [], _ => ⟨List.nodup_nil, fun _ hc => absurd hc List.not_mem_nil⟩
  | c :: rest, seen => by
    unfold Recovery.keptContacts
    split
    · rename_i hkept
      obtain ⟨hnodup, hseen⟩ := keptContacts_nodup identity policy rest (c.id :: seen)
      refine ⟨List.nodup_cons.2 ⟨?_, hnodup⟩, ?_⟩
      · intro hmem
        obtain ⟨x, hx, hid⟩ := List.mem_map.1 hmem
        exact hseen x hx (hid ▸ List.mem_cons_self)
      · intro x hx
        rcases List.mem_cons.1 hx with rfl | hx
        · exact hkept.2.2.2
        · exact fun hin => hseen x hx (List.mem_cons_of_mem _ hin)
    · exact keptContacts_nodup identity policy rest seen

/-- A dispatcher that has done nothing yet. -/
structure Blank (d : Dispatcher) : Prop where
  queued : d.queued = []
  pending : d.pending = .empty
  transactions : d.transactions.pending = .empty
  small : d.transactions.maxPending < 2 ^ 32
  verifications : d.verifications = .empty
  probes : d.bucketProbes = .empty
  active : d.recovery.active = .empty
  waiting : (d.recovery.queued.map Recovery.SavedContact.id).Nodup
  lookup : d.maintenance.lookup = none
  sampler : IdleSampler d.sampler
  journal : d.journal = ⟨[], [], []⟩
  routing : d.routing.Shape
  paused : d.identityPaused = false
  external : d.pendingExternalIp = none

theorem Starts.blank (h : Starts now d) : d.Blank := by
  induction h with
  | created hmax h =>
    unfold withBudget at h
    split at h
    · cases h
    · cases h
      exact ⟨rfl, rfl, rfl, hmax, rfl, rfl, rfl, List.nodup_nil, rfl, ⟨rfl, rfl, rfl⟩, rfl,
        RoutingTable.new_shape _ _ _, rfl, rfl⟩
  | attached _ h ih =>
    unfold attachStorage at h
    split at h
    · cases h
    · obtain ⟨s, hs, rfl⟩ := map_ok h
      exact { ih with
        waiting := (keptContacts_nodup _ _ _ _).1
        sampler := (attachStorage_idle hs).1 }

/-- Nothing is open at the start. -/
theorem Blank.open (h : d.Blank) : d.Open [] now [] [] 0 0 := by
  obtain ⟨hqueued, hpending, htransactions, hsmall, hv, hb, hactive, hwaiting, hlookup, hsampler,
    hjournal, hrouting, -, -⟩ := h
  have houtstanding : d.outstanding ++ [] = [] := by
    unfold outstanding
    rw [hqueued, hpending]
    rfl
  refine ⟨⟨?_, fun _ hid => absurd hid List.not_mem_nil, hsmall, ?_⟩, ?_⟩
  · unfold Dispatcher.ids registered
    rw [hpending, htransactions]
    exact .refl _
  · unfold occupied TransactionManager.len
    rw [hqueued, htransactions]
    exact Nat.zero_le _
  · rw [houtstanding]
    refine ⟨?_, ?_, fun _ => ?_, ⟨hwaiting, fun _ _ => ?_⟩, (MaintenanceState.waits_none hlookup).2 rfl,
      ⟨⟨⟨d.sampler, now, [], [], [], []⟩, .initial ?_, rfl, .refl _, le_rfl⟩, fun _ => rfl⟩, ?_, hrouting⟩
    · rw [hv]
      exact .refl _
    · rw [hb]
      exact .refl _
    · rw [hactive]
      exact .refl _
    · rw [hactive]
      rfl
    · exact ⟨hsampler.1, hsampler.2.1, hsampler.2.2, rfl, rfl, rfl, rfl⟩
    · rw [hjournal]
      exact .refl _

/-! ## Steps -/

/-- The caller that a command brings. -/
def Act.caller? : Act → Option Caller
  | .getPeers caller .. => some caller
  | .bootstrapPing caller _ => some caller
  | _ => none

/-- The time at which a step that begins at `t` ends. -/
def Act.ends (t : Nat) : Act → Nat
  | .rotate _ _ _ current => current
  | _ => t

/-- The step that ends transactions. -/
def Act.expires : Act → Bool
  | .expire => true
  | _ => false

/-- While transactions expire, the counter does not come round to one of their ids. -/
def Act.Allowed (d : Dispatcher) (t : Nat) (a : Act) : Prop :=
  a.expires = true → Unspent d.transactions t

instance (d : Dispatcher) (t : Nat) (a : Act) : Decidable (a.Allowed d t) :=
  inferInstanceAs (Decidable (_ → _))

/-- **One step keeps the books and the accounts.** -/
theorem Open.act {asked : List Caller} {t : Nat} {a : Act} {d' : Dispatcher}
    (h : d.Open asked t [] [] 0 0) (ok : a.Allowed d t) (hle : t ≤ a.ends t)
    (hact : d.act t a = some d') : d'.Open (a.caller?.toList ++ asked) (a.ends t) [] [] 0 0 := by
  cases a with
  | getPeers caller remote hash gone =>
    cases hact
    exact h.getPeers caller remote hash gone
  | bootstrapPing caller remote =>
    cases hact
    exact h.bootstrapPing caller remote
  | startSampling config random =>
    cases hact
    exact h.startSampling config random
  | stopSampling =>
    cases hact
    exact h.stopSampler
  | storagePause error =>
    cases hact
    exact h.storagePause error
  | samplingPause paused =>
    cases hact
    exact h.samplingPause paused
  | cancelFetches gone =>
    cases hact
    exact h.cancelFetchQueries gone
  | query id address readOnly =>
    cases hact
    exact h.observeQuery id address readOnly
  | response received =>
    cases hact
    exact h.handleResponse received
  | error received =>
    cases hact
    exact h.handleError received
  | expire =>
    cases hact
    exact h.expireTransactions (ok rfl)
  | storageEvent event =>
    obtain ⟨s, hs, rfl⟩ := Option.map_eq_some_iff.1 hact
    exact h.drive (fun hd => hd.storageEvent hs)
  | acceptPermit =>
    cases hact
    exact h.drive (fun hd => hd.acceptPermit)
  | rotate events bound random current => exact h.rotateIdentity hle hact
  | outbound =>
    cases hact
    exact h.advanceOutbound
  | maintenance =>
    cases hact
    exact h.advanceMaintenance
  | recovery =>
    cases hact
    exact h.advanceRecovery
  | sampler =>
    cases hact
    exact h.advanceSampler

end Dispatcher

/-! ## Runs -/

/-- The state of a run: the dispatcher, the time, and the callers of all commands. -/
structure DispatcherRun where
  dispatcher : Dispatcher
  now : Nat
  asked : List Caller

namespace DispatcherRun

open Dispatcher (Act Starts)

/-- One step of a run. -/
def step (st : DispatcherRun) (t : Nat) (a : Act) : Option DispatcherRun :=
  if st.now ≤ t ∧ t ≤ a.ends t then
    (st.dispatcher.act t a).map (fun d => ⟨d, a.ends t, a.caller?.toList ++ st.asked⟩)
  else none

/-- The states of a run. -/
inductive Reached : DispatcherRun → Prop
  | initial {d : Dispatcher} {now : Nat} (h : Starts now d) : Reached ⟨d, now, []⟩
  | step {st st' : DispatcherRun} {t : Nat} {a : Act} (h : Reached st)
      (ok : a.Allowed st.dispatcher t) (hstep : st.step t a = some st') : Reached st'

/-- The states that a run goes on to. -/
inductive Follows (st : DispatcherRun) : DispatcherRun → Prop
  | refl : Follows st st
  | step {st₁ st₂ : DispatcherRun} {t : Nat} {a : Act} (h : Follows st st₁)
      (ok : a.Allowed st₁.dispatcher t) (hstep : st₁.step t a = some st₂) : Follows st st₂

variable {st st' : DispatcherRun} {t : Nat} {a : Act}

theorem Follows.reached (h : Follows st st') (hst : Reached st) : Reached st' := by
  induction h with
  | refl => exact hst
  | step _ ok hstep ih => exact ih.step ok hstep

/-- What a step does. -/
theorem step_cases (h : st.step t a = some st') : st.now ≤ t ∧ t ≤ a.ends t ∧
    st.dispatcher.act t a = some st'.dispatcher ∧ st'.now = a.ends t ∧
    st'.asked = a.caller?.toList ++ st.asked := by
  obtain ⟨⟨hnow, hends⟩, hmap⟩ := Option.ite_none_right_eq_some.1 h
  obtain ⟨d, hd, rfl⟩ := Option.map_eq_some_iff.1 hmap
  exact ⟨hnow, hends, hd, rfl, rfl⟩

/-- **The books and the accounts are kept in every run.** -/
theorem reached_open (h : Reached st) : st.dispatcher.Open st.asked st.now [] [] 0 0 := by
  induction h with
  | initial h => exact h.blank.open
  | step _ ok hstep ih =>
    obtain ⟨hnow, hends, hact, heq, hasked⟩ := step_cases hstep
    rw [heq, hasked]
    exact (ih.later hnow).act ok hends hact

/-! ## Runs that are computed -/

/-- Steps at given times, as far as they are allowed. -/
def calls : List (Nat × Act) → DispatcherRun → Option DispatcherRun
  | [], st => some st
  | (t, a) :: rest, st =>
    if a.Allowed st.dispatcher t then (st.step t a).bind (calls rest) else none

theorem follows_calls : ∀ (steps : List (Nat × Act)) {st₀ st st' : DispatcherRun}, Follows st₀ st →
    calls steps st = some st' → Follows st₀ st'
  | [], _, _, _, h, hcalls => by
    cases hcalls
    exact h
  | (t, a) :: rest, _, st, st', h, hcalls => by
    obtain ⟨ok, hbind⟩ := Option.ite_none_right_eq_some.1 hcalls
    obtain ⟨st₁, hstep, hrest⟩ := Option.bind_eq_some_iff.1 hbind
    exact follows_calls rest (.step h ok hstep) hrest

/-- The dispatcher of node 0 with eight transactions, two of them for the user. -/
def small (answers : Nat → Answer) : Option DispatcherRun :=
  match Dispatcher.withBudget (.new 0 .ipv4 0) (.new 5000000000 8)
    ⟨none, .localUnicast, ⟨⟨3, 8, 16⟩, true, 900000000000, 1000000000, 60000000000, 1000000000, 2⟩⟩
    ⟨0, 0⟩ answers 0 with
  | .ok d => some ⟨d, 0, []⟩
  | .error _ => none

theorem small_starts {answers : Nat → Answer} {st : DispatcherRun} (h : small answers = some st) :
    ∃ d, Starts 0 d ∧ st = ⟨d, 0, []⟩ := by
  unfold small at h
  split at h
  · rename_i d hd
    exact ⟨d, .created (by decide) hd, (Option.some.inj h).symm⟩
  · cases h

theorem reached_small {answers : Nat → Answer} {steps : List (Nat × Act)} {st : DispatcherRun}
    (h : (small answers).bind (calls steps) = some st) : Reached st := by
  obtain ⟨st₀, hsmall, hcalls⟩ := Option.bind_eq_some_iff.1 h
  obtain ⟨d, hd, rfl⟩ := small_starts hsmall
  exact (follows_calls steps .refl hcalls).reached (.initial hd)

/-- The environment agrees with everything at once. -/
def ready : Answer := ⟨false, false, 0, true, none, ⟨false, true⟩, 0⟩

/-- The address of node `n`. -/
def host (n : Nat) : SocketAddr := .v4 (0x0a000000 + n) 6881

/-- A response of node `n` to the transaction `id`. -/
def answerOf (id : TransactionId) (n : Nat) : Dispatcher.Received :=
  ⟨host n, ⟨id.toByteBuf, .response, none, none,
    some ⟨BitVec.ofNat 160 n, none, none, none, none, none, none, none⟩, none, none, none⟩, 100⟩

/-- Node 1 answers a ping; a lookup, a verification, a fetch and the sampler start. -/
def busyScript : List (Nat × Act) :=
  [(0, .bootstrapPing 7 ⟨host 1, none⟩), (1, .response (answerOf 0 1)), (2, .maintenance),
    (2, .query 2 (host 2) false), (2, .getPeers 8 ⟨host 3, none⟩ 5 false),
    (3, .startSampling ⟨1, 1, 2, 1, 1, 1, 1, 1, 1, 1, .localUnicast⟩ 0), (4, .sampler)]

/-- A run with a lookup, a verification, a fetch and a request of the sampler. -/
theorem exists_busy : ∃ st, Reached st ∧ st.dispatcher.outstanding.map Purpose.cls =
    [.control, .verification, .collector, .sampling] ∧ st.asked = [8, 7] := by
  have hrun : (((small (fun _ => ready)).bind (calls busyScript)).any (fun st =>
      decide (st.dispatcher.outstanding.map Purpose.cls =
        [.control, .verification, .collector, .sampling] ∧ st.asked = [8, 7]))) = true := by
    decide +kernel
  obtain ⟨st, hst, hany⟩ := (Option.any_eq_true _ _).1 hrun
  exact ⟨st, reached_small hst, of_decide_eq_true hany⟩

/-! ## What the books say -/

/-- **Every key of a verification, of a bucket probe or of a recovery belongs to an open query of its
own**, in every run: none is left behind, and none is used twice. -/
theorem dispatcher_ledgers (h : Reached st) :
    st.dispatcher.verifications.rows.Perm
      (st.dispatcher.outstanding.filterMap Purpose.verification?) ∧
    st.dispatcher.bucketProbes.rows.Perm (st.dispatcher.outstanding.filterMap Purpose.probe?) ∧
    (st.dispatcher.identityPaused = false →
      (st.dispatcher.recovery.active.rows.map Recovery.SavedContact.id).Perm
        (st.dispatcher.outstanding.filterMap Purpose.recovery?)) := by
  have ha := (reached_open h).accounts
  rw [List.append_nil] at ha
  obtain ⟨hv, hb, hr, -⟩ := ha
  unfold Table.Records at hv hb hr
  rw [List.map_id] at hv hb
  exact ⟨hv, hb, hr⟩

theorem dispatcher_ledgers_busy : ∃ st, Reached st ∧
    .verification ∈ st.dispatcher.outstanding.map Purpose.cls ∧
    st.dispatcher.verifications.rows.Perm
      (st.dispatcher.outstanding.filterMap Purpose.verification?) := by
  obtain ⟨st, hreached, hcls, -⟩ := exists_busy
  exact ⟨st, hreached, by simp [hcls], (dispatcher_ledgers hreached).1⟩

/-- **The lookup waits for the nodes that are asked and for no other**, in every run; it is given up
only when none is. -/
theorem dispatcher_lookup (h : Reached st) :
    let asked := st.dispatcher.outstanding.filterMap Purpose.lookup?
    match st.dispatcher.maintenance.lookup with
    | none => asked = []
    | some lookup => asked.Nodup ∧ lookup.inFlight = asked.length ∧
        (∀ id, lookup.stateOf id = some .inFlight ↔ id ∈ asked) ∧
        asked.length ≤ st.dispatcher.maintenance.config.lookupParallelism ∧
        lookup.queriesStarted ≤ st.dispatcher.maintenance.config.maxQueries := by
  have hw := (reached_open h).accounts.lookup
  rw [List.append_nil] at hw
  simp only
  unfold MaintenanceState.Waits at hw
  split
  · rename_i hlookup
    rw [hlookup] at hw
    exact hw
  · rename_i lookup hlookup
    rw [hlookup] at hw
    obtain ⟨r, rfl, ⟨htracks, hparallel, hqueries⟩, hperm⟩ := hw
    have hlen : r.lookup.inFlight =
        (st.dispatcher.outstanding.filterMap Purpose.lookup?).length := by
      rw [htracks.inFlight, ← hperm.length_eq, List.length_map]
    refine ⟨?_, hlen, fun id => ?_, hlen ▸ hparallel, hqueries⟩
    · have hids := htracks.ids
      rw [List.map_append] at hids
      exact hperm.nodup_iff.1 (List.nodup_append.1 hids).1
    · rw [← hperm.mem_iff, List.mem_map]
      unfold IterativeLookup.stateOf
      constructor
      · intro hstate
        obtain ⟨row, hrow, hflight⟩ := Option.map_eq_some_iff.1 hstate
        obtain ⟨hmem, hkey⟩ := Table.get?_eq_some.1 hrow
        exact ⟨row.2.node, htracks.opens row hmem hflight, (htracks.keyed row hmem).trans hkey⟩
      · rintro ⟨node, hnode, rfl⟩
        obtain ⟨verified, hget⟩ := htracks.flight node hnode
        rw [hget]
        rfl

theorem dispatcher_lookup_busy : ∃ st, Reached st ∧
    Traffic.Class.control ∈ st.dispatcher.outstanding.map Purpose.cls ∧
    (st.dispatcher.maintenance.lookup = none →
      st.dispatcher.outstanding.filterMap Purpose.lookup? = []) := by
  obtain ⟨st, hreached, hcls, -⟩ := exists_busy
  refine ⟨st, hreached, by simp [hcls], fun hnone => ?_⟩
  have hlookup := dispatcher_lookup hreached
  simpa only [hnone] using hlookup

/-- **The requests that are open go to different nodes and to different addresses**, in every run; a
session has no more of them than its parallelism, and it knows them all. -/
theorem dispatcher_sampling (h : Reached st) :
    let requests := st.dispatcher.outstanding.filterMap Purpose.request?
    (requests.map (fun r => r.node.id)).Nodup ∧ (requests.map (fun r => r.node.ip)).Nodup ∧
      ∀ session, st.dispatcher.sampler.session = some session →
        requests.length ≤ session.config.parallelism ∧
          ∀ r ∈ requests, (r.node.id, r.node.ip) ∈ session.inFlight.rows := by
  simp only
  have hsampler := (reached_open h).accounts.sampler
  rw [List.append_nil] at hsampler
  obtain ⟨run, hrun, hsame, hheld, -⟩ := hsampler.1
  have hinv := hrun.inv
  have hids := hinv.safe.ids
  have hips := hinv.safe.ips
  unfold Sampler.live at hids hips
  rw [List.map_append] at hids hips
  have hnodup := (hheld.map (fun r => r.node.id)).nodup_iff.1 (List.nodup_append.1 hids).1
  refine ⟨hnodup, (hheld.map (fun r => r.node.ip)).nodup_iff.1 (List.nodup_append.1 hips).1,
    fun session hsession => ?_⟩
  have hsession' : run.sampler.session = some session := hsame ▸ hsession
  have hmem : ∀ r ∈ st.dispatcher.outstanding.filterMap Purpose.request?,
      (r.node.id, r.node.ip) ∈ session.inFlight.rows := fun r hr =>
    hinv.safe.sent session hsession' r (List.mem_append_left _ (hheld.mem_iff.2 hr))
  refine ⟨le_trans ?_ (hinv.safe.tidy session hsession').parallel, hmem⟩
  have hsub : (st.dispatcher.outstanding.filterMap Purpose.request?).map (fun r => r.node.id) ⊆
      session.inFlight.rows.map Prod.fst := by
    intro id hid
    obtain ⟨r, hr, rfl⟩ := List.mem_map.1 hid
    exact List.mem_map.2 ⟨_, hmem r hr, rfl⟩
  have hle := (hnodup.subperm hsub).length_le
  rwa [List.length_map, List.length_map] at hle

theorem dispatcher_sampling_busy : ∃ st, Reached st ∧
    Traffic.Class.sampling ∈ st.dispatcher.outstanding.map Purpose.cls ∧
    ((st.dispatcher.outstanding.filterMap Purpose.request?).map (fun r => r.node.id)).Nodup := by
  obtain ⟨st, hreached, hcls, -⟩ := exists_busy
  exact ⟨st, hreached, by simp [hcls], (dispatcher_sampling hreached).1⟩

end DispatcherRun

end BtSniffer
