import BtSniffer.Collection.Worker

/-!
# The invariant of a worker

* `Inv` is the invariant of the work: which addresses were attempted, where the hints and the peers
  of the lookup are, and what the stage and the last reason say about the peers.
* `PhaseInv` is what holds of each phase.
* `consider_inv`, `choose_inv`, `deliver_inv`, `lookupDone_inv` and `attemptDone_inv` keep both.
-/

set_option autoImplicit false

namespace BtSniffer.Worker

namespace Work

variable {M : Type} {ctx : Context} {s : Work M} {peer : SocketAddr}

/-- An address needs no further attempt. -/
def Settled (ctx : Context) (s : Work M) (peer : SocketAddr) : Prop :=
  peer ∈ s.attempts ∨ ctx.eligible peer = false

/-- No candidate is left. -/
structure Drained (s : Work M) : Prop where
  first : s.selector.firstHints = []
  remaining : s.selector.remainingHints = []
  channel : s.channel = []

/-- What holds in every state, wherever the work is; `hand` is the candidate that the loop holds. -/
structure Inv (ctx : Context) (hand : Option SocketAddr) (s : Work M) : Prop where
  chosen : s.selector.selected = s.attempts
  distinct : s.attempts.Nodup
  bounded : s.attempts.length ≤ MAX_PEER_ATTEMPTS
  eligible : ∀ p ∈ s.attempts, ctx.eligible p = true
  hints : ∀ p ∈ ctx.job.peers, p ∈ s.selector.firstHints ∨ p ∈ s.selector.remainingHints ∨
    hand = some p ∨ Settled ctx s p
  kept : ∀ p ∈ s.collected, p ∈ s.channel ∨ hand = some p ∨ Settled ctx s p
  refused : s.refused = []
  queued : s.channel.length ≤ s.collected.length
  collected : s.collected.length ≤ 32
  stage : s.stage = .peer ∨ s.stage = .validation → s.fetched ≠ []
  last : s.last ≠ none → s.fetched ≠ []
  summary : ∀ r ∈ s.summary, r.sent ≤ s.sent

/-- With empty hands every hint is queued or settled. -/
theorem Inv.hinted (h : Inv ctx none s) (hp : peer ∈ ctx.job.peers) :
    peer ∈ s.selector.firstHints ∨ peer ∈ s.selector.remainingHints ∨ Settled ctx s peer := by
  rcases h.hints peer hp with hf | hr | hh | hs
  · exact .inl hf
  · exact .inr (.inl hr)
  · cases hh
  · exact .inr (.inr hs)

/-- With empty hands every peer of the lookup is queued or settled. -/
theorem Inv.found (h : Inv ctx none s) (hp : peer ∈ s.collected) :
    peer ∈ s.channel ∨ Settled ctx s peer := by
  rcases h.kept peer hp with hc | hh | hs
  · exact .inl hc
  · cases hh
  · exact .inr hs

/-- What holds of a phase. -/
def PhaseInv (s : Work M) : Prop :=
  match s.phase with
  | .choosing => s.ended = s.attempts
  | .waiting =>
    s.ended = s.attempts ∧ s.selector.firstHints = [] ∧ s.selector.remainingHints = [] ∧
      s.attempts.length < MAX_PEER_ATTEMPTS
  | .attempting peer point =>
    s.ended ++ [peer] = s.attempts ∧ (point = .fetching → peer ∈ s.fetched)
  | .done outcome cause =>
    s.ended = s.attempts ∧
    (∀ f, outcome = .retry (.failed f) → s.fetched ≠ [] ∨ 0 < s.sent) ∧
    (cause = .exhausted → s.attempts.length = MAX_PEER_ATTEMPTS ∨ Drained s) ∧
    (∀ r, outcome = .retry r → cause ≠ .downloaded)

/-- A work that is not over keeps the invariant of its phase with the fields that it reads. -/
theorem PhaseInv.frame {t : Work M} (h : PhaseInv s) (hnot : ∀ o c, s.phase ≠ .done o c)
    (hphase : t.phase = s.phase) (hended : t.ended = s.ended) (hattempts : t.attempts = s.attempts)
    (hselector : t.selector = s.selector) (hfetched : t.fetched = s.fetched) : PhaseInv t := by
  unfold PhaseInv at h ⊢
  rw [hphase, hended, hattempts, hselector, hfetched]
  cases hp : s.phase with
  | done o c => exact absurd hp (hnot o c)
  | _ =>
    rw [hp] at h
    exact h

/-! ## The end of the work -/

theorem finish_phase (h : PhaseInv s) (hnot : ∀ o c, s.phase ≠ .done o c) :
    s.ended ++ s.phase.current.toList = s.attempts := by
  unfold PhaseInv at h
  cases hp : s.phase with
  | choosing =>
    rw [hp] at h
    simpa [Phase.current] using h
  | waiting =>
    rw [hp] at h
    simpa [Phase.current] using h.1
  | attempting peer point =>
    rw [hp] at h
    simpa [Phase.current] using h.1
  | done o c => exact absurd hp (hnot o c)

theorem Inv.finish (h : Inv ctx none s) (outcome : Outcome M) (cause : Cause) :
    Inv ctx none (s.finish outcome cause) :=
  { h with }

/-- The loop ends with a failure only when a peer was contacted or an RPC was sent. -/
theorem retryReason_failed (h : Inv ctx none s) {f : AttemptFailure}
    (hf : s.retryReason = .failed f) : s.fetched ≠ [] ∨ 0 < s.sent := by
  unfold retryReason at hf
  cases hlast : s.last with
  | some reason => exact .inl (h.last (by rw [hlast]; exact Option.some_ne_none _))
  | none =>
    rw [hlast] at hf
    simp only at hf
    by_cases hsent : 0 < s.summary.elim s.sent (·.sent)
    · refine .inr ?_
      cases hsum : s.summary with
      | none =>
        rw [hsum] at hsent
        exact hsent
      | some r =>
        rw [hsum] at hsent
        exact Nat.lt_of_lt_of_le hsent (h.summary r hsum)
    · rw [if_neg hsent] at hf
      split at hf <;> cases hf

/-- The total timeout charges a failure only when a peer was contacted or an RPC was sent. -/
theorem timeoutReason_failed (h : Inv ctx none s) {f : AttemptFailure}
    (hf : s.timeoutReason = .failed f) : s.fetched ≠ [] ∨ 0 < s.sent := by
  unfold timeoutReason at hf
  by_cases hwait : (s.stage = .localWait ∨ s.stage = .dht) ∧ (s.dhtActive = false ∨ s.sent = 0)
  · rw [if_pos hwait] at hf
    cases hf
  · cases hstage : s.stage with
    | peer => exact .inl (h.stage (.inl hstage))
    | validation => exact .inl (h.stage (.inr hstage))
    | localWait =>
      refine .inr (Nat.pos_of_ne_zero (fun hz => hwait ⟨.inl hstage, .inr hz⟩))
    | dht => exact .inr (Nat.pos_of_ne_zero (fun hz => hwait ⟨.inr hstage, .inr hz⟩))

theorem finish_inv (h : Inv ctx none s) (hp : s.ended ++ s.phase.current.toList = s.attempts)
    {outcome : Outcome M} {cause : Cause}
    (hfail : ∀ f, outcome = .retry (.failed f) → s.fetched ≠ [] ∨ 0 < s.sent)
    (hexhausted : cause = .exhausted → s.attempts.length = MAX_PEER_ATTEMPTS ∨ Drained s)
    (hretry : ∀ r, outcome = .retry r → cause ≠ .downloaded) :
    Inv ctx none (s.finish outcome cause) ∧ PhaseInv (s.finish outcome cause) :=
  ⟨h.finish outcome cause, hp, hfail, fun hc => (hexhausted hc).imp id (fun hd => ⟨hd.1, hd.2, hd.3⟩),
    hretry⟩

theorem exhaust_inv (h : Inv ctx none s) (hp : s.ended ++ s.phase.current.toList = s.attempts)
    (hend : s.attempts.length = MAX_PEER_ATTEMPTS ∨ Drained s) :
    Inv ctx none s.exhaust ∧ PhaseInv s.exhaust := by
  refine finish_inv h hp ?_ (fun _ => hend) (fun _ _ hc => by cases hc)
  intro f hf
  exact retryReason_failed h (Outcome.retry.inj hf)

/-! ## Candidates -/

theorem Settled.of_subset {t : Work M} (hsub : ∀ p ∈ s.attempts, p ∈ t.attempts)
    (h : Settled ctx s peer) : Settled ctx t peer :=
  h.imp (hsub peer) id

theorem eligible_eq_false (hpolicy : ctx.policy.accepts peer = false ∨
    ctx.familyAccepts peer = false) : ctx.eligible peer = false := by
  unfold Context.eligible
  rcases hpolicy with h | h <;> simp [h]

/-- The outcomes of a candidate: it settles without an attempt, or its attempt starts. -/
theorem consider_cases (ctx : Context) (s : Work M) (peer : SocketAddr)
    (hchosen : s.selector.selected = s.attempts) :
    (consider ctx s peer = { s with phase := .choosing } ∧ Settled ctx s peer) ∨
    (ctx.eligible peer = true ∧ peer ∉ s.attempts ∧
      consider ctx s peer = { s with
        selector := { s.selector with selected := s.selector.selected ++ [peer] }
        phase := .attempting peer .created, attempts := s.attempts ++ [peer] }) := by
  unfold consider
  by_cases hpolicy : ctx.policy.accepts peer = true
  · by_cases hfamily : ctx.familyAccepts peer = true
    · by_cases hmem : peer ∈ s.attempts
      · refine .inl ⟨?_, .inl hmem⟩
        simp [hpolicy, hfamily, CandidateSelector.selectOnce, hchosen, hmem]
      · refine .inr ⟨by simp [Context.eligible, hpolicy, hfamily], hmem, ?_⟩
        simp [hpolicy, hfamily, CandidateSelector.selectOnce, hchosen, hmem]
    · refine .inl ⟨by simp [hfamily, hpolicy], .inr (eligible_eq_false (.inr ?_))⟩
      simpa using hfamily
  · refine .inl ⟨by simp [hpolicy], .inr (eligible_eq_false (.inl ?_))⟩
    simpa using hpolicy

/-- The candidate in the hand is put down when it is settled. -/
theorem Inv.putDown {t : Work M} (h : Inv ctx (some peer) s) (hpeer : Settled ctx t peer)
    (hsub : ∀ p ∈ s.attempts, p ∈ t.attempts)
    (hfirst : t.selector.firstHints = s.selector.firstHints)
    (hremaining : t.selector.remainingHints = s.selector.remainingHints)
    (hchannel : t.channel = s.channel) (hcollected : t.collected = s.collected) :
    (∀ p ∈ ctx.job.peers, p ∈ t.selector.firstHints ∨ p ∈ t.selector.remainingHints ∨
      none = some p ∨ Settled ctx t p) ∧
    (∀ p ∈ t.collected, p ∈ t.channel ∨ none = some p ∨ Settled ctx t p) := by
  rw [hfirst, hremaining, hchannel, hcollected]
  constructor
  · intro p hp
    rcases h.hints p hp with hf | hr | hh | hs
    · exact .inl hf
    · exact .inr (.inl hr)
    · cases hh
      exact .inr (.inr (.inr hpeer))
    · exact .inr (.inr (.inr (hs.of_subset hsub)))
  · intro p hp
    rcases h.kept p hp with hc | hh | hs
    · exact .inl hc
    · cases hh
      exact .inr (.inr hpeer)
    · exact .inr (.inr (hs.of_subset hsub))

/-- A candidate in the hand is settled, at once or by the attempt that starts. -/
theorem consider_inv (h : Inv ctx (some peer) s) (hended : s.ended = s.attempts)
    (hroom : s.attempts.length < MAX_PEER_ATTEMPTS) :
    Inv ctx none (consider ctx s peer) ∧ PhaseInv (consider ctx s peer) := by
  rcases consider_cases ctx s peer h.chosen with ⟨heq, hsettled⟩ | ⟨helig, hnew, heq⟩
  · rw [heq]
    obtain ⟨hhints, hkept⟩ := h.putDown (t := { s with phase := .choosing }) hsettled
      (fun p hp => hp) rfl rfl rfl rfl
    exact ⟨{ h with hints := hhints, kept := hkept }, hended⟩
  · rw [heq]
    obtain ⟨hhints, hkept⟩ := h.putDown
      (t := { s with
        selector := { s.selector with selected := s.selector.selected ++ [peer] }
        phase := .attempting peer .created, attempts := s.attempts ++ [peer] })
      (.inl (List.mem_append_right _ (List.mem_singleton_self _)))
      (fun p hp => List.mem_append_left _ hp) rfl rfl rfl rfl
    refine ⟨{ h with
      chosen := by rw [h.chosen]
      distinct := ?_
      bounded := ?_
      eligible := ?_
      hints := hhints
      kept := hkept }, ?_, fun hb => by cases hb⟩
    · exact (List.nodup_append.2 ⟨h.distinct, List.nodup_singleton _, fun a ha b hb hab => hnew
        (by rw [← List.mem_singleton.1 hb, ← hab]; exact ha)⟩)
    · rw [List.length_append, List.length_singleton]
      exact hroom
    · intro p hp
      rcases List.mem_append.1 hp with hp | hp
      · exact h.eligible p hp
      · rw [List.mem_singleton.1 hp]
        exact helig
    · show s.ended ++ [peer] = s.attempts ++ [peer]
      rw [hended]

/-- The head of the channel is taken. -/
theorem Inv.take {rest : List SocketAddr} (h : Inv ctx none s) (hc : s.channel = peer :: rest) :
    Inv ctx (some peer) { s with channel := rest } := by
  refine { h with hints := ?_, kept := ?_, queued := ?_ }
  · intro p hp
    rcases h.hinted hp with hf | hr | hs
    · exact .inl hf
    · exact .inr (.inl hr)
    · exact .inr (.inr (.inr hs))
  · intro p hp
    rcases h.found hp with hm | hs
    · rw [hc] at hm
      rcases List.mem_cons.1 hm with rfl | hm
      · exact .inr (.inl rfl)
      · exact .inl hm
    · exact .inr (.inr hs)
  · have hlen := h.queued
    rw [hc, List.length_cons] at hlen
    exact (Nat.le_succ _).trans hlen

/-- Where the next candidate comes from. -/
theorem nextReady_cases (selector : CandidateSelector) (channel : List SocketAddr) :
    (∃ hint rest, selector.firstHints = hint :: rest ∧
      selector.nextReady channel = (some hint, { selector with firstHints := rest }, channel)) ∨
    (∃ peer rest, channel = peer :: rest ∧
      selector.nextReady channel = (some peer, selector, rest)) ∨
    (∃ hint rest, selector.remainingHints = hint :: rest ∧
      selector.nextReady channel = (some hint, { selector with remainingHints := rest }, channel)) ∨
    (selector.firstHints = [] ∧ channel = [] ∧ selector.remainingHints = [] ∧
      selector.nextReady channel = (none, selector, channel)) := by
  unfold CandidateSelector.nextReady
  cases hf : selector.firstHints with
  | cons hint rest => exact .inl ⟨hint, rest, rfl, rfl⟩
  | nil =>
    cases channel with
    | cons peer rest => exact .inr (.inl ⟨peer, rest, rfl, rfl⟩)
    | nil =>
      cases hr : selector.remainingHints with
      | cons hint rest => exact .inr (.inr (.inl ⟨hint, rest, rfl, rfl⟩))
      | nil => exact .inr (.inr (.inr ⟨rfl, rfl, rfl, rfl⟩))

/-- A first hint is taken. -/
theorem Inv.takeFirst {rest : List SocketAddr} (h : Inv ctx none s)
    (hf : s.selector.firstHints = peer :: rest) :
    Inv ctx (some peer) { s with selector := { s.selector with firstHints := rest } } := by
  refine { h with hints := ?_, kept := fun p hp => (h.found hp).imp id .inr }
  intro p hp
  rcases h.hinted hp with hm | hr | hs
  · rw [hf] at hm
    rcases List.mem_cons.1 hm with rfl | hm
    · exact .inr (.inr (.inl rfl))
    · exact .inl hm
  · exact .inr (.inl hr)
  · exact .inr (.inr (.inr hs))

/-- A remaining hint is taken. -/
theorem Inv.takeRemaining {rest : List SocketAddr} (h : Inv ctx none s)
    (hr : s.selector.remainingHints = peer :: rest) :
    Inv ctx (some peer) { s with selector := { s.selector with remainingHints := rest } } := by
  refine { h with hints := ?_, kept := fun p hp => (h.found hp).imp id .inr }
  intro p hp
  rcases h.hinted hp with hf | hm | hs
  · exact .inl hf
  · rw [hr] at hm
    rcases List.mem_cons.1 hm with rfl | hm
    · exact .inr (.inr (.inl rfl))
    · exact .inr (.inl hm)
  · exact .inr (.inr (.inr hs))

/-- One turn of the loop. -/
theorem choose_inv (h : Inv ctx none s) (hphase : s.phase = .choosing)
    (hended : s.ended = s.attempts) : Inv ctx none (choose ctx s) ∧ PhaseInv (choose ctx s) := by
  have hcurrent : s.ended ++ s.phase.current.toList = s.attempts := by
    rw [hphase]
    simpa [Phase.current] using hended
  unfold choose
  by_cases hroom : s.selector.selectedCount < MAX_PEER_ATTEMPTS
  · rw [if_pos hroom]
    have hlen : s.attempts.length < MAX_PEER_ATTEMPTS := by
      rw [← h.chosen]
      exact hroom
    rcases nextReady_cases s.selector s.channel with
      ⟨hint, rest, hf, heq⟩ | ⟨peer, rest, hc, heq⟩ | ⟨hint, rest, hr, heq⟩ | ⟨hf, hc, hr, heq⟩
    · rw [heq]
      exact consider_inv (h.takeFirst hf) hended hlen
    · rw [heq]
      exact consider_inv (h.take hc) hended hlen
    · rw [heq]
      exact consider_inv (h.takeRemaining hr) hended hlen
    · rw [heq]
      by_cases hsum : s.summary.isNone = true
      · simp only [hsum, if_true]
        refine ⟨{ h with stage := ?_ }, hended, hf, hr, hlen⟩
        intro hstage
        rcases hstage with hstage | hstage <;> cases hstage
      · simp only [hsum]
        exact exhaust_inv h hcurrent (.inr ⟨hf, hr, hc⟩)
  · rw [if_neg hroom]
    refine exhaust_inv h hcurrent (.inl (Nat.le_antisymm h.bounded ?_))
    rw [← h.chosen]
    exact Nat.not_lt.1 hroom

/-! ## The lookup -/

/-- One peer of a response: it is collected and waits in the channel, or nothing happens. -/
theorem collectOne_cases (s : Work M) (peer : SocketAddr)
    (hq : s.channel.length ≤ s.collected.length) :
    s.collectOne peer = s ∨
    (s.collected.length < 32 ∧ s.collectOne peer =
      { s with channel := s.channel ++ [peer], collected := s.collected ++ [peer] }) := by
  unfold collectOne
  by_cases hnew : s.collected.length < 32 ∧ peer ∉ s.collected
  · rw [if_pos hnew]
    refine .inr ⟨hnew.1, ?_⟩
    have hroom : s.channel.length < CHANNEL_CAPACITY := Nat.lt_of_le_of_lt hq hnew.1
    rw [trySend, if_pos hroom]
  · exact .inl (if_neg hnew)

theorem collectOne_inv (h : Inv ctx none s) (peer : SocketAddr) :
    Inv ctx none (s.collectOne peer) := by
  rcases collectOne_cases s peer h.queued with heq | ⟨hroom, heq⟩
  · rw [heq]
    exact h
  · rw [heq]
    refine { h with kept := ?_, queued := ?_, collected := ?_ }
    · intro p hp
      rcases List.mem_append.1 hp with hp | hp
      · exact (h.kept p hp).imp (List.mem_append_left _) id
      · exact .inl (List.mem_append_right _ hp)
    · simp only [List.length_append, List.length_singleton]
      exact Nat.succ_le_succ h.queued
    · rw [List.length_append, List.length_singleton]
      exact hroom

/-- Delivering peers touches neither the phase nor the attempts. -/
theorem collectOne_frame (s : Work M) (peer : SocketAddr) :
    (s.collectOne peer).phase = s.phase ∧ (s.collectOne peer).ended = s.ended ∧
    (s.collectOne peer).attempts = s.attempts ∧ (s.collectOne peer).selector = s.selector ∧
    (s.collectOne peer).fetched = s.fetched := by
  unfold collectOne trySend
  split
  · split <;> exact ⟨rfl, rfl, rfl, rfl, rfl⟩
  · exact ⟨rfl, rfl, rfl, rfl, rfl⟩

theorem PhaseInv.collectOne (h : PhaseInv s) (hnot : ∀ o c, s.phase ≠ .done o c)
    (peer : SocketAddr) : PhaseInv (s.collectOne peer) := by
  obtain ⟨hphase, hended, hattempts, hselector, hfetched⟩ := collectOne_frame s peer
  exact h.frame hnot hphase hended hattempts hselector hfetched

/-- The peers of a response reach the channel. -/
theorem deliver_inv : ∀ (found : List SocketAddr) {s : Work M}, Inv ctx none s → PhaseInv s →
    (∀ o c, s.phase ≠ .done o c) → Inv ctx none (s.deliver found) ∧ PhaseInv (s.deliver found)
  | [], _, h, hp, _ => ⟨h, hp⟩
  | peer :: rest, s, h, hp, hnot => by
    refine deliver_inv rest (collectOne_inv h peer) (hp.collectOne hnot peer) ?_
    rw [(collectOne_frame s peer).1]
    exact hnot

/-- What the worker is sent is what the search collects. -/
theorem deliver_collected : ∀ (found : List SocketAddr) (s : Work M),
    (s.deliver found).collected = collectPeers s.collected found
  | [], _ => rfl
  | peer :: rest, s => by
    show ((s.collectOne peer).deliver rest).collected = collectPeers _ rest
    rw [deliver_collected rest]
    congr 1
    unfold collectOne
    beta_reduce
    split <;> rfl

/-- The lookup ends, while the worker waits or an attempt runs. -/
theorem lookupDone_inv (h : Inv ctx none s) (hp : PhaseInv s)
    (hphase : s.phase = .waiting ∨ ∃ peer point, s.phase = .attempting peer point)
    (hadSeeds : Bool) (fault : Option QueryError) :
    Inv ctx none (lookupDone ctx s hadSeeds fault) ∧ PhaseInv (lookupDone ctx s hadSeeds fault) := by
  have hnot : ∀ o c, s.phase ≠ .done o c := by
    intro o c hd
    rcases hphase with hw | ⟨peer, point, ha⟩
    · rw [hd] at hw
      cases hw
    · rw [hd] at ha
      cases ha
  have hcurrent := finish_phase hp hnot
  cases fault with
  | some error =>
    refine finish_inv (s := { s with dhtActive := false }) { h with } hcurrent ?_
      (fun hc => by cases hc) (fun _ _ hc => by cases hc)
    intro f hf
    cases error <;> cases hf
  | none =>
    have hsummary : Inv ctx none
        { s with dhtActive := false, summary := some ⟨hadSeeds, s.sent, s.limited, none⟩ } := by
      refine { h with summary := ?_ }
      intro r hr
      cases hr
      exact Nat.le_refl _
    rcases hphase with hw | ⟨peer, point, ha⟩
    · unfold PhaseInv at hp
      rw [hw] at hp
      obtain ⟨hended, hfirst, hremaining, hroom⟩ := hp
      cases hc : s.channel with
      | cons peer rest =>
        have heq : lookupDone ctx s hadSeeds none = consider ctx
            { s with
              dhtActive := false, summary := some ⟨hadSeeds, s.sent, s.limited, none⟩
              channel := rest } peer := by
          unfold lookupDone
          simp only [hw, hc]
        rw [heq]
        exact consider_inv (hsummary.take hc) hended hroom
      | nil =>
        have heq : lookupDone ctx s hadSeeds none = exhaust
            { s with
              dhtActive := false, summary := some ⟨hadSeeds, s.sent, s.limited, none⟩ } := by
          unfold lookupDone
          simp only [hw, hc]
        rw [heq]
        exact exhaust_inv hsummary hcurrent (.inr ⟨hfirst, hremaining, hc⟩)
    · have heq : lookupDone ctx s hadSeeds none =
          { s with
            dhtActive := false, summary := some ⟨hadSeeds, s.sent, s.limited, none⟩ } := by
        unfold lookupDone
        simp only [ha]
      rw [heq]
      refine ⟨hsummary, ?_⟩
      unfold PhaseInv at hp ⊢
      simp only [ha] at hp ⊢
      exact hp

/-! ## Attempts -/

/-- An error of an attempt that is not a cancellation is a failure of the peer. -/
theorem peerRetryReason_cases (error : PeerFetchError) :
    peerRetryReason error = .local .cancelled ∨ ∃ f, peerRetryReason error = .failed f := by
  cases error with
  | cancelled => exact .inl rfl
  | noUsablePeers => exact .inr ⟨_, rfl⟩
  | taskTimeout => exact .inr ⟨_, rfl⟩
  | peerFailed error => exact .inr ⟨_, rfl⟩

/-- An attempt inside `fetch_one` ends. -/
theorem attemptDone_inv (h : Inv ctx none s) (hphase : s.phase = .attempting peer .fetching)
    (hended : s.ended ++ [peer] = s.attempts) (hfetched : peer ∈ s.fetched)
    (result : Except PeerFetchError M) :
    Inv ctx none (s.attemptDone peer result) ∧ PhaseInv (s.attemptDone peer result) := by
  have hne : s.fetched ≠ [] := List.ne_nil_of_mem hfetched
  have hcurrent : s.ended ++ s.phase.current.toList = s.attempts := by
    rw [hphase]
    exact hended
  cases result with
  | ok metadata =>
    refine finish_inv (s := { s with stage := .validation }) { h with stage := fun _ => hne } hcurrent
      (fun f hf => by cases hf) (fun hc => by cases hc) (fun r hr => by cases hr)
  | error error =>
    unfold attemptDone
    by_cases hcancel : peerRetryReason error = .local .cancelled
    · simp only [hcancel, if_true]
      exact finish_inv h hcurrent (fun f hf => by cases hf) (fun hc => by cases hc)
        (fun _ _ hc => by cases hc)
    · simp only [hcancel, if_false]
      exact ⟨{ h with last := fun _ => hne }, hended⟩

end Work

end BtSniffer.Worker
