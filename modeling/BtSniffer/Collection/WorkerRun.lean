import BtSniffer.Collection.WorkerInv

/-!
# Attempts and blame of a worker

* `step_inv` — one event keeps the invariant, `run_inv` — so does a whole run.
* `worker_attempts_and_blame` — the bounds of the attempts, that no peer is lost, and that a failure
  is charged only after a peer was contacted or an RPC was sent.
-/

set_option autoImplicit false

namespace BtSniffer.Worker

namespace Work

variable {M : Type} {ctx : Context} {s : Work M} {peer : SocketAddr}

/-! ## One event -/

theorem stepWaiting_inv (h : Inv ctx none s) (hp : PhaseInv s) (hphase : s.phase = .waiting)
    (event : Event M) :
    Inv ctx none (stepWaiting ctx s event) ∧ PhaseInv (stepWaiting ctx s event) := by
  have hnot : ∀ o c, s.phase ≠ .done o c := by
    intro o c hd
    rw [hphase] at hd
    cases hd
  cases event with
  | found peers => exact deliver_inv peers h hp hnot
  | lookupDone hadSeeds fault => exact lookupDone_inv h hp (.inl hphase) hadSeeds fault
  | received =>
    unfold stepWaiting
    cases hc : s.channel with
    | nil => exact ⟨h, hp⟩
    | cons peer rest =>
      have hwait := hp
      unfold PhaseInv at hwait
      rw [hphase] at hwait
      exact consider_inv (h.take hc) hwait.1 hwait.2.2.2
  | rpcSent => exact ⟨h, hp⟩
  | localLimit => exact ⟨h, hp⟩
  | proceed => exact ⟨h, hp⟩
  | acquired => exact ⟨h, hp⟩
  | fetched result => exact ⟨h, hp⟩
  | cancelled => exact ⟨h, hp⟩
  | timedOut => exact ⟨h, hp⟩

theorem stepAttempting_inv (h : Inv ctx none s) (hp : PhaseInv s) {point : AttemptPoint}
    (hphase : s.phase = .attempting peer point) (event : Event M) :
    Inv ctx none (stepAttempting ctx s peer point event) ∧
      PhaseInv (stepAttempting ctx s peer point event) := by
  have hnot : ∀ o c, s.phase ≠ .done o c := by
    intro o c hd
    rw [hphase] at hd
    cases hd
  have hattempt := hp
  unfold PhaseInv at hattempt
  rw [hphase] at hattempt
  obtain ⟨hended, hfetching⟩ := hattempt
  unfold stepAttempting
  cases event with
  | found peers =>
    simp only
    split
    · exact deliver_inv peers h hp hnot
    · exact ⟨h, hp⟩
  | lookupDone hadSeeds fault =>
    simp only
    split
    · exact lookupDone_inv h hp (.inr ⟨peer, point, hphase⟩) hadSeeds fault
    · exact ⟨h, hp⟩
  | proceed =>
    simp only
    split
    · refine ⟨{ h with stage := ?_ }, hended, fun hb => by cases hb⟩
      intro hstage
      rcases hstage with hstage | hstage <;> cases hstage
    · exact ⟨h, hp⟩
  | acquired =>
    simp only
    split
    · have hne : s.fetched ++ [peer] ≠ [] := List.append_ne_nil_of_right_ne_nil _ (by simp)
      refine ⟨{ h with stage := fun _ => hne, last := fun _ => hne }, hended, ?_⟩
      exact fun _ => List.mem_append_right _ (List.mem_singleton_self _)
    · exact ⟨h, hp⟩
  | fetched result =>
    simp only
    split
    · rename_i hpoint
      subst hpoint
      exact attemptDone_inv h hphase hended (hfetching rfl) result
    · exact ⟨h, hp⟩
  | rpcSent => exact ⟨h, hp⟩
  | localLimit => exact ⟨h, hp⟩
  | received => exact ⟨h, hp⟩
  | cancelled => exact ⟨h, hp⟩
  | timedOut => exact ⟨h, hp⟩

theorem stepRunning_inv (h : Inv ctx none s) (hp : PhaseInv s)
    (hnot : ∀ o c, s.phase ≠ .done o c) (event : Event M) :
    Inv ctx none (stepRunning ctx s event) ∧ PhaseInv (stepRunning ctx s event) := by
  have hcurrent := finish_phase hp hnot
  cases event with
  | rpcSent =>
    exact ⟨{ h with summary := fun r hr => (h.summary r hr).trans (Nat.le_succ _) },
      hp.frame hnot rfl rfl rfl rfl rfl⟩
  | localLimit => exact ⟨{ h with }, hp.frame hnot rfl rfl rfl rfl rfl⟩
  | cancelled =>
    exact finish_inv h hcurrent (fun f hf => by cases hf) (fun hc => by cases hc)
      (fun _ _ hc => by cases hc)
  | timedOut =>
    exact finish_inv h hcurrent (fun f hf => timeoutReason_failed h (Outcome.retry.inj hf))
      (fun hc => by cases hc) (fun _ _ hc => by cases hc)
  | proceed =>
    unfold stepRunning
    cases hphase : s.phase with
    | choosing =>
      have hended := hp
      unfold PhaseInv at hended
      rw [hphase] at hended
      exact choose_inv h hphase hended
    | waiting => exact stepWaiting_inv h hp hphase .proceed
    | attempting peer point => exact stepAttempting_inv h hp hphase .proceed
    | done o c => exact absurd hphase (hnot o c)
  | _ =>
    -- the other events are those of a phase
    unfold stepRunning
    cases hphase : s.phase with
    | choosing => exact ⟨h, hp⟩
    | waiting => exact stepWaiting_inv h hp hphase _
    | attempting peer point => exact stepAttempting_inv h hp hphase _
    | done o c => exact absurd hphase (hnot o c)

/-- **One event keeps the invariant.** -/
theorem step_inv (h : Inv ctx none s) (hp : PhaseInv s) (event : Event M) :
    Inv ctx none (step ctx s event) ∧ PhaseInv (step ctx s event) := by
  unfold step
  cases hphase : s.phase with
  | done o c => exact ⟨h, hp⟩
  | _ =>
    refine stepRunning_inv h hp ?_ event
    intro o c hd
    rw [hphase] at hd
    cases hd

/-! ## Runs -/

theorem start_inv (ctx : Context) : Inv ctx none (start (M := M) ctx) ∧
    PhaseInv (start (M := M) ctx) := by
  refine ⟨?_, rfl⟩
  exact
    { chosen := rfl
      distinct := List.nodup_nil
      bounded := Nat.zero_le _
      eligible := fun p hp => absurd hp List.not_mem_nil
      hints := by
        intro p hp
        by_cases helig : ctx.eligible p = true
        · have hmem : p ∈ ctx.job.peers.filter ctx.eligible := List.mem_filter.2 ⟨hp, helig⟩
          rw [← List.take_append_drop (min (ctx.job.peers.filter ctx.eligible).length 2)
            (ctx.job.peers.filter ctx.eligible)] at hmem
          rcases List.mem_append.1 hmem with hfirst | hremaining
          · exact .inl hfirst
          · exact .inr (.inl hremaining)
        · exact .inr (.inr (.inr (.inr (by simpa using helig))))
      kept := fun p hp => absurd hp List.not_mem_nil
      refused := rfl
      queued := Nat.le_refl _
      collected := Nat.zero_le _
      stage := fun hstage => by rcases hstage with hstage | hstage <;> cases hstage
      last := fun hlast => absurd rfl hlast
      summary := fun r hr => by cases hr }

theorem run_inv (ctx : Context) (events : List (Event M)) :
    Inv ctx none (run ctx events) ∧ PhaseInv (run ctx events) := by
  have hfold : ∀ (events : List (Event M)) (s : Work M), Inv ctx none s → PhaseInv s →
      Inv ctx none (events.foldl (step ctx) s) ∧ PhaseInv (events.foldl (step ctx) s) := by
    intro events
    induction events with
    | nil => exact fun s h hp => ⟨h, hp⟩
    | cons event rest ih =>
      intro s h hp
      obtain ⟨h', hp'⟩ := step_inv h hp event
      exact ih _ h' hp'
  obtain ⟨h, hp⟩ := @start_inv M ctx
  exact hfold events _ h hp

/-- The end of a run that nothing interrupted: the attempts are used up, or every candidate was. -/
theorem exhausted_settled (h : Inv ctx none s)
    (hend : s.attempts.length = MAX_PEER_ATTEMPTS ∨ Drained s) :
    s.attempts.length = MAX_PEER_ATTEMPTS ∨
      (∀ p ∈ ctx.job.peers, Settled ctx s p) ∧ (∀ p ∈ s.collected, Settled ctx s p) := by
  refine hend.imp id (fun hd => ⟨?_, ?_⟩)
  · intro p hp
    rcases h.hinted hp with hf | hr | hs
    · rw [hd.first] at hf
      cases hf
    · rw [hd.remaining] at hr
      cases hr
    · exact hs
  · intro p hp
    rcases h.found hp with hc | hs
    · rw [hd.channel] at hc
      cases hc
    · exact hs

end Work

/-- **Attempts and blame of a worker.**  For every job, policy, families and interleaving:

* at most eight addresses are attempted, one at a time, all distinct, each accepted by the policy and
  by a family;
* the channel refuses no peer, and a run that ends in a retry by itself has made eight attempts or
  has settled every hint and every peer that the lookup collected;
* a failure is charged only when `fetch_one` was called or an RPC was sent. -/
theorem worker_attempts_and_blame {M : Type} (ctx : Context) (events : List (Event M)) :
    ((Work.run ctx events).attempts.length ≤ MAX_PEER_ATTEMPTS ∧
      (Work.run ctx events).attempts.Nodup ∧
      (∀ p ∈ (Work.run ctx events).attempts,
        ctx.policy.accepts p = true ∧ ∃ family ∈ ctx.families, family.accepts p = true) ∧
      ((∃ outcome cause, (Work.run ctx events).phase = .done outcome cause) →
        (Work.run ctx events).ended = (Work.run ctx events).attempts) ∧
      ((∀ outcome cause, (Work.run ctx events).phase ≠ .done outcome cause) →
        (Work.run ctx events).attempts =
          (Work.run ctx events).ended ++ (Work.run ctx events).phase.current.toList)) ∧
    ((Work.run ctx events).refused = [] ∧
      ∀ reason cause, (Work.run ctx events).phase = .done (.retry reason) cause →
        cause ≠ .cancelled → cause ≠ .attemptCancelled → cause ≠ .timedOut →
        cause ≠ .lookupFault →
        (Work.run ctx events).attempts.length = MAX_PEER_ATTEMPTS ∨
          (∀ p ∈ ctx.job.peers, Work.Settled ctx (Work.run ctx events) p) ∧
          (∀ p ∈ (Work.run ctx events).collected, Work.Settled ctx (Work.run ctx events) p)) ∧
    (∀ failure cause, (Work.run ctx events).phase = .done (.retry (.failed failure)) cause →
      (Work.run ctx events).fetched ≠ [] ∨ 0 < (Work.run ctx events).sent) := by
  obtain ⟨h, hp⟩ := Work.run_inv ctx events
  generalize Work.run ctx events = s at h hp ⊢
  refine ⟨⟨h.bounded, h.distinct, ?_, ?_, ?_⟩, ⟨h.refused, ?_⟩, ?_⟩
  · intro p hmem
    have helig := h.eligible p hmem
    unfold Context.eligible Context.familyAccepts at helig
    rw [Bool.and_eq_true, List.any_eq_true] at helig
    exact helig
  · rintro ⟨outcome, cause, hdone⟩
    unfold Work.PhaseInv at hp
    rw [hdone] at hp
    exact hp.1
  · intro hnot
    exact (Work.finish_phase hp hnot).symm
  · intro reason cause hdone hcancel hattempt htime hfault
    unfold Work.PhaseInv at hp
    rw [hdone] at hp
    obtain ⟨-, -, hexhausted, hretry⟩ := hp
    have hcause : cause = .exhausted := by
      cases cause with
      | exhausted => rfl
      | cancelled => exact absurd rfl hcancel
      | timedOut => exact absurd rfl htime
      | lookupFault => exact absurd rfl hfault
      | attemptCancelled => exact absurd rfl hattempt
      | downloaded => exact absurd rfl (hretry reason rfl)
    exact Work.exhausted_settled h (hexhausted hcause)
  · intro failure cause hdone
    unfold Work.PhaseInv at hp
    rw [hdone] at hp
    exact hp.2.1 failure rfl

end BtSniffer.Worker
