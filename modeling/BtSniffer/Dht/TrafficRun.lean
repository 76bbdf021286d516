import BtSniffer.Dht.TrafficForget

/-!
# Runs of the traffic budget

* `Live.step_follows` — one operation of the budget follows the reference.
* `Live.History.simulated` — so does a whole run from `Budget::new`.
* `forgetting_loosens_nothing` — what the budget admits after a run, the reference admits after the
  admitted operations of that run; with the bounds of the cooldowns, the permits and the table.
-/

set_option autoImplicit false

namespace BtSniffer.Traffic

open Relational Gcra

/-- The simulation, with the permits that are alive. -/
structure LiveSim (r : Rates) (live : Live) (ref : Reference) (now : Nat) : Prop where
  sim : Sim r live.state ref now
  count : live.permits.length = ref.queued
  nodup : live.permits.Nodup
  issued : ∀ permit ∈ live.permits, permit < live.issued

/-- The reference after one operation of a run. -/
def Reference.next (r : Rates) (ref : Reference) (now : Nat) (op : Op) (admitted : Bool) :
    Reference :=
  if admitted then ref.apply r now op else ref

variable {r : Rates} {live live' : Live} {ref : Reference} {now later : Nat} {op : Op}

/-! ## One operation -/

theorem LiveSim.mono (h : LiveSim r live ref now) (hle : now ≤ later) : LiveSim r live ref later :=
  { h with sim := h.sim.mono hle }

/-- An operation that gives out no permit and takes none back. -/
theorem LiveSim.withState (h : LiveSim r live ref now) {admitted : Bool} {after : State}
    (hf : Follows r ref now op admitted after)
    (hq : (ref.apply r now op).queued = ref.queued) :
    (admitted = true → ref.Admits r now op) ∧
      LiveSim r (live.withState (admitted, after)).2 (ref.next r now op admitted) now := by
  cases admitted with
  | false =>
    refine ⟨fun hb => absurd hb (by decide), ?_⟩
    exact ⟨hf, h.count, h.nodup, h.issued⟩
  | true =>
    obtain ⟨hadmits, hsim⟩ := hf
    exact ⟨fun _ => hadmits, hsim, h.count.trans hq.symm, h.nodup, h.issued⟩

/-- **One operation follows the reference** and ends without a panic. -/
theorem Live.step_follows (hi : r.ipInbound = quotaOf 5 (by decide))
    (hq : r.ipQueries = quotaOf 2 (by decide)) (h : LiveSim r live ref now) (op : Op) :
    ∃ admitted live', live.step now op = some (admitted, live') ∧
      (admitted = true → ref.Admits r now op) ∧
      LiveSim r live' (ref.next r now op admitted) now := by
  cases op with
  | query cls ip bytes =>
    obtain ⟨d, after, heq, hf⟩ := h.sim.query hi hq cls ip bytes
    simp only [Live.step, heq, Option.map_some]
    exact ⟨_, _, rfl, h.withState hf rfl⟩
  | inbound ip pendingSource =>
    obtain ⟨admitted, after, heq, hf⟩ := h.sim.admitInbound hi hq ip pendingSource
    simp only [Live.step, heq, Option.map_some]
    refine ⟨_, _, rfl, h.withState hf ?_⟩
    cases pendingSource <;> rfl
  | disguised ip =>
    obtain ⟨admitted, after, heq, hf⟩ := h.sim.ordinary hi hq ip
    simp only [Live.step, State.disguisedQuery, heq, Option.map_some]
    exact ⟨_, _, rfl, h.withState hf rfl⟩
  | reply bytes => exact ⟨_, _, rfl, h.withState (h.sim.reply bytes) rfl⟩
  | verify ip =>
    obtain ⟨admitted, after, heq, hf⟩ := h.sim.verify hi hq ip
    simp only [Live.step, heq, Option.map_some]
    cases admitted with
    | false =>
      exact ⟨_, _, rfl, fun hb => absurd hb Bool.false_ne_true, hf, h.count, h.nodup, h.issued⟩
    | true =>
      obtain ⟨hadmits, hsim⟩ := hf
      have hnew : live.issued ∉ live.permits := fun hm => Nat.lt_irrefl _ (h.issued _ hm)
      refine ⟨_, _, rfl, fun _ => hadmits, hsim, ?_, List.nodup_cons.2 ⟨hnew, h.nodup⟩, ?_⟩
      · exact congrArg (· + 1) h.count
      · intro permit hp
        rcases List.mem_cons.1 hp with rfl | hp
        · exact Nat.lt_succ_self _
        · exact (h.issued permit hp).trans (Nat.lt_succ_self _)
  | dropPermit permit =>
    by_cases hp : permit ∈ live.permits
    · have hpos : 0 < ref.queued := by
        rw [← h.count]
        exact List.length_pos_of_mem hp
      obtain ⟨after, heq, hf⟩ := h.sim.dropPermit hpos permit
      obtain ⟨hadmits, hsim⟩ := hf
      simp only [Live.step, if_pos hp, heq, Option.map_some]
      refine ⟨_, _, rfl, fun _ => hadmits, hsim, ?_, h.nodup.erase _, ?_⟩
      · show (live.permits.erase permit).length = ref.queued - 1
        rw [List.length_erase_of_mem hp, h.count]
      · exact fun p hm => h.issued p (List.mem_of_mem_erase hm)
    · simp only [Live.step, if_neg hp]
      exact ⟨_, _, rfl, fun hb => absurd hb (by decide), h⟩

/-! ## Runs -/

variable {config : Config} {start : Nat} {past : List Entry}

/-- A new budget and a fresh reference. -/
theorem Sim.new (hc : ¬ config.Invalid) {state : State}
    (hnew : State.new config (fun _ => start) = .ok state) :
    Sim (config.rates hc) state Reference.fresh start := by
  unfold State.new at hnew
  rw [dif_neg hc] at hnew
  cases hnew
  have hfresh : level none start = start := level_none start
  exact
    { queries := fun cls => Limiter.agrees_new hfresh
      inbound := Limiter.agrees_new hfresh
      responses := Limiter.agrees_new hfresh
      queryBytes := Limiter.agrees_new hfresh
      replyBytes := Limiter.agrees_new hfresh
      ips := fun ip => ⟨hfresh, hfresh, hfresh⟩
      room := Nat.zero_le _
      queued := rfl
      limit := rfl
      queued_le := Nat.zero_le _ }

/-- **A run follows the reference.** -/
theorem Live.History.simulated (hc : ¬ config.Invalid)
    (h : Live.History config start past live now) :
    LiveSim (config.rates hc) live (Reference.after (config.rates hc) past) now := by
  induction h with
  | new hnew =>
    exact ⟨Sim.new hc hnew, rfl, List.nodup_nil, fun p hp => absurd hp List.not_mem_nil⟩
  | step h hle hs ih =>
    obtain ⟨admitted, live', heq, -, hsim⟩ := Live.step_follows rfl rfl (ih.mono hle) _
    rw [heq] at hs
    cases hs
    exact hsim

/-- Two verifications of one address that were both admitted are a minute apart. -/
def CooledDown (last first : Entry) : Prop :=
  ∀ ip, last.op = .verify ip → first.op = .verify ip → last.admitted = true →
    first.admitted = true → first.time + 60 * SECOND ≤ last.time

/-- The reference remembers every cooldown that was started. -/
def Remembers (r : Rates) (past : List Entry) : Prop :=
  ∀ e ∈ past, ∀ ip, e.op = .verify ip → e.admitted = true →
    ∃ last, ((Reference.after r past).ips ip).verificationUntil = some last ∧
      e.time + 60 * SECOND ≤ last

/-- Only an admitted verification of an address changes its cooldown. -/
theorem Reference.until_apply (ip : IpAddr) (hop : op ≠ .verify ip) :
    ((ref.apply r now op).ips ip).verificationUntil = (ref.ips ip).verificationUntil := by
  have hupdate : ∀ (j : IpAddr) (c : IpReference),
      c.verificationUntil = (ref.ips j).verificationUntil →
      (Function.update ref.ips j c ip).verificationUntil = (ref.ips ip).verificationUntil := by
    intro j c hcool
    by_cases hj : ip = j
    · subst hj
      rw [Function.update_self]
      exact hcool
    · rw [Function.update_of_ne hj]
  cases op with
  | query cls j bytes => exact hupdate j _ rfl
  | inbound j pendingSource =>
    cases pendingSource with
    | false => exact hupdate j _ rfl
    | true => rfl
  | disguised j => exact hupdate j _ rfl
  | reply bytes => rfl
  | verify j =>
    have hj : ip ≠ j := fun he => hop (by rw [he])
    show (Function.update ref.ips j _ ip).verificationUntil = _
    rw [Function.update_of_ne hj]
  | dropPermit permit => rfl

/-- One more entry keeps the cooldowns remembered. -/
theorem Remembers.step (h : Remembers r past) (e : Entry)
    (hadmits : e.admitted = true → (Reference.after r past).Admits r e.time e.op) :
    Remembers r (e :: past) := by
  intro f hf ip hop hadm
  by_cases he : e.admitted = true ∧ e.op = .verify ip
  · refine ⟨e.time + 60 * SECOND, ?_, ?_⟩
    · rw [Reference.after, if_pos he.1, he.2]
      show (Function.update (Reference.after r past).ips ip _ ip).verificationUntil = _
      rw [Function.update_self]
    · rcases List.mem_cons.1 hf with rfl | hf
      · exact Nat.le_refl _
      · obtain ⟨last, hlast, hle⟩ := h f hf ip hop hadm
        have hopen := hadmits he.1
        rw [he.2] at hopen
        have := hopen.1 last hlast
        omega
  · have hkeep : ((Reference.after r (e :: past)).ips ip).verificationUntil =
        ((Reference.after r past).ips ip).verificationUntil := by
      rw [Reference.after]
      by_cases hadm' : e.admitted = true
      · rw [if_pos hadm']
        exact Reference.until_apply ip (fun hv => he ⟨hadm', hv⟩)
      · rw [if_neg hadm']
    rcases List.mem_cons.1 hf with rfl | hf
    · exact absurd ⟨hadm, hop⟩ he
    · rw [hkeep]
      exact h f hf ip hop hadm

/-- The admitted verifications of a run. -/
theorem Live.History.cooledDown (hc : ¬ config.Invalid)
    (h : Live.History config start past live now) :
    Remembers (config.rates hc) past ∧ past.Pairwise CooledDown := by
  induction h with
  | new hnew => exact ⟨fun e he => absurd he List.not_mem_nil, List.Pairwise.nil⟩
  | @step past live live' now later op admitted h hle hs ih =>
    obtain ⟨hremembers, hpairs⟩ := ih
    obtain ⟨admitted', live'', heq, hadmits, -⟩ :=
      Live.step_follows rfl rfl ((h.simulated hc).mono hle) op
    rw [hs] at heq
    cases heq
    refine ⟨hremembers.step _ hadmits, List.Pairwise.cons ?_ hpairs⟩
    -- an admitted verification comes after every cooldown of its address
    intro e he ip hlast hfirst hadm hadm'
    obtain ⟨last, hlast', hle'⟩ := hremembers e he ip hfirst hadm'
    have hopen := hadmits hadm
    rw [show op = .verify ip from hlast] at hopen
    exact hle'.trans (hopen.1 last hlast')

/-- **Forgetting idle addresses never loosens a limit.**  After any run of a budget, every operation
ends without a panic, and what it admits is admitted by the reference after the admitted operations
of the run; verifications of one address are a minute apart, the permits that are alive are counted
and bounded, and the table of addresses is bounded. -/
theorem forgetting_loosens_nothing (config : Config) (hc : ¬ config.Invalid) (start : Nat)
    (past : List Entry) (live : Live) (now : Nat)
    (h : Live.History config start past live now) :
    (∀ (later : Nat) (op : Op), now ≤ later →
      ∃ admitted live', live.step later op = some (admitted, live') ∧
        (admitted = true →
          (Reference.after (config.rates hc) past).Admits (config.rates hc) later op)) ∧
    past.Pairwise CooledDown ∧
    live.permits.Nodup ∧ live.state.verificationQueued = live.permits.length ∧
    live.permits.length ≤ live.state.verificationLimit ∧
    live.state.ips.rows.length ≤ IP_LIMIT := by
  have hsim := h.simulated hc
  refine ⟨?_, (h.cooledDown hc).2, hsim.nodup, ?_, ?_, hsim.sim.room⟩
  · intro later op hle
    obtain ⟨admitted, live', heq, hadmits, -⟩ :=
      Live.step_follows rfl rfl (hsim.mono hle) op
    exact ⟨admitted, live', heq, hadmits⟩
  · rw [hsim.sim.queued, hsim.count]
  · rw [hsim.count, hsim.sim.limit]
    exact hsim.sim.queued_le

/-- The budget after an operation that does not panic. -/
def Live.advance (live : Live) (later : Nat) (op : Op) : Live :=
  ((live.step later op).map (·.2)).getD live

theorem Live.History.advance {admitted : Bool} (h : Live.History config start past live now)
    (hle : now ≤ later) (hs : (live.step later op).map (·.1) = some admitted) :
    Live.History config start (⟨op, later, admitted⟩ :: past) (live.advance later op) later := by
  cases heq : live.step later op with
  | none =>
    rw [heq] at hs
    cases hs
  | some outcome =>
    rw [heq] at hs
    cases hs
    unfold Live.advance
    rw [heq]
    exact h.step hle heq

/-- An address is verified, forgotten after a minute and verified again; its third verification is
still in its cooldown. -/
theorem forgetting_loosens_nothing_again :
    ∃ live, Live.History ⟨20, 200, 262144⟩ 0
        [⟨.verify (.v4 1), 62 * SECOND, false⟩, ⟨.verify (.v4 1), 61 * SECOND, true⟩,
          ⟨.verify (.v4 1), 0, true⟩] live (62 * SECOND) ∧
      live.state.verificationQueued = live.permits.length ∧
      live.permits.length ≤ live.state.verificationLimit ∧
      live.state.ips.rows.length ≤ IP_LIMIT := by
  have hnew : Live.History ⟨20, 200, 262144⟩ 0 [] _ 0 := .new rfl
  have hfirst := hnew.advance (Nat.le_refl 0)
    (show (Live.step _ 0 (.verify (.v4 1))).map (·.1) = some true by decide +kernel)
  have hsecond := hfirst.advance (Nat.zero_le (61 * SECOND))
    (show (Live.step _ _ (.verify (.v4 1))).map (·.1) = some true by decide +kernel)
  have hthird := hsecond.advance (show 61 * SECOND ≤ 62 * SECOND by decide)
    (show (Live.step _ _ (.verify (.v4 1))).map (·.1) = some false by decide +kernel)
  have h := forgetting_loosens_nothing ⟨20, 200, 262144⟩ (by decide) 0 _ _ _ hthird
  exact ⟨_, hthird, h.2.2.2⟩

end BtSniffer.Traffic
