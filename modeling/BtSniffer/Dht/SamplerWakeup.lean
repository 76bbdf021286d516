import BtSniffer.Dht.SamplerRound
import BtSniffer.Dht.SamplerRun

/-!
# Pauses of the sampler

* `next_wakes` — when `next` returns no request, a request is in flight or a deadline is set.
* `Effect` — what a call does to the candidates: it asks none, starts a session, or returns a request.
* `sampler_wakes` — the sampler wakes up, and between two resets a request is returned, in every state
  of a run.
-/

set_option autoImplicit false

namespace BtSniffer

open Relational

/-! ## Wake-ups -/

namespace Sampler

variable {s : Sampler} {a b : SamplingSession} {now : Nat}

/-- A request is in flight, or a deadline is set. -/
def Wakes (s : Sampler) (now : Nat) : Prop :=
  ∃ a, s.session = some a ∧ (a.inFlight.rows ≠ [] ∨ ∃ at_, s.deadline = some at_ ∧ now < at_)

theorem exists_min {now : Nat} {times : List Nat} (hne : times ≠ []) (h : ∀ at_ ∈ times, now < at_) :
    ∃ at_, times.min? = some at_ ∧ now < at_ := by
  cases hmin : times.min? with
  | none => exact absurd (List.min?_eq_none_iff.1 hmin) hne
  | some at_ => exact ⟨at_, rfl, h at_ (List.min?_mem hmin)⟩

theorem newRound_wakes (a : SamplingSession) (hvalid : a.config.Valid) (random : NodeId) (now : Nat) :
    (s.newRound a random now).Wakes now := by
  refine ⟨a.resetRound random now, rfl, .inr ⟨now + a.config.sendSpacing, rfl, ?_⟩⟩
  exact Nat.lt_add_of_pos_right hvalid.positive.2.1

/-- A time at which a candidate is due lies ahead. -/
theorem due_gt {c : Candidate} {at_ : Nat} (h : a.verdict s.ids s.ips now c = .due at_) : now < at_ := by
  unfold SamplingSession.verdict at h
  split at h
  · cases h
  split at h
  · rename_i hdue
    cases h
    exact hdue
  split at h
  · cases h
  · cases h

/-- A candidate that was not asked is due later, or there is no room to track it. -/
theorem verdict_waits (hidle : a.inFlight.rows = []) {c : Candidate} (hvisited : c.visited = false)
    (hnot : a.verdict s.ids s.ips now c ≠ .eligible) :
    (∃ at_, a.verdict s.ids s.ips now c = .due at_) ∨
      (a.verdict s.ids s.ips now c = .full ∧ (a.config.cooldownCapacity ≤ s.ids.rows.length ∨
        a.config.cooldownCapacity ≤ s.ips.rows.length)) := by
  have hflight : a.isInFlight c.node.id = false := by
    unfold SamplingSession.isInFlight
    rw [Table.get?_eq_none.2 (by simp [hidle])]
    rfl
  have hbusy : a.isBusy c.node.ip = false := Table.any_eq_false.2 (by simp [hidle])
  unfold SamplingSession.verdict at hnot ⊢
  rw [if_neg (by simp [hvisited, hflight, hbusy])] at hnot ⊢
  split
  · exact .inl ⟨_, rfl⟩
  · split
    · rename_i hfull
      refine .inr ⟨rfl, ?_⟩
      rcases hfull with hfull | hfull
      · exact .inl hfull.2
      · exact .inr hfull.2
    · rename_i hdue hfull
      rw [if_neg hdue, if_neg hfull] at hnot
      exact absurd rfl hnot

/-- Without a candidate that may be asked, none is eligible. -/
theorem not_eligible_of_none (hvalid : a.config.Valid)
    (h : (a.selectCandidate s.ids s.ips now).candidate = none) {row : CandidateRow}
    (hrow : row ∈ a.candidates.rows) : a.verdict s.ids s.ips now row.2 ≠ .eligible := by
  intro heligible
  have hpos := hvalid.positive.2.2.1
  unfold SamplingSession.selectCandidate at h
  simp only [List.head?_eq_none_iff, List.take_eq_nil_iff] at h
  rcases h with hzero | hempty
  · omega
  · have hmem : row.2 ∈ (a.candidates.rows.map Prod.snd).filter
        (fun c => decide (a.verdict s.ids s.ips now c = .eligible)) :=
      List.mem_filter.2 ⟨List.mem_map.2 ⟨row, hrow, rfl⟩, decide_eq_true heligible⟩
    have hlength := congrArg List.length hempty
    rw [List.length_insertionSort, List.length_nil, List.length_eq_zero_iff] at hlength
    rw [hlength] at hmem
    cases hmem

/-- The rows that are left of a full table end later. -/
structure Pruned (s : Sampler) (a : SamplingSession) (now : Nat) : Prop where
  ids : a.config.cooldownCapacity ≤ s.ids.rows.length → a.inFlight.rows = [] →
    ∀ e ∈ s.ids.rows, now < e.2.until_
  ips : a.config.cooldownCapacity ≤ s.ips.rows.length → a.inFlight.rows = [] →
    ∀ e ∈ s.ips.rows, now < e.2

theorem dropExpired_pruned (s : Sampler) (a : SamplingSession) (now : Nat) :
    (s.dropExpired a now).Pruned a now where
  ids := by
    intro hfull hidle e he
    unfold dropExpired at hfull he
    simp only at hfull he
    split at he
    · obtain ⟨-, hkept⟩ := Table.mem_delete.1 he
      have hflight : a.isInFlight e.1 = false := by
        unfold SamplingSession.isInFlight
        rw [Table.get?_eq_none.2 (by simp [hidle])]
        rfl
      rw [hflight] at hkept
      simpa using hkept
    · rename_i hroom
      rw [if_neg hroom] at hfull
      exact absurd hfull hroom
  ips := by
    intro hfull hidle e he
    unfold dropExpired at hfull he
    simp only at hfull he
    split at he
    · obtain ⟨-, hkept⟩ := Table.mem_delete.1 he
      have hbusy : a.isBusy e.1 = false := Table.any_eq_false.2 (by simp [hidle])
      rw [hbusy] at hkept
      simpa using hkept
    · rename_i hroom
      rw [if_neg hroom] at hfull
      exact absurd hfull hroom

theorem earliest_gt {at_ : Nat} (h : (a.selectCandidate s.ids s.ips now).earliest = some at_) :
    now < at_ := by
  obtain ⟨c, -, hc⟩ := List.mem_filterMap.1 (List.min?_mem h)
  split at hc
  · rename_i hverdict
    cases hc
    exact due_gt hverdict
  · cases hc

/-- A candidate that is due later sets the earliest time. -/
theorem exists_earliest {row : CandidateRow} {d : Nat} (hrow : row ∈ a.candidates.rows)
    (hdue : a.verdict s.ids s.ips now row.2 = .due d) :
    ∃ at_, (a.selectCandidate s.ids s.ips now).earliest = some at_ ∧ now < at_ := by
  cases hearliest : (a.selectCandidate s.ids s.ips now).earliest with
  | some at_ => exact ⟨at_, rfl, earliest_gt hearliest⟩
  | none =>
    unfold SamplingSession.selectCandidate at hearliest
    simp only [List.min?_eq_none_iff, List.filterMap_eq_nil_iff] at hearliest
    have hskip := hearliest row.2 (List.mem_map.2 ⟨row, hrow, rfl⟩)
    rw [hdue] at hskip
    cases hskip

/-- The ends of the cooldowns that lie ahead. -/
def ends (s : Sampler) (now : Nat) : List Nat :=
  (s.ids.rows.map (fun e => e.2.until_) ++ s.ips.rows.map Prod.snd).filter
    (fun at_ => decide (at_ > now))

/-- A table without room has an end that lies ahead. -/
theorem Pruned.ends_ne_nil (h : s.Pruned a now) (hvalid : a.config.Valid)
    (hidle : a.inFlight.rows = []) (hfull : a.config.cooldownCapacity ≤ s.ids.rows.length ∨
      a.config.cooldownCapacity ≤ s.ips.rows.length) : s.ends now ≠ [] := by
  have hroom := hvalid.positive.2.2.2.2
  rcases hfull with hfull | hfull
  · obtain ⟨e, he⟩ := List.exists_mem_of_length_pos (hroom.trans_le hfull)
    have hlater := decide_eq_true (h.ids hfull hidle e he)
    have hmem : e.2.until_ ∈ s.ids.rows.map (fun e => e.2.until_) := List.mem_map.2 ⟨e, he, rfl⟩
    exact List.ne_nil_of_mem (List.mem_filter.2 ⟨List.mem_append_left _ hmem, hlater⟩)
  · obtain ⟨e, he⟩ := List.exists_mem_of_length_pos (hroom.trans_le hfull)
    have hlater := decide_eq_true (h.ips hfull hidle e he)
    have hmem : e.2 ∈ s.ips.rows.map Prod.snd := List.mem_map.2 ⟨e, he, rfl⟩
    exact List.ne_nil_of_mem (List.mem_filter.2 ⟨List.mem_append_right _ hmem, hlater⟩)

/-- **Without a candidate that may be asked**, the round is reset, a request is in flight, or the
nearest end of a cooldown is the deadline. -/
theorem nextIdle_wakes (ha : s.session = some a) (hvalid : a.config.Valid)
    (hnonempty : a.candidates.rows ≠ []) (hpruned : s.Pruned a now)
    (hnone : (a.selectCandidate s.ids s.ips now).candidate = none) (random : NodeId) :
    (s.nextIdle a (a.selectCandidate s.ids s.ips now) random now).Wakes now := by
  unfold nextIdle
  split
  · exact newRound_wakes a hvalid random now
  rename_i hgo
  by_cases hidle : a.inFlight.rows = []
  · have hunvisited : ∀ row ∈ a.candidates.rows, row.2.visited = false := by
      have hany : a.candidates.any (fun row => row.2.visited) = false := by
        rw [Bool.eq_false_iff]
        exact fun hany => hgo ⟨hidle, hany⟩
      exact Table.any_eq_false.1 hany
    have hwaits : ∀ row ∈ a.candidates.rows, _ := fun row hrow =>
      verdict_waits hidle (hunvisited row hrow) (not_eligible_of_none hvalid hnone hrow)
    split
    · rename_i hfull
      obtain ⟨c, hc, hverdict⟩ := List.any_eq_true.1 hfull
      obtain ⟨row, hrow, rfl⟩ := List.mem_map.1 hc
      rcases hwaits row hrow with ⟨d, hd⟩ | ⟨-, hcapacity⟩
      · rw [hd] at hverdict
        cases hverdict
      have hends := hpruned.ends_ne_nil hvalid hidle hcapacity
      have hlater : ∀ at_ ∈ (a.selectCandidate s.ids s.ips now).earliest.toList ++ s.ends now,
          now < at_ := by
        intro at_ hat
        rcases List.mem_append.1 hat with hat | hat
        · exact earliest_gt (Option.mem_toList.1 hat)
        · exact of_decide_eq_true (List.mem_filter.1 hat).2
      exact ⟨a, ha, .inr (exists_min (List.append_ne_nil_of_right_ne_nil _ hends) hlater)⟩
    · rename_i hfull
      obtain ⟨row, hrow⟩ := List.exists_mem_of_ne_nil _ hnonempty
      rcases hwaits row hrow with ⟨d, hd⟩ | ⟨hverdict, -⟩
      · exact ⟨a, ha, .inr (exists_earliest hrow hd)⟩
      · exact absurd (List.any_eq_true.2 ⟨row.2, List.mem_map.2 ⟨row, hrow, rfl⟩,
          decide_eq_true hverdict⟩) hfull
  · split
    · exact ⟨a, ha, .inl hidle⟩
    · exact ⟨a, ha, .inl hidle⟩

theorem nextSelect_wakes (ha : s.session = some a) (hvalid : a.config.Valid)
    (hnonempty : a.candidates.rows ≠ []) (random : NodeId)
    (hnone : (s.nextSelect a random now).2 = none) : (s.nextSelect a random now).1.Wakes now := by
  unfold nextSelect at hnone ⊢
  simp only at hnone ⊢
  cases hc : (a.selectCandidate (s.dropExpired a now).ids (s.dropExpired a now).ips now).candidate with
  | some c =>
    rw [hc] at hnone
    cases hnone
  | none =>
    have hdrop : (s.dropExpired a now).session = some a := ha
    exact nextIdle_wakes hdrop hvalid hnonempty (dropExpired_pruned s a now) hc random

theorem nextRound_wakes (hvalid : a.config.Valid) (hnonempty : a.candidates.rows ≠ [])
    {output : OutputState} (hopen : output.closed = false)
    (hslot : a.readyPermit = true ∨ output.slot = true) (random : NodeId)
    (hnone : (s.nextRound a output random now).2 = none) :
    (s.nextRound a output random now).1.Wakes now := by
  unfold nextRound at hnone ⊢
  rw [hopen, if_neg (by decide)] at hnone ⊢
  rw [if_neg (by rcases hslot with h | h <;> simp [h])] at hnone ⊢
  simp only at hnone ⊢
  split at hnone
  · rename_i hearly
    rw [if_pos hearly]
    exact ⟨_, rfl, .inr ⟨a.nextSend, rfl, hearly⟩⟩
  rename_i hsend
  rw [if_neg hsend]
  split at hnone
  · rename_i hend
    rw [if_pos hend]
    split
    · rename_i hflight
      exact ⟨_, rfl, .inl hflight⟩
    · exact newRound_wakes { a with readyPermit := true } hvalid random now
  · rename_i hend
    rw [if_neg hend]
    exact nextSelect_wakes (a := { a with readyPermit := true }) rfl hvalid hnonempty random hnone

theorem nextIn_wakes (hvalid : a.config.Valid) {capacity : Nat} (hcapacity : 0 < capacity)
    {output : OutputState} (hopen : output.closed = false)
    (hslot : a.readyPermit = true ∨ output.slot = true) (random : NodeId)
    (hnone : (s.nextIn a capacity output random now).2 = none)
    (hleft : ∃ b, (s.nextIn a capacity output random now).1.session = some b ∧
      b.candidates.rows ≠ []) : (s.nextIn a capacity output random now).1.Wakes now := by
  unfold nextIn at hnone hleft ⊢
  simp only at hnone hleft ⊢
  split at hnone
  · rename_i hempty
    rw [if_pos hempty] at hleft
    obtain ⟨b, hb, hne⟩ := hleft
    cases hb
    exact absurd hempty hne
  rename_i hnonempty
  rw [if_neg hnonempty]
  split
  · rename_i hfull
    refine ⟨a, rfl, .inl ?_⟩
    intro hidle
    have hpos := hvalid.positive.1
    rw [hidle, List.length_nil] at hfull
    omega
  · rename_i hroom
    rw [if_neg hroom] at hnone
    exact nextRound_wakes hvalid hnonempty hopen hslot random hnone

/-- **`next` does not go to sleep without a wake-up.** -/
theorem next_wakes (ha : s.session = some a) (hvalid : a.config.Valid)
    (herror : s.status.storageError = none) (hfree : s.storageBusy = false) {capacity : Nat}
    (hcapacity : 0 < capacity) {output : OutputState} (hopen : output.closed = false)
    (hslot : a.readyPermit = true ∨ output.slot = true) (routing : RoutingTable) (random : NodeId)
    (hnone : (s.next routing capacity now output random).2 = none)
    (hleft : ∃ b, (s.next routing capacity now output random).1.session = some b ∧
      b.candidates.rows ≠ []) : (s.next routing capacity now output random).1.Wakes now := by
  have hstorage : (s.status.storageError.isSome ||
      storageBusy { s with deadline := none, session := some a }) = false := by
    rw [herror]
    exact hfree
  unfold next at hnone hleft ⊢
  simp only [ha] at hnone hleft ⊢
  rw [if_neg (by rw [hstorage]; decide)] at hnone hleft ⊢
  have hrenews : ∀ nodes, ((a.addNodes nodes routing now).dropBad routing now).config = a.config :=
    fun nodes => (SamplingSession.addNodes_renews nodes).config
  have hpermit : ∀ nodes, ((a.addNodes nodes routing now).dropBad routing now).readyPermit =
      a.readyPermit := fun nodes => (SamplingSession.addNodes_sameRound a nodes routing now).2
  exact nextIn_wakes ((hrenews _).symm ▸ hvalid) hcapacity hopen ((hpermit _).symm ▸ hslot) random
    hnone hleft

end Sampler

/-! ## Runs -/

namespace SamplerRun

variable {st st' : SamplerRun} {t current : Nat}

/-- The requests that a call of `next` returns. -/
def returned (st : SamplerRun) (t : Nat) : SamplerCall → Nat
  | .next routing capacity output random =>
    (st.sampler.next routing capacity t output random).2.toList.length
  | _ => 0

/-- Steps one after the other. -/
def run : List (Nat × Nat × SamplerCall) → SamplerRun → Option SamplerRun
  | [], st => some st
  | (t, current, c) :: rest, st => (st.step t current c).bind (run rest)

/-- The requests that `next` returns in some steps. -/
def requests : List (Nat × Nat × SamplerCall) → SamplerRun → Nat
  | [], _ => 0
  | (t, current, c) :: rest, st => st.returned t c + (st.step t current c).elim 0 (requests rest)

/-- What a call does to the session. -/
inductive Effect (s s' : Sampler) (returned : Nat) : Prop
  /-- No candidate is asked. -/
  | quiet (h : s.Quiet s')
  /-- A session starts. -/
  | opened {a : SamplingSession} (hsession : s'.session = some a) (hvalid : a.config.Valid)
      (hunasked : a.Unasked)
  /-- A candidate is asked. -/
  | asked (hreturned : 0 < returned)
      (hconfig : ∀ b, s'.session = some b → ∃ a, s.session = some a ∧ b.config = a.config)

theorem start_effect (s : Sampler) (config : SamplerConfig) (maxPending now : Nat) (random : NodeId) :
    Effect s (s.start config maxPending now random).2 0 := by
  unfold Sampler.start
  split
  · exact .quiet (Sampler.Mild.refl s).quiet
  split
  · exact .quiet (Sampler.Mild.refl s).quiet
  split
  · exact .quiet (Sampler.Mild.refl s).quiet
  cases hvalid : config.validate maxPending now with
  | error e => exact .quiet (Sampler.Mild.refl s).quiet
  | ok _ =>
    simp only
    split
    · exact .quiet (Sampler.Mild.of_session rfl).quiet
    · exact .opened rfl ⟨maxPending, now, hvalid⟩ ⟨rfl, fun _ hrow => by cases hrow⟩

theorem next_effect (s : Sampler) (routing : RoutingTable) (capacity now : Nat) (output : OutputState)
    (random : NodeId) : Effect s (s.next routing capacity now output random).1
      (s.next routing capacity now output random).2.toList.length := by
  cases ha : s.session with
  | none => exact .quiet (Sampler.Mild.of_none (Sampler.next_none ha _ _ _ _).1).quiet
  | some a =>
    rcases Sampler.next_outcome ha routing capacity output with hstay | ⟨b, hquiet, -, hreset⟩
    · obtain ⟨b, hb, -, hconfig, hquiet⟩ := hstay random
      cases hres : (s.next routing capacity now output random).2 with
      | none => exact .quiet (.of_some ha hb (hquiet hres))
      | some r =>
        refine .asked Nat.one_pos fun b' hb' => ⟨a, ha, ?_⟩
        rw [hb] at hb'
        cases hb'
        exact hconfig
    · exact .quiet (.of_some ha (hreset random).2
        (hquiet.trans (SamplingSession.resetRound_quiet b random now)))

theorem give_quiet {r : Request} {s' : Sampler} {ends : List CooldownEnd}
    (hgive : st.give r s' ends = some st') (h : st.sampler.Quiet s') :
    st.sampler.Quiet st'.sampler := by
  unfold give at hgive
  split at hgive
  · cases hgive
    exact h
  · cases hgive

/-- **The effect of a call.** -/
theorem call_effect {c : SamplerCall} (hcall : st.call t current c = some st') :
    Effect st.sampler st'.sampler (st.returned t c) := by
  cases c with
  | start config maxPending random =>
    cases hcall
    exact start_effect _ config maxPending t random
  | next routing capacity output random =>
    cases hcall
    exact next_effect _ routing capacity t output random
  | stop =>
    cases hcall
    exact .quiet (Sampler.stop_mild _ t).quiet
  | addNodes nodes routing =>
    cases hcall
    exact .quiet (Sampler.addNodes_mild _ _ _ _).quiet
  | success r response routing =>
    exact .quiet (give_quiet hcall (Sampler.success_mild _ _ _ _ _ _).quiet)
  | nodes r nodes routing => exact .quiet (give_quiet hcall (Sampler.nodes_mild _ _ _ _ _ _).quiet)
  | failure r error =>
    obtain ⟨st₁, hgive, rfl⟩ := Option.map_eq_some_iff.1 hcall
    have hquiet : st.sampler.Quiet st₁.sampler :=
      give_quiet hgive (Sampler.failure_quiet _ _ _ _ _)
    exact .quiet hquiet
  | uncertainSend r => exact .quiet (give_quiet hcall (Sampler.uncertainSend_mild _ _ _ _).quiet)
  | abandonUnsent r => exact .quiet (give_quiet hcall (Sampler.abandonUnsent_mild _ _ _).quiet)
  | cancelRequest r => exact .quiet (give_quiet hcall (Sampler.cancelRequest_mild _ _ _ _).quiet)
  | drop r => exact .quiet (give_quiet hcall (Sampler.Mild.refl _).quiet)
  | reserveRequest r =>
    obtain ⟨st₁, hgive, rfl⟩ := Option.map_eq_some_iff.1 hcall
    have hquiet : st.sampler.Quiet st₁.sampler :=
      give_quiet hgive (Sampler.reserveRequest_mild _ _ _ _).quiet
    exact .quiet hquiet
  | takeReserved capacity =>
    cases hcall
    exact .quiet (Sampler.takeReserved_mild _ _ _).quiet
  | reserved result =>
    obtain ⟨reservation, -, rfl⟩ := Option.map_eq_some_iff.1 hcall
    exact .quiet (Sampler.reserved_mild _ _ _ _).quiet
  | settled index result =>
    cases hcall
    exact .quiet (Sampler.settled_mild _ _ _ _).quiet
  | acceptPermit =>
    cases hcall
    exact .quiet (Sampler.acceptPermit_mild _).quiet
  | rotateIdentity events bound random =>
    obtain ⟨s', hrotate, rfl⟩ := Option.map_eq_some_iff.1 hcall
    exact .quiet (Sampler.rotateIdentity_mild hrotate).quiet

/-- The session that runs has a checked configuration. -/
def Valid (st : SamplerRun) : Prop := ∀ a, st.sampler.session = some a → a.config.Valid

/-- No candidate of the session that runs was asked in its round. -/
def Unasked (st : SamplerRun) : Prop := ∀ a, st.sampler.session = some a → a.Unasked

theorem Valid.step (h : st.Valid) {c : SamplerCall} (hstep : st.step t current c = some st') :
    st'.Valid := by
  unfold SamplerRun.step at hstep
  split at hstep
  · obtain ⟨st₁, hcall, rfl⟩ := Option.map_eq_some_iff.1 hstep
    intro b hb
    rcases call_effect hcall with hquiet | ⟨hsession, hvalid, -⟩ | ⟨-, hconfig⟩
    · obtain ⟨a, ha, hq⟩ := hquiet b hb
      exact hq.config ▸ h a ha
    · cases hsession.symm.trans hb
      exact hvalid
    · obtain ⟨a, ha, heq⟩ := hconfig b hb
      exact heq ▸ h a ha
  · cases hstep

/-- A step that returns no request asks no candidate. -/
theorem Unasked.step (h : st.Unasked) {c : SamplerCall} (hstep : st.step t current c = some st')
    (hreturned : st.returned t c = 0) : st'.Unasked := by
  unfold SamplerRun.step at hstep
  split at hstep
  · obtain ⟨st₁, hcall, rfl⟩ := Option.map_eq_some_iff.1 hstep
    intro b hb
    rcases call_effect hcall with hquiet | ⟨hsession, -, hunasked⟩ | ⟨hpos, -⟩
    · obtain ⟨a, ha, hq⟩ := hquiet b hb
      exact (h a ha).quiet hq
    · cases hsession.symm.trans hb
      exact hunasked
    · omega
  · cases hstep

theorem Reached.valid {allowed : SamplerRun → SamplerCall → Prop} (h : Reached allowed st) :
    st.Valid := by
  induction h with
  | initial h =>
    intro a ha
    rw [h.1] at ha
    cases ha
  | step _ _ hstep ih => exact ih.step hstep

theorem Valid.run : ∀ (steps : List (Nat × Nat × SamplerCall)) {st st' : SamplerRun}, st.Valid →
    run steps st = some st' → st'.Valid
  | [], _, _, h, hrun => by
    cases hrun
    exact h
  | (t, current, c) :: rest, st, st', h, hrun => by
    obtain ⟨st₁, hstep, hrest⟩ := Option.bind_eq_some_iff.1 hrun
    exact Valid.run rest (h.step hstep) hrest

/-- Steps that return no request ask no candidate. -/
theorem Unasked.run : ∀ (steps : List (Nat × Nat × SamplerCall)) {st st' : SamplerRun},
    st.Unasked → run steps st = some st' → requests steps st = 0 → st'.Unasked
  | [], _, _, h, hrun, _ => by
    cases hrun
    exact h
  | (t, current, c) :: rest, st, st', h, hrun, hzero => by
    obtain ⟨st₁, hstep, hrest⟩ := Option.bind_eq_some_iff.1 hrun
    unfold requests at hzero
    rw [hstep, Option.elim_some, Nat.add_eq_zero_iff] at hzero
    exact Unasked.run rest (h.step hstep hzero.1) hrest hzero.2

/-- **A reset begins a round in which no candidate was asked.** -/
theorem unasked_of_resets {routing : RoutingTable} {capacity : Nat} {output : OutputState}
    {random : NodeId} (hresets : st.sampler.Resets routing capacity t output)
    (hstep : st.step t current (.next routing capacity output random) = some st') : st'.Unasked := by
  obtain ⟨-, b, -, -, -, hreset⟩ := hresets.spec
  unfold SamplerRun.step at hstep
  split at hstep
  · cases hstep
    intro a ha
    cases (hreset random).symm.trans ha
    exact SamplingSession.resetRound_unasked b random t
  · cases hstep

/-- **A round in which no candidate was asked is not reset.** -/
theorem Unasked.not_resets (h : st.Unasked) (hvalid : st.Valid) {routing : RoutingTable}
    {capacity : Nat} {output : OutputState} : ¬ st.sampler.Resets routing capacity t output := by
  intro hresets
  obtain ⟨a, b, ha, hquiet, hexhausted, -⟩ := hresets.spec
  exact ((h a ha).quiet hquiet).not_exhausted (hquiet.config.symm ▸ hvalid a ha) hexhausted

/-- **The sampler wakes up, and makes progress**: in every state of a run, a call of `next` that
nothing outside keeps from a request returns one, leaves one in flight or sets a deadline, unless it
has no candidates; and between two resets of rounds a request is returned. -/
theorem sampler_wakes (st : SamplerRun) (h : Reached AnyCall st) :
    (∀ a routing capacity t output random, st.sampler.session = some a →
      st.sampler.status.storageError = none → st.sampler.storageBusy = false → 0 < capacity →
      output.closed = false → (a.readyPermit = true ∨ output.slot = true) →
      (st.sampler.next routing capacity t output random).2 = none →
      (∃ b, (st.sampler.next routing capacity t output random).1.session = some b ∧
        b.candidates.rows ≠ []) →
      (st.sampler.next routing capacity t output random).1.Wakes t) ∧
    ∀ routing capacity t output random current st₁ steps st₂ routing' capacity' t' output',
      st.sampler.Resets routing capacity t output →
      st.step t current (.next routing capacity output random) = some st₁ →
      run steps st₁ = some st₂ → st₂.sampler.Resets routing' capacity' t' output' →
      0 < requests steps st₁ := by
  refine ⟨?_, ?_⟩
  · intro a routing capacity t output random ha herror hfree hcapacity hopen hslot hnone hleft
    exact Sampler.next_wakes ha (h.valid a ha) herror hfree hcapacity hopen hslot routing random hnone
      hleft
  · intro routing capacity t output random current st₁ steps st₂ routing' capacity' t' output'
      hresets hstep hrun hresets'
    by_contra hnone
    have hunasked := unasked_of_resets hresets hstep
    have hvalid := h.valid.step hstep
    exact (hunasked.run steps hrun (by omega)).not_resets (hvalid.run steps hrun) hresets'

/-! ## A pause and two rounds -/

/-- Another call of `next` waits for the request in flight. -/
theorem busy_pause : ∃ st a, Reached AnyCall st ∧ st.sampler.session = some a ∧
    st.sampler.status.storageError = none ∧ st.sampler.storageBusy = false ∧
    (st.sampler.next noContacts 1 1 ⟨false, true⟩ 0).2 = none ∧
    ∃ b, (st.sampler.next noContacts 1 1 ⟨false, true⟩ 0).1.session = some b ∧
      b.candidates.rows ≠ [] := by
  have hrun : ((calls (fun _ _ => true) (ask 0 1) fresh).any (fun st =>
      st.sampler.session.isSome && decide (st.sampler.status.storageError = none) &&
        !st.sampler.storageBusy &&
        decide ((st.sampler.next noContacts 1 1 ⟨false, true⟩ 0).2 = none) &&
        (st.sampler.next noContacts 1 1 ⟨false, true⟩ 0).1.session.any
          (fun b => decide (b.candidates.rows ≠ [])))) = true := by
    decide +kernel
  obtain ⟨st, hst, hany⟩ := (Option.any_eq_true _ _).1 hrun
  simp only [Bool.and_eq_true, decide_eq_true_eq, Bool.not_eq_true'] at hany
  obtain ⟨⟨⟨⟨hsession, herror⟩, hfree⟩, hnone⟩, hleft⟩ := hany
  obtain ⟨a, ha⟩ := Option.isSome_iff_exists.1 hsession
  obtain ⟨b, hb, hne⟩ := (Option.any_eq_true _ _).1 hleft
  have hreached : Reached AnyCall st :=
    reached_calls (fun _ _ _ => trivial) _ (.initial initial_fresh) hst
  exact ⟨st, a, hreached, ha, herror, hfree, hnone, b, hb, of_decide_eq_true hne⟩

/-- The only node is asked and not reached; then its round is over. -/
def firstRound : List (Nat × SamplerCall) := ask 0 1 ++ [(1, .abandonUnsent (request 1 1))]

/-- The node is asked again in the next round. -/
def secondRound : List (Nat × Nat × SamplerCall) :=
  [(1000000002, 1000000002, nextCall), (1000000002, 1000000002, .abandonUnsent (request 1 1))]

/-- The state at the end of the first round. -/
def roundOver : Option SamplerRun := calls (fun _ _ => true) firstRound fresh

/-- The state after the reset. -/
def roundReset : Option SamplerRun :=
  roundOver.bind fun st => st.step 1000000001 1000000001 nextCall

/-- Both rounds of the node end with a reset. -/
theorem two_rounds : ∃ st st₁ st₂, Reached AnyCall st ∧
    st.sampler.Resets noContacts 1 1000000001 ⟨false, true⟩ ∧
    st.step 1000000001 1000000001 nextCall = some st₁ ∧ run secondRound st₁ = some st₂ ∧
    st₂.sampler.Resets noContacts 1 2000000003 ⟨false, true⟩ := by
  obtain ⟨st, hst⟩ : ∃ st, roundOver = some st := Option.isSome_iff_exists.1 (by decide +kernel)
  obtain ⟨st₁, hst₁⟩ : ∃ st₁, roundReset = some st₁ := Option.isSome_iff_exists.1 (by decide +kernel)
  obtain ⟨st₂, hst₂⟩ : ∃ st₂, roundReset.bind (run secondRound) = some st₂ :=
    Option.isSome_iff_exists.1 (by decide +kernel)
  refine ⟨st, st₁, st₂, ?_, ?_, ?_, ?_, ?_⟩
  · exact reached_calls (fun _ _ _ => trivial) _ (.initial initial_fresh) hst
  · intro random
    have htarget : (roundOver.bind fun st =>
        (st.sampler.next noContacts 1 1000000001 ⟨false, true⟩ random).1.session.map
          SamplingSession.target) = some random := rfl
    rw [hst] at htarget
    exact htarget
  · unfold roundReset at hst₁
    rw [hst] at hst₁
    exact hst₁
  · rw [hst₁] at hst₂
    exact hst₂
  · intro random
    have htarget : ((roundReset.bind (run secondRound)).bind fun st =>
        (st.sampler.next noContacts 1 2000000003 ⟨false, true⟩ random).1.session.map
          SamplingSession.target) = some random := rfl
    rw [hst₂] at htarget
    exact htarget

theorem sampler_wakes_rounds :
    (∃ st : SamplerRun, (st.sampler.next noContacts 1 1 ⟨false, true⟩ 0).1.Wakes 1) ∧
    ∃ st₁, 0 < requests secondRound st₁ := by
  obtain ⟨st, a, hreached, ha, herror, hfree, hnone, hleft⟩ := busy_pause
  obtain ⟨st', st₁, st₂, hreached', hresets, hstep, hrun, hresets'⟩ := two_rounds
  refine ⟨⟨st, ?_⟩, ⟨st₁, ?_⟩⟩
  · exact (sampler_wakes st hreached).1 a noContacts 1 1 ⟨false, true⟩ 0 ha herror hfree (by decide) rfl
      (.inr rfl) hnone hleft
  · exact (sampler_wakes st' hreached').2 noContacts 1 1000000001 ⟨false, true⟩ 0 1000000001 st₁
      secondRound st₂ noContacts 1 2000000003 ⟨false, true⟩ hresets hstep hrun hresets'

end SamplerRun

end BtSniffer
