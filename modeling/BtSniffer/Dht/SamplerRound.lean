import BtSniffer.Dht.SamplerFallback

/-!
# Rounds of the sampler

* `Unasked` — no candidate of the round was asked. It holds after a reset and until a candidate is
  asked, and it excludes a reset.
* `next_outcome` — `next` keeps the target, or it resets the round, whatever the random target is.
* `Resets.spec` — a reset comes from an exhausted round.
-/

set_option autoImplicit false

namespace BtSniffer

open Relational

/-! ## Configurations -/

/-- The configuration has passed its check. -/
def SamplerConfig.Valid (c : SamplerConfig) : Prop :=
  ∃ maxPending now, c.validate maxPending now = .ok ()

theorem SamplerConfig.Valid.positive {c : SamplerConfig} (h : c.Valid) :
    0 < c.parallelism ∧ 0 < c.sendSpacing ∧ 0 < c.shortlistSize ∧ 0 < c.maxQueries ∧
      0 < c.cooldownCapacity := by
  obtain ⟨maxPending, now, hvalid⟩ := h
  unfold SamplerConfig.validate at hvalid
  split at hvalid
  · cases hvalid
  · rename_i hchecks
    simp only [not_or] at hchecks
    obtain ⟨h₁, -, h₂, -, -, -, h₃, h₄, -, -, -, -, h₅, -⟩ := hchecks
    omega

/-! ## Rounds -/

namespace SamplingSession

variable {a b : SamplingSession} {now : Nat}

/-- No candidate of the round was asked. -/
structure Unasked (a : SamplingSession) : Prop where
  queries : a.queries = 0
  visited : ∀ row ∈ a.candidates.rows, row.2.visited = false

theorem Unasked.quiet (h : a.Unasked) (hquiet : a.Quiet b) : b.Unasked where
  queries := Nat.le_zero.1 (h.queries ▸ hquiet.queries)
  visited := by
    intro row hrow
    by_contra hvisited
    obtain ⟨row', hrow', hvisited'⟩ := hquiet.visited row hrow (by simpa using hvisited)
    rw [h.visited row' hrow'] at hvisited'
    cases hvisited'

theorem resetRound_unasked (a : SamplingSession) (random : NodeId) (now : Nat) :
    (a.resetRound random now).Unasked := by
  refine ⟨rfl, fun row hrow => ?_⟩
  unfold resetRound at hrow
  simp only [Table.rows_update, if_true] at hrow
  obtain ⟨row', -, rfl⟩ := List.mem_map.1 hrow
  rfl

theorem resetRound_quiet (a : SamplingSession) (random : NodeId) (now : Nat) :
    a.Quiet (a.resetRound random now) := by
  refine ⟨rfl, Nat.zero_le _, fun row hrow hvisited => ?_⟩
  rw [(resetRound_unasked a random now).visited row hrow] at hvisited
  cases hvisited

theorem dropBad_quiet (a : SamplingSession) (routing : RoutingTable) (now : Nat) :
    a.Quiet (a.dropBad routing now) :=
  .of_subset fun _ hrow => (Table.mem_delete.1 hrow).1

/-- A round that may end: the queries are used up, or a candidate was asked. -/
structure Exhausted (a : SamplingSession) : Prop where
  nonempty : a.candidates.rows ≠ []
  cause : a.config.maxQueries ≤ a.queries ∨ a.allVisited = true ∨
    a.candidates.any (fun row => row.2.visited) = true

/-- **A round in which no candidate was asked does not end.** -/
theorem Unasked.not_exhausted (h : a.Unasked) (hvalid : a.config.Valid) : ¬ a.Exhausted := by
  rintro ⟨hnonempty, hqueries | hall | hany⟩
  · have hpos := hvalid.positive.2.2.2.1
    rw [h.queries] at hqueries
    omega
  · obtain ⟨row, hrow⟩ := List.exists_mem_of_ne_nil _ hnonempty
    have hvisited := List.all_eq_true.1 hall row hrow
    rw [h.visited row hrow] at hvisited
    cases hvisited
  · obtain ⟨row, hrow, hvisited⟩ := Table.any_eq_true.1 hany
    rw [h.visited row hrow] at hvisited
    cases hvisited

/-- Only the candidates change. -/
def SameRound (a b : SamplingSession) : Prop := b.target = a.target ∧ b.readyPermit = a.readyPermit

theorem evict_sameRound : ∀ (fuel : Nat) (a : SamplingSession), a.SameRound (a.evict fuel)
  | 0, _ => ⟨rfl, rfl⟩
  | fuel + 1, a => by
    rw [evict]
    split
    · split
      · exact evict_sameRound fuel _
      · exact ⟨rfl, rfl⟩
    · exact ⟨rfl, rfl⟩

theorem addNode_sameRound (a : SamplingSession) (routing : RoutingTable) (now : Nat)
    (node : DiscoveredNode) : a.SameRound (a.addNode routing now node) := by
  rcases addNode_cases a routing now node with hsame | ⟨id, c, -, hnew, -⟩
  · rw [hsame]
    exact ⟨rfl, rfl⟩
  · rw [hnew]
    exact ⟨rfl, rfl⟩

theorem SameRound.trans {a b c : SamplingSession} (h : a.SameRound b) (h' : b.SameRound c) :
    a.SameRound c := ⟨h'.1.trans h.1, h'.2.trans h.2⟩

theorem addNodes_sameRound (a : SamplingSession) (nodes : List DiscoveredNode)
    (routing : RoutingTable) (now : Nat) : a.SameRound (a.addNodes nodes routing now) := by
  refine SameRound.trans ?_ (evict_sameRound _ _)
  induction nodes generalizing a with
  | nil => exact ⟨rfl, rfl⟩
  | cons node nodes ih => exact (addNode_sameRound a routing now node).trans (ih _)

end SamplingSession

/-! ## What `next` does to the round -/

namespace Sampler

variable {s : Sampler} {a b : SamplingSession} {now : Nat}

/-- The round of the session `a` goes on, or it is reset, whatever the random target is. -/
def Outcome (a : SamplingSession) (now : Nat) (result : NodeId → Sampler × Option Request) : Prop :=
  (∀ random, ∃ b, (result random).1.session = some b ∧ b.target = a.target ∧ b.config = a.config ∧
    ((result random).2 = none → a.Quiet b)) ∨
  ∃ b, a.Quiet b ∧ b.Exhausted ∧ ∀ random, (result random).2 = none ∧
    (result random).1.session = some (b.resetRound random now)

/-- The round goes on with the session `b`. -/
theorem Outcome.of_stay {result : NodeId → Sampler × Option Request}
    (hresult : ∀ random, (result random).1.session = some b) (htarget : b.target = a.target)
    (hquiet : a.Quiet b) : Outcome a now result :=
  .inl fun random => ⟨b, hresult random, htarget, hquiet.config, fun _ => hquiet⟩

theorem Outcome.after {result : NodeId → Sampler × Option Request} (htarget : b.target = a.target)
    (hquiet : a.Quiet b) (h : Outcome b now result) : Outcome a now result := by
  rcases h with hstay | ⟨c, hquiet', hexhausted, hreset⟩
  · refine .inl fun random => ?_
    obtain ⟨c, hc, htarget', hconfig, hquiet'⟩ := hstay random
    exact ⟨c, hc, htarget'.trans htarget, hconfig.trans hquiet.config,
      fun hnone => hquiet.trans (hquiet' hnone)⟩
  · exact .inr ⟨c, hquiet.trans hquiet', hexhausted, hreset⟩

theorem nextIdle_outcome (ha : s.session = some a) (hnonempty : a.candidates.rows ≠ [])
    (selection : SamplingSession.Selection) :
    Outcome a now (fun random => (s.nextIdle a selection random now, none)) := by
  unfold nextIdle
  split
  · rename_i hreset
    exact .inr ⟨a, .refl a, ⟨hnonempty, .inr (.inr hreset.2)⟩, fun _ => ⟨rfl, rfl⟩⟩
  · split
    · exact .of_stay (fun _ => ha) rfl (.refl a)
    · exact .of_stay (fun _ => ha) rfl (.refl a)

theorem nextSelect_outcome (ha : s.session = some a) (hnonempty : a.candidates.rows ≠ []) :
    Outcome a now (fun random => s.nextSelect a random now) := by
  unfold nextSelect
  simp only
  cases (a.selectCandidate (s.dropExpired a now).ids (s.dropExpired a now).ips now).candidate with
  | some c => exact .inl fun random => ⟨_, rfl, rfl, rfl, fun hnone => by cases hnone⟩
  | none =>
    have hdrop : (s.dropExpired a now).session = some a := ha
    exact nextIdle_outcome hdrop hnonempty _

theorem nextRound_outcome (ha : s.session = some a) (hnonempty : a.candidates.rows ≠ [])
    (output : OutputState) : Outcome a now (fun random => s.nextRound a output random now) := by
  have hquiet : a.Quiet { a with readyPermit := true } :=
    ⟨rfl, le_rfl, fun row hrow hvisited => ⟨row, hrow, hvisited⟩⟩
  unfold nextRound
  split
  · exact .of_stay (fun _ => ha) rfl (.refl a)
  split
  · exact .of_stay (fun _ => ha) rfl (.refl a)
  simp only
  split
  · exact .of_stay (fun _ => rfl) rfl hquiet
  split
  · rename_i hend
    split
    · exact .of_stay (fun _ => rfl) rfl hquiet
    · refine .inr ⟨_, hquiet, ⟨hnonempty, ?_⟩, fun _ => ⟨rfl, rfl⟩⟩
      rcases hend with hqueries | hall
      · exact .inl hqueries
      · exact .inr (.inl hall)
  · exact Outcome.after (b := { a with readyPermit := true }) rfl hquiet
      (nextSelect_outcome rfl hnonempty)

theorem nextIn_outcome (capacity : Nat) (output : OutputState) :
    Outcome a now (fun random => s.nextIn a capacity output random now) := by
  unfold nextIn
  simp only
  split
  · exact .of_stay (fun _ => rfl) rfl (.refl a)
  split
  · exact .of_stay (fun _ => rfl) rfl (.refl a)
  · rename_i hnonempty _
    exact nextRound_outcome rfl hnonempty output

/-- **`next` keeps the round or resets it**, whatever the random target is. -/
theorem next_outcome (ha : s.session = some a) (routing : RoutingTable) (capacity : Nat)
    (output : OutputState) :
    Outcome a now (fun random => s.next routing capacity now output random) := by
  unfold next
  simp only [ha]
  split
  · exact .of_stay (fun _ => rfl) rfl (.refl a)
  · have hseeds : ∀ nodes, a.Quiet ((a.addNodes nodes routing now).dropBad routing now) := fun nodes =>
      (SamplingSession.addNodes_quiet nodes).trans (SamplingSession.dropBad_quiet _ routing now)
    have htarget : ∀ nodes, ((a.addNodes nodes routing now).dropBad routing now).target = a.target :=
      fun nodes => (SamplingSession.addNodes_sameRound a nodes routing now).1
    exact .after (htarget _) (hseeds _) (nextIn_outcome capacity output)

theorem next_none (hnone : s.session = none) (routing : RoutingTable) (capacity : Nat)
    (output : OutputState) (random : NodeId) :
    (s.next routing capacity now output random).1.session = none ∧
      (s.next routing capacity now output random).2 = none := by
  unfold next
  simp only [hnone]
  split
  · exact ⟨rfl, rfl⟩
  · exact ⟨rfl, rfl⟩

/-- `next` resets the round: the session takes the random target, whatever it is. -/
def Resets (s : Sampler) (routing : RoutingTable) (capacity now : Nat) (output : OutputState) : Prop :=
  ∀ random, (s.next routing capacity now output random).1.session.map SamplingSession.target =
    some random

/-- **A reset comes from an exhausted round** and begins one in which no candidate was asked. -/
theorem Resets.spec {routing : RoutingTable} {capacity : Nat} {output : OutputState}
    (h : s.Resets routing capacity now output) :
    ∃ a b, s.session = some a ∧ a.Quiet b ∧ b.Exhausted ∧ ∀ random,
      (s.next routing capacity now output random).1.session = some (b.resetRound random now) := by
  cases ha : s.session with
  | none =>
    have hsome := h 0
    rw [(next_none ha routing capacity output 0).1] at hsome
    cases hsome
  | some a =>
    rcases next_outcome ha routing capacity output with hstay | ⟨b, hquiet, hexhausted, hreset⟩
    · obtain ⟨b, hb, htarget, -⟩ := hstay (a.target + 1)
      have hsome := h (a.target + 1)
      rw [hb, Option.map_some, htarget] at hsome
      have hne : a.target ≠ a.target + 1 := by bv_omega
      exact absurd (Option.some.inj hsome) hne
    · exact ⟨a, b, rfl, hquiet, hexhausted, fun random => (hreset random).2⟩

end Sampler

end BtSniffer
