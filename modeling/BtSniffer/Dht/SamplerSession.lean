import BtSniffer.Dht.SamplerOps

/-!
# Sampling sessions

What the operations on the candidates of a session keep.

* `Tidy` — the candidates are keyed by their Node ID and no more than their capacity, and a node in
  flight is a candidate with the address that was asked.
* `Renews` — the candidates change, what is in flight does not.
* `Quiet` — no candidate is asked.
* `addNodes_tidy` — `add_nodes` keeps the session tidy: it gives up no node in flight, and there is
  always another one to give up.
-/

set_option autoImplicit false

namespace BtSniffer

open Relational

namespace SamplingSession

variable {session session' : SamplingSession} {routing : RoutingTable} {now : Nat}

/-- The candidates are keyed by their Node ID, and a node in flight is a candidate with the address
that was asked. -/
structure Keyed (session : SamplingSession) : Prop where
  key : ∀ row ∈ session.candidates.rows, row.2.node.id = row.1
  kept : ∀ e ∈ session.inFlight.rows, ∃ c, session.candidates.get? e.1 = some (e.1, c) ∧
    c.node.ip = e.2

/-- The invariant of a session. -/
structure Tidy (session : SamplingSession) : Prop where
  keyed : session.Keyed
  parallel : session.inFlight.rows.length ≤ session.config.parallelism
  distinct : (session.inFlight.rows.map Prod.snd).Nodup
  room : session.config.parallelism ≤ session.config.candidateCapacity
  capacity : session.candidates.rows.length ≤ session.config.candidateCapacity

/-- Only the candidates, the target and the pace change. -/
structure Renews (session session' : SamplingSession) : Prop where
  config : session'.config = session.config
  inFlight : session'.inFlight = session.inFlight

theorem Renews.refl (session : SamplingSession) : Renews session session := ⟨rfl, rfl⟩

theorem Renews.trans {s₁ s₂ s₃ : SamplingSession} (h : Renews s₁ s₂) (h' : Renews s₂ s₃) :
    Renews s₁ s₃ :=
  ⟨h'.config.trans h.config, h'.inFlight.trans h.inFlight⟩

/-- A fallback is not given to a candidate that has none. -/
def NoNewFallback (session session' : SamplingSession) : Prop :=
  ∀ id c', session'.candidates.get? id = some (id, c') → c'.kind = .findNodeFallback →
    ∃ c, session.candidates.get? id = some (id, c) ∧ c.kind = .findNodeFallback

theorem NoNewFallback.refl (session : SamplingSession) : NoNewFallback session session :=
  fun _ c h hk => ⟨c, h, hk⟩

theorem NoNewFallback.trans {s₁ s₂ s₃ : SamplingSession} (h : NoNewFallback s₁ s₂)
    (h' : NoNewFallback s₂ s₃) : NoNewFallback s₁ s₃ := by
  intro id c'' hc'' hk
  obtain ⟨c', hc', hk'⟩ := h' id c'' hc'' hk
  exact h id c' hc' hk'

/-- No candidate is asked: the configuration stays, no query is counted and no candidate becomes a
visited one. -/
structure Quiet (session session' : SamplingSession) : Prop where
  config : session'.config = session.config
  queries : session'.queries ≤ session.queries
  visited : ∀ row' ∈ session'.candidates.rows, row'.2.visited = true →
    ∃ row ∈ session.candidates.rows, row.2.visited = true

theorem Quiet.refl (session : SamplingSession) : Quiet session session :=
  ⟨rfl, le_rfl, fun row hrow hvisited => ⟨row, hrow, hvisited⟩⟩

theorem Quiet.trans {s₁ s₂ s₃ : SamplingSession} (h : Quiet s₁ s₂) (h' : Quiet s₂ s₃) :
    Quiet s₁ s₃ where
  config := h'.config.trans h.config
  queries := h'.queries.trans h.queries
  visited := by
    intro row₃ hrow₃ hvisited₃
    obtain ⟨row₂, hrow₂, hvisited₂⟩ := h'.visited row₃ hrow₃ hvisited₃
    exact h.visited row₂ hrow₂ hvisited₂

/-- Some candidates go. -/
theorem Quiet.of_subset {candidates : Table CandidateRow Prod.fst}
    (h : candidates.rows ⊆ session.candidates.rows) :
    Quiet session { session with candidates := candidates } :=
  ⟨rfl, le_rfl, fun row hrow hvisited => ⟨row, h hrow, hvisited⟩⟩

theorem isInFlight_iff {id : NodeId} :
    session.isInFlight id = true ↔ ∃ ip, (id, ip) ∈ session.inFlight.rows := by
  unfold isInFlight
  rw [Option.isSome_iff_exists]
  constructor
  · rintro ⟨e, he⟩
    obtain ⟨hmem, rfl⟩ := Table.get?_eq_some.1 he
    exact ⟨e.2, hmem⟩
  · rintro ⟨ip, hmem⟩
    exact ⟨(id, ip), Table.get?_key hmem⟩

theorem isBusy_iff {ip : IpAddr} :
    session.isBusy ip = true ↔ ∃ id, (id, ip) ∈ session.inFlight.rows := by
  unfold isBusy
  rw [Table.any_eq_true]
  constructor
  · rintro ⟨e, hmem, he⟩
    have hip := of_decide_eq_true he
    exact ⟨e.1, hip ▸ hmem⟩
  · rintro ⟨id, hmem⟩
    exact ⟨(id, ip), hmem, by simp⟩

/-! ## A candidate is inserted -/

/-- A candidate that is inserted keeps the session keyed if its node is not in flight. -/
theorem keyed_insert (h : session.Keyed) {id : NodeId} {c : Candidate} (hid : c.node.id = id)
    (hflight : session.isInFlight id = false) :
    Keyed { session with candidates := session.candidates.insert (id, c) } where
  key := by
    intro row hrow
    rcases Table.mem_insert.1 hrow with rfl | ⟨hrow, -⟩
    · exact hid
    · exact h.key row hrow
  kept := by
    intro e he
    obtain ⟨c', hc', hip⟩ := h.kept e he
    refine ⟨c', ?_, hip⟩
    rw [Table.get?_insert, if_neg, hc']
    intro hne
    have hin : session.isInFlight id = true := isInFlight_iff.2 ⟨e.2, by
      rwa [show id = e.1 from hne]⟩
    rw [hflight] at hin
    cases hin

/-- What `add_nodes` does with one node. -/
theorem addNode_cases (session : SamplingSession) (routing : RoutingTable) (now : Nat)
    (node : DiscoveredNode) :
    session.addNode routing now node = session ∨
    ∃ id c, c.node.id = id ∧ session.addNode routing now node =
        { session with candidates := session.candidates.insert (id, c) } ∧
      ((session.candidates.get? id = none ∧ c.kind = .sample ∧ c.visited = false) ∨
        ∃ row, session.candidates.get? id = some row ∧ c.kind = row.2.kind ∧
          c.visited = row.2.visited ∧ session.isInFlight id = false) := by
  unfold addNode
  split
  · exact .inl rfl
  · simp only
    generalize (routing.contact node.id).elim node (fun c => ⟨c.id, c.address⟩) = known
    split
    · exact .inl rfl
    · split
      · rename_i hget
        exact .inr ⟨known.id, .new known, rfl, rfl, .inl ⟨hget, rfl, rfl⟩⟩
      · rename_i row hget
        split
        · rename_i hverified
          rw [Bool.and_eq_true, Bool.not_eq_true'] at hverified
          exact .inr ⟨known.id, { row.2 with node := known }, rfl, rfl,
            .inr ⟨row, hget, rfl, rfl, hverified.2⟩⟩
        · exact .inl rfl

/-- No candidate in flight is missing, so a node without a candidate is not in flight. -/
theorem not_inFlight_of_none (h : session.Keyed) {id : NodeId}
    (hnone : session.candidates.get? id = none) : session.isInFlight id = false := by
  rw [Bool.eq_false_iff]
  intro hin
  obtain ⟨ip, hmem⟩ := isInFlight_iff.1 hin
  obtain ⟨c, hc, -⟩ := h.kept _ hmem
  rw [hnone] at hc
  cases hc

theorem addNode_keyed (h : session.Keyed) (node : DiscoveredNode) :
    (session.addNode routing now node).Keyed := by
  rcases addNode_cases session routing now node with hsame | ⟨id, c, hid, hnew, hcase⟩
  · rw [hsame]
    exact h
  · rw [hnew]
    refine keyed_insert h hid ?_
    rcases hcase with ⟨hnone, -⟩ | ⟨row, -, -, -, hflight⟩
    · exact not_inFlight_of_none h hnone
    · exact hflight

theorem addNode_renews (node : DiscoveredNode) :
    Renews session (session.addNode routing now node) := by
  rcases addNode_cases session routing now node with hsame | ⟨id, c, -, hnew, -⟩
  · rw [hsame]
    exact .refl session
  · rw [hnew]
    exact ⟨rfl, rfl⟩

theorem addNode_fallback (node : DiscoveredNode) :
    NoNewFallback session (session.addNode routing now node) := by
  rcases addNode_cases session routing now node with hsame | ⟨id, c, -, hnew, hcase⟩
  · rw [hsame]
    exact .refl session
  · rw [hnew]
    intro id' c' hc' hk
    rw [Table.get?_insert] at hc'
    split at hc'
    · rename_i hid
      cases hc'
      rcases hcase with ⟨-, hsample, -⟩ | ⟨row, hrow, hkind, -⟩
      · rw [hsample] at hk
        cases hk
      · obtain ⟨key, old⟩ := row
        obtain rfl : key = id := (Table.get?_eq_some.1 hrow).2
        exact ⟨old, hrow, hkind.symm.trans hk⟩
    · exact ⟨c', hc', hk⟩

theorem addNode_quiet (node : DiscoveredNode) :
    Quiet session (session.addNode routing now node) := by
  rcases addNode_cases session routing now node with hsame | ⟨id, c, -, hnew, hcase⟩
  · rw [hsame]
    exact .refl session
  · rw [hnew]
    refine ⟨rfl, le_rfl, ?_⟩
    intro row' hrow' hvisited
    rcases Table.mem_insert.1 hrow' with rfl | ⟨hold, -⟩
    · rcases hcase with ⟨-, -, hfresh⟩ | ⟨row, hrow, -, hsame, -⟩
      · rw [hfresh] at hvisited
        cases hvisited
      · exact ⟨row, (Table.get?_eq_some.1 hrow).1, hsame.symm.trans hvisited⟩
    · exact ⟨row', hold, hvisited⟩

/-! ## Candidates are given up -/

/-- The candidate that is given up is not in flight. -/
theorem worst_spec {id : NodeId} (h : session.worst = some id) :
    session.isInFlight id = false ∧ ∃ row ∈ session.candidates.rows, row.2.node.id = id := by
  unfold worst at h
  obtain ⟨c, hc, rfl⟩ := Option.map_eq_some_iff.1 h
  have hmem := List.argmax_mem hc
  obtain ⟨hc', hflight⟩ := List.mem_filter.1 hmem
  obtain ⟨row, hrow, rfl⟩ := List.mem_map.1 hc'
  exact ⟨by simpa using hflight, row, hrow, rfl⟩

theorem worst_none (h : session.worst = none) :
    ∀ row ∈ session.candidates.rows, session.isInFlight row.2.node.id = true := by
  unfold worst at h
  rw [Option.map_eq_none_iff, List.argmax_eq_none, List.filter_eq_nil_iff] at h
  intro row hrow
  simpa using h row.2 (List.mem_map.2 ⟨row, hrow, rfl⟩)

theorem keyed_erase (h : session.Keyed) {id : NodeId} (hflight : session.isInFlight id = false) :
    Keyed { session with candidates := session.candidates.erase id } where
  key := fun row hrow => h.key row (Table.mem_erase.1 hrow).1
  kept := by
    intro e he
    obtain ⟨c, hc, hip⟩ := h.kept e he
    refine ⟨c, ?_, hip⟩
    rw [Table.get?_erase, if_neg, hc]
    rintro rfl
    have hin : session.isInFlight e.1 = true := isInFlight_iff.2 ⟨e.2, he⟩
    rw [hflight] at hin
    cases hin

theorem evict_renews : ∀ (fuel : Nat) (session : SamplingSession), Renews session (session.evict fuel)
  | 0, session => .refl session
  | fuel + 1, session => by
    rw [evict]
    split
    · split
      · rename_i id _
        have hrest := evict_renews fuel { session with candidates := session.candidates.erase id }
        exact ⟨hrest.config, hrest.inFlight⟩
      · exact .refl session
    · exact .refl session

theorem evict_keyed : ∀ (fuel : Nat) {session : SamplingSession}, session.Keyed →
    (session.evict fuel).Keyed
  | 0, session, h => h
  | fuel + 1, session, h => by
    rw [evict]
    split
    · split
      · rename_i id hworst
        exact evict_keyed fuel (keyed_erase h (worst_spec hworst).1)
      · exact h
    · exact h

theorem evict_fallback : ∀ (fuel : Nat) (session : SamplingSession),
    NoNewFallback session (session.evict fuel)
  | 0, session => .refl session
  | fuel + 1, session => by
    rw [evict]
    split
    · split
      · rename_i id _
        refine NoNewFallback.trans ?_ (evict_fallback fuel _)
        intro id' c' hc' hk
        rw [Table.get?_erase] at hc'
        split at hc'
        · cases hc'
        · exact ⟨c', hc', hk⟩
      · exact .refl session
    · exact .refl session

theorem evict_quiet : ∀ (fuel : Nat) (session : SamplingSession), Quiet session (session.evict fuel)
  | 0, session => .refl session
  | fuel + 1, session => by
    rw [evict]
    split
    · split
      · rename_i id _
        refine Quiet.trans (.of_subset ?_) (evict_quiet fuel _)
        exact fun row hrow => (Table.mem_erase.1 hrow).1
      · exact .refl session
    · exact .refl session

/-- If all candidates are in flight, they are no more than the requests in flight. -/
theorem candidates_le_inFlight (h : session.Keyed)
    (hall : ∀ row ∈ session.candidates.rows, session.isInFlight row.2.node.id = true) :
    session.candidates.rows.length ≤ session.inFlight.rows.length := by
  have hsub : session.candidates.rows.map Prod.fst ⊆ session.inFlight.rows.map Prod.fst := by
    intro id hid
    obtain ⟨row, hrow, rfl⟩ := List.mem_map.1 hid
    obtain ⟨ip, hmem⟩ := isInFlight_iff.1 (hall row hrow)
    rw [h.key row hrow] at hmem
    exact List.mem_map.2 ⟨_, hmem, rfl⟩
  have hle := (session.candidates.nodup.subperm hsub).length_le
  simpa using hle

/-- **The loop ends below the capacity**: what is left when there is nothing to give up is in
flight. -/
theorem evict_capacity : ∀ (fuel : Nat) {session : SamplingSession}, session.Keyed →
    session.candidates.rows.length ≤ fuel + session.config.candidateCapacity →
    session.inFlight.rows.length ≤ session.config.candidateCapacity →
    (session.evict fuel).candidates.rows.length ≤ session.config.candidateCapacity
  | 0, session, _, hfuel, _ => by
    rw [evict]
    omega
  | fuel + 1, session, h, hfuel, hflight => by
    rw [evict]
    split
    · split
      · rename_i id hworst
        obtain ⟨hid, row, hrow, hrowid⟩ := worst_spec hworst
        have hget : session.candidates.get? id = some row := by
          rw [← hrowid, h.key row hrow]
          exact Table.get?_key hrow
        have hlen := Table.length_erase_some hget
        have hrest : (session.candidates.erase id).rows.length ≤
            fuel + session.config.candidateCapacity := by omega
        exact evict_capacity fuel (keyed_erase h hid) hrest hflight
      · rename_i hworst
        exact (candidates_le_inFlight h (worst_none hworst)).trans hflight
    · omega

/-! ## Nodes are added -/

theorem fold_keyed {nodes : List DiscoveredNode} : ∀ {session : SamplingSession}, session.Keyed →
    (nodes.foldl (fun session node => session.addNode routing now node) session).Keyed := by
  induction nodes with
  | nil => exact fun h => h
  | cons node nodes ih => exact fun h => ih (addNode_keyed h node)

theorem fold_renews (nodes : List DiscoveredNode) : ∀ session : SamplingSession, Renews session
    (nodes.foldl (fun session node => session.addNode routing now node) session) := by
  induction nodes with
  | nil => exact Renews.refl
  | cons node nodes ih => exact fun session => (addNode_renews node).trans (ih _)

theorem fold_fallback (nodes : List DiscoveredNode) : ∀ (session : SamplingSession),
    NoNewFallback session
      (nodes.foldl (fun session node => session.addNode routing now node) session) := by
  induction nodes with
  | nil => exact NoNewFallback.refl
  | cons node nodes ih => exact fun session => (addNode_fallback node).trans (ih _)

theorem fold_quiet (nodes : List DiscoveredNode) : ∀ session : SamplingSession, Quiet session
    (nodes.foldl (fun session node => session.addNode routing now node) session) := by
  induction nodes with
  | nil => exact Quiet.refl
  | cons node nodes ih => exact fun session => (addNode_quiet node).trans (ih _)

theorem addNodes_renews (nodes : List DiscoveredNode) :
    Renews session (session.addNodes nodes routing now) :=
  (fold_renews nodes session).trans (evict_renews _ _)

theorem addNodes_fallback (nodes : List DiscoveredNode) :
    NoNewFallback session (session.addNodes nodes routing now) :=
  (fold_fallback nodes session).trans (evict_fallback _ _)

theorem addNodes_quiet (nodes : List DiscoveredNode) :
    Quiet session (session.addNodes nodes routing now) :=
  (fold_quiet nodes session).trans (evict_quiet _ _)

/-- **`add_nodes` keeps a session tidy.** -/
theorem addNodes_tidy (h : session.Tidy) (nodes : List DiscoveredNode) :
    (session.addNodes nodes routing now).Tidy := by
  have hrenews : Renews session (session.addNodes nodes routing now) := addNodes_renews nodes
  have hfold := @fold_renews routing now nodes session
  have hkeyed := @fold_keyed routing now nodes session h.keyed
  have hflight : session.inFlight.rows.length ≤ session.config.candidateCapacity :=
    h.parallel.trans h.room
  refine ⟨evict_keyed _ hkeyed, ?_, ?_, ?_, ?_⟩
  · rw [hrenews.inFlight, hrenews.config]
    exact h.parallel
  · rw [hrenews.inFlight]
    exact h.distinct
  · rw [hrenews.config]
    exact h.room
  · rw [hrenews.config]
    unfold addNodes
    simp only
    have hle := evict_capacity _ hkeyed (Nat.le_add_right _ _)
      (by rw [hfold.inFlight, hfold.config]; exact hflight)
    rwa [hfold.config] at hle

end SamplingSession

end BtSniffer
