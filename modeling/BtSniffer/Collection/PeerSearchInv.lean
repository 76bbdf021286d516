import BtSniffer.Collection.PeerSearch
import BtSniffer.Lib.OrdSet

/-!
# The invariant of a search

* `Search.Inv` — the nodes that were queried have distinct Node IDs and addresses, those that are
  waited for are in flight, and the peers are few and distinct.
* `visit_inv`, `launch_inv`, `accept_inv` — what the parts of a turn keep.
* `launch_progress` — visiting the shortlist changes nothing or settles a candidate.
-/

set_option autoImplicit false

namespace BtSniffer

open Relational

namespace Search

variable {s s' : Search} {hash : SwarmKey} {id : NodeId} {node : DiscoveredNode}

/-- The invariant of the loop. -/
structure Inv (s : Search) : Prop where
  ids : (s.started.map DiscoveredNode.id).Nodup
  tried : (s.started.map DiscoveredNode.address).Nodup
  addresses : ∀ a, (s.addresses.get? a).isSome = true ↔ ∃ node ∈ s.started, node.address = a
  marked : ∀ node ∈ s.started, s.known node.id = true
  settled : ∀ row ∈ s.states.rows, row.2 ≠ .unqueried
  flight : ∀ id, s.stateOf id = .inFlight ↔ ∃ node ∈ s.pending, node.id = id
  split : s.started.Perm (s.pending ++ s.taken)
  counted : s.queries = s.started.length
  few : s.queries ≤ 32
  parallel : s.pending.length ≤ 3
  distinct : s.peers.Nodup
  room : s.peers.length ≤ 32

/-! ## Peers -/

theorem collectPeers_spec : ∀ (found : List SocketAddr) {peers : List SocketAddr}, peers.Nodup →
    peers.length ≤ 32 → (collectPeers peers found).Nodup ∧ (collectPeers peers found).length ≤ 32
  | [], _, hnodup, hlen => ⟨hnodup, hlen⟩
  | peer :: rest, peers, hnodup, hlen => by
    refine collectPeers_spec rest ?_ ?_
    · beta_reduce
      split
      · rename_i h
        rw [List.nodup_append]
        refine ⟨hnodup, List.nodup_singleton _, ?_⟩
        intro a ha b hb heq
        rw [List.mem_singleton.1 hb] at heq
        exact h.2 (heq ▸ ha)
      · exact hnodup
    · beta_reduce
      split
      · rename_i h
        rw [List.length_append, List.length_singleton]
        omega
      · exact hlen

theorem Inv.collect (h : s.Inv) (found : List SocketAddr) :
    Inv { s with peers := collectPeers s.peers found } := by
  obtain ⟨hdistinct, hroom⟩ := collectPeers_spec found h.distinct h.room
  exact { h with distinct := hdistinct, room := hroom }

/-! ## States -/

theorem known_insert (t : Table (NodeId × CandidateState) Prod.fst) (id j : NodeId)
    (state : CandidateState) :
    ((t.insert (id, state)).get? j).isSome = true ↔ j = id ∨ (t.get? j).isSome = true := by
  rw [Table.get?_insert]
  split
  · rename_i heq
    exact ⟨fun _ => .inl heq.symm, fun _ => rfl⟩
  · rename_i hne
    constructor
    · exact .inr
    · rintro (rfl | h)
      · exact absurd rfl hne
      · exact h

/-- A state after an insertion. -/
theorem stateOf_insert (s : Search) (id j : NodeId) (state : CandidateState) :
    stateOf { s with states := s.states.insert (id, state) } j =
      if j = id then state else s.stateOf j := by
  unfold stateOf
  simp only [Table.get?_insert]
  by_cases heq : id = j
  · subst heq
    simp
  · rw [if_neg heq, if_neg (Ne.symm heq)]

theorem settled_insert {t : Table (NodeId × CandidateState) Prod.fst} {state : CandidateState}
    (h : ∀ row ∈ t.rows, row.2 ≠ .unqueried) (hs : state ≠ .unqueried) :
    ∀ row ∈ (t.insert (id, state)).rows, row.2 ≠ .unqueried := by
  intro row hrow
  rcases Table.mem_insert.1 hrow with rfl | ⟨hrow, -⟩
  · exact hs
  · exact h row hrow

/-! ## The shortlist is visited -/

/-- A visited candidate fails, or it is queried. -/
theorem visit_cases (s : Search) (id : NodeId) : (s.visit id = s ∧
      (s.known id = true ∨ s.candidates.get? id = none)) ∨
    (∃ node, s.known id = false ∧ s.candidates.get? id = some node ∧
      (s.addresses.get? node.address).isSome = true ∧
      s.visit id = { s with states := s.states.insert (id, .failed) }) ∨
    (∃ node, s.known id = false ∧ s.candidates.get? id = some node ∧
      ¬(s.addresses.get? node.address).isSome = true ∧
      s.visit id = { s with
        addresses := s.addresses.insertNew node.address
        states := s.states.insert (id, .inFlight)
        queries := s.queries + 1
        pending := s.pending ++ [node]
        started := node :: s.started }) := by
  unfold visit
  split
  · rename_i hknown
    exact .inl ⟨rfl, .inl hknown⟩
  · rename_i hknown
    rw [Bool.not_eq_true] at hknown
    split
    · rename_i hnone
      exact .inl ⟨rfl, .inr hnone⟩
    · rename_i node hnode
      split
      · rename_i htried
        exact .inr (.inl ⟨node, hknown, hnode, htried, rfl⟩)
      · rename_i htried
        exact .inr (.inr ⟨node, hknown, hnode, htried, rfl⟩)

/-- A candidate without a state was not queried. -/
theorem Inv.fresh (h : s.Inv) (hknown : s.known id = false) :
    ∀ node ∈ s.started, node.id ≠ id := by
  rintro node hnode rfl
  rw [h.marked node hnode] at hknown
  cases hknown

theorem Inv.pending_started (h : s.Inv) : ∀ node ∈ s.pending, node ∈ s.started :=
  fun _ hnode => h.split.mem_iff.2 (List.mem_append_left _ hnode)

/-- **A visit keeps the invariant** while there is room for a query. -/
theorem visit_inv (h : s.Inv) (hroom : s.pending.length < 3) (hqueries : s.queries < 32)
    (id : NodeId) : (s.visit id).Inv := by
  rcases visit_cases s id with ⟨heq, -⟩ | ⟨node, hknown, -, -, heq⟩ | ⟨node, hknown, hnode, htried, heq⟩
  · rw [heq]
    exact h
  · have hfresh := h.fresh hknown
    rw [heq]
    refine { h with
      marked := fun node hnode => (known_insert _ _ _ _).2 (.inr (h.marked node hnode))
      settled := settled_insert h.settled (by decide)
      flight := ?_ }
    intro j
    rw [stateOf_insert]
    split
    · rename_i hj
      constructor
      · intro hflight
        cases hflight
      · rintro ⟨node, hnode, hid⟩
        exact absurd (hid.trans hj) (hfresh node (h.pending_started node hnode))
    · exact h.flight j
  · have hfresh := h.fresh hknown
    have hid : node.id = id := (Table.get?_eq_some.1 hnode).2
    rw [heq]
    refine ⟨?_, ?_, ?_, ?_, settled_insert h.settled (by decide), ?_, ?_, ?_, ?_, ?_, h.distinct,
      h.room⟩
    · refine List.nodup_cons.2 ⟨?_, h.ids⟩
      intro hin
      obtain ⟨other, hother, heq'⟩ := List.mem_map.1 hin
      exact hfresh other hother (heq'.trans hid)
    · refine List.nodup_cons.2 ⟨?_, h.tried⟩
      intro hin
      obtain ⟨other, hother, heq'⟩ := List.mem_map.1 hin
      exact htried ((h.addresses _).2 ⟨other, hother, heq'⟩)
    · intro a
      simp only [Table.get?_insertNew, Option.isSome_or, Bool.or_eq_true, h.addresses a]
      constructor
      · rintro (⟨other, hother, heq'⟩ | hnew)
        · exact ⟨other, List.mem_cons_of_mem _ hother, heq'⟩
        · refine ⟨node, List.mem_cons_self .., ?_⟩
          by_contra hne
          simp [hne] at hnew
      · rintro ⟨other, hother, heq'⟩
        rcases List.mem_cons.1 hother with rfl | hother
        · exact .inr (by simp [heq'])
        · exact .inl ⟨other, hother, heq'⟩
    · intro other hother
      refine (known_insert _ _ _ _).2 ?_
      rcases List.mem_cons.1 hother with rfl | hother
      · exact .inl hid
      · exact .inr (h.marked other hother)
    · intro j
      have hstate : stateOf { s with states := s.states.insert (id, .inFlight) } j =
          if j = id then .inFlight else s.stateOf j := stateOf_insert s id j .inFlight
      have hiff := h.flight j
      refine (iff_of_eq (congrArg (· = CandidateState.inFlight) hstate)).trans ?_
      split
      · rename_i hj
        exact ⟨fun _ => ⟨node, by simp, hid.trans hj.symm⟩, fun _ => rfl⟩
      · rename_i hj
        rw [hiff]
        constructor
        · rintro ⟨other, hother, hid'⟩
          exact ⟨other, List.mem_append_left _ hother, hid'⟩
        · rintro ⟨other, hother, hid'⟩
          rcases List.mem_append.1 hother with hother | hother
          · exact ⟨other, hother, hid'⟩
          · rw [List.mem_singleton.1 hother] at hid'
            exact absurd (hid'.symm.trans hid) hj
    · have hperm := (h.split.cons node)
      refine hperm.trans ?_
      rw [List.append_assoc]
      exact (List.perm_middle).symm
    · simp [h.counted]
    · simp only
      omega
    · simp only [List.length_append, List.length_singleton]
      omega

/-- **Visiting the shortlist keeps the invariant.** -/
theorem launch_inv : ∀ (ids : List NodeId) {s : Search}, s.Inv → (launch ids s).Inv
  | [], _, h => h
  | id :: rest, s, h => by
    unfold launch
    split
    · exact h
    · rename_i hroom
      exact launch_inv rest (visit_inv h (by omega) (by omega) id)

/-! ## Progress -/

/-- The candidates without a state. -/
def unknown (s : Search) : List DiscoveredNode :=
  s.candidates.rows.filter (fun node => !s.known node.id)

theorem candidates_visit (s : Search) (id : NodeId) : (s.visit id).candidates = s.candidates := by
  rcases visit_cases s id with ⟨heq, -⟩ | ⟨node, -, -, -, heq⟩ | ⟨node, -, -, -, heq⟩
  all_goals rw [heq]

/-- A visit forgets no state, and leaves one for a candidate. -/
theorem known_visit (s : Search) (id j : NodeId) (h : s.known j = true) :
    (s.visit id).known j = true := by
  rcases visit_cases s id with ⟨heq, -⟩ | ⟨node, -, -, -, heq⟩ | ⟨node, -, -, -, heq⟩
  · rw [heq]
    exact h
  · rw [heq]
    exact (known_insert _ _ _ _).2 (.inr h)
  · rw [heq]
    exact (known_insert _ _ _ _).2 (.inr h)

theorem known_visit_self (s : Search) (id : NodeId) (h : (s.candidates.get? id).isSome = true) :
    (s.visit id).known id = true := by
  rcases visit_cases s id with ⟨heq, hknown | hnone⟩ | ⟨node, -, -, -, heq⟩ | ⟨node, -, -, -, heq⟩
  · rw [heq]
    exact hknown
  · rw [hnone] at h
    cases h
  · rw [heq]
    exact (known_insert _ _ _ _).2 (.inl rfl)
  · rw [heq]
    exact (known_insert _ _ _ _).2 (.inl rfl)

theorem known_launch : ∀ (ids : List NodeId) (s : Search) (j : NodeId), s.known j = true →
    (launch ids s).known j = true
  | [], _, _, h => h
  | id :: rest, s, j, h => by
    unfold launch
    split
    · exact h
    · exact known_launch rest _ j (known_visit s id j h)

/-- A state for one more candidate. -/
theorem unknown_lt (hcand : s'.candidates = s.candidates)
    (hkeep : ∀ j, s.known j = true → s'.known j = true) (hnode : s.candidates.get? id = some node)
    (hold : s.known id = false) (hnew : s'.known id = true) :
    (unknown s').length < (unknown s).length := by
  obtain ⟨hmem, hid⟩ := Table.get?_eq_some.1 hnode
  refine length_lt_of_subset (s'.candidates.nodup_rows.filter _) ?_ (x := node) ?_ ?_
  · intro other hother
    obtain ⟨hother, hunknown⟩ := List.mem_filter.1 hother
    refine List.mem_filter.2 ⟨hcand ▸ hother, ?_⟩
    rw [Bool.not_eq_true'] at hunknown ⊢
    by_contra hknown
    rw [hkeep other.id (by simpa using hknown)] at hunknown
    cases hunknown
  · refine List.mem_filter.2 ⟨hmem, ?_⟩
    rw [hid, hold]
    rfl
  · intro hin
    have hunknown := (List.mem_filter.1 hin).2
    rw [hid, hnew] at hunknown
    cases hunknown

/-- A visit changes nothing or settles a candidate. -/
theorem visit_progress (s : Search) (id : NodeId) :
    s.visit id = s ∨ (unknown (s.visit id)).length < (unknown s).length := by
  rcases visit_cases s id with ⟨heq, -⟩ | ⟨node, hknown, hnode, -, -⟩ | ⟨node, hknown, hnode, -, -⟩
  · exact .inl heq
  all_goals
    exact .inr (unknown_lt (candidates_visit s id) (known_visit s id) hnode hknown
      (known_visit_self s id (by rw [hnode]; rfl)))

/-- **Visiting the shortlist changes nothing or settles a candidate.** -/
theorem launch_progress : ∀ (ids : List NodeId) (s : Search),
    launch ids s = s ∨ (unknown (launch ids s)).length < (unknown s).length
  | [], _ => .inl rfl
  | id :: rest, s => by
    unfold launch
    split
    · exact .inl rfl
    · rcases visit_progress s id with heq | hlt
      · rw [heq]
        exact launch_progress rest s
      · rcases launch_progress rest (s.visit id) with heq' | hlt'
        · rw [heq']
          exact .inr hlt
        · exact .inr (hlt'.trans hlt)

/-- With room left, every candidate of the shortlist was visited. -/
theorem launch_visits : ∀ (ids : List NodeId) (s : Search),
    (launch ids s).pending.length < 3 → (launch ids s).queries < 32 →
    ∀ id ∈ ids, (s.candidates.get? id).isSome = true → (launch ids s).known id = true
  | [], _, _, _ => by
    intro id hid
    cases hid
  | id :: rest, s, hroom, hqueries => by
    unfold launch at hroom hqueries ⊢
    split at hroom
    · rename_i hfull
      split at hqueries
      · omega
      · contradiction
    · rename_i hfull
      rw [if_neg hfull] at hqueries
      rw [if_neg hfull]
      intro j hj hsome
      rcases List.mem_cons.1 hj with rfl | hj
      · exact known_launch rest _ j (known_visit_self s j hsome)
      · refine launch_visits rest (s.visit id) hroom hqueries j hj ?_
        rw [candidates_visit]
        exact hsome

end Search

end BtSniffer
