import BtSniffer.Collection.PeerSearchInv

/-!
# Runs of a search

* `turn_cases` — what one turn does: it ends the search, takes a result, or settles a candidate.
* `after_ends` — every search ends.
* `peer_search` — the bounds, the result and the convergence of every search.
-/

set_option autoImplicit false

namespace BtSniffer

open Relational

/-- The search after a turn. -/
def SearchTurn.search : SearchTurn → Search
  | .running s => s
  | .finished s _ => s

namespace Search

variable {s s' : Search} {hash : SwarmKey} {node : DiscoveredNode}
  {answer : DiscoveredNode → Except QueryError GetPeersResponse}

/-! ## A result is taken -/

theorem Inv.pending_nodup (h : s.Inv) : (s.pending.map DiscoveredNode.id).Nodup := by
  have hall := (h.split.map DiscoveredNode.id).nodup_iff.1 h.ids
  rw [List.map_append] at hall
  exact (List.nodup_append.1 hall).1

theorem Inv.mem_erase (h : s.Inv) {other : DiscoveredNode} :
    other ∈ s.pending.erase node ↔ other ≠ node ∧ other ∈ s.pending :=
  (h.pending_nodup.of_map _).mem_erase_iff

theorem Inv.split_taken (h : s.Inv) (hnode : node ∈ s.pending) :
    s.started.Perm (s.pending.erase node ++ node :: s.taken) := by
  refine h.split.trans ?_
  refine ((List.perm_cons_erase hnode).append_right s.taken).trans ?_
  exact List.perm_middle.symm

/-- **The result of a query keeps the invariant.** -/
theorem Inv.take (h : s.Inv) (hnode : node ∈ s.pending) {state : CandidateState}
    (hunqueried : state ≠ .unqueried) (hflight : state ≠ .inFlight) :
    Inv { s with
      pending := s.pending.erase node
      taken := node :: s.taken
      states := s.states.insert (node.id, state) } := by
  refine { h with
    marked := fun other hother => (known_insert _ _ _ _).2 (.inr (h.marked other hother))
    settled := settled_insert h.settled hunqueried
    flight := ?_
    split := h.split_taken hnode
    parallel := (List.length_erase_le).trans h.parallel }
  intro j
  have hstate : stateOf { s with states := s.states.insert (node.id, state) } j =
      if j = node.id then state else s.stateOf j := stateOf_insert s node.id j state
  refine (iff_of_eq (congrArg (· = CandidateState.inFlight) hstate)).trans ?_
  split
  · rename_i hj
    refine iff_of_false hflight ?_
    rintro ⟨other, hother, hid⟩
    obtain ⟨hne, hother⟩ := h.mem_erase.1 hother
    exact hne (List.inj_on_of_nodup_map h.pending_nodup hother hnode (hid.trans hj))
  · rename_i hj
    rw [h.flight j]
    constructor
    · rintro ⟨other, hother, hid⟩
      refine ⟨other, h.mem_erase.2 ⟨?_, hother⟩, hid⟩
      rintro rfl
      exact hj hid.symm
    · rintro ⟨other, hother, hid⟩
      exact ⟨other, (h.mem_erase.1 hother).2, hid⟩

/-- What the end of a search shares with its turns. -/
structure Bounds (s : Search) : Prop where
  ids : (s.started.map DiscoveredNode.id).Nodup
  tried : (s.started.map DiscoveredNode.address).Nodup
  counted : s.queries = s.started.length
  few : s.queries ≤ 32
  parallel : s.pending.length ≤ 3
  distinct : s.peers.Nodup
  room : s.peers.length ≤ 32

theorem Inv.bounds (h : s.Inv) : s.Bounds :=
  ⟨h.ids, h.tried, h.counted, h.few, h.parallel, h.distinct, h.room⟩

/-- The error that ended a search, if one did: it is the result of a query that was taken. -/
def Control (answer : DiscoveredNode → Except QueryError GetPeersResponse) (node : DiscoveredNode) :
    Prop :=
  ∃ e, answer node = .error e ∧ e.isControl = true

/-- The shortlist has succeeded. -/
def Converged (hash : SwarmKey) (s : Search) : Prop :=
  ∀ id ∈ s.closest hash, s.stateOf id = .succeeded

/-- What one turn does. -/
inductive Turned (hash : SwarmKey) (answer : DiscoveredNode → Except QueryError GetPeersResponse)
    (s : Search) : SearchTurn → Prop
  | full {s' : Search} (hbounds : s'.Bounds) (htaken : s'.taken = s.taken)
      (hfull : 32 ≤ s'.peers.length) : Turned hash answer s (.finished s' (.ok ()))
  | done {s' : Search} (hbounds : s'.Bounds) (htaken : s'.taken = s.taken)
      (hdone : s'.queries < 32 → Converged hash s') : Turned hash answer s (.finished s' (.ok ()))
  | fault {s' : Search} {node : DiscoveredNode} {e : QueryError} (hbounds : s'.Bounds)
      (htaken : s'.taken = node :: s.taken) (he : answer node = .error e)
      (hcontrol : e.isControl = true) : Turned hash answer s (.finished s' (.error e))
  | take {s' : Search} {node : DiscoveredNode} (hinv : s'.Inv) (htaken : s'.taken = node :: s.taken)
      (hok : ¬Control answer node) : Turned hash answer s (.running s')
  | retry {s' : Search} (hinv : s'.Inv) (htaken : s'.taken = s.taken)
      (hless : (unknown s').length < (unknown s).length) : Turned hash answer s (.running s')

/-- A query has finished. -/
theorem finish_turned {o : Search} (h : s.Inv) (hnode : node ∈ s.pending)
    (htaken : s.taken = o.taken) (during : List SocketAddr) :
    Turned hash answer o (s.finish hash answer node during) := by
  unfold finish
  cases hanswer : answer node with
  | error e =>
    simp only
    split
    · rename_i hcontrol
      refine .fault ⟨h.ids, h.tried, h.counted, h.few, ?_, h.distinct, h.room⟩ ?_ hanswer hcontrol
      · exact (List.length_erase_le).trans h.parallel
      · exact congrArg (node :: ·) htaken
    · rename_i hcontrol
      refine .take (h.take hnode (by decide) (by decide)) (congrArg (node :: ·) htaken) ?_
      rintro ⟨e', he', hcontrol'⟩
      rw [hanswer] at he'
      cases he'
      exact hcontrol hcontrol'
  | ok response =>
    refine @Turned.take hash answer o _ node ?_ (congrArg (node :: ·) htaken) ?_
    · have hstate : ∀ b : Bool, (if b = true then CandidateState.succeeded else .failed) ≠ .unqueried ∧
          (if b = true then CandidateState.succeeded else .failed) ≠ .inFlight := by decide
      obtain ⟨hunqueried, hflight⟩ := hstate (trustedId node.id node.address.ip)
      have hnext := (h.take hnode hunqueried hflight)
      exact { (hnext.collect during).collect response.peers with }
    · rintro ⟨e', he', -⟩
      rw [hanswer] at he'
      cases he'

/-! ## One turn -/

/-- A candidate of the shortlist is a candidate that did not fail. -/
theorem mem_closest {id : NodeId} (h : id ∈ s.closest hash) :
    (s.candidates.get? id).isSome = true ∧ s.stateOf id ≠ .failed := by
  obtain ⟨state, hmem, hstate⟩ := mem_closestValid h
  obtain ⟨node, hnode, heq⟩ := List.mem_map.1 hmem
  cases heq
  exact ⟨by rw [Table.get?_key hnode]; rfl, hstate⟩

theorem known_of_state {id : NodeId} (h : s.Inv) (hknown : s.known id = true) :
    s.stateOf id ≠ .unqueried := by
  obtain ⟨row, hrow⟩ := Option.isSome_iff_exists.1 hknown
  unfold stateOf
  rw [hrow]
  exact h.settled row (Table.get?_eq_some.1 hrow).1

/-- A search that waits for nothing and leaves out no candidate of the shortlist has converged. -/
theorem converged_of_known (h : s.Inv) (hpending : s.pending = [])
    (hall : ∀ id ∈ s.closest hash, s.known id = true) : Converged hash s := by
  intro id hid
  have hunqueried := known_of_state h (hall id hid)
  have hfailed := (mem_closest hid).2
  have hflight : s.stateOf id ≠ .inFlight := by
    intro hstate
    obtain ⟨node, hnode, -⟩ := (h.flight id).1 hstate
    rw [hpending] at hnode
    cases hnode
  cases hstate : s.stateOf id with
  | unqueried => exact absurd hstate hunqueried
  | inFlight => exact absurd hstate hflight
  | succeeded => rfl
  | failed => exact absurd hstate hfailed

theorem pending_of_none {pending : List DiscoveredNode} {choice : Nat}
    (h : pending[choice % pending.length]? = none) : pending = [] := by
  by_contra hne
  have hpos := List.length_pos_iff.2 hne
  rw [List.getElem?_eq_none_iff] at h
  exact absurd (Nat.mod_lt choice hpos) (Nat.not_lt.2 h)

theorem taken_launch : ∀ (ids : List NodeId) (s : Search), (launch ids s).taken = s.taken
  | [], _ => rfl
  | id :: rest, s => by
    unfold launch
    split
    · rfl
    · rw [taken_launch rest]
      rcases visit_cases s id with ⟨heq, -⟩ | ⟨node, -, -, -, heq⟩ | ⟨node, -, -, -, heq⟩
      all_goals rw [heq]

/-- **What one turn does.** -/
theorem turn_turned (h : s.Inv) (move : SearchMove) :
    Turned hash answer s (s.turn hash answer move) := by
  have hs₀ : Inv { s with peers := collectPeers s.peers move.before } := h.collect move.before
  unfold turn
  simp only
  generalize hgen : ({ s with peers := collectPeers s.peers move.before } : Search) = s₀ at hs₀
  have htaken₀ : s₀.taken = s.taken := by rw [← hgen]
  have hunknown₀ : unknown s₀ = unknown s := by
    rw [← hgen]
    rfl
  have hpeers : s₀.peers = collectPeers s.peers move.before := by rw [← hgen]
  rw [← hpeers]
  split
  · rename_i hfull
    exact .full hs₀.bounds htaken₀ hfull
  · have hs₁ := launch_inv (s₀.closest hash) hs₀
    have htaken₁ := (taken_launch (s₀.closest hash) s₀).trans htaken₀
    split
    · rename_i hnone
      have hpending := pending_of_none hnone
      split
      · rename_i hretry
        refine .retry hs₁ htaken₁ ?_
        rw [← hunknown₀]
        refine (launch_progress (s₀.closest hash) s₀).resolve_left ?_
        -- nothing has changed, so every candidate of the shortlist had a state
        intro hsame
        obtain ⟨id, hid, hunknown⟩ := List.any_eq_true.1 hretry.2
        have hknown := launch_visits (s₀.closest hash) s₀ (by rw [hpending]; exact Nat.zero_lt_succ 2)
          hretry.1 id (by rw [hsame] at hid; exact hid) (by
            rw [hsame] at hid
            exact (mem_closest hid).1)
        rw [hknown] at hunknown
        cases hunknown
      · rename_i hretry
        refine .done hs₁.bounds htaken₁ ?_
        intro hqueries
        refine converged_of_known hs₁ hpending ?_
        intro id hid
        by_contra hunknown
        refine hretry ⟨hqueries, List.any_eq_true.2 ⟨id, hid, ?_⟩⟩
        simpa using hunknown
    · rename_i node hnode
      exact finish_turned hs₁ (List.mem_of_getElem? hnode) htaken₁ move.during

/-! ## Runs -/

theorem start_inv (seeds : List DiscoveredNode) : (start seeds).Inv := by
  refine ⟨List.nodup_nil, List.nodup_nil, ?_, ?_, ?_, ?_, .refl [], rfl, Nat.zero_le _, Nat.zero_le _,
    List.nodup_nil, Nat.zero_le _⟩
  · intro a
    constructor
    · intro h
      cases h
    · rintro ⟨node, hnode, -⟩
      cases hnode
  · intro node hnode
    cases hnode
  · intro row hrow
    cases hrow
  · intro id
    constructor
    · intro h
      cases h
    · rintro ⟨node, hnode, -⟩
      cases hnode

/-! ## Successful answers -/

/-- A candidate that has succeeded was queried and has answered. -/
def Answered (answer : DiscoveredNode → Except QueryError GetPeersResponse) (s : Search) : Prop :=
  ∀ id, s.stateOf id = .succeeded →
    ∃ node ∈ s.taken, node.id = id ∧ ∃ response, answer node = .ok response

theorem visit_answered (h : Answered answer s) (id : NodeId) : Answered answer (s.visit id) := by
  rcases visit_cases s id with ⟨heq, -⟩ | ⟨node, -, -, -, heq⟩ | ⟨node, -, -, -, heq⟩
  · rw [heq]
    exact h
  · rw [heq]
    intro j hj
    rw [stateOf_insert] at hj
    split at hj
    · cases hj
    · exact h j hj
  · rw [heq]
    intro j hj
    have hstate : stateOf { s with states := s.states.insert (id, .inFlight) } j = .succeeded := hj
    rw [stateOf_insert] at hstate
    split at hstate
    · cases hstate
    · exact h j hstate

theorem launch_answered : ∀ (ids : List NodeId) {s : Search}, Answered answer s →
    Answered answer (launch ids s)
  | [], _, h => h
  | id :: rest, s, h => by
    unfold launch
    split
    · exact h
    · exact launch_answered rest (visit_answered h id)

/-- The result of a query keeps the successful answers. -/
theorem finish_answered (h : Answered answer s) (node : DiscoveredNode) (during : List SocketAddr) :
    Answered answer (s.finish hash answer node during).search := by
  have hold : Answered answer
      { s with pending := s.pending.erase node, taken := node :: s.taken } := by
    intro j hj
    obtain ⟨other, hother, hanswer⟩ := h j hj
    exact ⟨other, List.mem_cons_of_mem _ hother, hanswer⟩
  unfold finish
  cases hanswer : answer node with
  | error e =>
    simp only
    split
    · exact hold
    · intro j hj
      have hstate : stateOf { s with states := s.states.insert (node.id, .failed) } j = .succeeded := hj
      rw [stateOf_insert] at hstate
      split at hstate
      · cases hstate
      · exact hold j hstate
  | ok response =>
    intro j hj
    have hstate : stateOf { s with states := s.states.insert (node.id,
        if trustedId node.id node.address.ip then .succeeded else .failed) } j = .succeeded := hj
    rw [stateOf_insert] at hstate
    split at hstate
    · rename_i heq
      exact ⟨node, List.mem_cons_self .., heq.symm, response, hanswer⟩
    · exact hold j hstate

/-- **A turn keeps the successful answers.** -/
theorem turn_answered (h : Answered answer s) (move : SearchMove) :
    Answered answer (s.turn hash answer move).search := by
  have h₀ : Answered answer { s with peers := collectPeers s.peers move.before } := h
  unfold turn
  simp only
  split
  · exact h₀
  · split
    · split
      · exact launch_answered _ h₀
      · exact launch_answered _ h₀
    · exact finish_answered (launch_answered _ h₀) _ move.during

/-! ## The result of a search -/

/-- What holds of the loop after any number of turns. -/
def Outcome (hash : SwarmKey) (answer : DiscoveredNode → Except QueryError GetPeersResponse) :
    SearchTurn → Prop
  | .running s => s.Inv ∧ ∀ node ∈ s.taken, ¬Control answer node
  | .finished s (.ok ()) => s.Bounds ∧ (∀ node ∈ s.taken, ¬Control answer node) ∧
      (s.queries < 32 → s.peers.length < 32 → Converged hash s)
  | .finished s (.error e) => s.Bounds ∧
      ∃ node ∈ s.taken, answer node = .error e ∧ e.isControl = true

theorem Turned.outcome {next : SearchTurn} (h : Turned hash answer s next)
    (hclean : ∀ node ∈ s.taken, ¬Control answer node) : Outcome hash answer next := by
  cases h with
  | full hbounds htaken hfull =>
    exact ⟨hbounds, htaken ▸ hclean, fun _ hroom => absurd hfull (Nat.not_le_of_lt hroom)⟩
  | done hbounds htaken hdone => exact ⟨hbounds, htaken ▸ hclean, fun hqueries _ => hdone hqueries⟩
  | @fault s' node e hbounds htaken he hcontrol =>
    exact ⟨hbounds, node, htaken ▸ List.mem_cons_self .., he, hcontrol⟩
  | take hinv htaken hok =>
    refine ⟨hinv, ?_⟩
    intro other hother
    rw [htaken] at hother
    rcases List.mem_cons.1 hother with rfl | hother
    · exact hok
    · exact hclean other hother
  | retry hinv htaken _ => exact ⟨hinv, htaken ▸ hclean⟩

/-- **The loop after any number of turns.** -/
theorem after_outcome (moves : Nat → SearchMove) (seeds : List DiscoveredNode) : ∀ n,
    Outcome hash answer (after hash answer moves (start seeds) n) ∧
      Answered answer (after hash answer moves (start seeds) n).search
  | 0 => by
    refine ⟨⟨start_inv seeds, ?_⟩, ?_⟩
    · intro node hnode
      cases hnode
    · intro id hid
      cases hid
  | n + 1 => by
    obtain ⟨houtcome, hanswered⟩ := after_outcome moves seeds n
    unfold after
    cases hprev : after hash answer moves (start seeds) n with
    | running s =>
      rw [hprev] at houtcome hanswered
      exact ⟨(turn_turned houtcome.1 (moves n)).outcome houtcome.2, turn_answered hanswered (moves n)⟩
    | finished s result =>
      rw [hprev] at houtcome hanswered
      exact ⟨houtcome, hanswered⟩

theorem Inv.taken_le (h : s.Inv) : s.taken.length ≤ 32 := by
  have hlen := h.split.length_eq
  have hcounted := h.counted
  have hfew := h.few
  rw [List.length_append] at hlen
  omega

/-- **Every search ends**: a turn that goes on takes one of at most 32 results, or settles one of the
candidates. -/
theorem after_ends (moves : Nat → SearchMove) (o s : Search) (n : Nat) (h : s.Inv)
    (hs : after hash answer moves o n = .running s) :
    ∃ m s' result, after hash answer moves o m = .finished s' result := by
  have hturn := @turn_turned s hash answer h (moves n)
  have hnext : after hash answer moves o (n + 1) = s.turn hash answer (moves n) := by
    rw [after, hs]
  cases hcase : s.turn hash answer (moves n) with
  | finished s' result => exact ⟨n + 1, s', result, hnext.trans hcase⟩
  | running s' =>
    rw [hcase] at hturn hnext
    cases hturn with
    | take hinv htaken _ =>
      have hle := hinv.taken_le
      have hlen : s'.taken.length = s.taken.length + 1 := by
        rw [htaken, List.length_cons]
      exact after_ends moves o s' (n + 1) hinv hnext
    | retry hinv htaken hless => exact after_ends moves o s' (n + 1) hinv hnext
termination_by (32 - s.taken.length, (unknown s).length)
decreasing_by
  · exact Prod.Lex.left _ _ (by omega)
  · rw [htaken]
    exact Prod.Lex.right _ hless

theorem Outcome.bounds {next : SearchTurn} (h : Outcome hash answer next) : next.search.Bounds := by
  match next, h with
  | .running s, h => exact h.1.bounds
  | .finished s (.ok ()), h => exact h.1
  | .finished s (.error e), h => exact h.1

/-- **The search for peers.** For all seeds, answers, orders of the answers and peers of the other
family: the search ends; it starts at most 32 queries with at most 3 outstanding, no Node ID and no
address twice; the shared peers are distinct and at most 32; it fails exactly when a result that was
taken is an error of the dispatcher; and if it returns with fewer queries and fewer peers, the shortlist
of the candidates that are left has answered successfully. -/
theorem peer_search (hash : SwarmKey) (seeds : List DiscoveredNode)
    (answer : DiscoveredNode → Except QueryError GetPeersResponse) (moves : Nat → SearchMove) :
    (∃ n s result, after hash answer moves (start seeds) n = .finished s result) ∧
    (∀ n s, (after hash answer moves (start seeds) n).search = s →
      s.started.length ≤ 32 ∧ s.pending.length ≤ 3 ∧
      (s.started.map DiscoveredNode.id).Nodup ∧ (s.started.map DiscoveredNode.address).Nodup ∧
      s.peers.Nodup ∧ s.peers.length ≤ 32) ∧
    (∀ n s, after hash answer moves (start seeds) n = .running s →
      (launch (s.closest hash) s).pending.length ≤ 3) ∧
    (∀ n s result, after hash answer moves (start seeds) n = .finished s result →
      ((∃ e, result = .error e) ↔ ∃ node ∈ s.taken, Control answer node) ∧
      ∀ e, result = .error e → ∃ node ∈ s.taken, answer node = .error e) ∧
    (∀ n s, after hash answer moves (start seeds) n = .finished s (.ok ()) →
      s.started.length < 32 → s.peers.length < 32 →
      ∀ id ∈ s.closest hash, s.stateOf id = .succeeded ∧
        ∃ node ∈ s.taken, node.id = id ∧ ∃ response, answer node = .ok response) := by
  have hall := @after_outcome hash answer moves seeds
  refine ⟨after_ends moves _ _ 0 (start_inv seeds) rfl, ?_, ?_, ?_, ?_⟩
  · rintro n s rfl
    have hbounds := (hall n).1.bounds
    exact ⟨hbounds.counted ▸ hbounds.few, hbounds.parallel, hbounds.ids, hbounds.tried,
      hbounds.distinct, hbounds.room⟩
  · intro n s hs
    have houtcome := (hall n).1
    rw [hs] at houtcome
    exact (launch_inv (s.closest hash) houtcome.1).parallel
  · intro n s result hs
    have houtcome := (hall n).1
    rw [hs] at houtcome
    cases result with
    | ok u =>
      refine ⟨⟨?_, ?_⟩, ?_⟩
      · rintro ⟨e, he⟩
        cases he
      · rintro ⟨node, hnode, hcontrol⟩
        exact absurd hcontrol (houtcome.2.1 node hnode)
      · intro e he
        cases he
    | error e =>
      obtain ⟨-, node, hnode, hanswer, hcontrol⟩ := houtcome
      refine ⟨⟨fun _ => ⟨node, hnode, e, hanswer, hcontrol⟩, fun _ => ⟨e, rfl⟩⟩, ?_⟩
      intro e' he'
      cases he'
      exact ⟨node, hnode, hanswer⟩
  · intro n s hs hqueries hpeers id hid
    obtain ⟨houtcome, hanswered⟩ := hall n
    rw [hs] at houtcome hanswered
    obtain ⟨hbounds, -, hconverged⟩ := houtcome
    have hstate := hconverged (hbounds.counted.trans_lt hqueries) hpeers id hid
    exact ⟨hstate, hanswered id hstate⟩

end Search

end BtSniffer
