import BtSniffer.Dht.LookupInv

/-!
# Runs of a lookup

Any sequence of calls on an `IterativeLookup`, with late, repeated and unknown Node IDs.

* `LookupRun` — the lookup with the nodes that were returned and not deferred.
* `reachable` — the invariant and the bounds hold after every call.
* `lookup_bookkeeping` — what the counters, the addresses and the candidates are in any run.
-/

set_option autoImplicit false

namespace BtSniffer

open Relational

/-- A call on a lookup. -/
inductive LookupCall where
  | takeNext (capacity : Nat)
  | completeSuccess (id : NodeId) (discovered : List (NodeContact × Bool)) (localId : NodeId)
  | completeFailure (id : NodeId)
  | defer (id : NodeId)

/-- A lookup with the nodes that were returned: those that are waited for and those whose end was
reported. A node that was deferred is in neither list. -/
structure LookupRun where
  lookup : IterativeLookup
  opened : List NodeContact
  closed : List NodeContact

namespace LookupRun

open IterativeLookup

variable {config : MaintenanceConfig} {r : LookupRun}

def start (kind : LookupKind) (target : NodeId) (seeds : List NodeContact) : LookupRun :=
  ⟨.new kind target seeds, [], []⟩

/-- The end of a node is reported. -/
def close (r : LookupRun) (id : NodeId) (lookup : IterativeLookup) : LookupRun :=
  ⟨lookup, others r.opened id, r.opened.filter (fun node => decide (node.id = id)) ++ r.closed⟩

def step (config : MaintenanceConfig) (r : LookupRun) : LookupCall → LookupRun
  | .takeNext capacity =>
    let next := r.lookup.takeNext config capacity
    ⟨next.1, next.2 ++ r.opened, r.closed⟩
  | .completeSuccess id discovered localId =>
    r.close id (r.lookup.completeSuccess id discovered localId)
  | .completeFailure id => r.close id (r.lookup.completeFailure id)
  | .defer id => ⟨r.lookup.defer id, others r.opened id, r.closed⟩

def run (config : MaintenanceConfig) (r : LookupRun) (calls : List LookupCall) : LookupRun :=
  calls.foldl (step config) r

/-! ## The invariant of a run -/

/-- The invariant of a lookup, with its bounds. -/
structure Valid (config : MaintenanceConfig) (r : LookupRun) : Prop where
  tracks : r.lookup.Tracks r.opened r.closed
  parallel : r.lookup.inFlight ≤ config.lookupParallelism
  queries : r.lookup.queriesStarted ≤ config.maxQueries

/-- Seeds become candidates that were not tried. -/
theorem fold_seeds : ∀ (seeds : List NodeContact) (t : Table LookupRow Prod.fst),
    (∀ row ∈ t.rows, row.2.node.id = row.1 ∧ row.2.state = .unqueried) →
    (∀ row ∈ (seeds.foldl (fun t node => t.insert (node.id, ⟨node, .unqueried, true⟩)) t).rows,
      row.2.node.id = row.1 ∧ row.2.state = .unqueried) ∧
    (seeds.foldl (fun t node => t.insert (node.id, ⟨node, .unqueried, true⟩)) t).rows.length ≤
      seeds.length + t.rows.length
  | [], _, h => ⟨h, by simp⟩
  | node :: rest, t, h => by
    have hinsert : ∀ row ∈ (t.insert (node.id, ⟨node, .unqueried, true⟩)).rows,
        row.2.node.id = row.1 ∧ row.2.state = .unqueried := by
      intro row hrow
      rcases Table.mem_insert.1 hrow with rfl | ⟨hrow, -⟩
      · exact ⟨rfl, rfl⟩
      · exact h row hrow
    obtain ⟨hrows, hlen⟩ := fold_seeds rest _ hinsert
    have hone := Table.length_insert_le t (node.id, (⟨node, .unqueried, true⟩ : LookupCandidate))
    refine ⟨hrows, hlen.trans ?_⟩
    rw [List.length_cons]
    omega

theorem start_valid (kind : LookupKind) (target : NodeId) {seeds : List NodeContact}
    (hseeds : seeds.length ≤ 256) : Valid config (start kind target seeds) := by
  obtain ⟨hrows, hlen⟩ := fold_seeds seeds .empty (fun row hrow => by cases hrow)
  refine ⟨?_, Nat.zero_le _, Nat.zero_le _⟩
  refine ⟨fun row hrow => (hrows row hrow).1, ?_, ?_, ?_, List.nodup_nil, List.nodup_nil, ?_, rfl,
    rfl, ?_⟩
  · intro node hnode
    cases hnode
  · intro node hnode
    cases hnode
  · intro row hrow hflight
    rw [(hrows row hrow).2] at hflight
    cases hflight
  · intro a
    constructor
    · intro htried
      cases htried
    · rintro ⟨node, hnode, -⟩
      cases hnode
  · exact hlen.trans hseeds

/-- The candidates that `take_next` chooses were not tried, and none is chosen twice. -/
theorem chosen_fresh (l : IterativeLookup) (capacity : Nat) :
    (l.chosen config capacity).Nodup ∧
      (∀ id ∈ l.chosen config capacity, l.stateOf id = some .unqueried) ∧
      (l.chosen config capacity).length ≤ l.room config capacity := by
  refine ⟨?_, ?_, List.length_take_le _ _⟩
  · have hkeys : (l.states.map Prod.fst).Nodup := by
      have heq : l.states.map Prod.fst = l.candidates.rows.map Prod.fst := by
        simp [states, Function.comp_def]
      rw [heq]
      exact l.candidates.nodup
    exact (List.take_sublist _ _).nodup ((closestValid_nodup hkeys).filter _)
  · intro id hid
    exact of_decide_eq_true (List.mem_filter.1 (List.mem_of_mem_take hid)).2

/-- **`take_next` keeps the invariant and the bounds.** -/
theorem takeNext_valid (h : Valid config r) (capacity : Nat) :
    Valid config (r.step config (.takeNext capacity)) := by
  obtain ⟨hnodup, hfresh, hlen⟩ := @chosen_fresh config r.lookup capacity
  simp only [step, takeNext]
  split
  · exact h
  · have htracks := attemptAll_tracks _ h.tracks hnodup hfresh
    have hfew := (length_attemptAll_le (r.lookup.chosen config capacity) r.lookup).trans hlen
    have hflight := h.tracks.inFlight
    have hstarted := h.tracks.started
    have hparallel := h.parallel
    have hqueries := h.queries
    unfold room at hfew
    refine ⟨htracks, ?_, ?_⟩
    · simp only [htracks.inFlight, List.length_append]
      omega
    · simp only [htracks.started, List.length_append]
      omega

/-- The end of a node leaves the bounds. -/
theorem finishCandidate_bounds (l : IterativeLookup) (id : NodeId) (success : Bool) :
    (l.finishCandidate id success).inFlight ≤ l.inFlight ∧
      (l.finishCandidate id success).queriesStarted = l.queriesStarted ∧
      (l.finishCandidate id success).target = l.target := by
  unfold finishCandidate
  split
  · exact ⟨Nat.sub_le _ _, rfl, rfl⟩
  · exact ⟨le_rfl, rfl, rfl⟩

theorem defer_bounds (l : IterativeLookup) (id : NodeId) :
    (l.defer id).inFlight ≤ l.inFlight ∧ (l.defer id).queriesStarted ≤ l.queriesStarted := by
  unfold defer
  split
  · exact ⟨le_rfl, le_rfl⟩
  · split
    · exact ⟨Nat.sub_le _ _, Nat.sub_le _ _⟩
    · exact ⟨le_rfl, le_rfl⟩

theorem completeSuccess_eq (l : IterativeLookup) (id : NodeId)
    (discovered : List (NodeContact × Bool)) (localId : NodeId) : ∃ trusted : Bool,
    l.completeSuccess id discovered localId =
      { l.finishCandidate id trusted with
        candidates := prune l.target (discovered.foldl (discover localId)
          (l.finishCandidate id trusted).candidates) } := by
  refine ⟨(l.candidates.get? id).any (fun row => trustedId id row.2.node.address.ip), ?_⟩
  unfold completeSuccess
  simp only [(finishCandidate_bounds l id _).2.2]

/-- **Every call keeps the invariant and the bounds.** -/
theorem step_valid (h : Valid config r) (call : LookupCall) : Valid config (r.step config call) := by
  cases call with
  | takeNext capacity => exact takeNext_valid h capacity
  | completeSuccess id discovered localId =>
    obtain ⟨trusted, heq⟩ := completeSuccess_eq r.lookup id discovered localId
    obtain ⟨hflight, hstarted, -⟩ := finishCandidate_bounds r.lookup id trusted
    obtain ⟨hext, hsize⟩ := completeSuccess_extends h.tracks id discovered localId trusted
    simp only [step, close, heq]
    refine ⟨(finishCandidate_tracks h.tracks id trusted).extend hext hsize, ?_, ?_⟩
    · exact hflight.trans h.parallel
    · exact hstarted.trans_le h.queries
  | completeFailure id =>
    obtain ⟨hflight, hstarted, -⟩ := finishCandidate_bounds r.lookup id false
    exact ⟨finishCandidate_tracks h.tracks id false, hflight.trans h.parallel,
      hstarted.trans_le h.queries⟩
  | defer id =>
    obtain ⟨hflight, hstarted⟩ := defer_bounds r.lookup id
    exact ⟨defer_tracks h.tracks id, hflight.trans h.parallel, hstarted.trans h.queries⟩

/-- **The invariant and the bounds hold in every run.** -/
theorem run_valid : ∀ (calls : List LookupCall) {r : LookupRun}, Valid config r →
    Valid config (r.run config calls)
  | [], _, h => h
  | call :: rest, _, h => run_valid rest (step_valid h call)

/-! ## Bookkeeping -/

/-- The candidates in flight. -/
def flying (l : IterativeLookup) : List LookupRow :=
  l.candidates.rows.filter (fun row => decide (row.2.state = .inFlight))

/-- **The nodes that are waited for are the candidates in flight.** -/
theorem flying_perm (h : Valid config r) :
    ((flying r.lookup).map Prod.fst).Perm (r.opened.map NodeContact.id) := by
  have hleft : ((flying r.lookup).map Prod.fst).Nodup :=
    (List.filter_sublist.map _).nodup r.lookup.candidates.nodup
  have hright : (r.opened.map NodeContact.id).Nodup := by
    have hall := h.tracks.ids
    rw [List.map_append] at hall
    exact (List.nodup_append.1 hall).1
  rw [List.perm_ext_iff_of_nodup hleft hright]
  intro id
  simp only [List.mem_map]
  constructor
  · rintro ⟨row, hrow, rfl⟩
    obtain ⟨hrow, hflight⟩ := List.mem_filter.1 hrow
    exact ⟨row.2.node, h.tracks.opens row hrow (of_decide_eq_true hflight), h.tracks.keyed row hrow⟩
  · rintro ⟨node, hnode, rfl⟩
    obtain ⟨verified, hget⟩ := h.tracks.flight node hnode
    exact ⟨_, List.mem_filter.2 ⟨(Table.get?_eq_some.1 hget).1, by simp⟩, rfl⟩

/-- A candidate in flight is counted, so that a counter is never decremented below zero. -/
theorem counted (h : Valid config r) {id : NodeId} (hstate : r.lookup.stateOf id = some .inFlight) :
    0 < r.lookup.inFlight ∧ 0 < r.lookup.queriesStarted := by
  obtain ⟨row, hget, hflight⟩ := stateOf_eq_some.1 hstate
  have hopen := h.tracks.opens row (Table.get?_eq_some.1 hget).1 hflight
  have hpos := List.length_pos_of_mem hopen
  rw [h.tracks.inFlight, h.tracks.started]
  omega

/-- `take_next` returns nodes that were not returned before, or whose earlier return was deferred. -/
theorem takeNext_new (h : Valid config r) (capacity : Nat) :
    (((r.lookup.takeNext config capacity).2).map NodeContact.id).Nodup ∧
    (((r.lookup.takeNext config capacity).2).map NodeContact.address).Nodup ∧
    ∀ node ∈ (r.lookup.takeNext config capacity).2, ∀ other ∈ r.opened ++ r.closed,
      node.id ≠ other.id ∧ node.address ≠ other.address := by
  have hnext := (takeNext_valid h capacity).tracks
  have hids := hnext.ids
  have haddresses := hnext.addresses
  simp only [step] at hids haddresses
  rw [List.append_assoc, List.map_append] at hids haddresses
  obtain ⟨hids, -, hid⟩ := List.nodup_append.1 hids
  obtain ⟨haddresses, -, haddress⟩ := List.nodup_append.1 haddresses
  refine ⟨hids, haddresses, ?_⟩
  intro node hnode other hother
  refine ⟨?_, ?_⟩
  · exact hid _ (List.mem_map_of_mem hnode) _ (List.mem_map_of_mem hother)
  · exact haddress _ (List.mem_map_of_mem hnode) _ (List.mem_map_of_mem hother)

theorem stateOf_finishCandidate_other (l : IterativeLookup) {id j : NodeId} (success : Bool)
    (hne : j ≠ id) : (l.finishCandidate id success).stateOf j = l.stateOf j := by
  unfold finishCandidate
  split
  · exact stateOf_setState_other _ hne
  · rfl

/-- A candidate that was tried has a state after the end of any node, and it counts as tried. -/
theorem finishCandidate_tried (l : IterativeLookup) (id : NodeId) (success : Bool) {j : NodeId}
    {row : LookupRow} (hget : l.candidates.get? j = some row) (hs : row.2.state ≠ .unqueried) :
    ∃ row', (l.finishCandidate id success).candidates.get? j = some row' ∧
      row'.2.state ≠ .unqueried := by
  unfold finishCandidate
  split
  · simp only [get?_setState, hget, Option.map_some]
    refine ⟨_, rfl, ?_⟩
    split
    · cases success <;> simp
    · exact hs
  · exact ⟨row, hget, hs⟩

/-- **`complete_success` forgets only candidates that were not tried**, and no other candidate leaves
the flight. -/
theorem completeSuccess_forgets (h : Valid config r) (id : NodeId)
    (discovered : List (NodeContact × Bool)) (localId : NodeId) :
    (r.lookup.completeSuccess id discovered localId).candidates.rows.length ≤ 256 ∧
    (∀ j state, r.lookup.stateOf j = some state →
      (r.lookup.completeSuccess id discovered localId).stateOf j = none → state = .unqueried) ∧
    (∀ j, j ≠ id → r.lookup.stateOf j = some .inFlight →
      (r.lookup.completeSuccess id discovered localId).stateOf j = some .inFlight) := by
  obtain ⟨trusted, heq⟩ := completeSuccess_eq r.lookup id discovered localId
  obtain ⟨hext, hsize⟩ := completeSuccess_extends h.tracks id discovered localId trusted
  rw [heq]
  refine ⟨hsize, ?_, ?_⟩
  · intro j state hstate hnone
    by_contra hs
    obtain ⟨row, hget, rfl⟩ := stateOf_eq_some.1 hstate
    obtain ⟨row', hget', hs'⟩ := finishCandidate_tried r.lookup id trusted hget hs
    simp [stateOf, hext.kept j row' hget' hs'] at hnone
  · intro j hne hstate
    rw [← stateOf_finishCandidate_other r.lookup trusted hne] at hstate
    obtain ⟨row, hget, hflight⟩ := stateOf_eq_some.1 hstate
    refine stateOf_eq_some.2 ⟨row, ?_, hflight⟩
    exact hext.kept j row hget (by rw [hflight]; decide)

theorem get?_prune_none {target id : NodeId} {t : Table LookupRow Prod.fst}
    (h : t.get? id = none) : (prune target t).get? id = none := by
  unfold prune
  split
  · simp [h]
  · exact h

/-- **`complete_success` does not add the local Node ID.** -/
theorem completeSuccess_local (l : IterativeLookup) (id : NodeId)
    (discovered : List (NodeContact × Bool)) {localId : NodeId}
    (h : l.stateOf localId = none) :
    (l.completeSuccess id discovered localId).stateOf localId = none := by
  obtain ⟨trusted, heq⟩ := completeSuccess_eq l id discovered localId
  have hfinish : (l.finishCandidate id trusted).candidates.get? localId = none := by
    have hnone := Option.map_eq_none_iff.1 h
    unfold finishCandidate
    split
    · simp [get?_setState, hnone]
    · exact hnone
  rw [heq]
  simp [stateOf, get?_prune_none (fold_local localId discovered hfinish)]

/-- **Bookkeeping of a lookup.** After any calls on a lookup from at most 256 seeds: the candidates in
flight are counted, within the parallelism; the queries are the nodes that were returned and not
deferred, within the maximum; at most 256 candidates are kept and those that are forgotten were not
tried; no Node ID and no address is returned again unless its return was deferred; the addresses that
were tried are those of the nodes that were returned and not deferred; and the local Node ID is not
added. -/
theorem lookup_bookkeeping (config : MaintenanceConfig) (kind : LookupKind) (target : NodeId)
    (seeds : List NodeContact) (hseeds : seeds.length ≤ 256) (calls : List LookupCall) :
    let r := run config (start kind target seeds) calls
    (r.lookup.inFlight = (flying r.lookup).length ∧
      r.lookup.inFlight ≤ config.lookupParallelism ∧
      ∀ id, r.lookup.stateOf id = some .inFlight →
        0 < r.lookup.inFlight ∧ 0 < r.lookup.queriesStarted) ∧
    (r.lookup.queriesStarted = (r.opened ++ r.closed).length ∧
      r.lookup.queriesStarted ≤ config.maxQueries) ∧
    (r.lookup.candidates.rows.length ≤ 256 ∧
      (∀ node ∈ r.opened, r.lookup.Has node .inFlight) ∧
      ∀ id discovered localId,
        (r.lookup.completeSuccess id discovered localId).candidates.rows.length ≤ 256 ∧
        (∀ j state, r.lookup.stateOf j = some state →
          (r.lookup.completeSuccess id discovered localId).stateOf j = none → state = .unqueried) ∧
        (∀ j, j ≠ id → r.lookup.stateOf j = some .inFlight →
          (r.lookup.completeSuccess id discovered localId).stateOf j = some .inFlight)) ∧
    (((r.opened ++ r.closed).map NodeContact.id).Nodup ∧
      ((r.opened ++ r.closed).map NodeContact.address).Nodup ∧
      ∀ capacity,
        (((r.lookup.takeNext config capacity).2).map NodeContact.id).Nodup ∧
        (((r.lookup.takeNext config capacity).2).map NodeContact.address).Nodup ∧
        ∀ node ∈ (r.lookup.takeNext config capacity).2, ∀ other ∈ r.opened ++ r.closed,
          node.id ≠ other.id ∧ node.address ≠ other.address) ∧
    (∀ a, (r.lookup.attemptedAddresses.get? a).isSome = true ↔
      ∃ node ∈ r.opened ++ r.closed, node.address = a) ∧
    (∀ id discovered localId, r.lookup.stateOf localId = none →
      (r.lookup.completeSuccess id discovered localId).stateOf localId = none) := by
  intro r
  have h : Valid config r := run_valid calls (start_valid kind target hseeds)
  have hcount : r.lookup.inFlight = (flying r.lookup).length := by
    have hperm := (flying_perm h).length_eq
    rw [List.length_map, List.length_map] at hperm
    rw [h.tracks.inFlight, hperm]
  refine ⟨⟨hcount, h.parallel, fun id => counted h⟩, ⟨?_, h.queries⟩,
    ⟨h.tracks.size, h.tracks.flight, completeSuccess_forgets h⟩,
    ⟨h.tracks.ids, h.tracks.addresses, takeNext_new h⟩, h.tracks.attempted, ?_⟩
  · rw [h.tracks.started, List.length_append]
  · intro id discovered localId
    exact completeSuccess_local r.lookup id discovered

/-- A node is taken, its end is reported twice, and an unknown node is deferred. -/
def lateCalls : List LookupCall :=
  [.takeNext 3, .completeFailure 1, .completeSuccess 1 [] 9, .defer 7, .takeNext 3]

/-- Of two seeds with one address, one is tried. -/
theorem lookup_bookkeeping_late :
    let seeds : List NodeContact := [.verified 1 (.v4 1 1) 0, .verified 2 (.v4 1 1) 0]
    let r := run ⟨3, 8, 8⟩ (start .refresh 0 seeds) lateCalls
    seeds.length ≤ 256 ∧ r.lookup.inFlight = 0 ∧ r.lookup.queriesStarted = 1 ∧
      ∀ a, (r.lookup.attemptedAddresses.get? a).isSome = true ↔
        ∃ node ∈ r.opened ++ r.closed, node.address = a := by
  refine ⟨by decide, by decide +kernel, by decide +kernel, ?_⟩
  exact (lookup_bookkeeping ⟨3, 8, 8⟩ .refresh 0 _ (by decide) lateCalls).2.2.2.2.1

end LookupRun

end BtSniffer
