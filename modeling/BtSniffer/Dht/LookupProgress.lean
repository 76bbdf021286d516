import BtSniffer.Dht.LookupRun

/-!
# Progress of a lookup

`take_next` chooses candidates and then finds that the address of each was tried before.

* `attemptAll_tried` — if all addresses were tried, the chosen candidates fail and nothing else
  happens.
* `attemptAll_flies` — if one was not, a node is in flight.
* `lookup_progress` — exactly when a lookup that waits for no node goes on or is complete.
-/

set_option autoImplicit false

namespace BtSniffer

open Relational

namespace IterativeLookup

variable {l : IterativeLookup} {config : MaintenanceConfig} {id : NodeId}

/-- The address of a candidate was tried. -/
def triedAddress (l : IterativeLookup) (id : NodeId) : Bool :=
  (l.candidates.get? id).any
    (fun row => (l.attemptedAddresses.get? row.2.node.address).isSome)

/-- The shortlist of the other candidates. -/
def shortlistWithout (l : IterativeLookup) (config : MaintenanceConfig) (ids : List NodeId) :
    List NodeId :=
  closestValid (l.states.filter (fun c => decide (c.1 ∉ ids))) l.target config.shortlistSize

/-! ## All addresses were tried -/

/-- Candidates fail. -/
def failAll (ids : List NodeId) (l : IterativeLookup) : IterativeLookup :=
  ids.foldl (fun l id => l.setState id .failed) l

theorem attempt_tried (h : l.triedAddress id = true) : l.attempt id = (l.setState id .failed, none) := by
  unfold triedAddress at h
  obtain ⟨row, hget, htried⟩ := (Option.any_eq_true _ _).1 h
  unfold attempt
  rw [hget]
  simp only
  rw [if_pos htried]

theorem triedAddress_setState (l : IterativeLookup) (id j : NodeId) (state : CandidateState) :
    (l.setState id state).triedAddress j = l.triedAddress j := by
  unfold triedAddress
  rw [get?_setState]
  cases l.candidates.get? j with
  | none => rfl
  | some row =>
    simp only [Option.map_some, Option.any_some]
    split
    · rfl
    · rfl

/-- **If all addresses were tried, the candidates fail and no node is returned.** -/
theorem attemptAll_tried : ∀ (ids : List NodeId) {l : IterativeLookup},
    (∀ id ∈ ids, l.triedAddress id = true) → attemptAll ids l = (failAll ids l, [])
  | [], _, _ => rfl
  | id :: rest, l, h => by
    have hfirst := attempt_tried (h id (List.mem_cons_self ..))
    have hrest : ∀ j ∈ rest, (l.setState id .failed).triedAddress j = true := by
      intro j hj
      rw [triedAddress_setState]
      exact h j (List.mem_cons_of_mem _ hj)
    simp only [attemptAll, hfirst, attemptAll_tried rest hrest]
    rfl

theorem failAll_counters : ∀ (ids : List NodeId) (l : IterativeLookup),
    (failAll ids l).inFlight = l.inFlight ∧ (failAll ids l).queriesStarted = l.queriesStarted ∧
      (failAll ids l).target = l.target
  | [], _ => ⟨rfl, rfl, rfl⟩
  | id :: rest, l => failAll_counters rest (l.setState id .failed)

theorem states_setState (l : IterativeLookup) (id : NodeId) (state : CandidateState) :
    (l.setState id state).states =
      l.states.map (fun c => if c.1 = id then (c.1, state) else c) := by
  simp only [states, setState, Table.rows_update, List.map_map]
  refine List.map_congr_left ?_
  intro row _
  simp only [Function.comp_apply, decide_eq_true_eq]
  split
  · rfl
  · rfl

/-- The candidates that remain are those that did not fail now. -/
theorem valid_failAll : ∀ (ids : List NodeId) (l : IterativeLookup),
    (failAll ids l).states.filter (fun c => decide (c.2 ≠ .failed)) =
      (l.states.filter (fun c => decide (c.1 ∉ ids))).filter (fun c => decide (c.2 ≠ .failed))
  | [], l => by simp [failAll]
  | id :: rest, l => by
    have hrest := valid_failAll rest (l.setState id .failed)
    rw [states_setState] at hrest
    refine hrest.trans ?_
    generalize l.states = cs
    induction cs with
    | nil => rfl
    | cons c cs ih =>
      by_cases hid : c.1 = id
      · by_cases hin : id ∈ rest
        · simpa [hid, hin] using ih
        · simpa [hid, hin] using ih
      · by_cases hin : c.1 ∈ rest
        · simpa [hid, hin] using ih
        · by_cases hfailed : c.2 = .failed
          · simpa [hid, hin, hfailed] using ih
          · simpa [hid, hin, hfailed] using ih

theorem shortlist_failAll (ids : List NodeId) (l : IterativeLookup) (config : MaintenanceConfig) :
    (failAll ids l).shortlist config = l.shortlistWithout config ids := by
  unfold shortlist shortlistWithout closestValid byDistance
  rw [valid_failAll, (failAll_counters ids l).2.2]

theorem stateOf_failAll : ∀ (ids : List NodeId) {l : IterativeLookup} {id : NodeId}, id ∉ ids →
    (failAll ids l).stateOf id = l.stateOf id
  | [], _, _, _ => rfl
  | j :: rest, l, id, h => by
    rw [List.mem_cons, not_or] at h
    exact (stateOf_failAll rest h.2).trans (stateOf_setState_other .failed h.1)

theorem not_mem_shortlistWithout {ids : List NodeId} (h : id ∈ l.shortlistWithout config ids) :
    id ∉ ids := by
  obtain ⟨state, hmem, -⟩ := mem_closestValid h
  exact of_decide_eq_true (List.mem_filter.1 hmem).2

/-! ## An address was not tried -/

theorem inFlight_attempt_le (l : IterativeLookup) (id : NodeId) :
    l.inFlight ≤ (l.attempt id).1.inFlight := by
  unfold attempt
  split
  · exact le_rfl
  · split
    · exact le_rfl
    · exact Nat.le_succ _

theorem inFlight_attemptAll_le : ∀ (ids : List NodeId) (l : IterativeLookup),
    l.inFlight ≤ (attemptAll ids l).1.inFlight
  | [], _ => le_rfl
  | id :: rest, l => (inFlight_attempt_le l id).trans (inFlight_attemptAll_le rest (l.attempt id).1)

theorem attempt_untried {row : LookupRow} (hget : l.candidates.get? id = some row)
    (h : l.triedAddress id = false) : 0 < (l.attempt id).1.inFlight := by
  have hfree : ¬(l.attemptedAddresses.get? row.2.node.address).isSome = true := by
    simpa [triedAddress, hget] using h
  unfold attempt
  rw [hget]
  simp only [if_neg hfree]
  exact Nat.succ_pos _

/-- **A chosen candidate whose address was not tried puts a node in flight**: itself, or one that was
tried before it. -/
theorem attemptAll_flies : ∀ (ids : List NodeId) {l : IterativeLookup},
    (∀ id ∈ ids, (l.candidates.get? id).isSome = true) →
    (∃ id ∈ ids, l.triedAddress id = false) → 0 < (attemptAll ids l).1.inFlight
  | [], _, _, h => by
    obtain ⟨id, hid, -⟩ := h
    cases hid
  | id :: rest, l, hsome, h => by
    have hstep := inFlight_attemptAll_le rest (l.attempt id).1
    obtain ⟨row, hget⟩ := Option.isSome_iff_exists.1 (hsome id (List.mem_cons_self ..))
    cases htried : l.triedAddress id with
    | false => exact (attempt_untried hget htried).trans_le hstep
    | true =>
      obtain ⟨j, hj, hfree⟩ := h
      rcases List.mem_cons.1 hj with rfl | hj
      · rw [htried] at hfree
        cases hfree
      · simp only [attemptAll, attempt_tried htried]
        refine attemptAll_flies rest ?_ ⟨j, hj, ?_⟩
        · intro k hk
          rw [get?_setState, Option.isSome_map]
          exact hsome k (List.mem_cons_of_mem _ hk)
        · rw [triedAddress_setState]
          exact hfree

end IterativeLookup

namespace LookupRun

open IterativeLookup

variable {config : MaintenanceConfig} {r : LookupRun}

/-- A lookup that waits for no node and is not complete may choose a candidate, and has queries
left. -/
theorem room_pos {capacity : Nat} {l : IterativeLookup} (hparallel : 1 ≤ config.lookupParallelism)
    (hcapacity : 1 ≤ capacity) (hflight : l.inFlight = 0) (hopen : l.isComplete config = false) :
    l.room config capacity ≠ 0 ∧ l.queriesStarted < config.maxQueries := by
  have hqueries : l.queriesStarted < config.maxQueries := by
    by_contra hge
    simp [isComplete, hflight, Nat.le_of_not_lt hge] at hopen
  unfold room
  omega

theorem chosen_isSome (l : IterativeLookup) (capacity : Nat) :
    ∀ id ∈ l.chosen config capacity, (l.candidates.get? id).isSome = true := by
  intro id hid
  obtain ⟨row, hget, -⟩ := stateOf_eq_some.1 ((chosen_fresh l capacity).2.1 id hid)
  exact Option.isSome_iff_exists.2 ⟨row, hget⟩

/-- Whether a lookup is complete whose chosen candidates have failed. -/
theorem isComplete_failAll {l : IterativeLookup} {ids : List NodeId} (hflight : l.inFlight = 0)
    (hqueries : l.queriesStarted < config.maxQueries) :
    (failAll ids l).isComplete config = true ↔
      ∀ id ∈ l.shortlistWithout config ids, l.stateOf id = some .succeeded := by
  obtain ⟨hflight', hqueries', -⟩ := failAll_counters ids l
  unfold isComplete
  rw [hflight', hqueries', if_neg (by simpa using hflight), if_neg (Nat.not_le_of_lt hqueries),
    shortlist_failAll, List.all_eq_true]
  refine forall₂_congr ?_
  intro id hid
  rw [decide_eq_true_eq, stateOf_failAll ids (not_mem_shortlistWithout hid)]

/-- **When a lookup goes on.** A lookup of any run waits for no node and is not complete. After
`take_next` a node is in flight or the lookup is complete if and only if the address of one of the
chosen candidates was not tried, or without them the whole shortlist has succeeded. -/
theorem lookup_progress (config : MaintenanceConfig) (kind : LookupKind) (target : NodeId)
    (seeds : List NodeContact) (_hseeds : seeds.length ≤ 256) (calls : List LookupCall)
    (capacity : Nat) (hparallel : 1 ≤ config.lookupParallelism)
    (_hshortlist : 1 ≤ config.shortlistSize) (_hmax : 1 ≤ config.maxQueries)
    (hcapacity : 1 ≤ capacity) :
    let l := (run config (start kind target seeds) calls).lookup
    l.inFlight = 0 → l.isComplete config = false →
      ((0 < (l.takeNext config capacity).1.inFlight ∨
          (l.takeNext config capacity).1.isComplete config = true) ↔
        ((∃ id ∈ l.chosen config capacity, l.triedAddress id = false) ∨
          ∀ id ∈ l.shortlistWithout config (l.chosen config capacity),
            l.stateOf id = some .succeeded)) := by
  intro l hflight hopen
  obtain ⟨hroom, hqueries⟩ := room_pos hparallel hcapacity hflight hopen
  unfold takeNext
  rw [if_neg hroom]
  by_cases hfree : ∃ id ∈ l.chosen config capacity, l.triedAddress id = false
  · exact ⟨fun _ => .inl hfree,
      fun _ => .inl (attemptAll_flies _ (chosen_isSome l capacity) hfree)⟩
  · have htried : ∀ id ∈ l.chosen config capacity, l.triedAddress id = true := by
      intro id hid
      by_contra hne
      exact hfree ⟨id, hid, by simpa using hne⟩
    have hzero : (failAll (l.chosen config capacity) l).inFlight = 0 :=
      (failAll_counters _ l).1.trans hflight
    rw [attemptAll_tried _ htried]
    simp only [hzero, Nat.lt_irrefl, false_or, hfree]
    exact isComplete_failAll hflight hqueries

/-- A private address. -/
def samplePeer (id port : Nat) : NodeContact :=
  .verified (BitVec.ofNat 160 id) (.v4 0x0A000001 (BitVec.ofNat 16 port)) 0

/-- A node answers and names one node at its own address and one at another. -/
def sharedAddress : List LookupCall :=
  [.takeNext 1, .completeSuccess 3 [(samplePeer 1 1000, false), (samplePeer 2 2000, false)] 99]

def oneAtATime : MaintenanceConfig := ⟨1, 8, 8⟩

/-- A node answers and names a node at another address. -/
def ownAddress : List LookupCall :=
  [.takeNext 1, .completeSuccess 3 [(samplePeer 2 2000, false)] 99]

/-- The lookup of an answer that names a node at another address goes on. -/
theorem lookup_progress_new :
    0 < ((run oneAtATime (start .refresh 0 [samplePeer 3 1000]) ownAddress).lookup.takeNext
        oneAtATime 1).1.inFlight ∨
      ((run oneAtATime (start .refresh 0 [samplePeer 3 1000]) ownAddress).lookup.takeNext
        oneAtATime 1).1.isComplete oneAtATime = true :=
  (lookup_progress oneAtATime .refresh 0 [samplePeer 3 1000] (by decide) ownAddress 1 (by decide)
    (by decide) (by decide) (by decide) (by decide +kernel) (by decide +kernel)).2
    (.inl ⟨2, by decide +kernel, by decide +kernel⟩)

/-- **A lookup stalls**: the only candidate that is chosen has the address of the node that answered,
so it fails; the other one is left, and no node is in flight. -/
theorem lookup_stalls :
    let l := (run oneAtATime (start .refresh 0 [samplePeer 3 1000]) sharedAddress).lookup
    l.inFlight = 0 ∧ l.isComplete oneAtATime = false ∧
      (l.takeNext oneAtATime 1).1.inFlight = 0 ∧
      (l.takeNext oneAtATime 1).1.isComplete oneAtATime = false ∧
      (l.takeNext oneAtATime 1).1.stateOf 2 = some .unqueried := by
  decide +kernel

end LookupRun

end BtSniffer
