import BtSniffer.Dht.Lookup

/-!
# The invariant of a lookup

A lookup is followed by the nodes that are waited for (`open_`) and by those that have answered or
failed (`closed`); a node that was deferred is in neither.

* `Tracks` — the candidates in flight are the nodes that are waited for, the counters count, and the
  addresses that were tried are those of both lists.
* `attempt_tracks`, `finishCandidate_tracks`, `defer_tracks`, `discover_tracks`, `prune_tracks` — what
  the parts of the operations keep.
-/

set_option autoImplicit false

namespace BtSniffer

open Relational

namespace IterativeLookup

variable {l : IterativeLookup} {opened closed : List NodeContact} {id : NodeId}

/-- The candidate of a node has a state. -/
def Has (l : IterativeLookup) (node : NodeContact) (state : CandidateState) : Prop :=
  ∃ verified, l.candidates.get? node.id = some (node.id, ⟨node, state, verified⟩)

/-- The invariant: `opened` are waited for, `closed` have answered or failed. -/
structure Tracks (l : IterativeLookup) (opened closed : List NodeContact) : Prop where
  keyed : ∀ row ∈ l.candidates.rows, row.2.node.id = row.1
  flight : ∀ node ∈ opened, l.Has node .inFlight
  ended : ∀ node ∈ closed, l.Has node .succeeded ∨ l.Has node .failed
  opens : ∀ row ∈ l.candidates.rows, row.2.state = .inFlight → row.2.node ∈ opened
  ids : ((opened ++ closed).map NodeContact.id).Nodup
  addresses : ((opened ++ closed).map NodeContact.address).Nodup
  attempted : ∀ a, (l.attemptedAddresses.get? a).isSome = true ↔
    ∃ node ∈ opened ++ closed, node.address = a
  inFlight : l.inFlight = opened.length
  started : l.queriesStarted = opened.length + closed.length
  size : l.candidates.rows.length ≤ 256

/-! ## States -/

theorem get?_setState (l : IterativeLookup) (id j : NodeId) (state : CandidateState) :
    (l.setState id state).candidates.get? j = (l.candidates.get? j).map (fun row =>
      if row.1 = id then (row.1, { row.2 with state := state }) else row) := by
  simp [setState]

theorem has_setState_self {node : NodeContact} {old state : CandidateState} (h : l.Has node old) :
    (l.setState node.id state).Has node state := by
  obtain ⟨verified, hget⟩ := h
  exact ⟨verified, by simp [get?_setState, hget]⟩

theorem has_setState_other {node : NodeContact} {old state : CandidateState} (h : l.Has node old)
    (hne : node.id ≠ id) : (l.setState id state).Has node old := by
  obtain ⟨verified, hget⟩ := h
  exact ⟨verified, by simp [get?_setState, hget, hne]⟩

/-- A row of the candidates after a change of state. -/
theorem mem_setState {state : CandidateState} {row : LookupRow}
    (h : row ∈ (l.setState id state).candidates.rows) :
    (∃ old ∈ l.candidates.rows, old.1 = id ∧ row = (id, { old.2 with state := state })) ∨
      (row ∈ l.candidates.rows ∧ row.1 ≠ id) := by
  simp only [setState, Table.rows_update, List.mem_map, decide_eq_true_eq] at h
  obtain ⟨old, hold, heq⟩ := h
  split at heq
  · rename_i hid
    exact .inl ⟨old, hold, hid, by rw [← heq, hid]⟩
  · rename_i hid
    rw [← heq]
    exact .inr ⟨hold, hid⟩

theorem length_setState (l : IterativeLookup) (id : NodeId) (state : CandidateState) :
    (l.setState id state).candidates.rows.length = l.candidates.rows.length := by
  simp [setState]

theorem Has.unique {node node' : NodeContact} {state state' : CandidateState}
    (h : l.Has node state) (h' : l.Has node' state') (hid : node.id = node'.id) :
    node = node' ∧ state = state' := by
  obtain ⟨v, hget⟩ := h
  obtain ⟨v', hget'⟩ := h'
  rw [hid, hget'] at hget
  cases hget
  exact ⟨rfl, rfl⟩

/-- A candidate that was not tried is in neither list. -/
theorem Tracks.fresh (h : l.Tracks opened closed) {row : LookupRow}
    (hget : l.candidates.get? id = some row) (hstate : row.2.state = .unqueried) :
    ∀ node ∈ opened ++ closed, node.id ≠ id := by
  intro node hnode hid
  have hhas : l.Has node .inFlight ∨ l.Has node .succeeded ∨ l.Has node .failed := by
    rcases List.mem_append.1 hnode with hnode | hnode
    · exact .inl (h.flight node hnode)
    · exact .inr (h.ended node hnode)
  rcases hhas with ⟨v, hv⟩ | ⟨v, hv⟩ | ⟨v, hv⟩
  all_goals
    rw [hid, hget] at hv
    cases hv
    cases hstate

theorem keyed_setState (h : ∀ row ∈ l.candidates.rows, row.2.node.id = row.1) (id : NodeId)
    (state : CandidateState) :
    ∀ row ∈ (l.setState id state).candidates.rows, row.2.node.id = row.1 := by
  intro row hrow
  rcases mem_setState hrow with ⟨old, hold, hid, rfl⟩ | ⟨hrow, -⟩
  · exact (h old hold).trans hid
  · exact h row hrow

/-! ## A candidate is tried -/

/-- A candidate whose address was tried before fails; it was never waited for. -/
theorem attempt_failed (h : l.Tracks opened closed) {row : LookupRow}
    (hget : l.candidates.get? id = some row) (hstate : row.2.state = .unqueried) :
    (l.setState id .failed).Tracks opened closed := by
  have hfresh := h.fresh hget hstate
  refine { h with
    keyed := keyed_setState h.keyed id .failed
    flight := ?_, ended := ?_, opens := ?_
    size := (length_setState l id .failed).trans_le h.size }
  · intro node hnode
    exact has_setState_other (h.flight node hnode) (hfresh node (List.mem_append_left _ hnode))
  · intro node hnode
    have hne := hfresh node (List.mem_append_right _ hnode)
    rcases h.ended node hnode with hhas | hhas
    · exact .inl (has_setState_other hhas hne)
    · exact .inr (has_setState_other hhas hne)
  · intro row' hrow' hflight
    rcases mem_setState hrow' with ⟨old, -, -, rfl⟩ | ⟨hrow', -⟩
    · cases hflight
    · exact h.opens row' hrow' hflight

/-- **A candidate is tried**: it fails, or it is waited for from now on. -/
theorem attempt_tracks (h : l.Tracks opened closed) (hstate : l.stateOf id = some .unqueried) :
    (l.attempt id).1.Tracks ((l.attempt id).2.toList ++ opened) closed := by
  unfold stateOf at hstate
  obtain ⟨row, hget, hstate⟩ := Option.map_eq_some_iff.1 hstate
  have hfresh := h.fresh hget hstate
  unfold attempt
  rw [hget]
  simp only
  split
  · exact attempt_failed h hget hstate
  · rename_i htried
    obtain ⟨hmem, hkey⟩ := Table.get?_eq_some.1 hget
    have hid : row.2.node.id = id := (h.keyed row hmem).trans hkey
    have haddress : ∀ node ∈ opened ++ closed, node.address ≠ row.2.node.address := by
      intro node hnode heq
      exact htried ((h.attempted _).2 ⟨node, hnode, heq⟩)
    have hself : (l.setState id .inFlight).Has row.2.node .inFlight := by
      have hhas : l.Has row.2.node .unqueried :=
        ⟨row.2.verified, by rw [hid, hget, ← hkey, ← hstate]⟩
      rw [← hid]
      exact has_setState_self hhas
    refine ⟨?_, ?_, ?_, ?_, ?_, ?_, ?_, ?_, ?_, ?_⟩
    · exact keyed_setState h.keyed id .inFlight
    · intro node hnode
      rcases List.mem_cons.1 hnode with rfl | hnode
      · exact hself
      · exact has_setState_other (h.flight node hnode) (hfresh node (List.mem_append_left _ hnode))
    · intro node hnode
      have hne := hfresh node (List.mem_append_right _ hnode)
      rcases h.ended node hnode with hhas | hhas
      · exact .inl (has_setState_other hhas hne)
      · exact .inr (has_setState_other hhas hne)
    · intro row' hrow' hflight
      rcases mem_setState hrow' with ⟨old, hold, holdid, rfl⟩ | ⟨hrow', -⟩
      · obtain rfl : old = row := Table.eq_of_key hold hmem (holdid.trans hkey.symm)
        exact List.mem_cons_self ..
      · exact List.mem_cons_of_mem _ (h.opens row' hrow' hflight)
    · refine List.nodup_cons.2 ⟨?_, h.ids⟩
      intro hin
      obtain ⟨node, hnode, heq⟩ := List.mem_map.1 hin
      exact hfresh node hnode (heq.trans hid)
    · refine List.nodup_cons.2 ⟨?_, h.addresses⟩
      intro hin
      obtain ⟨node, hnode, heq⟩ := List.mem_map.1 hin
      exact haddress node hnode heq
    · intro a
      have hiff := h.attempted a
      simp only [Table.get?_insertNew, Option.isSome_or, Bool.or_eq_true]
      rw [hiff]
      constructor
      · rintro (⟨node, hnode, heq⟩ | hnew)
        · exact ⟨node, List.mem_cons_of_mem _ hnode, heq⟩
        · refine ⟨row.2.node, List.mem_cons_self .., ?_⟩
          by_contra hne
          simp [hne] at hnew
      · rintro ⟨node, hnode, heq⟩
        rcases List.mem_cons.1 hnode with rfl | hnode
        · exact .inr (by simp [heq])
        · exact .inl ⟨node, hnode, heq⟩
    · simp only [Option.toList_some, List.cons_append, List.nil_append, List.length_cons, h.inFlight]
    · simp only [Option.toList_some, List.cons_append, List.nil_append, List.length_cons, h.started]
      omega
    · exact (length_setState l id .inFlight).trans_le h.size

theorem Tracks.perm (h : l.Tracks opened closed) {opened' : List NodeContact}
    (hp : opened.Perm opened') : l.Tracks opened' closed := by
  have hall : (opened ++ closed).Perm (opened' ++ closed) := hp.append_right closed
  exact { h with
    flight := fun node hnode => h.flight node (hp.mem_iff.2 hnode)
    opens := fun row hrow hflight => hp.mem_iff.1 (h.opens row hrow hflight)
    ids := (hall.map _).nodup_iff.1 h.ids
    addresses := (hall.map _).nodup_iff.1 h.addresses
    attempted := by
      intro a
      rw [h.attempted a]
      constructor
      · rintro ⟨node, hnode, heq⟩
        exact ⟨node, hall.mem_iff.1 hnode, heq⟩
      · rintro ⟨node, hnode, heq⟩
        exact ⟨node, hall.mem_iff.2 hnode, heq⟩
    inFlight := h.inFlight.trans hp.length_eq
    started := by rw [h.started, hp.length_eq] }

theorem stateOf_setState_other {j : NodeId} (state : CandidateState) (hne : j ≠ id) :
    (l.setState id state).stateOf j = l.stateOf j := by
  unfold stateOf
  rw [get?_setState]
  cases hget : l.candidates.get? j with
  | none => rfl
  | some row =>
    have hkey : row.1 ≠ id := by
      rw [(Table.get?_eq_some.1 hget).2]
      exact hne
    simp [hkey]

theorem stateOf_attempt_other {j : NodeId} (hne : j ≠ id) :
    (l.attempt id).1.stateOf j = l.stateOf j := by
  unfold attempt
  split
  · rfl
  · split
    · exact stateOf_setState_other .failed hne
    · exact stateOf_setState_other .inFlight hne

/-- **The chosen candidates are tried**: those that are returned are waited for. -/
theorem attemptAll_tracks : ∀ (ids : List NodeId) {l : IterativeLookup}
    {opened closed : List NodeContact}, l.Tracks opened closed → ids.Nodup →
    (∀ id ∈ ids, l.stateOf id = some .unqueried) →
      (attemptAll ids l).1.Tracks ((attemptAll ids l).2 ++ opened) closed
  | [], _, _, _, h, _, _ => h
  | id :: rest, l, opened, closed, h, hnodup, hstates => by
    obtain ⟨hid, hrest⟩ := List.nodup_cons.1 hnodup
    have hfirst := attempt_tracks h (hstates id (List.mem_cons_self ..))
    have hothers := attemptAll_tracks rest hfirst hrest (by
      intro j hj
      have hne : j ≠ id := by
        rintro rfl
        exact hid hj
      rw [stateOf_attempt_other hne]
      exact hstates j (List.mem_cons_of_mem _ hj))
    refine hothers.perm ?_
    rw [← List.append_assoc]
    exact List.perm_append_comm.append_right opened

theorem length_attemptAll_le : ∀ (ids : List NodeId) (l : IterativeLookup),
    (attemptAll ids l).2.length ≤ ids.length
  | [], _ => le_rfl
  | id :: rest, l => by
    have hrest := length_attemptAll_le rest (l.attempt id).1
    have hfirst : (l.attempt id).2.toList.length ≤ 1 := by
      cases (l.attempt id).2 <;> simp
    simp only [attemptAll, List.length_append, List.length_cons]
    omega

/-! ## Answers -/

/-- The nodes that are waited for, without a Node ID. -/
def others (opened : List NodeContact) (id : NodeId) : List NodeContact :=
  opened.filter (fun node => decide (node.id ≠ id))

/-- A candidate in flight is the only node that is waited for under its Node ID. -/
theorem Tracks.split (h : l.Tracks opened closed) {row : LookupRow}
    (hget : l.candidates.get? id = some row) (hstate : row.2.state = .inFlight) :
    row.2.node.id = id ∧ opened.Perm (row.2.node :: others opened id) ∧
      opened.filter (fun node => decide (node.id = id)) = [row.2.node] := by
  obtain ⟨hmem, hkey⟩ := Table.get?_eq_some.1 hget
  have hid : row.2.node.id = id := (h.keyed row hmem).trans hkey
  have hopen := h.opens row hmem hstate
  have hnodup : (opened.map NodeContact.id).Nodup := by
    have hall := h.ids
    rw [List.map_append] at hall
    exact (List.nodup_append.1 hall).1
  have honly : opened.filter (fun node => decide (node.id = id)) = [row.2.node] := by
    have hsub : opened.filter (fun node => decide (node.id = id)) ⊆ [row.2.node] := by
      intro node hnode
      obtain ⟨hnode, heq⟩ := List.mem_filter.1 hnode
      have heq' : node.id = row.2.node.id := (of_decide_eq_true heq).trans hid.symm
      rw [List.mem_singleton]
      exact List.inj_on_of_nodup_map hnodup hnode hopen heq'
    have hmem' : row.2.node ∈ opened.filter (fun node => decide (node.id = id)) :=
      List.mem_filter.2 ⟨hopen, decide_eq_true hid⟩
    have hlen := ((hnodup.of_map _).filter (fun node => decide (node.id = id))).subperm hsub
    exact (hlen.perm_of_length_le (List.length_pos_of_mem hmem')).eq_singleton
  refine ⟨hid, ?_, honly⟩
  have hperm := List.filter_append_perm (fun node : NodeContact => decide (node.id = id)) opened
  rw [honly] at hperm
  refine hperm.symm.trans ?_
  simp [others]

/-- Without a candidate in flight no node is waited for under the Node ID. -/
theorem Tracks.absent (h : l.Tracks opened closed) (hstate : l.stateOf id ≠ some .inFlight) :
    ∀ node ∈ opened, node.id ≠ id := by
  rintro node hnode rfl
  obtain ⟨verified, hget⟩ := h.flight node hnode
  refine hstate ?_
  unfold stateOf
  rw [hget]
  rfl

theorem others_eq_self (h : ∀ node ∈ opened, node.id ≠ id) : others opened id = opened :=
  List.filter_eq_self.2 (fun node hnode => decide_eq_true (h node hnode))

theorem mem_others {node : NodeContact} : node ∈ others opened id ↔ node ∈ opened ∧ node.id ≠ id := by
  simp [others]

theorem stateOf_eq_some {state : CandidateState} :
    l.stateOf id = some state ↔ ∃ row, l.candidates.get? id = some row ∧ row.2.state = state :=
  Option.map_eq_some_iff

/-- A candidate in flight changes its state: it is waited for no longer. -/
theorem Tracks.leave (h : l.Tracks opened closed) {row : LookupRow}
    (hget : l.candidates.get? id = some row) (hflight : row.2.state = .inFlight)
    {state : CandidateState} (hstate : state ≠ .inFlight) :
    (∀ node ∈ others opened id, (l.setState id state).Has node .inFlight) ∧
    (∀ node ∈ closed, (l.setState id state).Has node .succeeded ∨
      (l.setState id state).Has node .failed) ∧
    (∀ row' ∈ (l.setState id state).candidates.rows, row'.2.state = .inFlight →
      row'.2.node ∈ others opened id) ∧
    (l.setState id state).Has row.2.node state := by
  obtain ⟨hid, hperm, -⟩ := h.split hget hflight
  obtain ⟨hmem, hkey⟩ := Table.get?_eq_some.1 hget
  have hhas : l.Has row.2.node .inFlight :=
    ⟨row.2.verified, by rw [hid, hget, ← hkey, ← hflight]⟩
  refine ⟨?_, ?_, ?_, ?_⟩
  · intro node hnode
    obtain ⟨hnode, hne⟩ := mem_others.1 hnode
    exact has_setState_other (h.flight node hnode) hne
  · intro node hnode
    have hne : node.id ≠ id := by
      intro heq
      rcases h.ended node hnode with hend | hend
      · exact absurd (hend.unique hhas (heq.trans hid.symm)).2 (by decide)
      · exact absurd (hend.unique hhas (heq.trans hid.symm)).2 (by decide)
    rcases h.ended node hnode with hend | hend
    · exact .inl (has_setState_other hend hne)
    · exact .inr (has_setState_other hend hne)
  · intro row' hrow' hflight'
    rcases mem_setState hrow' with ⟨old, -, -, rfl⟩ | ⟨hrow', hne⟩
    · exact absurd hflight' hstate
    · refine mem_others.2 ⟨h.opens row' hrow' hflight', ?_⟩
      rw [h.keyed row' hrow']
      exact hne
  · rw [← hid]
    exact has_setState_self hhas

/-- **`finish_candidate` closes the node that is waited for**, if there is one. -/
theorem finishCandidate_tracks (h : l.Tracks opened closed) (id : NodeId) (success : Bool) :
    (l.finishCandidate id success).Tracks (others opened id)
      (opened.filter (fun node => decide (node.id = id)) ++ closed) := by
  unfold finishCandidate
  split
  · rename_i hstate
    obtain ⟨row, hget, hflight⟩ := stateOf_eq_some.1 hstate
    obtain ⟨-, hperm, honly⟩ := h.split hget hflight
    have hleave : (if success then CandidateState.succeeded else .failed) ≠ .inFlight := by
      cases success <;> decide
    obtain ⟨hopen, hclosed, hopens, hself⟩ := h.leave hget hflight hleave
    have hall : (opened ++ closed).Perm (others opened id ++ (row.2.node :: closed)) :=
      (hperm.append_right closed).trans List.perm_middle.symm
    have hlen := hperm.length_eq
    rw [List.length_cons] at hlen
    rw [honly]
    refine ⟨keyed_setState h.keyed id _, hopen, ?_, hopens, (hall.map _).nodup_iff.1 h.ids,
      (hall.map _).nodup_iff.1 h.addresses, ?_, ?_, ?_, (length_setState l id _).trans_le h.size⟩
    · intro node hnode
      rcases List.mem_cons.1 hnode with rfl | hnode
      · cases success with
        | true => exact .inl hself
        | false => exact .inr hself
      · exact hclosed node hnode
    · intro a
      refine (h.attempted a).trans ⟨?_, ?_⟩
      · rintro ⟨node, hnode, heq⟩
        exact ⟨node, hall.mem_iff.1 hnode, heq⟩
      · rintro ⟨node, hnode, heq⟩
        exact ⟨node, hall.mem_iff.2 hnode, heq⟩
    · simp only [h.inFlight]
      omega
    · simp only [setState, h.started, List.cons_append, List.nil_append, List.length_cons]
      omega
  · rename_i hstate
    have habsent := h.absent hstate
    have hnone : opened.filter (fun node => decide (node.id = id)) = [] :=
      List.filter_eq_nil_iff.2 (fun node hnode => by simpa using habsent node hnode)
    rw [others_eq_self habsent, hnone]
    exact h

/-- **`defer` takes back the node that is waited for**, if there is one. -/
theorem defer_tracks (h : l.Tracks opened closed) (id : NodeId) :
    (l.defer id).Tracks (others opened id) closed := by
  unfold defer
  cases hget : l.candidates.get? id with
  | none =>
    have habsent : ∀ node ∈ opened, node.id ≠ id := h.absent (by simp [stateOf, hget])
    rw [others_eq_self habsent]
    exact h
  | some row =>
    simp only
    split
    · rename_i hflight
      obtain ⟨-, hperm, -⟩ := h.split hget hflight
      have hleave : CandidateState.unqueried ≠ .inFlight := by decide
      obtain ⟨hopen, hclosed, hopens, -⟩ := h.leave hget hflight hleave
      have hall : (opened ++ closed).Perm (row.2.node :: (others opened id ++ closed)) :=
        hperm.append_right closed
      have hids := (hall.map NodeContact.id).nodup_iff.1 h.ids
      have haddresses := (hall.map NodeContact.address).nodup_iff.1 h.addresses
      rw [List.map_cons, List.nodup_cons] at hids haddresses
      have hlen := hperm.length_eq
      rw [List.length_cons] at hlen
      refine ⟨keyed_setState h.keyed id _, hopen, hclosed, hopens, hids.2, haddresses.2, ?_, ?_, ?_,
        (length_setState l id _).trans_le h.size⟩
      · intro a
        have hiff := h.attempted a
        simp only [Table.get?_erase]
        split
        · rename_i heq
          constructor
          · intro hnone
            cases hnone
          · rintro ⟨node, hnode, hnode'⟩
            exact absurd (List.mem_map.2 ⟨node, hnode, hnode'.trans heq⟩) haddresses.1
        · rename_i hne
          rw [hiff]
          constructor
          · rintro ⟨node, hnode, heq⟩
            rcases List.mem_cons.1 (hall.mem_iff.1 hnode) with rfl | hnode
            · exact absurd heq.symm hne
            · exact ⟨node, hnode, heq⟩
          · rintro ⟨node, hnode, heq⟩
            exact ⟨node, hall.mem_iff.2 (List.mem_cons_of_mem _ hnode), heq⟩
      · simp only [h.inFlight]
        omega
      · simp only [h.started]
        omega
    · rename_i hflight
      have habsent : ∀ node ∈ opened, node.id ≠ id :=
        h.absent (by simpa [stateOf, hget] using hflight)
      rw [others_eq_self habsent]
      exact h

/-! ## Candidates are added and pruned -/

/-- The candidates change, but those that were tried stay and the new ones were not tried. -/
structure Extends (old new : Table LookupRow Prod.fst) : Prop where
  keyed : (∀ row ∈ old.rows, row.2.node.id = row.1) → ∀ row ∈ new.rows, row.2.node.id = row.1
  kept : ∀ id row, old.get? id = some row → row.2.state ≠ .unqueried → new.get? id = some row
  fresh : ∀ row ∈ new.rows, row.2.state ≠ .unqueried → row ∈ old.rows

theorem Extends.refl (t : Table LookupRow Prod.fst) : Extends t t :=
  ⟨fun h => h, fun _ _ h _ => h, fun _ h _ => h⟩

theorem Extends.trans {t u v : Table LookupRow Prod.fst} (h : Extends t u) (h' : Extends u v) :
    Extends t v :=
  ⟨fun hk => h'.keyed (h.keyed hk), fun id row hget hs => h'.kept id row (h.kept id row hget hs) hs,
    fun row hrow hs => h.fresh row (h'.fresh row hrow hs) hs⟩

/-- A candidate that was not tried is inserted. -/
theorem extends_insert {t : Table LookupRow Prod.fst} {c : LookupCandidate} {id : NodeId}
    (hid : c.node.id = id) (hc : c.state = .unqueried)
    (hold : ∀ row, t.get? id = some row → row.2.state = .unqueried) :
    Extends t (t.insert (id, c)) where
  keyed := by
    intro h row hrow
    rcases Table.mem_insert.1 hrow with rfl | ⟨hrow, -⟩
    · exact hid
    · exact h row hrow
  kept := by
    intro j row hget hs
    rw [Table.get?_insert, if_neg, hget]
    intro heq
    rw [← show id = j from heq] at hget
    exact hs (hold row hget)
  fresh := by
    intro row hrow hs
    rcases Table.mem_insert.1 hrow with rfl | ⟨hrow, -⟩
    · exact absurd hc hs
    · exact hrow

theorem discover_extends (localId : NodeId) (t : Table LookupRow Prod.fst)
    (found : NodeContact × Bool) : Extends t (discover localId t found) := by
  unfold discover
  split
  · exact .refl t
  · split
    · rename_i hnone
      exact extends_insert rfl rfl (by simp [hnone])
    · rename_i row hrow
      split
      · rename_i hreplace
        simp only [Bool.and_eq_true, decide_eq_true_eq] at hreplace
        refine extends_insert rfl hreplace.2 ?_
        intro row' hrow'
        rw [hrow] at hrow'
        cases hrow'
        exact hreplace.2
      · exact .refl t

theorem fold_extends (localId : NodeId) : ∀ (discovered : List (NodeContact × Bool))
    (t : Table LookupRow Prod.fst), Extends t (discovered.foldl (discover localId) t)
  | [], t => .refl t
  | found :: rest, t => (discover_extends localId t found).trans (fold_extends localId rest _)

/-- **A local identifier is not added.** -/
theorem fold_local (localId : NodeId) : ∀ (discovered : List (NodeContact × Bool))
    {t : Table LookupRow Prod.fst}, t.get? localId = none →
      (discovered.foldl (discover localId) t).get? localId = none
  | [], _, h => h
  | found :: rest, t, h => by
    refine fold_local localId rest ?_
    unfold discover
    split
    · exact h
    · rename_i hne
      split
      · rw [Table.get?_insert, if_neg hne]
        exact h
      · split
        · rw [Table.get?_insert, if_neg hne]
          exact h
        · exact h

/-- The candidates that were tried. -/
def tried (t : Table LookupRow Prod.fst) : List LookupRow :=
  t.rows.filter (fun row => decide (row.2.state ≠ .unqueried))

/-- The rows that `prune` keeps. -/
def kept (target : NodeId) (t : Table LookupRow Prod.fst) : List LookupRow :=
  (t.rows.insertionSort (Table.orderBy (keepRank target))).take 256

theorem keepRank_tried {target : NodeId} {row row' : LookupRow}
    (h : keepRank target row' ≤ keepRank target row) (hs : row.2.state ≠ .unqueried) :
    row'.2.state ≠ .unqueried := by
  intro hs'
  unfold keepRank at h
  rw [Prod.Lex.toLex_le_toLex, if_neg hs, if_pos hs'] at h
  simp at h

/-- **A candidate that was tried is kept**, as there are no more than 256 of them. -/
theorem mem_kept {target : NodeId} {t : Table LookupRow Prod.fst} (hfew : (tried t).length ≤ 256)
    {row : LookupRow} (hrow : row ∈ t.rows) (hs : row.2.state ≠ .unqueried) :
    row ∈ kept target t := by
  by_contra hout
  have hperm : (t.rows.insertionSort (Table.orderBy (keepRank target))).Perm t.rows :=
    List.perm_insertionSort _ _
  have hsplit := List.take_append_drop 256 (t.rows.insertionSort (Table.orderBy (keepRank target)))
  have hdrop : row ∈ (t.rows.insertionSort (Table.orderBy (keepRank target))).drop 256 := by
    have hmem := hperm.mem_iff.2 hrow
    rw [← hsplit] at hmem
    exact (List.mem_append.1 hmem).resolve_left hout
  have hsorted : (t.rows.insertionSort (Table.orderBy (keepRank target))).Pairwise
      (Table.orderBy (keepRank target)) := List.pairwise_insertionSort _ _
  rw [← hsplit, List.pairwise_append] at hsorted
  -- all rows that are kept come before this one, so they were tried as well
  have hall : ∀ row' ∈ kept target t, row' ∈ tried t := by
    intro row' hrow'
    refine List.mem_filter.2 ⟨hperm.mem_iff.1 (List.mem_of_mem_take hrow'), decide_eq_true ?_⟩
    exact keepRank_tried (hsorted.2.2 row' hrow' row hdrop) hs
  have hnodup : (row :: kept target t).Nodup := by
    refine List.nodup_cons.2 ⟨hout, ?_⟩
    exact (List.take_sublist _ _).nodup (hperm.nodup_iff.2 t.nodup_rows)
  have hsub : row :: kept target t ⊆ tried t := by
    intro row' hrow'
    rcases List.mem_cons.1 hrow' with rfl | hrow'
    · exact List.mem_filter.2 ⟨hrow, decide_eq_true hs⟩
    · exact hall row' hrow'
  have hle := (hnodup.subperm hsub).length_le
  have hlen : (kept target t).length = 256 := by
    have hlt : 256 < (t.rows.insertionSort (Table.orderBy (keepRank target))).length := by
      by_contra hge
      rw [List.drop_eq_nil_of_le (Nat.le_of_not_lt hge)] at hdrop
      cases hdrop
    unfold kept
    rw [List.length_take]
    omega
  rw [List.length_cons] at hle
  omega

/-- **Pruning leaves at most 256 candidates and drops only those that were not tried.** -/
theorem prune_extends {t : Table LookupRow Prod.fst} (target : NodeId)
    (hfew : (tried t).length ≤ 256) :
    Extends t (prune target t) ∧ (prune target t).rows.length ≤ 256 := by
  unfold prune
  split
  · have hkeep : ∀ row ∈ t.rows, row.2.state ≠ .unqueried →
        decide (row.1 ∉ (kept target t).map Prod.fst) = false := by
      intro row hrow hs
      rw [decide_eq_false_iff_not, not_not]
      exact List.mem_map_of_mem (mem_kept hfew hrow hs)
    refine ⟨⟨?_, ?_, ?_⟩, ?_⟩
    · exact fun h row hrow => h row (Table.mem_delete.1 hrow).1
    · intro id row hget hs
      simp only [Table.get?_delete, hget, Option.filter_some]
      rw [if_pos]
      rw [Bool.not_eq_true']
      exact hkeep row (Table.get?_eq_some.1 hget).1 hs
    · exact fun row hrow _ => (Table.mem_delete.1 hrow).1
    · have hsub : (t.delete (fun row => decide (row.1 ∉ (kept target t).map Prod.fst))).rows.map
          Prod.fst ⊆ (kept target t).map Prod.fst := by
        intro id hid
        obtain ⟨row, hrow, rfl⟩ := List.mem_map.1 hid
        simpa using (Table.mem_delete.1 hrow).2
      have hle := ((Table.nodup _).subperm hsub).length_le
      rw [List.length_map, List.length_map] at hle
      exact hle.trans (List.length_take_le _ _)
  · rename_i hlen
    exact ⟨.refl t, Nat.le_of_not_lt hlen⟩

/-- Candidates that were added and pruned keep the invariant. -/
theorem Tracks.extend (h : l.Tracks opened closed) {t : Table LookupRow Prod.fst}
    (hext : Extends l.candidates t) (hsize : t.rows.length ≤ 256) :
    Tracks { l with candidates := t } opened closed := by
  have hhas : ∀ node state, l.Has node state → state ≠ .unqueried →
      Has { l with candidates := t } node state := by
    rintro node state ⟨verified, hget⟩ hs
    exact ⟨verified, hext.kept _ _ hget hs⟩
  refine { h with
    keyed := hext.keyed h.keyed
    flight := fun node hnode => hhas _ _ (h.flight node hnode) (by decide)
    ended := ?_
    opens := ?_
    size := hsize }
  · intro node hnode
    rcases h.ended node hnode with hend | hend
    · exact .inl (hhas _ _ hend (by decide))
    · exact .inr (hhas _ _ hend (by decide))
  · intro row hrow hflight
    exact h.opens row (hext.fresh row hrow (by rw [hflight]; decide)) hflight

/-- `complete_success` adds candidates and prunes them. -/
theorem completeSuccess_extends (h : l.Tracks opened closed) (id : NodeId)
    (discovered : List (NodeContact × Bool)) (localId : NodeId) (success : Bool) :
    Extends (l.finishCandidate id success).candidates
        (prune l.target (discovered.foldl (discover localId)
          (l.finishCandidate id success).candidates)) ∧
      (prune l.target (discovered.foldl (discover localId)
        (l.finishCandidate id success).candidates)).rows.length ≤ 256 := by
  have hfold := fold_extends localId discovered (l.finishCandidate id success).candidates
  have hfew : (tried (discovered.foldl (discover localId)
      (l.finishCandidate id success).candidates)).length ≤ 256 := by
    have hsub : tried (discovered.foldl (discover localId)
        (l.finishCandidate id success).candidates) ⊆
          (l.finishCandidate id success).candidates.rows := by
      intro row hrow
      obtain ⟨hrow, hs⟩ := List.mem_filter.1 hrow
      exact hfold.fresh row hrow (of_decide_eq_true hs)
    have hnodup := (Table.nodup_rows (discovered.foldl (discover localId)
      (l.finishCandidate id success).candidates)).filter
        (fun row => decide (row.2.state ≠ .unqueried))
    exact (hnodup.subperm hsub).length_le.trans (finishCandidate_tracks h id success).size
  obtain ⟨hprune, hsize⟩ := prune_extends l.target hfew
  exact ⟨hfold.trans hprune, hsize⟩

end IterativeLookup

end BtSniffer
