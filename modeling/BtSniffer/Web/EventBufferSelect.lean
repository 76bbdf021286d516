import BtSniffer.Web.EventBufferInv

/-!
# Selecting from the event buffer

* `collect_spec` — the loop of `select` takes the first events that it admits.
* `select_spec` — `select` finds the last matching events, in increasing order, whether an index is
  used or not.
-/

set_option autoImplicit false

namespace BtSniffer.Web

open Relational

variable {δ : Type}

theorem given_eq_some {value : Option String} {s : String} :
    given value = some s ↔ value = some s ∧ s ≠ "" := by
  unfold given
  rw [Option.filter_eq_some_iff]
  simp

theorem ObservationEvent.mem_hashKeys {event : ObservationEvent δ} {hash : String} :
    hash ∈ event.hashKeys ↔ event.context.swarmKey = some hash ∧ hash ≠ "" := by
  unfold hashKeys
  rw [Option.mem_toList]
  exact given_eq_some

/-- An entry is found under its keys. -/
theorem Indexed.has_iff {t : SetIndex String Sequence} {keys : ObservationEvent δ → List String}
    {entries : Table (Entry δ) Entry.sequence} (h : Indexed t keys entries) {e : Entry δ}
    (he : e ∈ entries.rows) (key : String) : t.Has key e.sequence ↔ key ∈ keys e.event := by
  rw [h.has]
  constructor
  · rintro ⟨x, hx, hs, hkey⟩
    rw [Table.eq_of_key hx he hs] at hkey
    exact hkey
  · intro hkey
    exact ⟨e, he, rfl, hkey⟩

namespace EventBuffer

variable {encodedBytes : ObservationEvent δ → Nat} {b : EventBuffer δ} {order : List Sequence}

/-! ## Stored events -/

/-- The order of events by their sequences. -/
def eventLe (a b : ObservationEvent δ) : Prop := a.sequence.le b.sequence

instance : DecidableRel (eventLe (δ := δ)) :=
  fun a b => inferInstanceAs (Decidable (a.sequence.le b.sequence))

instance : Std.Total (eventLe (δ := δ)) := ⟨fun a b => Nat.le_total a.sequence.bigInt b.sequence.bigInt⟩

instance : IsTrans (ObservationEvent δ) eventLe := ⟨fun _ _ _ => Nat.le_trans⟩

/-- The stored events in increasing order. -/
def events (b : EventBuffer δ) : List (ObservationEvent δ) :=
  (b.entries.rows.map Entry.event).insertionSort eventLe

theorem mem_events {event : ObservationEvent δ} :
    event ∈ b.events ↔ ∃ e ∈ b.entries.rows, e.event = event := by
  unfold events
  rw [List.mem_insertionSort, List.mem_map]

/-- The event of a key. -/
def event? (b : EventBuffer δ) (id : Sequence) : Option (ObservationEvent δ) :=
  (b.entries.get? id).map Entry.event

/-- The events in the order of the keys. -/
theorem filterMap_order (h : Stored encodedBytes order b)
    (hsorted : order.Pairwise fun s t => s.bigInt < t.bigInt) :
    order.filterMap b.event? = b.events := by
  have hkeys : b.keys.filterMap b.event? = b.entries.rows.map Entry.event := by
    unfold keys
    rw [List.filterMap_map, ← List.filterMap_eq_map]
    refine List.filterMap_congr fun e he => ?_
    have hget : b.entries.get? e.sequence = some e := Table.get?_key he
    simp [event?, hget]
  have hperm : (order.filterMap b.event?).Perm b.events := by
    refine (h.order.filterMap b.event?).trans ?_
    rw [hkeys]
    exact (List.perm_insertionSort _ _).symm
  have hincreasing : (order.filterMap b.event?).Pairwise fun x y =>
      x.sequence.bigInt < y.sequence.bigInt := by
    refine List.Pairwise.filterMap b.event? ?_ hsorted
    intro s t hlt x hx y hy
    obtain ⟨e, he, rfl⟩ := Option.map_eq_some_iff.1 hx
    obtain ⟨f, hf, rfl⟩ := Option.map_eq_some_iff.1 hy
    have hs : e.sequence = s := (Table.get?_eq_some.1 he).2
    have ht : f.sequence = t := (Table.get?_eq_some.1 hf).2
    change e.sequence.bigInt < f.sequence.bigInt
    rw [hs, ht]
    exact hlt
  have hle : (b.events).Pairwise eventLe := List.pairwise_insertionSort eventLe _
  refine hperm.eq_of_pairwise ?_ (hincreasing.imp fun hlt => Nat.le_of_lt hlt) hle
  intro x y hx hy hxy hyx
  obtain ⟨s, hs, hsx⟩ := List.mem_filterMap.1 hx
  obtain ⟨e, he, rfl⟩ := Option.map_eq_some_iff.1 hsx
  obtain ⟨f, hf, rfl⟩ := mem_events.1 hy
  have hkey : e.sequence = f.sequence := Sequence.bigInt_injective (Nat.le_antisymm hxy hyx)
  rw [Table.eq_of_key (Table.get?_eq_some.1 he).1 hf hkey]

/-! ## The loop -/

/-- An event that `select` admits: the index holds it, and it passes the tests. -/
def admits (allowed : Option (Finset Sequence)) (filter : EventFilter)
    (event : ObservationEvent δ) : Bool :=
  decide (∀ ids ∈ allowed, event.sequence ∈ ids) && passes filter event

/-- **The loop of `select`** takes the first events that it admits. -/
theorem collect_spec (allowed : Option (Finset Sequence)) (filter : EventFilter) :
    ∀ (room : Nat) (ids : List Sequence), (∀ id ∈ ids, (b.entries.get? id).isSome = true) →
      b.collect allowed filter room ids =
        some (((ids.filterMap b.event?).filter (admits allowed filter)).take room)
  | 0, ids, _ => by
    rw [List.take_zero]
    cases ids <;> rfl
  | room + 1, [], _ => rfl
  | room + 1, id :: rest, h => by
    obtain ⟨e, he⟩ := Option.isSome_iff_exists.1 (h id List.mem_cons_self)
    have hrest : ∀ id ∈ rest, (b.entries.get? id).isSome = true :=
      fun i hi => h i (List.mem_cons_of_mem id hi)
    have hevent : b.event? id = some e.event := by
      unfold event?
      rw [he, Option.map_some]
    have hid : e.event.sequence = id := (Table.get?_eq_some.1 he).2
    rw [List.filterMap_cons_some hevent]
    unfold collect
    by_cases hout : ∃ ids ∈ allowed, id ∉ ids
    · have hadmits : admits allowed filter e.event = false := by
        obtain ⟨ids, hids, hnot⟩ := hout
        have hall : ¬ ∀ ids ∈ allowed, e.event.sequence ∈ ids := fun hall =>
          hnot (hid ▸ hall ids hids)
        unfold admits
        rw [decide_eq_false hall, Bool.false_and]
      rw [if_pos hout, List.filter_cons_of_neg (by rw [hadmits]; decide)]
      exact collect_spec allowed filter (room + 1) rest hrest
    · have hall : ∀ ids ∈ allowed, e.event.sequence ∈ ids := by
        intro ids hids
        rw [hid]
        exact Classical.byContradiction fun hnot => hout ⟨ids, hids, hnot⟩
      have hadmits : admits allowed filter e.event = passes filter e.event := by
        unfold admits
        rw [decide_eq_true hall, Bool.true_and]
      rw [if_neg hout, he, Option.bind_eq_bind, Option.bind_some]
      by_cases hpass : passes filter e.event = true
      · rw [if_pos hpass, List.filter_cons_of_pos (hadmits.trans hpass),
          collect_spec allowed filter room rest hrest, List.take_succ_cons]
        rfl
      · rw [if_neg hpass, List.filter_cons_of_neg (by rw [hadmits]; exact hpass)]
        exact collect_spec allowed filter (room + 1) rest hrest

/-! ## The result -/

/-- An event matches all given conditions. -/
def matchesAll (filter : EventFilter) (event : ObservationEvent δ) : Bool :=
  (match given filter.hash with
    | some hash => decide (event.context.swarmKey = some hash)
    | none => true) && passes filter event

/-- The loop over the whole order, of which the index admits the matching events. -/
theorem collect_order (h : Stored encodedBytes b.order b)
    (hsorted : b.order.Pairwise fun s t => s.bigInt < t.bigInt)
    {allowed : Option (Finset Sequence)} {filter : EventFilter}
    (hadmits : ∀ e ∈ b.entries.rows, admits allowed filter e.event = matchesAll filter e.event)
    (room : Nat) :
    (b.collect allowed filter room b.order.reverse).map List.reverse =
      some ((b.events.filter (matchesAll filter)).rtake room) := by
  have hfound : ∀ id ∈ b.order.reverse, (b.entries.get? id).isSome = true := by
    intro id hid
    obtain ⟨e, -, hget, -⟩ := h.get? (List.mem_reverse.1 hid)
    rw [hget]
    rfl
  have hevents : b.order.reverse.filterMap b.event? = b.events.reverse := by
    rw [List.filterMap_reverse, filterMap_order h hsorted]
  have hfilter : b.events.filter (admits allowed filter) = b.events.filter (matchesAll filter) := by
    refine List.filter_congr fun event hevent => ?_
    obtain ⟨e, he, rfl⟩ := mem_events.1 hevent
    exact hadmits e he
  rw [collect_spec allowed filter room _ hfound, hevents, List.filter_reverse, hfilter,
    Option.map_some, List.rtake_eq_reverse_take_reverse]

/-- **An index that holds a key** admits the events that have it. -/
theorem admits_index {t : SetIndex String Sequence} {keys : ObservationEvent δ → List String}
    (h : Indexed t keys b.entries) {key : String} {p : Posting String Sequence}
    (hget : t.get? key = some p) {e : Entry δ} (he : e ∈ b.entries.rows) (filter : EventFilter) :
    admits (some p.ids) filter e.event = (decide (key ∈ keys e.event) && passes filter e.event) := by
  have hids : e.event.sequence ∈ p.ids ↔ key ∈ keys e.event := by
    rw [← h.has_iff he]
    unfold SetIndex.Has
    simp [hget, Entry.sequence]
  unfold admits
  simp [hids]

/-- A key that an index does not hold is a key of no event. -/
theorem not_mem_of_index_none {t : SetIndex String Sequence}
    {keys : ObservationEvent δ → List String} (h : Indexed t keys b.entries) {key : String}
    (hget : t.get? key = none) {e : Entry δ} (he : e ∈ b.entries.rows) : key ∉ keys e.event := by
  rw [← h.has_iff he]
  rintro ⟨p, hp, -⟩
  rw [hget] at hp
  cases hp

/-- When no event matches, the result is empty. -/
theorem rtake_eq_nil {filter : EventFilter} (room : Nat)
    (h : ∀ e ∈ b.entries.rows, matchesAll filter e.event = false) :
    (b.events.filter (matchesAll filter)).rtake room = [] := by
  have hnone : b.events.filter (matchesAll filter) = [] := by
    rw [List.filter_eq_nil_iff]
    intro event hevent
    obtain ⟨e, he, rfl⟩ := mem_events.1 hevent
    rw [h e he]
    decide
  rw [hnone, List.rtake_nil]

theorem matchesAll_hash {filter : EventFilter} {hash : String} (hgiven : given filter.hash = some hash)
    (event : ObservationEvent δ) :
    matchesAll filter event = (decide (hash ∈ event.hashKeys) && passes filter event) := by
  have hmem : hash ∈ event.hashKeys ↔ event.context.swarmKey = some hash := by
    rw [ObservationEvent.mem_hashKeys]
    exact and_iff_left (given_eq_some.1 hgiven).2
  unfold matchesAll
  rw [hgiven]
  simp only [hmem]

theorem matchesAll_object {filter : EventFilter} {object : String}
    (hhash : given filter.hash = none) (hgiven : given filter.object = some object)
    (event : ObservationEvent δ) :
    matchesAll filter event = (decide (object ∈ event.objectIds) && passes filter event) := by
  unfold matchesAll passes
  rw [hhash, hgiven, Bool.true_and, ← Bool.and_assoc, Bool.and_self]

/-- **`select` finds the last matching events**, in increasing order. -/
theorem select_spec (h : Stored encodedBytes b.order b)
    (hsorted : b.order.Pairwise fun s t => s.bigInt < t.bigInt) (filter : EventFilter) (limit : Int) :
    b.select filter limit = some ((b.events.filter (matchesAll filter)).rtake limit.toNat) := by
  unfold select
  cases hhash : given filter.hash with
  | some hash =>
    have hallowed : b.allowed filter = some ((b.hashes.get? hash).map Posting.ids) := by
      simp only [allowed, hhash]
    rw [hallowed]
    cases hget : b.hashes.get? hash with
    | none =>
      refine congrArg some (rtake_eq_nil limit.toNat fun e he => ?_).symm
      have hnot := not_mem_of_index_none h.hashes hget he
      rw [matchesAll_hash hhash, decide_eq_false hnot, Bool.false_and]
    | some p =>
      refine collect_order h hsorted (fun e he => ?_) limit.toNat
      rw [admits_index h.hashes hget he, matchesAll_hash hhash]
  | none =>
    cases hobject : given filter.object with
    | some object =>
      have hallowed : b.allowed filter = some ((b.objects.get? object).map Posting.ids) := by
        simp only [allowed, hhash, hobject]
      rw [hallowed]
      cases hget : b.objects.get? object with
      | none =>
        refine congrArg some (rtake_eq_nil limit.toNat fun e he => ?_).symm
        have hnot := not_mem_of_index_none h.objects hget he
        rw [matchesAll_object hhash hobject, decide_eq_false hnot, Bool.false_and]
      | some p =>
        refine collect_order h hsorted (fun e he => ?_) limit.toNat
        rw [admits_index h.objects hget he, matchesAll_object hhash hobject]
    | none =>
      have hallowed : b.allowed filter = none := by
        simp only [allowed, hhash, hobject]
      rw [hallowed]
      refine collect_order h hsorted (fun e _ => ?_) limit.toNat
      unfold admits matchesAll
      rw [hhash]
      simp

end EventBuffer

end BtSniffer.Web
