import BtSniffer.Web.EventBuffer

/-!
# What the event buffer stores

* `Stored` — the order, the bytes and the two indexes are those of the entries.
* `Stored.addEvent`, `Stored.remove` — what the operations on one entry do.
* `sweep_spec`, `shrink_spec` — the two loops of `prune`, and from them `prune_spec` and `add_spec`.
-/

set_option autoImplicit false

namespace BtSniffer.Web

open Relational

variable {δ : Type}

/-- An index holds the entries under their keys, and no empty set. -/
structure Indexed (t : SetIndex String Sequence) (keys : ObservationEvent δ → List String)
    (entries : Table (Entry δ) Entry.sequence) : Prop where
  has : ∀ key s, t.Has key s ↔ ∃ e ∈ entries.rows, e.sequence = s ∧ key ∈ keys e.event
  inhabited : t.Inhabited

namespace Indexed

variable {t : SetIndex String Sequence} {keys : ObservationEvent δ → List String}
  {entries : Table (Entry δ) Entry.sequence}

theorem add (h : Indexed t keys entries) {e : Entry δ} (hnew : entries.get? e.sequence = none) :
    Indexed (t.addAll (keys e.event) e.sequence) keys (entries.insert e) where
  has := by
    intro key s
    rw [SetIndex.has_addAll, h.has, Table.insert_of_none hnew]
    simp only [List.mem_append, List.mem_singleton]
    constructor
    · rintro (⟨x, hx, hs, hkey⟩ | ⟨hkey, rfl⟩)
      · exact ⟨x, .inl hx, hs, hkey⟩
      · exact ⟨e, .inr rfl, rfl, hkey⟩
    · rintro ⟨x, hx | rfl, hs, hkey⟩
      · exact .inl ⟨x, hx, hs, hkey⟩
      · exact .inr ⟨hkey, hs.symm⟩
  inhabited := SetIndex.inhabited_addAll h.inhabited

theorem remove (h : Indexed t keys entries) {e : Entry δ} {id : Sequence}
    (hold : entries.get? id = some e) :
    Indexed (t.removeAll (keys e.event) id) keys (entries.erase id) where
  has := by
    intro key s
    obtain ⟨hmem, hid⟩ := Table.get?_eq_some.1 hold
    rw [SetIndex.has_removeAll, h.has]
    constructor
    · rintro ⟨⟨x, hx, hs, hkey⟩, hnot⟩
      refine ⟨x, Table.mem_erase.2 ⟨hx, ?_⟩, hs, hkey⟩
      intro hxid
      rw [Table.eq_of_key hx hmem (hxid.trans hid.symm)] at hkey
      exact hnot ⟨hkey, hs.symm.trans hxid⟩
    · rintro ⟨x, hx, hs, hkey⟩
      obtain ⟨hx, hne⟩ := Table.mem_erase.1 hx
      exact ⟨⟨x, hx, hs, hkey⟩, fun hboth => hne (hs.trans hboth.2)⟩
  inhabited := SetIndex.inhabited_removeAll h.inhabited

end Indexed

namespace EventBuffer

variable {encodedBytes : ObservationEvent δ → Nat} {b : EventBuffer δ} {order : List Sequence}

/-- The keys of the entries. -/
def keys (b : EventBuffer δ) : List Sequence := b.entries.rows.map Entry.sequence

/-- What belongs to the entries, and the list of their keys. -/
structure Stored (encodedBytes : ObservationEvent δ → Nat) (order : List Sequence)
    (b : EventBuffer δ) : Prop where
  order : order.Perm b.keys
  bytes : b.bytes = (b.entries.rows.map fun e => (e.bytes : Int)).sum
  sizes : ∀ e ∈ b.entries.rows, e.bytes = encodedBytes e.event
  hashes : Indexed b.hashes ObservationEvent.hashKeys b.entries
  objects : Indexed b.objects ObservationEvent.objectIds b.entries

theorem Stored.nodup (h : Stored encodedBytes order b) : order.Nodup :=
  h.order.nodup_iff.2 b.entries.nodup

theorem Stored.mem_order (h : Stored encodedBytes order b) {id : Sequence} :
    id ∈ order ↔ ∃ e ∈ b.entries.rows, e.sequence = id := by
  rw [h.order.mem_iff]
  exact List.mem_map

theorem Stored.length_order (h : Stored encodedBytes order b) : order.length = b.size := by
  rw [h.order.length_eq]
  exact List.length_map _

/-- Every key of the order has its entry. -/
theorem Stored.get? (h : Stored encodedBytes order b) {id : Sequence} (hid : id ∈ order) :
    ∃ e ∈ b.entries.rows, b.entries.get? id = some e ∧ e.sequence = id := by
  obtain ⟨e, he, hkey⟩ := h.mem_order.1 hid
  exact ⟨e, he, Table.get?_eq_some.2 ⟨he, hkey⟩, hkey⟩

theorem Stored.perm (h : Stored encodedBytes order b) {order' : List Sequence}
    (hperm : order'.Perm order) : Stored encodedBytes order' b :=
  ⟨hperm.trans h.order, h.bytes, h.sizes, h.hashes, h.objects⟩

theorem stored_new (limits : Limits) : Stored encodedBytes [] (new limits : EventBuffer δ) where
  order := List.Perm.nil
  bytes := rfl
  sizes _ he := nomatch he
  hashes := ⟨fun key s => by simp [new, SetIndex.Has], fun k p hp => nomatch hp⟩
  objects := ⟨fun key s => by simp [new, SetIndex.Has], fun k p hp => nomatch hp⟩

/-! ## One entry -/

/-- A sequence is in the order after an event, if it was before it or is that of the event. -/
theorem addEvent_spec (h : Stored encodedBytes b.order b) (now : Int)
    (event : ObservationEvent δ) :
    Stored encodedBytes (addEvent encodedBytes now b event).order (addEvent encodedBytes now b event) ∧
    (∀ s, s ∈ (addEvent encodedBytes now b event).order ↔ s ∈ b.order ∨ s = event.sequence) ∧
    (addEvent encodedBytes now b event).evicted = b.evicted ∧
    (addEvent encodedBytes now b event).limits = b.limits := by
  unfold addEvent
  cases hget : b.entries.get? event.sequence with
  | some e =>
    obtain ⟨he, hkey⟩ := Table.get?_eq_some.1 hget
    simp only [Option.isSome_some, if_true]
    refine ⟨h, ?_, trivial, trivial⟩
    intro s
    constructor
    · exact .inl
    · rintro (hs | rfl)
      · exact hs
      · exact h.mem_order.2 ⟨e, he, hkey⟩
  | none =>
    let entry : Entry δ := ⟨event, encodedBytes event, now⟩
    have hnew : b.entries.get? entry.sequence = none := hget
    have hrows : (b.entries.insert entry).rows = b.entries.rows ++ [entry] :=
      Table.insert_of_none hnew
    simp only [Option.isSome_none, Bool.false_eq_true, if_false]
    refine ⟨⟨?_, ?_, ?_, h.hashes.add hnew, h.objects.add hnew⟩, by simp, trivial, trivial⟩
    · change (b.order ++ [event.sequence]).Perm ((b.entries.insert entry).rows.map Entry.sequence)
      rw [hrows, List.map_append]
      exact h.order.append_right _
    · change b.bytes + _ = ((b.entries.insert entry).rows.map fun e => (e.bytes : Int)).sum
      rw [hrows, h.bytes]
      simp [entry]
    · intro e he
      change e ∈ (b.entries.insert entry).rows at he
      rw [hrows, List.mem_append, List.mem_singleton] at he
      rcases he with he | rfl
      · exact h.sizes e he
      · rfl

/-- A removed key leaves the order, and is counted. -/
theorem remove_spec {id : Sequence} (h : Stored encodedBytes (id :: order) b) :
    Stored encodedBytes order (b.remove id) ∧ (b.remove id).evicted = b.evicted + 1 ∧
    (b.remove id).limits = b.limits ∧ (b.remove id).entries.rows ⊆ b.entries.rows := by
  obtain ⟨e, he, hget, hkey⟩ := h.get? List.mem_cons_self
  have hperm := Table.perm_erase hget
  unfold remove
  rw [hget]
  refine ⟨⟨?_, ?_, ?_, h.hashes.remove hget, h.objects.remove hget⟩, rfl, rfl, ?_⟩
  · have hkeys : b.keys.Perm (id :: (b.entries.erase id).rows.map Entry.sequence) := by
      have hmap := hperm.map Entry.sequence
      rw [List.map_cons, hkey] at hmap
      exact hmap
    exact (List.perm_cons id).1 (h.order.trans hkeys)
  · have hsum := (hperm.map fun e => (e.bytes : Int)).sum_eq
    rw [List.map_cons, List.sum_cons, ← h.bytes] at hsum
    simp only
    omega
  · intro x hx
    exact h.sizes x (Table.mem_erase.1 hx).1
  · intro x hx
    exact (Table.mem_erase.1 hx).1

/-- The loop of `add`. -/
theorem addEvents_spec (now : Int) : ∀ (events : List (ObservationEvent δ)) {b : EventBuffer δ},
    Stored encodedBytes b.order b →
    Stored encodedBytes (events.foldl (addEvent encodedBytes now) b).order
      (events.foldl (addEvent encodedBytes now) b) ∧
    (∀ s, s ∈ (events.foldl (addEvent encodedBytes now) b).order ↔
      s ∈ b.order ∨ s ∈ events.map ObservationEvent.sequence) ∧
    (events.foldl (addEvent encodedBytes now) b).evicted = b.evicted ∧
    (events.foldl (addEvent encodedBytes now) b).limits = b.limits
  | [], b, h => ⟨h, by simp, rfl, rfl⟩
  | event :: rest, b, h => by
    obtain ⟨hstored, hmem, hevicted, hlimits⟩ := addEvent_spec h now event
    obtain ⟨hstored', hmem', hevicted', hlimits'⟩ := addEvents_spec now rest hstored
    refine ⟨hstored', ?_, hevicted'.trans hevicted, hlimits'.trans hlimits⟩
    intro s
    rw [List.foldl_cons, hmem', hmem, List.map_cons, List.mem_cons, or_assoc]

/-! ## Pruning -/

/-- What taking keys from the order does to the buffer. -/
structure Pruned (encodedBytes : ObservationEvent δ → Nat) (order : List Sequence)
    (b : EventBuffer δ) (order' : List Sequence) (b' : EventBuffer δ) : Prop where
  stored : Stored encodedBytes order' b'
  sublist : order'.Sublist order
  limits : b'.limits = b.limits
  rows : b'.entries.rows ⊆ b.entries.rows
  evicted : b'.evicted + order'.length = b.evicted + order.length

theorem Pruned.refl (h : Stored encodedBytes order b) : Pruned encodedBytes order b order b :=
  ⟨h, List.Sublist.refl order, rfl, fun _ hx => hx, rfl⟩

theorem Pruned.trans {order₁ order₂ order₃ : List Sequence} {b₁ b₂ b₃ : EventBuffer δ}
    (h₁ : Pruned encodedBytes order₁ b₁ order₂ b₂) (h₂ : Pruned encodedBytes order₂ b₂ order₃ b₃) :
    Pruned encodedBytes order₁ b₁ order₃ b₃ :=
  ⟨h₂.stored, h₂.sublist.trans h₁.sublist, h₂.limits.trans h₁.limits,
    fun _ hx => h₁.rows (h₂.rows hx), h₂.evicted.trans h₁.evicted⟩

/-- A key from the front. -/
theorem Pruned.remove {id : Sequence} (h : Stored encodedBytes (id :: order) b) :
    Pruned encodedBytes (id :: order) b order (b.remove id) := by
  obtain ⟨hstored, hevicted, hlimits, hrows⟩ := remove_spec h
  refine ⟨hstored, List.sublist_cons_self id order, hlimits, hrows, ?_⟩
  rw [hevicted, List.length_cons]
  omega

/-- The filter of `prune` keeps an entry. -/
def Fresh (limits : Limits) (now : Int) (oldest : Option Int) (e : Entry δ) : Prop :=
  now - e.received < limits.age ∧ ∀ o ∈ oldest, o ≤ (e.sequence.bigInt : Int)

/-- **The filter of `prune`** goes through the keys once; those before it has kept stay. -/
theorem sweep_spec (now : Int) (oldest : Option Int) : ∀ (ids done : List Sequence)
    {b : EventBuffer δ}, Stored encodedBytes (done ++ ids) b →
    ∃ kept b', b.sweep now oldest ids = some (kept, b') ∧
      Pruned encodedBytes (done ++ ids) b (done ++ kept) b' ∧
      ∀ e ∈ b'.entries.rows, e.sequence ∈ kept → Fresh b.limits now oldest e
  | [], done, b, h => ⟨[], b, rfl, .refl h, fun _ _ hkept => nomatch hkept⟩
  | id :: rest, done, b, h => by
    have hmiddle : (id :: (done ++ rest)).Perm (done ++ id :: rest) := List.perm_middle.symm
    obtain ⟨e, he, hget, hkey⟩ := h.get? (List.mem_append_right done List.mem_cons_self)
    by_cases hold : b.limits.age ≤ now - e.received ∨ ∃ o ∈ oldest, (id.bigInt : Int) < o
    · obtain ⟨hstored, hevicted, hlimits, hrows⟩ := remove_spec (h.perm hmiddle)
      obtain ⟨kept, b', hsweep, hpruned, hfresh⟩ := sweep_spec now oldest rest done hstored
      refine ⟨kept, b', ?_, ⟨hpruned.stored, ?_, hpruned.limits.trans hlimits,
        fun _ hx => hrows (hpruned.rows hx), ?_⟩, hlimits ▸ hfresh⟩
      · unfold sweep
        rw [hget, Option.bind_eq_bind, Option.bind_some, if_pos hold, hsweep]
      · exact hpruned.sublist.trans ((List.sublist_cons_self id rest).append_left done)
      · rw [hpruned.evicted, hevicted]
        simp only [List.length_append, List.length_cons]
        omega
    · have happend : done ++ id :: rest = (done ++ [id]) ++ rest := by simp
      rw [happend] at h
      obtain ⟨kept, b', hsweep, hpruned, hfresh⟩ := sweep_spec now oldest rest (done ++ [id]) h
      have hkept : (done ++ [id]) ++ kept = done ++ id :: kept := by simp
      rw [hkept, ← happend] at hpruned
      refine ⟨id :: kept, b', ?_, hpruned, ?_⟩
      · unfold sweep
        rw [hget, Option.bind_eq_bind, Option.bind_some, if_neg hold, hsweep]
        rfl
      · intro x hx hmem
        rcases List.mem_cons.1 hmem with hid | hmem
        · have hsame : x = e := Table.eq_of_key (hpruned.rows hx) he (hid.trans hkey.symm)
          rw [not_or, not_le] at hold
          refine ⟨hsame ▸ hold.1, ?_⟩
          intro o ho
          rw [hid]
          exact not_lt.1 fun hlt => hold.2 ⟨o, ho, hlt⟩
        · exact hfresh x hx hmem

/-- A buffer without entries is not too full. -/
theorem not_overfull_nil (h : Stored encodedBytes [] b) (hcount : 0 ≤ b.limits.count)
    (hbytes : 0 ≤ b.limits.bytes) : b.overfull = false := by
  have hrows : b.entries.rows = [] := by
    rw [← List.length_eq_zero_iff]
    exact h.length_order.symm
  have hsize : b.size = 0 := h.length_order.symm
  have hsum : b.bytes = 0 := by
    rw [h.bytes, hrows]
    rfl
  unfold overfull
  rw [hsize, hsum]
  simp
  omega

/-- **The loop of `prune`** ends when the buffer is not too full; with limits that are not negative
it ends. -/
theorem shrink_spec : ∀ (order : List Sequence) {b : EventBuffer δ}, Stored encodedBytes order b →
    (0 ≤ b.limits.count → 0 ≤ b.limits.bytes → (b.shrink order).isSome = true) ∧
    ∀ b', b.shrink order = some b' →
      Pruned encodedBytes order b b'.order b' ∧ b'.overfull = false
  | [], b, h => by
    unfold shrink
    by_cases hfull : b.overfull = true
    · rw [if_pos hfull]
      refine ⟨fun hcount hbytes => ?_, fun b' hb' => nomatch hb'⟩
      rw [not_overfull_nil h hcount hbytes] at hfull
      cases hfull
    · rw [if_neg hfull]
      refine ⟨fun _ _ => rfl, fun b' hb' => ?_⟩
      cases hb'
      exact ⟨⟨⟨h.order, h.bytes, h.sizes, h.hashes, h.objects⟩, List.Sublist.refl [], rfl,
        fun _ hx => hx, rfl⟩, Bool.eq_false_iff.2 hfull⟩
  | id :: rest, b, h => by
    unfold shrink
    by_cases hfull : b.overfull = true
    · rw [if_pos hfull]
      have hremove := Pruned.remove h
      obtain ⟨hreturns, hspec⟩ := shrink_spec rest hremove.stored
      rw [hremove.limits] at hreturns
      refine ⟨hreturns, fun b' hb' => ?_⟩
      obtain ⟨hpruned, hdone⟩ := hspec b' hb'
      exact ⟨hremove.trans hpruned, hdone⟩
    · rw [if_neg hfull]
      refine ⟨fun _ _ => rfl, fun b' hb' => ?_⟩
      cases hb'
      exact ⟨⟨⟨h.order, h.bytes, h.sizes, h.hashes, h.objects⟩, List.Sublist.refl _, rfl,
        fun _ hx => hx, rfl⟩, Bool.eq_false_iff.2 hfull⟩

/-- The limits hold, and no entry is too old. -/
structure Within (now : Int) (b : EventBuffer δ) : Prop where
  count : (b.size : Int) ≤ b.limits.count
  bytes : b.bytes ≤ b.limits.bytes
  age : ∀ e ∈ b.entries.rows, now - e.received < b.limits.age

theorem not_overfull_iff : b.overfull = false ↔
    (b.size : Int) ≤ b.limits.count ∧ b.bytes ≤ b.limits.bytes := by
  unfold overfull
  simp

/-- **`prune`** removes keys until the limits hold. -/
theorem prune_spec (h : Stored encodedBytes b.order b) (now : Int) (oldest : Option Int) :
    (0 ≤ b.limits.count → 0 ≤ b.limits.bytes → (b.prune now oldest).isSome = true) ∧
    ∀ b', b.prune now oldest = some b' →
      Pruned encodedBytes b.order b b'.order b' ∧ Within now b' := by
  obtain ⟨kept, swept, hsweep, hpruned, hfresh⟩ := sweep_spec now oldest b.order [] h
  rw [List.nil_append, List.nil_append] at hpruned
  obtain ⟨hreturns, hspec⟩ := shrink_spec kept hpruned.stored
  have hprune : b.prune now oldest = swept.shrink kept := by
    unfold prune
    rw [hsweep]
    rfl
  rw [hprune]
  rw [hpruned.limits] at hreturns
  refine ⟨hreturns, fun b' hb' => ?_⟩
  obtain ⟨hshrunk, hdone⟩ := hspec b' hb'
  obtain ⟨hcount, hbytes⟩ := not_overfull_iff.1 hdone
  refine ⟨hpruned.trans hshrunk, hcount, hbytes, ?_⟩
  intro e he
  have hkept : e.sequence ∈ kept := hpruned.stored.mem_order.2 ⟨e, hshrunk.rows he, rfl⟩
  rw [hshrunk.limits, hpruned.limits]
  exact (hfresh e (hshrunk.rows he) hkept).1

end EventBuffer

end BtSniffer.Web
