import BtSniffer.Web.EventBufferSelect

/-!
# Runs of the event buffer

* `Inv.step` — every call keeps the invariant, and its evictions are counted.
* `eventBuffer_runs` — in every run the order, the bytes and the indexes are those of the entries,
  evictions are counted, the limits hold, and `select` finds the last matching events.
-/

set_option autoImplicit false

namespace BtSniffer.Web

open Relational

variable {δ : Type}

/-- A call. -/
inductive Call (δ : Type) where
  | add (events : List (ObservationEvent δ)) (now : Int)
  | prune (now : Int) (oldest : Option Int)
  | clear

namespace Call

/-- The sequences that a call brings. -/
def sequences : Call δ → List Sequence
  | .add events _ => events.map ObservationEvent.sequence
  | _ => []

/-- The time of a call that prunes. -/
def now? : Call δ → Option Int
  | .add _ now => some now
  | .prune now _ => some now
  | .clear => none

end Call

namespace EventBuffer

variable {encodedBytes : ObservationEvent δ → Nat} {b : EventBuffer δ}

/-- One call. -/
def step (encodedBytes : ObservationEvent δ → Nat) (b : EventBuffer δ) : Call δ → Option (EventBuffer δ)
  | .add events now => b.add encodedBytes events now
  | .prune now oldest => b.prune now oldest
  | .clear => some b.clear

/-- The calls one after the other. -/
def run (encodedBytes : ObservationEvent δ → Nat) (b : EventBuffer δ) (calls : List (Call δ)) :
    Option (EventBuffer δ) :=
  calls.foldlM (step encodedBytes) b

/-- The entries that were stored before a call or come with it and are not stored after it. -/
def removedBy (b : EventBuffer δ) (call : Call δ) (b' : EventBuffer δ) : Finset Sequence :=
  (b.keys.toFinset ∪ call.sequences.toFinset) \ b'.keys.toFinset

/-- The entries that were removed since the last `clear`, with those before the run. -/
def removals (encodedBytes : ObservationEvent δ → Nat) (b : EventBuffer δ) :
    Nat → List (Call δ) → Nat
  | n, [] => n
  | n, call :: rest =>
    match b.step encodedBytes call with
    | none => n
    | some b' =>
      match call with
      | .clear => b'.removals encodedBytes 0 rest
      | _ => b'.removals encodedBytes (n + (b.removedBy call b').card) rest

/-- What holds between calls. -/
structure Inv (encodedBytes : ObservationEvent δ → Nat) (b : EventBuffer δ) : Prop where
  stored : Stored encodedBytes b.order b
  sorted : b.order.Pairwise fun s t => s.bigInt < t.bigInt

theorem inv_new (limits : Limits) : Inv encodedBytes (new limits : EventBuffer δ) :=
  ⟨stored_new limits, List.Pairwise.nil⟩

/-! ## One call -/

/-- The removed keys are those that the order loses. -/
theorem Pruned.card {order : List Sequence} {b₁ b' : EventBuffer δ}
    (h : Pruned encodedBytes order b₁ b'.order b') (hnodup : order.Nodup) {call : Call δ}
    (hbefore : ∀ s, s ∈ order ↔ s ∈ b.keys ∨ s ∈ call.sequences) :
    b'.evicted = b₁.evicted + (b.removedBy call b').card := by
  have hall : b.keys.toFinset ∪ call.sequences.toFinset = order.toFinset := by
    ext s
    simp [hbefore]
  have hkeys : b'.keys.toFinset = b'.order.toFinset := by
    ext s
    simp [h.stored.order.mem_iff]
  have hsub : b'.order.toFinset ⊆ order.toFinset := by
    intro s hs
    rw [List.mem_toFinset] at hs ⊢
    exact h.sublist.subset hs
  have hcard : (b.removedBy call b').card = order.length - b'.order.length := by
    unfold removedBy
    rw [hall, hkeys, Finset.card_sdiff_of_subset hsub, List.toFinset_card_of_nodup hnodup,
      List.toFinset_card_of_nodup h.stored.nodup]
  have hlength := h.sublist.length_le
  have hevicted := h.evicted
  omega

/-- What a call that prunes does. -/
structure Counted (encodedBytes : ObservationEvent δ → Nat) (b : EventBuffer δ) (call : Call δ)
    (b' : EventBuffer δ) : Prop where
  inv : Inv encodedBytes b'
  limits : b'.limits = b.limits
  within : ∀ now ∈ call.now?, Within now b'
  evicted : b'.evicted = match call with
    | .clear => 0
    | _ => b.evicted + (b.removedBy call b').card

theorem prune_counted (h : Inv encodedBytes b) (now : Int) (oldest : Option Int) :
    (0 ≤ b.limits.count → 0 ≤ b.limits.bytes → (b.prune now oldest).isSome = true) ∧
    ∀ b', b.prune now oldest = some b' → Counted encodedBytes b (.prune now oldest) b' := by
  obtain ⟨hreturns, hspec⟩ := prune_spec h.stored now oldest
  refine ⟨hreturns, fun b' hb' => ?_⟩
  obtain ⟨hpruned, hwithin⟩ := hspec b' hb'
  refine ⟨⟨hpruned.stored, h.sorted.sublist hpruned.sublist⟩, hpruned.limits, ?_, ?_⟩
  · intro t ht
    cases ht
    exact hwithin
  · refine hpruned.card h.stored.nodup ?_
    intro s
    simp [h.stored.order.mem_iff, Call.sequences]

/-- Keys that are sorted and distinct increase. -/
theorem pairwise_lt_insertionSort {order : List Sequence} (h : order.Nodup) :
    (order.insertionSort Sequence.le).Pairwise fun s t => s.bigInt < t.bigInt := by
  have hsorted : (order.insertionSort Sequence.le).Pairwise Sequence.le :=
    List.pairwise_insertionSort Sequence.le order
  have hnodup : (order.insertionSort Sequence.le).Nodup :=
    (List.perm_insertionSort Sequence.le order).nodup_iff.2 h
  refine hsorted.imp₂ ?_ hnodup
  intro s t hle hne
  exact lt_of_le_of_ne hle fun heq => hne (Sequence.bigInt_injective heq)

theorem add_counted (h : Inv encodedBytes b) (events : List (ObservationEvent δ)) (now : Int) :
    (0 ≤ b.limits.count → 0 ≤ b.limits.bytes → (b.add encodedBytes events now).isSome = true) ∧
    ∀ b', b.add encodedBytes events now = some b' →
      Counted encodedBytes b (.add events now) b' := by
  obtain ⟨hstored, hmem, hevicted, hlimits⟩ := addEvents_spec now events h.stored
  unfold add
  generalize events.foldl (addEvent encodedBytes now) b = inserted at hstored hmem hevicted hlimits
  let ordered : EventBuffer δ :=
    { inserted with order := inserted.order.insertionSort Sequence.le }
  have hperm : ordered.order.Perm inserted.order := List.perm_insertionSort _ _
  have hordered : Stored encodedBytes ordered.order ordered :=
    ⟨hperm.trans hstored.order, hstored.bytes, hstored.sizes, hstored.hashes, hstored.objects⟩
  have hsorted := pairwise_lt_insertionSort hstored.nodup
  obtain ⟨hreturns, hspec⟩ := prune_spec hordered now none
  rw [← hlimits]
  refine ⟨hreturns, fun b' hb' => ?_⟩
  obtain ⟨hpruned, hwithin⟩ := hspec b' hb'
  refine ⟨⟨hpruned.stored, hsorted.sublist hpruned.sublist⟩, hpruned.limits.trans hlimits, ?_, ?_⟩
  · intro t ht
    cases ht
    exact hwithin
  · have hbefore : ∀ s, s ∈ ordered.order ↔
        s ∈ b.keys ∨ s ∈ (Call.add events now : Call δ).sequences := by
      intro s
      rw [hperm.mem_iff, hmem, h.stored.order.mem_iff]
      rfl
    have hcard : b'.evicted = ordered.evicted + (b.removedBy (.add events now) b').card :=
      hpruned.card hordered.nodup hbefore
    rw [hcard]
    exact congrArg (· + _) hevicted

/-- **Every call** keeps the invariant, and what it removes is counted. -/
theorem Inv.step (h : Inv encodedBytes b) (call : Call δ) :
    (0 ≤ b.limits.count → 0 ≤ b.limits.bytes → (b.step encodedBytes call).isSome = true) ∧
    ∀ b', b.step encodedBytes call = some b' → Counted encodedBytes b call b' := by
  cases call with
  | add events now => exact add_counted h events now
  | prune now oldest => exact prune_counted h now oldest
  | clear =>
    refine ⟨fun _ _ => rfl, fun b' hb' => ?_⟩
    cases hb'
    exact ⟨inv_new b.limits, rfl, fun _ hnow => (nomatch hnow), rfl⟩

/-! ## Runs -/

/-- With limits that are not negative every run returns. -/
theorem run_returns : ∀ (calls : List (Call δ)) {b : EventBuffer δ}, Inv encodedBytes b →
    0 ≤ b.limits.count → 0 ≤ b.limits.bytes → (b.run encodedBytes calls).isSome = true
  | [], _, _, _, _ => rfl
  | call :: rest, b, h, hcount, hbytes => by
    obtain ⟨hreturns, hspec⟩ := h.step call
    obtain ⟨b', hb'⟩ := Option.isSome_iff_exists.1 (hreturns hcount hbytes)
    have hstep := hspec b' hb'
    rw [← hstep.limits] at hcount hbytes
    have hrest := run_returns rest hstep.inv hcount hbytes
    unfold run at hrest ⊢
    rw [List.foldlM_cons, hb', Option.bind_eq_bind, Option.bind_some]
    exact hrest

/-- **Every run** keeps the invariant, and counts what it removes. -/
theorem run_counted : ∀ (calls : List (Call δ)) {b b' : EventBuffer δ}, Inv encodedBytes b →
    b.run encodedBytes calls = some b' →
    Inv encodedBytes b' ∧ b'.evicted = b.removals encodedBytes b.evicted calls
  | [], b, b', h, hrun => by
    cases hrun
    exact ⟨h, rfl⟩
  | call :: rest, b, b', h, hrun => by
    unfold run at hrun
    rw [List.foldlM_cons] at hrun
    obtain ⟨next, hnext, hrest⟩ := Option.bind_eq_some_iff.1 hrun
    have hstep := (h.step call).2 next hnext
    obtain ⟨hinv, hevicted⟩ := run_counted rest hstep.inv hrest
    have hcounted := hstep.evicted
    refine ⟨hinv, ?_⟩
    rw [hevicted, hcounted]
    cases call <;> simp only [removals, hnext]

/-- **The event buffer**: every run returns when the limits are not negative, and after a run the
order, the bytes and the indexes are those of the entries, the evictions since the last `clear` are
counted, `select` finds the last matching events, and a call that prunes leaves the limits kept. -/
theorem eventBuffer_runs (encodedBytes : ObservationEvent δ → Nat) (limits : Limits) :
    (0 ≤ limits.count → 0 ≤ limits.bytes → ∀ calls,
      ((new limits : EventBuffer δ).run encodedBytes calls).isSome = true) ∧
    ∀ calls b, (new limits : EventBuffer δ).run encodedBytes calls = some b →
      Inv encodedBytes b ∧
      b.evicted = (new limits : EventBuffer δ).removals encodedBytes 0 calls ∧
      (∀ filter limit,
        b.select filter limit = some ((b.events.filter (matchesAll filter)).rtake limit.toNat)) ∧
      ∀ call b', b.step encodedBytes call = some b' → ∀ now ∈ call.now?, Within now b' := by
  refine ⟨fun hcount hbytes calls => run_returns calls (inv_new limits) hcount hbytes, ?_⟩
  intro calls b hrun
  obtain ⟨hinv, hevicted⟩ := run_counted calls (inv_new limits) hrun
  refine ⟨hinv, hevicted, select_spec hinv.stored hinv.sorted, ?_⟩
  intro call b' hb'
  exact ((hinv.step call).2 b' hb').within

/-- Three events in a buffer for two. -/
theorem eventBuffer_runs_three :
    let event (n : Nat) : ObservationEvent Unit :=
      ⟨.ofNat n, "seen", ⟨some "k", some "o", none, none, none, none, none⟩, ()⟩
    ∃ b, (new ⟨2, 100, 10⟩).run (fun _ => 1) [.add [event 3, event 1, event 2] 0] = some b ∧
      Inv (fun _ => 1) b ∧ b.order.Pairwise fun s t => s.bigInt < t.bigInt := by
  intro event
  obtain ⟨hreturns, hruns⟩ := eventBuffer_runs (fun _ : ObservationEvent Unit => 1) ⟨2, 100, 10⟩
  obtain ⟨b, hb⟩ := Option.isSome_iff_exists.1
    (hreturns (by decide) (by decide) [.add [event 3, event 1, event 2] 0])
  have hinv := (hruns _ b hb).1
  exact ⟨b, hb, hinv, hinv.sorted⟩

end EventBuffer

end BtSniffer.Web
