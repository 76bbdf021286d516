import BtSniffer.Lib.KeyMap
import Mathlib.Data.Finset.Insert
import Mathlib.Data.Finset.Erase

/-!
# Indexes of sets

A map from keys to sets of items, in which a key without items is left out.

* `add`, `remove` — an item enters the set of a key or leaves it.
* `has_addAll`, `has_removeAll` — what an item that enters or leaves at several keys does to the
  index.
-/

set_option autoImplicit false

namespace Relational

/-- A key and its items. -/
structure Posting (κ ι : Type) where
  key : κ
  ids : Finset ι
  deriving DecidableEq

/-- The map of the keys. -/
abbrev SetIndex (κ ι : Type) : Type := Table (Posting κ ι) Posting.key

namespace SetIndex

variable {κ ι : Type} [DecidableEq κ] [DecidableEq ι]

/-- The item enters the set of the key. -/
def add (t : SetIndex κ ι) (k : κ) (i : ι) : SetIndex κ ι :=
  t.upsert ⟨k, {i}⟩ (fun p => { p with ids := Insert.insert i p.ids }) (fun _ => rfl)

/-- The item leaves the set of the key; a set without items goes. -/
def remove (t : SetIndex κ ι) (k : κ) (i : ι) : SetIndex κ ι :=
  match t.get? k with
  | none => t
  | some p =>
    if p.ids.erase i = ∅ then t.erase k
    else t.update (fun p => decide (p.key = k)) (fun p => { p with ids := p.ids.erase i })
      (fun _ => rfl)

/-- The item is in the set of the key. -/
def Has (t : SetIndex κ ι) (k : κ) (i : ι) : Prop := ∃ p, t.get? k = some p ∧ i ∈ p.ids

/-- No set is empty. -/
def Inhabited (t : SetIndex κ ι) : Prop := ∀ k p, t.get? k = some p → p.ids.Nonempty

variable {t : SetIndex κ ι} {k k' : κ} {i j : ι}

theorem has_add : (add t k i).Has k' j ↔ t.Has k' j ∨ (k' = k ∧ j = i) := by
  unfold Has add
  rw [Table.get?_upsert]
  by_cases hk : k = k'
  · subst hk
    rw [if_pos rfl]
    cases t.get? k with
    | none => simp
    | some p => simp [or_comm]
  · rw [if_neg hk]
    simp [Ne.symm hk]

theorem inhabited_add (h : t.Inhabited) : (add t k i).Inhabited := by
  intro k' p hp
  unfold add at hp
  rw [Table.get?_upsert] at hp
  split at hp
  · cases hp
    cases t.get? k' with
    | none => exact Finset.singleton_nonempty i
    | some p => exact Finset.insert_nonempty i p.ids
  · exact h k' p hp

/-- The set of a key from which an item has gone. -/
theorem get?_remove : (remove t k i).get? k' =
    if k' = k then (t.get? k).bind (fun p =>
      if p.ids.erase i = ∅ then none else some { p with ids := p.ids.erase i })
    else t.get? k' := by
  unfold remove
  cases hget : t.get? k with
  | none =>
    by_cases hk : k' = k
    · rw [if_pos hk, hk, hget]
      rfl
    · rw [if_neg hk]
  | some p =>
    have hkey := (Table.get?_eq_some.1 hget).2
    by_cases hk : k' = k
    · rw [if_pos hk, hk, Option.bind_some]
      dsimp only
      split
      · rw [Table.get?_erase, if_pos rfl]
      · rw [Table.get?_update, hget, Option.map_some, if_pos (decide_eq_true hkey)]
    · rw [if_neg hk]
      dsimp only
      split
      · rw [Table.get?_erase, if_neg hk]
      · rw [Table.get?_update]
        cases hother : t.get? k' with
        | none => rfl
        | some q =>
          have hq : q.key ≠ k := fun h => hk ((Table.get?_eq_some.1 hother).2.symm.trans h)
          simp [hq]

theorem has_remove : (remove t k i).Has k' j ↔ t.Has k' j ∧ ¬ (k' = k ∧ j = i) := by
  unfold Has
  rw [get?_remove]
  by_cases hk : k' = k
  · subst hk
    rw [if_pos rfl]
    cases t.get? k' with
    | none => simp
    | some p =>
      have hmem : j ∈ p.ids.erase i ↔ j ∈ p.ids ∧ j ≠ i := Finset.mem_erase.trans and_comm
      simp only [Option.bind_some, Option.some.injEq, exists_eq_left', true_and]
      rw [← hmem]
      split
      · rename_i hempty
        simp [hempty]
      · simp
  · rw [if_neg hk]
    simp [hk]

theorem inhabited_remove (h : t.Inhabited) : (remove t k i).Inhabited := by
  intro k' p hp
  rw [get?_remove] at hp
  split at hp
  · obtain ⟨q, -, hq⟩ := Option.bind_eq_some_iff.1 hp
    split at hq
    · cases hq
    · rename_i hne
      cases hq
      exact Finset.nonempty_iff_ne_empty.2 hne
  · exact h k' p hp

/-! ## Several keys -/

/-- The item enters at the keys. -/
def addAll (t : SetIndex κ ι) (ks : List κ) (i : ι) : SetIndex κ ι := ks.foldl (fun t k => add t k i) t

/-- The item leaves at the keys. -/
def removeAll (t : SetIndex κ ι) (ks : List κ) (i : ι) : SetIndex κ ι :=
  ks.foldl (fun t k => remove t k i) t

theorem has_addAll {ks : List κ} : (addAll t ks i).Has k' j ↔ t.Has k' j ∨ (k' ∈ ks ∧ j = i) := by
  induction ks generalizing t with
  | nil => simp [addAll]
  | cons k ks ih =>
    have hstep : addAll t (k :: ks) i = addAll (add t k i) ks i := rfl
    rw [hstep, ih, has_add, List.mem_cons, or_assoc, or_and_right]

theorem inhabited_addAll {ks : List κ} (h : t.Inhabited) : (addAll t ks i).Inhabited := by
  induction ks generalizing t with
  | nil => exact h
  | cons k ks ih => exact ih (inhabited_add h)

theorem has_removeAll {ks : List κ} :
    (removeAll t ks i).Has k' j ↔ t.Has k' j ∧ ¬ (k' ∈ ks ∧ j = i) := by
  induction ks generalizing t with
  | nil => simp [removeAll]
  | cons k ks ih =>
    have hstep : removeAll t (k :: ks) i = removeAll (remove t k i) ks i := rfl
    rw [hstep, ih, has_remove, List.mem_cons, and_assoc, ← not_or, or_and_right]

theorem inhabited_removeAll {ks : List κ} (h : t.Inhabited) : (removeAll t ks i).Inhabited := by
  induction ks generalizing t with
  | nil => exact h
  | cons k ks ih => exact ih (inhabited_remove h)

end SetIndex

end Relational
