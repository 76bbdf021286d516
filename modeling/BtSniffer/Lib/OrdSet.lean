import Mathlib.Data.List.Sort
import Mathlib.Data.List.Perm.Subperm

/-!
# Ordered sets

A `BTreeSet` is the strictly increasing list of its elements; `first` is the least one.
-/

set_option autoImplicit false

namespace Relational

/-- A finite set, listed in increasing order. -/
structure OrdSet (α : Type) [LinearOrder α] where
  elems : List α
  sorted : elems.Pairwise (· < ·)

namespace OrdSet

variable {α : Type} [LinearOrder α]

instance : Membership α (OrdSet α) := ⟨fun s x => x ∈ s.elems⟩

theorem nodup (s : OrdSet α) : s.elems.Nodup := s.sorted.imp (fun h => ne_of_lt h)

/-- `BTreeSet::new`. -/
def empty : OrdSet α := ⟨[], List.Pairwise.nil⟩

/-- `BTreeSet::len`. -/
def len (s : OrdSet α) : Nat := s.elems.length

/-- `BTreeSet::insert`. -/
def insert (s : OrdSet α) (x : α) : OrdSet α :=
  if h : x ∈ s.elems then s
  else
    { elems := s.elems.orderedInsert (· ≤ ·) x
      sorted := by
        have hle : (s.elems.orderedInsert (· ≤ ·) x).Pairwise (· ≤ ·) :=
          List.Pairwise.orderedInsert x _ (s.sorted.imp le_of_lt)
        have hnodup : (s.elems.orderedInsert (· ≤ ·) x).Nodup :=
          (List.perm_orderedInsert _ x s.elems).nodup_iff.2 (List.nodup_cons.2 ⟨h, s.nodup⟩)
        exact (hle.and hnodup).imp (fun hab => lt_of_le_of_ne hab.1 hab.2) }

/-- `BTreeSet::remove`. -/
def remove (s : OrdSet α) (x : α) : OrdSet α :=
  ⟨s.elems.filter (fun y => decide (y ≠ x)), s.sorted.filter _⟩

/-- `BTreeSet::first`. -/
def first (s : OrdSet α) : Option α := s.elems.head?

@[simp] theorem not_mem_empty (x : α) : x ∉ (empty : OrdSet α) := List.not_mem_nil

@[simp] theorem mem_insert {s : OrdSet α} {x y : α} : y ∈ s.insert x ↔ y = x ∨ y ∈ s := by
  unfold insert
  split
  · rename_i h
    refine ⟨.inr, ?_⟩
    rintro (rfl | hy)
    · exact h
    · exact hy
  · exact List.mem_orderedInsert (· ≤ ·)

@[simp] theorem mem_remove {s : OrdSet α} {x y : α} : y ∈ s.remove x ↔ y ∈ s ∧ y ≠ x := by
  show y ∈ s.elems.filter _ ↔ _
  rw [List.mem_filter, decide_eq_true_eq]
  rfl

theorem len_insert {s : OrdSet α} {x : α} (h : x ∉ s) : (s.insert x).len = s.len + 1 := by
  have hmem : ¬ x ∈ s.elems := h
  unfold insert len
  rw [dif_neg hmem]
  exact (List.perm_orderedInsert _ x s.elems).length_eq

theorem first_mem {s : OrdSet α} {x : α} (h : s.first = some x) : x ∈ s :=
  List.mem_of_mem_head? h

theorem first_le {s : OrdSet α} {x y : α} (h : s.first = some x) (hy : y ∈ s) : x ≤ y := by
  obtain ⟨elems, sorted⟩ := s
  cases elems with
  | nil => cases h
  | cons z rest =>
    cases h
    rcases List.mem_cons.1 hy with rfl | hy
    · exact le_refl _
    · exact le_of_lt ((List.pairwise_cons.1 sorted).1 y hy)

theorem first_eq_none {s : OrdSet α} : s.first = none ↔ ∀ x, x ∉ s := by
  unfold first
  rw [List.head?_eq_none_iff, List.eq_nil_iff_forall_not_mem]
  rfl

theorem first_of_len {s : OrdSet α} (h : 0 < s.len) : ∃ x, s.first = some x := by
  obtain ⟨elems, sorted⟩ := s
  cases elems with
  | nil => exact absurd h (Nat.lt_irrefl 0)
  | cons x rest => exact ⟨x, rfl⟩

end OrdSet

/-! ## Lengths of duplicate-free lists -/

theorem length_le_of_subset {α : Type} {l m : List α} (h : l.Nodup) (hsub : l ⊆ m) :
    l.length ≤ m.length :=
  (List.subperm_of_subset h hsub).length_le

/-- A list that misses an element of a larger one is shorter. -/
theorem length_lt_of_subset {α : Type} {l m : List α} (h : l.Nodup) (hsub : l ⊆ m) {x : α}
    (hx : x ∈ m) (hxl : x ∉ l) : l.length < m.length :=
  length_le_of_subset (List.nodup_cons.2 ⟨hxl, h⟩) (List.cons_subset.2 ⟨hx, hsub⟩)

end Relational
