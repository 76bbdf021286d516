import BtSniffer.Lib.Table

/-!
# Hash maps

A map whose values hold their keys is a `Table`; `insert` replaces the value of a key and `erase`
removes it, whatever order the rows are in.
-/

set_option autoImplicit false

namespace Relational

namespace Table

variable {ρ κ : Type} {key : ρ → κ} [DecidableEq κ]

/-- `HashMap::remove`. -/
def erase (t : Table ρ key) (k : κ) : Table ρ key := t.delete (fun r => decide (key r = k))

/-- `HashMap::insert`. -/
def insert (t : Table ρ key) (r : ρ) : Table ρ key := (t.erase (key r)).insertNew r

theorem mem_erase {t : Table ρ key} {k : κ} {x : ρ} :
    x ∈ (t.erase k).rows ↔ x ∈ t.rows ∧ key x ≠ k := by
  rw [erase, mem_delete, decide_eq_false_iff_not]

@[simp] theorem get?_erase (t : Table ρ key) (k j : κ) :
    (t.erase k).get? j = if j = k then none else t.get? j := by
  unfold erase
  rw [get?_delete]
  cases h : t.get? j with
  | none => simp
  | some r =>
    obtain ⟨-, rfl⟩ := get?_eq_some.1 h
    by_cases hk : key r = k <;> simp [Option.filter_some, hk]

theorem get?_erase_self (t : Table ρ key) (k : κ) : (t.erase k).get? k = none := by
  simp

@[simp] theorem get?_insert (t : Table ρ key) (r : ρ) (j : κ) :
    (t.insert r).get? j = if key r = j then some r else t.get? j := by
  unfold insert
  rw [get?_insertNew, get?_erase]
  by_cases h : key r = j
  · simp [h]
  · simp [h, Ne.symm h]

theorem mem_insert {t : Table ρ key} {r x : ρ} :
    x ∈ (t.insert r).rows ↔ x = r ∨ (x ∈ t.rows ∧ key x ≠ key r) := by
  unfold insert
  rw [insertNew_of_none (get?_erase_self t (key r)), List.mem_append, List.mem_singleton, mem_erase]
  exact or_comm

/-- Erasing a key that is absent changes nothing. -/
theorem erase_of_none {t : Table ρ key} {k : κ} (h : t.get? k = none) : t.erase k = t :=
  delete_eq_self (fun r hr => by simpa using get?_eq_none.1 h r hr)

theorem perm_erase {t : Table ρ key} {k : κ} {r : ρ} (h : t.get? k = some r) :
    t.rows.Perm (r :: (t.erase k).rows) :=
  perm_delete_key h

theorem length_erase_some {t : Table ρ key} {k : κ} {r : ρ} (h : t.get? k = some r) :
    (t.erase k).rows.length + 1 = t.rows.length := by
  rw [(perm_erase h).length_eq, List.length_cons]

theorem length_erase_le (t : Table ρ key) (k : κ) : (t.erase k).rows.length ≤ t.rows.length :=
  List.length_filter_le _ _

theorem insert_of_none {t : Table ρ key} {r : ρ} (h : t.get? (key r) = none) :
    (t.insert r).rows = t.rows ++ [r] := by
  unfold insert
  rw [erase_of_none h, insertNew_of_none h]

theorem length_insert_le (t : Table ρ key) (r : ρ) :
    (t.insert r).rows.length ≤ t.rows.length + 1 := by
  unfold insert
  rw [insertNew_of_none (get?_erase_self t (key r)), List.length_append, List.length_singleton]
  have := length_erase_le t (key r)
  omega

theorem length_insert_some {t : Table ρ key} {r x : ρ} (h : t.get? (key r) = some x) :
    (t.insert r).rows.length = t.rows.length := by
  unfold insert
  rw [insertNew_of_none (get?_erase_self t (key r)), List.length_append, List.length_singleton,
    length_erase_some h]

theorem isSome_insertNew (t : Table ρ key) (r : ρ)
    (k : κ) (h : (t.get? k).isSome ∨ key r = k) : ((t.insertNew r).get? k).isSome := by
  rw [Table.get?_insertNew]
  cases hk : t.get? k with
  | some x => rfl
  | none =>
    rcases h with h | h
    · rw [hk] at h
      cases h
    · simp [h]

theorem length_insertNew_le {t : Table ρ key} {r : ρ}
    {n : Nat} (hn : t.rows.length ≤ n) (h : t.get? (key r) = none → t.rows.length < n) :
    (t.insertNew r).rows.length ≤ n := by
  cases hk : t.get? (key r) with
  | some x =>
    rw [Table.insertNew_of_some hk]
    exact hn
  | none =>
    rw [Table.insertNew_of_none hk, List.length_append, List.length_singleton]
    exact h hk

omit [DecidableEq κ] in
/-- A delete that is made only under a condition. -/
theorem ite_delete (t : Table ρ key) (c : Prop) [Decidable c] (p : ρ → Bool) :
    (if c then t.delete p else t) = t.delete (fun r => decide c && p r) := by
  by_cases h : c
  · simp [h]
  · rw [if_neg h, delete_eq_self]
    simp [h]

end Table

end Relational
