import Mathlib.Order.Basic
import Mathlib.Data.List.Basic
import Mathlib.Tactic.Ring

/-!
# Sweeps with a cursor

A sweep calls a paging procedure again and again, each time with the cursor the call before it
returned.  `move k c c'` says that call `k`, made with cursor `c`, returned cursor `c'`; `rank` puts
cursors in order.

* `Sweep.length_le` — a sweep whose calls advance the cursor to a mark each time makes at most as
  many calls as there are marks after its first cursor.
* `Sweep.covered` — every position between the first and the last cursor lies between the cursors of
  one call.
-/

set_option autoImplicit false

namespace Relational

/-- The calls `ks` lead from one cursor to another. -/
inductive Sweep {κ γ : Type} (move : κ → γ → γ → Prop) : γ → List κ → γ → Prop
  | nil (c : γ) : Sweep move c [] c
  | cons {k : κ} {ks : List κ} {c c' e : γ} (first : move k c c') (rest : Sweep move c' ks e) :
      Sweep move c (k :: ks) e

namespace Sweep

variable {κ γ ι : Type} [LinearOrder ι] {move : κ → γ → γ → Prop} (rank : γ → ι)

/-- **A sweep ends**: its length is bounded by the marks after its first cursor. -/
theorem length_le (marks : List ι)
    (hmove : ∀ k c c', move k c c' → rank c < rank c' ∧ rank c' ∈ marks) {c e : γ} {ks : List κ}
    (h : Sweep move c ks e) : ks.length ≤ marks.countP (fun m => decide (rank c < m)) := by
  induction h with
  | nil c => exact Nat.zero_le _
  | @cons k ks c c' e first rest ih =>
    obtain ⟨hlt, hmark⟩ := hmove k c c' first
    have hstrict : marks.countP (fun m => decide (rank c' < m)) <
        marks.countP (fun m => decide (rank c < m)) := by
      obtain ⟨l, r, rfl⟩ := List.append_of_mem hmark
      have hmono : ∀ part : List ι, part.countP (fun m => decide (rank c' < m)) ≤
          part.countP (fun m => decide (rank c < m)) := by
        intro part
        refine List.countP_mono_left (fun m _ hm => ?_)
        simp only [decide_eq_true_eq] at hm ⊢
        exact lt_trans hlt hm
      have h1 := hmono l
      have h2 := hmono r
      simp only [List.countP_append, List.countP_cons, lt_irrefl, decide_false, hlt, decide_true,
        Bool.false_eq_true, if_false, if_true]
      omega
    rw [List.length_cons]
    omega

/-- **A sweep leaves no gap**: a position after the first cursor and not after the last one lies
between the cursors of one call. -/
theorem covered {c e : γ} {ks : List κ} (h : Sweep move c ks e) {x : ι} (hc : rank c < x)
    (he : x ≤ rank e) :
    ∃ k ∈ ks, ∃ c₀ c₁, move k c₀ c₁ ∧ rank c₀ < x ∧ x ≤ rank c₁ := by
  induction h with
  | nil c => exact absurd hc (not_lt.2 he)
  | @cons k ks c c' e first rest ih =>
    by_cases hx : x ≤ rank c'
    · exact ⟨k, List.mem_cons_self, c, c', first, hc, hx⟩
    · obtain ⟨k', hk', hrest⟩ := ih (not_le.1 hx) he
      exact ⟨k', List.mem_cons_of_mem _ hk', hrest⟩

end Sweep

end Relational
