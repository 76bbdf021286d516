import Mathlib.Tactic.Ring
import Mathlib.Algebra.BigOperators.Group.List.Basic

/-!
# Aligned layouts

Numbers rounded up to a multiple, and lengths that are laid out one after the other, each one that is not
empty at the next multiple.

* `up` — the next multiple; `up_eq` — it is the number of blocks times their length.
* `layoutEnd` — the end of a layout; `up_layoutEnd` — its blocks are the blocks of its parts.
* `start` — where a part starts; `start_blocks` — the blocks of two parts are apart.
-/

set_option autoImplicit false

namespace Align

/-- The number of blocks of length `p` that hold `n`. -/
def blocks (p n : Nat) : Nat := (n + p - 1) / p

/-- The next multiple of `p`. -/
def up (p n : Nat) : Nat := n + (p - n % p) % p

variable {p : Nat}

theorem up_eq (hp : 0 < p) (n : Nat) : up p n = p * blocks p n := by
  unfold up blocks
  have hdiv := Nat.div_add_mod n p
  have hlt := Nat.mod_lt n hp
  by_cases hzero : n % p = 0
  · have hn : n + p - 1 = p - 1 + p * (n / p) := by omega
    rw [hzero, Nat.sub_zero, Nat.mod_self, hn, Nat.add_mul_div_left _ _ hp,
      Nat.div_eq_of_lt (by omega), Nat.zero_add]
    omega
  · have hn : n + p - 1 = n % p - 1 + p * (n / p + 1) := by
      rw [Nat.mul_add]
      omega
    rw [Nat.mod_eq_of_lt (by omega : p - n % p < p), hn, Nat.add_mul_div_left _ _ hp,
      Nat.div_eq_of_lt (by omega), Nat.zero_add, Nat.mul_add]
    omega

theorem le_up (n : Nat) : n ≤ up p n := Nat.le_add_right _ _

theorem up_lt (hp : 0 < p) (n : Nat) : up p n < n + p := by
  have hlt := Nat.mod_lt (p - n % p) hp
  unfold up
  omega

theorem blocks_zero (hp : 0 < p) : blocks p 0 = 0 := Nat.div_eq_of_lt (by omega)

theorem up_zero : up p 0 = 0 := by
  unfold up
  rw [Nat.zero_mod, Nat.sub_zero, Nat.mod_self]

/-- Whole blocks in front do not matter. -/
theorem blocks_mul_add (hp : 0 < p) (k n : Nat) : blocks p (p * k + n) = k + blocks p n := by
  unfold blocks
  have hsum : p * k + n + p - 1 = n + p - 1 + p * k := by omega
  rw [hsum, Nat.add_mul_div_left _ _ hp, Nat.add_comm]

theorem blocks_mono {m n : Nat} (h : m ≤ n) : blocks p m ≤ blocks p n :=
  Nat.div_le_div_right (by omega)

theorem blocks_le (hp : 0 < p) (n : Nat) : blocks p n ≤ n := by
  have hup := up_lt hp n
  rw [up_eq hp] at hup
  by_contra hlt
  have hmul : p * (n + 1) ≤ p * blocks p n := Nat.mul_le_mul_left p (by omega)
  have hone : 1 * n ≤ p * n := Nat.mul_le_mul_right n hp
  rw [Nat.mul_add] at hmul
  omega

theorem blocks_up (hp : 0 < p) (n : Nat) : blocks p (up p n) = blocks p n := by
  have h := blocks_mul_add hp (blocks p n) 0
  rw [Nat.add_zero, ← up_eq hp, blocks_zero hp, Nat.add_zero] at h
  exact h

theorem up_mono (hp : 0 < p) {m n : Nat} (h : m ≤ n) : up p m ≤ up p n := by
  rw [up_eq hp, up_eq hp]
  exact Nat.mul_le_mul_left p (blocks_mono h)

/-- Up to the next multiple the number of blocks stays the same. -/
theorem blocks_of_between (hp : 0 < p) {m n : Nat} (hle : m ≤ n) (hup : n ≤ up p m) :
    blocks p n = blocks p m := by
  have h := @blocks_mono p _ _ hup
  rw [blocks_up hp] at h
  exact le_antisymm h (blocks_mono hle)

/-! ## Layouts -/

/-- The end of a layout after one more length. -/
def place (p e n : Nat) : Nat := if 0 < n then up p e + n else e

/-- The end of a layout. -/
def layoutEnd (p : Nat) : List Nat → Nat → Nat
  | [], e => e
  | n :: rest, e => layoutEnd p rest (place p e n)

theorem le_place (e n : Nat) : e ≤ place p e n := by
  unfold place
  have hle := @le_up p e
  split <;> omega

theorem le_layoutEnd : ∀ (lengths : List Nat) (e : Nat), e ≤ layoutEnd p lengths e
  | [], _ => le_rfl
  | n :: rest, e => (le_place e n).trans (le_layoutEnd rest _)

theorem layoutEnd_append : ∀ (first second : List Nat) (e : Nat),
    layoutEnd p (first ++ second) e = layoutEnd p second (layoutEnd p first e)
  | [], _, _ => rfl
  | n :: rest, second, e => layoutEnd_append rest second (place p e n)

theorem layoutEnd_take_le (lengths : List Nat) (i e : Nat) :
    layoutEnd p (lengths.take i) e ≤ layoutEnd p lengths e := by
  have h := @layoutEnd_append p (lengths.take i) (lengths.drop i) e
  rw [List.take_append_drop] at h
  rw [h]
  exact le_layoutEnd _ _

theorem up_place (hp : 0 < p) (e n : Nat) : up p (place p e n) = up p e + p * blocks p n := by
  unfold place
  split
  · rw [up_eq hp (up p e + n), up_eq hp e, blocks_mul_add hp, Nat.mul_add]
  · have hn : n = 0 := by omega
    rw [hn, blocks_zero hp, Nat.mul_zero, Nat.add_zero]

/-- **The blocks of a layout are the blocks of its parts.** -/
theorem up_layoutEnd (hp : 0 < p) : ∀ (lengths : List Nat) (e : Nat),
    up p (layoutEnd p lengths e) = up p e + p * (lengths.map (blocks p)).sum
  | [], e => by simp [layoutEnd]
  | n :: rest, e => by
    rw [layoutEnd, up_layoutEnd hp rest, up_place hp, List.map_cons, List.sum_cons]
    ring

theorem blocks_layoutEnd (hp : 0 < p) (lengths : List Nat) :
    blocks p (layoutEnd p lengths 0) = (lengths.map (blocks p)).sum := by
  have h := up_layoutEnd hp lengths 0
  rw [up_zero, Nat.zero_add, up_eq hp] at h
  exact Nat.eq_of_mul_eq_mul_left hp h

theorem sum_le_layoutEnd : ∀ (lengths : List Nat) (e : Nat),
    e + lengths.sum ≤ layoutEnd p lengths e
  | [], e => le_rfl
  | n :: rest, e => by
    have hrest := sum_le_layoutEnd rest (place p e n)
    have hplace : e + n ≤ place p e n := by
      unfold place
      have hle := @le_up p e
      split <;> omega
    rw [layoutEnd, List.sum_cons]
    omega

/-- Where the part with a given index starts. -/
def start (p : Nat) (lengths : List Nat) (i : Nat) : Nat := up p (layoutEnd p (lengths.take i) 0)

theorem start_eq (hp : 0 < p) (lengths : List Nat) (i : Nat) :
    start p lengths i = p * ((lengths.take i).map (blocks p)).sum := by
  unfold start
  rw [up_layoutEnd hp, up_zero, Nat.zero_add]

/-- **The blocks of a part end before those of a later part.** -/
theorem start_blocks (hp : 0 < p) {lengths : List Nat} {i j n : Nat} (hij : i < j)
    (hn : lengths[i]? = some n) :
    start p lengths i + p * blocks p n ≤ start p lengths j := by
  have hi : i < lengths.length := (List.getElem?_eq_some_iff.1 hn).1
  have htake : lengths.take (i + 1) = lengths.take i ++ [n] := by
    rw [List.take_add_one, hn]
    rfl
  have hsum : start p lengths i + p * blocks p n = start p lengths (i + 1) := by
    rw [start_eq hp, start_eq hp, htake, List.map_append, List.sum_append]
    simp [Nat.mul_add]
  have hmono : layoutEnd p (lengths.take (i + 1)) 0 ≤ layoutEnd p (lengths.take j) 0 := by
    have h := @layoutEnd_take_le p (lengths.take j) (i + 1) 0
    rw [List.take_take, min_eq_left (by omega)] at h
    exact h
  rw [hsum]
  exact up_mono hp hmono

/-- A part that is not empty ends within the layout. -/
theorem start_add_le {lengths : List Nat} {i n : Nat} (hn : lengths[i]? = some n) (hpos : 0 < n) :
    start p lengths i + n ≤ layoutEnd p lengths 0 := by
  have htake : lengths.take (i + 1) = lengths.take i ++ [n] := by
    rw [List.take_add_one, hn]
    rfl
  have h := @layoutEnd_take_le p lengths (i + 1) 0
  rw [htake, layoutEnd_append] at h
  have hplace : layoutEnd p [n] (layoutEnd p (lengths.take i) 0) = start p lengths i + n := by
    simp [layoutEnd, place, hpos, start]
  omega

end Align
