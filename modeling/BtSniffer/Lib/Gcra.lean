import Mathlib.Order.Basic
import Mathlib.Tactic.Ring

/-!
# The generic cell rate algorithm

A cell remembers one time, the theoretical arrival time of its next unit; a cell that was never
charged remembers none.

* `Quota.testN` is the test of `n` units at a time, with the earliest time at which a refused
  request conforms;
* `level` is what a cell can still be told apart by: two cells of one level conform alike, are
  charged alike, and have one level at every later time;
* a cell that was idle for its whole burst has the level of a fresh one.
-/

set_option autoImplicit false

namespace Gcra

/-- The time of one unit and the number of units that may come at once. -/
structure Quota where
  period : Nat
  burst : Nat
  period_pos : 0 < period
  burst_pos : 0 < burst
  deriving Repr

/-- The theoretical arrival time of a cell, if it was ever charged. -/
abbrev Cell := Option Nat

/-- The answer to a request for some units. -/
inductive Verdict where
  | conforms (next : Nat)
  | notUntil (earliest : Nat)
  | insufficient
  deriving DecidableEq, Repr

/-- The load of a cell at a time: its arrival time, or that time when the cell is idle. -/
def level (c : Cell) (t : Nat) : Nat := max (c.getD t) t

namespace Quota

variable (q : Quota) {c d : Cell} {t t' n : Nat}

/-- The first time at which `n` units conform. -/
def earliest (c : Cell) (t n : Nat) : Nat :=
  c.getD t + (n - 1) * q.period - (q.burst - 1) * q.period

/-- The arrival time after `n` units at time `t`. -/
def charge (c : Cell) (t n : Nat) : Nat := level c t + n * q.period

/-- The test of `n` units at time `t`. -/
def testN (c : Cell) (t n : Nat) : Verdict :=
  if q.burst < n then .insufficient
  else if t < q.earliest c t n then .notUntil (q.earliest c t n)
  else .conforms (q.charge c t n)

/-- `n` units at time `t` stay within the quota. -/
def Conforms (c : Cell) (t n : Nat) : Prop :=
  n ≤ q.burst ∧ level c t + n * q.period ≤ t + q.burst * q.period

instance : Decidable (q.Conforms c t n) := inferInstanceAs (Decidable (_ ∧ _))

end Quota

/-! ## Levels -/

section Level

variable {c d : Cell} {t t' : Nat}

@[simp] theorem level_none (t : Nat) : level none t = t := by simp [level]

@[simp] theorem level_some (x t : Nat) : level (some x) t = max x t := rfl

theorem le_level (c : Cell) (t : Nat) : t ≤ level c t := by
  unfold level
  omega

theorem level_later (c : Cell) (h : t ≤ t') : level c t' = max (level c t) t' := by
  cases c with
  | none => simp [h]
  | some x =>
    simp only [level_some]
    omega

/-- Cells that cannot be told apart now cannot be told apart later. -/
theorem level_eq_later (h : t ≤ t') (he : level c t = level d t) : level c t' = level d t' := by
  rw [level_later c h, level_later d h, he]

theorem level_shift (c : Cell) (origin t : Nat) :
    level (c.map (origin + ·)) (origin + t) = origin + level c t := by
  cases c with
  | none => simp
  | some x =>
    simp only [Option.map_some, level_some]
    omega

end Level

/-! ## The test -/

namespace Quota

variable {q : Quota} {c d : Cell} {t t' n : Nat}

theorem Conforms.mono (hc : q.Conforms c t n) (h : t ≤ t') : q.Conforms c t' n := by
  obtain ⟨hn, hl⟩ := hc
  refine ⟨hn, ?_⟩
  have hmul : n * q.period ≤ q.burst * q.period := Nat.mul_le_mul_right _ hn
  rw [level_later c h]
  omega

theorem conforms_congr (he : level c t = level d t) : q.Conforms c t n ↔ q.Conforms d t n := by
  unfold Conforms
  rw [he]

theorem charge_congr (he : level c t = level d t) : q.charge c t n = q.charge d t n := by
  unfold charge
  rw [he]

/-- A fresh cell takes every request that its burst holds. -/
theorem conforms_none : q.Conforms none t n ↔ n ≤ q.burst := by
  constructor
  · intro h
    exact h.1
  · intro h
    refine ⟨h, ?_⟩
    have := Nat.mul_le_mul_right q.period h
    rw [level_none]
    omega

theorem conforms_shift (origin : Nat) :
    q.Conforms (c.map (origin + ·)) (origin + t) n ↔ q.Conforms c t n := by
  unfold Conforms
  rw [level_shift]
  omega

theorem charge_shift (origin : Nat) :
    q.charge (c.map (origin + ·)) (origin + t) n = origin + q.charge c t n := by
  unfold charge
  rw [level_shift]
  omega

/-- A conforming charge leaves at most one burst to be worked off. -/
theorem charge_le (hc : q.Conforms c t n) : q.charge c t n ≤ t + q.burst * q.period :=
  hc.2

/-- A charge always shows. -/
theorem ne_some_charge (hn : 0 < n) (c : Cell) (t : Nat) : c ≠ some (q.charge c t n) := by
  have hpos : 0 < n * q.period := Nat.mul_pos hn q.period_pos
  cases c with
  | none => simp
  | some x =>
    intro h
    simp only [charge, level_some, Option.some.injEq] at h
    omega

/-- The units that are tested fit when the clock has reached the earliest time. -/
theorem conforms_iff_earliest (hn : 0 < n) :
    q.Conforms c t n ↔ n ≤ q.burst ∧ q.earliest c t n ≤ t := by
  unfold Conforms earliest level
  refine and_congr_right (fun hb => ?_)
  obtain ⟨m, rfl⟩ : ∃ m, n = m + 1 := ⟨n - 1, by omega⟩
  obtain ⟨k, hk⟩ : ∃ k, q.burst = k + 1 := ⟨q.burst - 1, by omega⟩
  rw [hk] at hb ⊢
  have hmul : m * q.period ≤ k * q.period := Nat.mul_le_mul_right _ (by omega)
  simp only [Nat.add_sub_cancel, Nat.add_mul, Nat.one_mul]
  cases c with
  | none =>
    simp only [Option.getD_none]
    omega
  | some x =>
    simp only [Option.getD_some]
    omega

/-- The three answers, by what they say of the cell. -/
theorem testN_cases (hn : 0 < n) :
    (q.Conforms c t n ∧ q.testN c t n = .conforms (q.charge c t n)) ∨
    (¬ q.Conforms c t n ∧ n ≤ q.burst ∧ q.testN c t n = .notUntil (q.earliest c t n)) ∨
    (¬ q.Conforms c t n ∧ q.burst < n ∧ q.testN c t n = .insufficient) := by
  unfold testN
  have hiff := @conforms_iff_earliest q c t n hn
  by_cases hb : q.burst < n
  · exact .inr (.inr ⟨fun h => Nat.not_lt.2 h.1 hb, hb, if_pos hb⟩)
  · rw [if_neg hb]
    by_cases ht : t < q.earliest c t n
    · exact .inr (.inl ⟨fun h => Nat.not_lt.2 (hiff.1 h).2 ht, by omega, if_pos ht⟩)
    · exact .inl ⟨hiff.2 ⟨by omega, by omega⟩, if_neg ht⟩

/-- A refused request conforms from its earliest time on. -/
theorem conforms_of_earliest (hn : 0 < n) (hb : n ≤ q.burst) (hc : ¬ q.Conforms c t n)
    (he : q.earliest c t n ≤ t') : q.Conforms c t' n := by
  cases c with
  | none => exact conforms_none.2 hb
  | some x => exact (conforms_iff_earliest hn).2 ⟨hb, he⟩

end Quota

end Gcra
