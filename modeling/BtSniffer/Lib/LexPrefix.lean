import Mathlib.Data.List.Lex
import Mathlib.Tactic.Ring

/-!
# Prefixes in lexicographic order

Lists in lexicographic order over a linear order: a prefix comes before what it is a prefix of, and it is a
prefix of everything in between.

* `prefix_of_between` — the fact itself.
* `pairwise_of_adjacent` — in a sorted list, if no entry is a prefix of the next one, no entry is a prefix
  of a later one.
* `least_above` — the first entry of a sorted list that is not below a bound.
-/

set_option autoImplicit false

namespace LexPrefix

variable {α β γ : Type} [LinearOrder α] [LinearOrder γ]

theorem cons_le_cons_iff {x y : α} {l m : List α} :
    x :: l ≤ y :: m ↔ x < y ∨ x = y ∧ l ≤ m := by
  rw [← not_lt, List.cons_lt_cons_iff, ← not_lt]
  constructor
  · intro h
    rcases lt_trichotomy x y with hlt | heq | hgt
    · exact .inl hlt
    · exact .inr ⟨heq, fun hlt => h (.inr ⟨heq.symm, hlt⟩)⟩
    · exact absurd (.inl hgt) h
  · rintro (hlt | ⟨heq, hle⟩) (hgt | ⟨heq', hlt'⟩)
    · exact lt_asymm hlt hgt
    · exact absurd heq' hlt.ne'
    · exact absurd heq hgt.ne'
    · exact hle hlt'

theorem nil_le (l : List α) : [] ≤ l := by
  cases l with
  | nil => exact le_rfl
  | cons x l => exact (List.nil_lt_cons x l).le

theorem not_cons_le_nil (x : α) (l : List α) : ¬ x :: l ≤ [] :=
  fun h => absurd (List.nil_lt_cons x l) (not_lt.2 h)

/-- A prefix comes before the list. -/
theorem prefix_le : ∀ {a b : List α}, a <+: b → a ≤ b
  | [], b, _ => nil_le b
  | x :: a, [], h => absurd (List.prefix_nil.1 h) (List.cons_ne_nil x a)
  | x :: a, y :: b, h => by
    obtain ⟨rfl, hrest⟩ := List.cons_prefix_cons.1 h
    exact cons_le_cons_iff.2 (.inr ⟨rfl, prefix_le hrest⟩)

/-- **A prefix of a list is a prefix of everything between them.** -/
theorem prefix_of_between : ∀ {a b c : List α}, a ≤ b → b ≤ c → a <+: c → a <+: b
  | [], b, _, _, _, _ => List.nil_prefix
  | x :: a, [], _, hab, _, _ => absurd hab (not_cons_le_nil x a)
  | x :: a, y :: b, [], _, _, h => absurd (List.prefix_nil.1 h) (List.cons_ne_nil x a)
  | x :: a, y :: b, z :: c, hab, hbc, h => by
    obtain ⟨rfl, hrest⟩ := List.cons_prefix_cons.1 h
    rcases cons_le_cons_iff.1 hab with hlt | ⟨rfl, htail⟩
    · rcases cons_le_cons_iff.1 hbc with hgt | ⟨heq, -⟩
      · exact absurd hlt (lt_asymm hgt)
      · exact absurd heq hlt.ne'
    · rcases cons_le_cons_iff.1 hbc with hlt | ⟨-, hbc⟩
      · exact absurd hlt (lt_irrefl _)
      · exact List.cons_prefix_cons.2 ⟨rfl, prefix_of_between htail hbc hrest⟩

/-- In a sorted list it is enough to look at neighbours. -/
theorem pairwise_of_adjacent {rank : β → List α} : ∀ {l : List β},
    l.Pairwise (fun a b => rank a ≤ rank b) → l.IsChain (fun a b => ¬ rank a <+: rank b) →
    l.Pairwise (fun a b => ¬ rank a <+: rank b)
  | [], _, _ => List.Pairwise.nil
  | [a], _, _ => List.pairwise_singleton _ _
  | a :: b :: l, hsorted, hchain => by
    obtain ⟨ha, hrest⟩ := List.pairwise_cons.1 hsorted
    obtain ⟨hfirst, hchain⟩ := List.isChain_cons_cons.1 hchain
    refine List.pairwise_cons.2 ⟨fun c hc hprefix => hfirst ?_, pairwise_of_adjacent hrest hchain⟩
    have hbc : rank b ≤ rank c := by
      rcases List.mem_cons.1 hc with rfl | hc
      · exact le_rfl
      · exact (List.pairwise_cons.1 hrest).1 c hc
    exact prefix_of_between (ha b List.mem_cons_self) hbc hprefix

/-- The first entry of a sorted list that is not below a bound. -/
theorem least_above {rank : β → γ} {t : γ} {below : β → Bool}
    (hbelow : ∀ a, below a = true ↔ rank a < t) : ∀ {l : List β},
    l.Pairwise (fun a b => rank a ≤ rank b) → ∀ q ∈ l, t ≤ rank q →
    ∃ p, l[l.countP below]? = some p ∧ t ≤ rank p ∧ rank p ≤ rank q
  | [], _, q, hq, _ => absurd hq List.not_mem_nil
  | a :: l, hsorted, q, hq, hle => by
    obtain ⟨ha, hrest⟩ := List.pairwise_cons.1 hsorted
    by_cases hlt : rank a < t
    · have hmem : q ∈ l := by
        rcases List.mem_cons.1 hq with rfl | hq
        · exact absurd hle (not_le.2 hlt)
        · exact hq
      rw [List.countP_cons_of_pos ((hbelow a).2 hlt), List.getElem?_cons_succ]
      exact least_above hbelow hrest q hmem hle
    · have hzero : l.countP below = 0 := by
        rw [List.countP_eq_zero]
        intro b hb hlt'
        exact absurd ((hbelow b).1 hlt') (not_lt.2 ((not_lt.1 hlt).trans (ha b hb)))
      rw [List.countP_cons_of_neg (fun h => hlt ((hbelow a).1 h)), hzero]
      refine ⟨a, rfl, not_lt.1 hlt, ?_⟩
      rcases List.mem_cons.1 hq with rfl | hq
      · exact le_rfl
      · exact ha q hq

end LexPrefix
