import Mathlib.Data.Nat.Digits.Lemmas

/-!
# Bencode atoms

Byte strings and integers in their canonical form: lengths and integers without leading zeros, no
negative zero.

* `Object.encode` — the one encoding of an atom.
* `readObject` — a reader of one atom at the start of an input; `readObject_eq_some` says that it reads
  exactly the canonical encodings, so an input starts with at most one atom (`encode_append_inj`).
-/

set_option autoImplicit false

namespace Bencode

/-! ## Decimal numbers -/

/-- An ASCII digit. -/
def isDigit (b : UInt8) : Bool := decide (48 ≤ b.toNat ∧ b.toNat ≤ 57)

/-- The decimal digits of a number, without leading zeros. -/
def decimal (n : Nat) : List UInt8 :=
  if n = 0 then [48] else (Nat.digits 10 n).reverse.map (fun d => UInt8.ofNat (48 + d))

/-- The number a list of digits denotes. -/
def decimalValue (ds : List UInt8) : Nat :=
  Nat.ofDigits 10 (ds.reverse.map (fun b => b.toNat - 48))

theorem toNat_digit {d : Nat} (h : d < 10) : (UInt8.ofNat (48 + d)).toNat = 48 + d := by
  rw [UInt8.toNat_ofNat']
  omega

theorem isDigit_digit {d : Nat} (h : d < 10) : isDigit (UInt8.ofNat (48 + d)) = true := by
  unfold isDigit
  rw [toNat_digit h, decide_eq_true_eq]
  omega

theorem decimal_digits (n : Nat) : ∀ b ∈ decimal n, isDigit b = true := by
  intro b hb
  unfold decimal at hb
  split at hb
  · rw [List.mem_singleton] at hb
    subst hb
    decide
  · obtain ⟨d, hd, rfl⟩ := List.mem_map.1 hb
    rw [List.mem_reverse] at hd
    exact isDigit_digit (Nat.digits_lt_base (by omega) hd)

theorem decimalValue_decimal (n : Nat) : decimalValue (decimal n) = n := by
  unfold decimal decimalValue
  split
  · rename_i h
    subst h
    decide
  · rw [← List.map_reverse, List.reverse_reverse, List.map_map]
    have hid : (Nat.digits 10 n).map ((fun b : UInt8 => b.toNat - 48) ∘
        fun d => UInt8.ofNat (48 + d)) = Nat.digits 10 n := by
      conv_rhs => rw [← List.map_id (Nat.digits 10 n)]
      refine List.map_congr_left (fun d hd => ?_)
      have hlt := Nat.digits_lt_base (by omega : 1 < 10) hd
      simp only [Function.comp, id, toNat_digit hlt]
      omega
    rw [hid, Nat.ofDigits_digits]

/-- The number of digits is one more than the integral logarithm. -/
theorem length_decimal (n : Nat) : (decimal n).length = Nat.log 10 n + 1 := by
  unfold decimal
  split
  · rename_i h
    subst h
    simp
  · rename_i h
    rw [List.length_map, List.length_reverse, Nat.length_digits 10 n (by omega) h]

/-! ## Atoms -/

/-- An atom: the content of a byte string, or the text of an integer. -/
inductive Object where
  | bytes (content : List UInt8)
  | integer (text : List UInt8)
  deriving DecidableEq, Repr

/-- Digits without a leading zero. -/
def canonicalNatural : List UInt8 → Bool
  | [] => false
  | b :: rest => isDigit b && rest.all isDigit && (b != 48 || rest.isEmpty)

/-- An integer without leading zeros that is not a negative zero. -/
def canonicalInteger : List UInt8 → Bool
  | [] => false
  | b :: rest =>
    if b = 45 then canonicalNatural rest && rest != [48] else canonicalNatural (b :: rest)

/-- `<length>:<content>`. -/
def encodeBytes (content : List UInt8) : List UInt8 := decimal content.length ++ 58 :: content

namespace Object

/-- The encoding of an atom. -/
def encode : Object → List UInt8
  | .bytes content => encodeBytes content
  | .integer text => 105 :: (text ++ [101])

/-- The text of an integer is canonical. -/
def Canonical : Object → Prop
  | .bytes _ => True
  | .integer text => canonicalInteger text = true

end Object

theorem canonicalNatural_ne_e {text : List UInt8} (h : canonicalNatural text = true) :
    ∀ b ∈ text, b ≠ 101 := by
  cases text with
  | nil => cases h
  | cons c rest =>
    simp only [canonicalNatural, Bool.and_eq_true, List.all_eq_true] at h
    have hdigit : ∀ b ∈ c :: rest, isDigit b = true := by
      intro b hb
      rcases List.mem_cons.1 hb with rfl | hb
      · exact h.1.1
      · exact h.1.2 b hb
    rintro b hb rfl
    exact absurd (hdigit 101 hb) (by decide)

theorem canonicalInteger_ne_e {text : List UInt8} (h : canonicalInteger text = true) :
    ∀ b ∈ text, b ≠ 101 := by
  cases text with
  | nil => cases h
  | cons c rest =>
    simp only [canonicalInteger] at h
    split at h
    · rename_i hc
      subst hc
      rw [Bool.and_eq_true] at h
      intro b hb
      rcases List.mem_cons.1 hb with rfl | hb
      · decide
      · exact canonicalNatural_ne_e h.1 b hb
    · exact canonicalNatural_ne_e h

/-! ## Reading an atom -/

/-- Read an integer after its `i`. -/
def readInteger (rest : List UInt8) : Option Object :=
  let text := rest.takeWhile (fun b => b != 101)
  if canonicalInteger text && (rest.drop text.length).head? == some 101 then some (.integer text)
  else none

/-- Read a byte string. -/
def readString (input : List UInt8) : Option Object :=
  let ds := input.takeWhile isDigit
  match input.drop ds.length with
  | [] => none
  | b :: body =>
    if b = 58 ∧ decimal (decimalValue ds) = ds ∧ decimalValue ds ≤ body.length then
      some (.bytes (body.take (decimalValue ds)))
    else none

/-- Read the atom at the start of an input. -/
def readObject : List UInt8 → Option Object
  | [] => none
  | b :: rest => if b = 105 then readInteger rest else readString (b :: rest)

theorem takeWhile_append_stop {p : UInt8 → Bool} {l : List UInt8} {b : UInt8} {r : List UInt8}
    (hl : ∀ x ∈ l, p x = true) (hb : p b = false) : (l ++ b :: r).takeWhile p = l := by
  rw [List.takeWhile_append_of_pos hl, List.takeWhile_cons_of_neg (by simp [hb]), List.append_nil]

theorem readInteger_eq_some {rest : List UInt8} {o : Object} : readInteger rest = some o ↔
    ∃ text tail, o = .integer text ∧ canonicalInteger text = true ∧ rest = text ++ 101 :: tail := by
  unfold readInteger
  constructor
  · intro h
    simp only at h
    split at h
    · rename_i hc
      cases h
      rw [Bool.and_eq_true, beq_iff_eq] at hc
      obtain ⟨tail, htail⟩ : ∃ tail, rest.drop (rest.takeWhile (fun b => b != 101)).length =
          101 :: tail := by
        cases hd : rest.drop (rest.takeWhile (fun b => b != 101)).length with
        | nil => rw [hd] at hc; cases hc.2
        | cons x tail =>
          rw [hd] at hc
          cases hc.2
          exact ⟨tail, rfl⟩
      refine ⟨_, tail, rfl, hc.1, ?_⟩
      have happend := List.take_append_drop (rest.takeWhile (fun b => b != 101)).length rest
      rw [htail, ← List.prefix_iff_eq_take.1 (List.takeWhile_prefix _)] at happend
      exact happend.symm
    · cases h
  · rintro ⟨text, tail, rfl, hcanonical, rfl⟩
    have htext : (text ++ 101 :: tail).takeWhile (fun b => b != 101) = text :=
      takeWhile_append_stop (fun b hb => by simpa using canonicalInteger_ne_e hcanonical b hb) rfl
    simp only [htext, List.drop_left, List.head?_cons, hcanonical]
    rfl

theorem readString_eq_some {input : List UInt8} {o : Object} : readString input = some o ↔
    ∃ content tail, o = .bytes content ∧ input = encodeBytes content ++ tail := by
  unfold readString encodeBytes
  constructor
  · intro h
    simp only at h
    split at h
    · cases h
    · rename_i b body hdrop
      split at h
      · rename_i hc
        cases h
        obtain ⟨rfl, hcanonical, hlen⟩ := hc
        refine ⟨_, body.drop (decimalValue (input.takeWhile isDigit)), rfl, ?_⟩
        rw [List.length_take, Nat.min_eq_left hlen, hcanonical, List.append_assoc, List.cons_append,
          List.take_append_drop, ← hdrop]
        have happend := List.take_append_drop (input.takeWhile isDigit).length input
        rw [← List.prefix_iff_eq_take.1 (List.takeWhile_prefix _)] at happend
        exact happend.symm
      · cases h
  · rintro ⟨content, tail, rfl, rfl⟩
    have hds : (decimal content.length ++ 58 :: content ++ tail).takeWhile isDigit =
        decimal content.length := by
      rw [List.append_assoc, List.cons_append]
      exact takeWhile_append_stop (decimal_digits _) (by decide)
    have hdrop : (decimal content.length ++ 58 :: content ++ tail).drop
        (decimal content.length).length = 58 :: (content ++ tail) := by
      rw [List.append_assoc, List.drop_left, List.cons_append]
    simp only [hds, hdrop, decimalValue_decimal]
    simp

/-- **The reader reads exactly the canonical atoms.** -/
theorem readObject_eq_some {input : List UInt8} {o : Object} : readObject input = some o ↔
    o.Canonical ∧ ∃ rest, input = o.encode ++ rest := by
  cases input with
  | nil =>
    simp only [readObject, reduceCtorEq, false_iff, not_and, not_exists]
    intro _ rest he
    have hlen := congrArg List.length he
    cases o <;> simp [Object.encode, encodeBytes] at hlen
  | cons b input =>
    by_cases hb : b = 105
    · subst hb
      simp only [readObject, if_true, readInteger_eq_some]
      constructor
      · rintro ⟨text, tail, rfl, hcanonical, rfl⟩
        exact ⟨hcanonical, tail, by simp [Object.encode]⟩
      · rintro ⟨hcanonical, rest, he⟩
        cases o with
        | integer text =>
          refine ⟨text, rest, rfl, hcanonical, ?_⟩
          simpa [Object.encode] using he
        | bytes content =>
          -- a byte string starts with a digit
          obtain ⟨c, ds, hds⟩ : ∃ c ds, decimal content.length = c :: ds := by
            cases hd : decimal content.length with
            | nil =>
              have := length_decimal content.length
              simp [hd] at this
            | cons c ds => exact ⟨c, ds, rfl⟩
          have hdigit := decimal_digits content.length c (by simp [hds])
          simp only [Object.encode, encodeBytes, hds, List.cons_append, List.cons.injEq] at he
          rw [← he.1] at hdigit
          exact absurd hdigit (by decide)
    · simp only [readObject, if_neg hb, readString_eq_some]
      constructor
      · rintro ⟨content, tail, rfl, he⟩
        exact ⟨trivial, tail, he⟩
      · rintro ⟨-, rest, he⟩
        cases o with
        | integer text =>
          simp only [Object.encode, List.cons_append, List.cons.injEq] at he
          exact absurd he.1 hb
        | bytes content => exact ⟨content, rest, rfl, he⟩

/-- An input starts with at most one atom. -/
theorem encode_append_inj {o o' : Object} {r r' : List UInt8} (ho : o.Canonical)
    (ho' : o'.Canonical) (h : o.encode ++ r = o'.encode ++ r') : o = o' ∧ r = r' := by
  have hread := readObject_eq_some.2 ⟨ho, r, rfl⟩
  rw [h, readObject_eq_some.2 ⟨ho', r', rfl⟩] at hread
  cases hread
  exact ⟨rfl, List.append_cancel_left h⟩

end Bencode
