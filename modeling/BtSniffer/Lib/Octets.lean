import Mathlib.Data.Nat.ModEq
import Mathlib.Tactic.Ring

/-!
# Octets and records of a fixed size

Big-endian words and byte strings that are records of one size after the other.

* `ofWord`, `toWord` — the octets of a word and back (`toWord_ofWord`, `ofWord_toWord`).
* `readRecords` — a byte string is cut into records; it reads back what was written record by record
  (`readRecords_flatMap`), and what it has read is written as it was (`flatMap_readRecords`).
-/

set_option autoImplicit false

namespace Octets

/-! ## Words -/

/-- The low `w` octets of a number, the most significant first. -/
def ofNat : Nat → Nat → List UInt8
  | 0, _ => []
  | w + 1, n => UInt8.ofNat (n / 256 ^ w) :: ofNat w n

/-- The number of some octets. -/
def toNat : List UInt8 → Nat
  | [] => 0
  | b :: bs => toNat bs + 256 ^ bs.length * b.toNat

@[simp] theorem length_ofNat (w n : Nat) : (ofNat w n).length = w := by
  induction w with
  | zero => rfl
  | succ w ih => simp [ofNat, ih]

theorem toNat_ofNat (w n : Nat) : toNat (ofNat w n) = n % 256 ^ w := by
  induction w with
  | zero => simp [ofNat, toNat, Nat.mod_one]
  | succ w ih =>
    have hbyte : (UInt8.ofNat (n / 256 ^ w)).toNat = n / 256 ^ w % 256 := UInt8.toNat_ofNat'
    rw [ofNat, toNat, ih, length_ofNat, hbyte, Nat.mod_pow_succ]

theorem toNat_lt : ∀ bs : List UInt8, toNat bs < 256 ^ bs.length
  | [] => Nat.one_pos
  | b :: bs => by
    have hrest := toNat_lt bs
    have hbyte : 256 ^ bs.length * (b.toNat + 1) ≤ 256 ^ bs.length * 256 :=
      Nat.mul_le_mul_left _ b.toNat_lt
    rw [toNat, List.length_cons, pow_succ]
    rw [Nat.mul_add, Nat.mul_one] at hbyte
    omega

/-- Higher octets are not written. -/
theorem ofNat_add_mul (w n k : Nat) : ofNat w (n + 256 ^ w * k) = ofNat w n := by
  induction w generalizing k with
  | zero => rfl
  | succ w ih =>
    have hsplit : 256 ^ (w + 1) * k = 256 ^ w * (256 * k) := by ring
    have hpos : 0 < 256 ^ w := Nat.pow_pos (by decide)
    rw [ofNat, ofNat, hsplit, ih, Nat.add_mul_div_left _ _ hpos]
    congr 1
    apply UInt8.toNat_inj.1
    rw [UInt8.toNat_ofNat', UInt8.toNat_ofNat']
    exact Nat.add_mul_mod_self_left _ _ _

theorem ofNat_toNat (bs : List UInt8) : ofNat bs.length (toNat bs) = bs := by
  induction bs with
  | nil => rfl
  | cons b bs ih =>
    have hpos : 0 < 256 ^ bs.length := Nat.pow_pos (by decide)
    rw [List.length_cons, ofNat, toNat, ofNat_add_mul, ih, Nat.add_mul_div_left _ _ hpos,
      Nat.div_eq_of_lt (toNat_lt bs), Nat.zero_add, UInt8.ofNat_toNat]

/-- The octets of a word. -/
def ofWord {bits : Nat} (w : Nat) (x : BitVec bits) : List UInt8 := ofNat w x.toNat

/-- The word of some octets. -/
def toWord (bits : Nat) (bs : List UInt8) : BitVec bits := BitVec.ofNat bits (toNat bs)

@[simp] theorem length_ofWord {bits : Nat} (w : Nat) (x : BitVec bits) : (ofWord w x).length = w :=
  length_ofNat w x.toNat

theorem toWord_ofWord {bits w : Nat} (h : bits = 8 * w) (x : BitVec bits) :
    toWord bits (ofWord w x) = x := by
  subst h
  have hpow : 256 ^ w = 2 ^ (8 * w) := by
    rw [pow_mul]
    norm_num
  apply BitVec.eq_of_toNat_eq
  rw [toWord, ofWord, toNat_ofNat, hpow, BitVec.toNat_ofNat, Nat.mod_mod, Nat.mod_eq_of_lt x.isLt]

theorem ofWord_toWord {bits w : Nat} (h : bits = 8 * w) {bs : List UInt8} (hlen : bs.length = w) :
    ofWord w (toWord bits bs) = bs := by
  subst h hlen
  have hpow : 2 ^ (8 * bs.length) = 256 ^ bs.length := by
    rw [pow_mul]
    norm_num
  rw [ofWord, toWord, BitVec.toNat_ofNat, hpow, Nat.mod_eq_of_lt (toNat_lt bs), ofNat_toNat]

/-! ## Records -/

/-- The first `count` records of a size. -/
def chunks (size : Nat) : Nat → List UInt8 → List (List UInt8)
  | 0, _ => []
  | count + 1, bytes => bytes.take size :: chunks size count (bytes.drop size)

/-- A byte string that is cut into records of a size, without a rest. -/
def readRecords {α : Type} (size : Nat) (read : List UInt8 → α) (bytes : List UInt8) :
    Option (List α) :=
  if bytes.length % size = 0 then some ((chunks size (bytes.length / size) bytes).map read)
  else none

section Records

variable {α : Type} {size : Nat} {write : α → List UInt8} {read : List UInt8 → α}

theorem length_flatMap_records (hsize : ∀ x, (write x).length = size) :
    ∀ xs : List α, (xs.flatMap write).length = size * xs.length
  | [] => rfl
  | x :: xs => by
    rw [List.flatMap_cons, List.length_append, hsize, length_flatMap_records hsize xs,
      List.length_cons]
    ring

theorem chunks_flatMap (hsize : ∀ x, (write x).length = size) :
    ∀ xs : List α, chunks size xs.length (xs.flatMap write) = xs.map write
  | [] => rfl
  | x :: xs => by
    have htake : (write x ++ xs.flatMap write).take size = write x := by
      rw [← hsize x, List.take_left]
    have hdrop : (write x ++ xs.flatMap write).drop size = xs.flatMap write := by
      rw [← hsize x, List.drop_left]
    rw [List.flatMap_cons, List.length_cons, chunks, htake, hdrop, chunks_flatMap hsize xs,
      List.map_cons]

/-- **Records that are written are read back.** -/
theorem readRecords_flatMap (hpos : 0 < size) (hsize : ∀ x, (write x).length = size)
    (xs : List α) (hread : ∀ x ∈ xs, read (write x) = x) :
    readRecords size read (xs.flatMap write) = some xs := by
  unfold readRecords
  rw [length_flatMap_records hsize, if_pos (Nat.mul_mod_right size xs.length),
    Nat.mul_div_cancel_left _ hpos, chunks_flatMap hsize, List.map_map]
  congr 1
  calc xs.map (read ∘ write) = xs.map id := List.map_congr_left hread
    _ = xs := List.map_id xs

theorem chunks_spec : ∀ (count : Nat) (bytes : List UInt8), bytes.length = size * count →
    (chunks size count bytes).flatten = bytes ∧ ∀ c ∈ chunks size count bytes, c.length = size
  | 0, bytes, h => by
    rw [Nat.mul_zero, List.length_eq_zero_iff] at h
    subst h
    exact ⟨rfl, fun c hc => nomatch hc⟩
  | count + 1, bytes, h => by
    have hrest : (bytes.drop size).length = size * count := by
      rw [List.length_drop, h, Nat.mul_succ]
      omega
    obtain ⟨hflat, hsize⟩ := chunks_spec count (bytes.drop size) hrest
    refine ⟨?_, ?_⟩
    · rw [chunks, List.flatten_cons, hflat, List.take_append_drop]
    · intro c hc
      rcases List.mem_cons.1 hc with rfl | hc
      · rw [List.length_take, h, Nat.mul_succ]
        omega
      · exact hsize c hc

/-- Byte strings without a rest are read. -/
theorem readRecords_isSome (bytes : List UInt8) :
    (readRecords size read bytes).isSome = true ↔ size ∣ bytes.length := by
  rw [Nat.dvd_iff_mod_eq_zero]
  unfold readRecords
  split <;> simp [*]

/-- **Records that are read are written as they were.** -/
theorem flatMap_readRecords (hwrite : ∀ c, c.length = size → write (read c) = c)
    {bytes : List UInt8} {xs : List α} (h : readRecords size read bytes = some xs) :
    xs.flatMap write = bytes := by
  unfold readRecords at h
  split at h
  · rename_i hmod
    cases h
    have hlen : bytes.length = size * (bytes.length / size) :=
      (Nat.mul_div_cancel' (Nat.dvd_of_mod_eq_zero hmod)).symm
    obtain ⟨hflat, hsize⟩ := chunks_spec _ bytes hlen
    have hchunks : (chunks size (bytes.length / size) bytes).map (fun c => write (read c)) =
        (chunks size (bytes.length / size) bytes).map id :=
      List.map_congr_left fun c hc => hwrite c (hsize c hc)
    rw [List.flatMap_map, List.flatMap_def, hchunks, List.map_id, hflat]
  · cases h

end Records

end Octets
