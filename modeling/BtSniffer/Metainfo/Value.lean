import BtSniffer.Collection.Metainfo
import BtSniffer.Wire.Extension

/-!
# Values of an info dictionary

Reference model of `Value`, `value` and the accessors in `src/collection/metainfo.rs`.

* `Object` is what the iteration over an object of bendy yields: the items up to the end of the list or
  up to an error.
* A `Dict` is the sorted list of the entries of a `BTreeMap`; `Value.Ordered` says so at every level, and
  `value_ordered` that `value` builds nothing else.
* The errors are the texts of the source.
-/

set_option autoImplicit false

namespace BtSniffer.Info

open Bencode

/-- An object of bendy, with everything its iterators return; `ended` is false if they stop with an
error. -/
inductive Object where
  | bytes (content : Bytes)
  | integer (text : Bytes)
  | list (items : List Object) (ended : Bool)
  | dict (pairs : List (Bytes × Object)) (ended : Bool)

mutual

/-- What bendy yields for the encoding of a tree that it accepts. -/
def Object.ofTree : Tree → Object
  | .atom (.bytes content) => .bytes content
  | .atom (.integer text) => .integer text
  | .list items => .list (Object.ofItems items) true
  | .dict pairs => .dict (Object.ofPairs pairs) true

def Object.ofItems : List Tree → List Object
  | [] => []
  | item :: rest => Object.ofTree item :: Object.ofItems rest

def Object.ofPairs : List (Bytes × Tree) → List (Bytes × Object)
  | [] => []
  | (k, item) :: rest => (k, Object.ofTree item) :: Object.ofPairs rest

end

/-- `Value`. -/
inductive Value where
  | bytes (content : Bytes)
  | integer (number : Int)
  | list (items : List Value)
  | dict (entries : List (Bytes × Value))

/-- `Dict`: the entries of a `BTreeMap`, by key. -/
abbrev Dict := List (Bytes × Value)

/-- The bytes of a key. -/
def key (text : String) : Bytes := text.toList.map (fun c => UInt8.ofNat c.toNat)

namespace Dict

/-- `BTreeMap::get`. -/
def get (d : Dict) (k : Bytes) : Option Value := (d.find? (fun e => e.1 == k)).map Prod.snd

/-- `BTreeMap::contains_key`. -/
def containsKey (d : Dict) (k : Bytes) : Bool := (d.get k).isSome

/-- `BTreeMap::insert`. -/
def insert (k : Bytes) (v : Value) : Dict → Dict
  | [] => [(k, v)]
  | e :: rest =>
    if Tree.keyRank k < Tree.keyRank e.1 then (k, v) :: e :: rest
    else if k = e.1 then (k, v) :: rest
    else e :: insert k v rest

end Dict

/-- `charge`. -/
def charge (budget amount : Nat) : Except String Nat :=
  if amount ≤ budget then .ok (budget - amount) else .error "semantic_capacity"

/-! ## Reading a value -/

mutual

/-- `value`: the value and the rest of the budget. -/
def value : Object → Nat → Except String (Value × Nat)
  | .bytes content, budget => do
    let budget ← charge budget 96
    pure (.bytes content, budget)
  | .integer text, budget => do
    let budget ← charge budget 96
    match parseI64 text with
    | some number => pure (.integer number, budget)
    | none => .error "integer_range"
  | .list items ended, budget => do
    let budget ← charge budget 96
    let r ← values items ended budget
    pure (.list r.1, r.2)
  | .dict pairs ended, budget => do
    let budget ← charge budget 96
    let r ← entries pairs ended [] budget
    pure (.dict r.1, r.2)

/-- The loop of `value` over a list. -/
def values : List Object → Bool → Nat → Except String (List Value × Nat)
  | [], ended, budget => if ended then .ok ([], budget) else .error "invalid_bencode"
  | item :: rest, ended, budget => do
    let r ← value item budget
    let s ← values rest ended r.2
    pure (r.1 :: s.1, s.2)

/-- The loop of `value` over a dictionary. -/
def entries : List (Bytes × Object) → Bool → Dict → Nat → Except String (Dict × Nat)
  | [], ended, d, budget => if ended then .ok (d, budget) else .error "invalid_bencode"
  | (k, item) :: rest, ended, d, budget => do
    let r ← value item budget
    if Dict.containsKey d k then .error "duplicate_key"
    else entries rest ended (Dict.insert k r.1 d) r.2

end

/-! ## Accessors -/

/-- `dictionary`. -/
def dictionary : Value → Except String Dict
  | .dict d => .ok d
  | _ => .error "dictionary_type"

/-- `bytes`. -/
def bytes : Value → Except String Bytes
  | .bytes b => .ok b
  | _ => .error "bytes_type"

/-- `integer`. -/
def integer : Value → Except String Int
  | .integer n => .ok n
  | _ => .error "integer_type"

/-- `required`. -/
def required (d : Dict) (k : Bytes) : Except String Value :=
  match d.get k with
  | some v => .ok v
  | none => .error "missing_field"

theorem required_ok {d : Dict} {k : Bytes} {v : Value} (h : required d k = .ok v) :
    d.get k = some v := by
  unfold required at h
  split at h
  · rename_i v' hv'
    cases h
    exact hv'
  · cases h

/-- `length`. -/
def length (d : Dict) (k : Bytes) : Except String Nat := do
  let n ← integer (← required d k)
  if n < 0 then .error "negative_length" else pure n.toNat

/-- `optional_bytes`. -/
def optionalBytes (d : Dict) (k : Bytes) : Except String (Option Bytes) :=
  match d.get k with
  | some v => (bytes v).map some
  | none => .ok none

/-! ## Ordered values -/

/-- The keys of every dictionary are strictly increasing, as in a `BTreeMap`. -/
inductive Value.Ordered : Value → Prop
  | bytes (content : Bytes) : Ordered (.bytes content)
  | integer (number : Int) : Ordered (.integer number)
  | list {items : List Value} (h : ∀ v ∈ items, Ordered v) : Ordered (.list items)
  | dict {d : Dict} (hkeys : d.Pairwise (fun a b => Tree.keyRank a.1 < Tree.keyRank b.1))
      (h : ∀ e ∈ d, Ordered e.2) : Ordered (.dict d)

theorem mem_insert {k : Bytes} {v : Value} : ∀ {d : Dict} {e : Bytes × Value},
    e ∈ Dict.insert k v d → e = (k, v) ∨ e ∈ d
  | [], e, h => .inl (List.mem_singleton.1 h)
  | x :: rest, e, h => by
    unfold Dict.insert at h
    split at h
    · rcases List.mem_cons.1 h with rfl | h
      · exact .inl rfl
      · exact .inr h
    · split at h
      · rcases List.mem_cons.1 h with rfl | h
        · exact .inl rfl
        · exact .inr (List.mem_cons_of_mem x h)
      · rcases List.mem_cons.1 h with rfl | h
        · exact .inr List.mem_cons_self
        · exact (mem_insert h).imp id (List.mem_cons_of_mem x)

theorem insert_pairwise {k : Bytes} {v : Value} : ∀ {d : Dict},
    d.Pairwise (fun a b => Tree.keyRank a.1 < Tree.keyRank b.1) →
    (Dict.insert k v d).Pairwise (fun a b => Tree.keyRank a.1 < Tree.keyRank b.1)
  | [], _ => List.pairwise_singleton _ _
  | x :: rest, h => by
    obtain ⟨hx, hrest⟩ := List.pairwise_cons.1 h
    unfold Dict.insert
    split
    · rename_i hlt
      refine List.pairwise_cons.2 ⟨fun e he => ?_, h⟩
      rcases List.mem_cons.1 he with rfl | he
      · exact hlt
      · exact lt_trans hlt (hx e he)
    · rename_i hnot
      split
      · rename_i heq
        exact List.pairwise_cons.2 ⟨fun e he => heq ▸ hx e he, hrest⟩
      · rename_i hne
        refine List.pairwise_cons.2 ⟨fun e he => ?_, insert_pairwise hrest⟩
        rcases mem_insert he with rfl | he
        · exact lt_of_le_of_ne (not_lt.1 hnot) (fun heq => hne (Tree.keyRank_injective heq.symm))
        · exact hx e he

mutual

/-- **`value` builds ordered values.** -/
theorem value_ordered : ∀ {o : Object} {budget : Nat} {r : Value × Nat},
    value o budget = .ok r → r.1.Ordered
  | .bytes content, budget, r, h => by
    rw [value] at h
    obtain ⟨left, -, h⟩ := except_bind_ok h
    cases h
    exact .bytes content
  | .integer text, budget, r, h => by
    rw [value] at h
    obtain ⟨left, -, h⟩ := except_bind_ok h
    split at h
    · cases h
      exact .integer _
    · cases h
  | .list items ended, budget, r, h => by
    rw [value] at h
    obtain ⟨left, -, h⟩ := except_bind_ok h
    obtain ⟨q, hq, h⟩ := except_bind_ok h
    cases h
    exact .list (values_ordered hq)
  | .dict pairs ended, budget, r, h => by
    rw [value] at h
    obtain ⟨left, -, h⟩ := except_bind_ok h
    obtain ⟨q, hq, h⟩ := except_bind_ok h
    cases h
    exact entries_ordered (.dict List.Pairwise.nil (fun _ he => absurd he List.not_mem_nil)) hq

theorem values_ordered : ∀ {items : List Object} {ended : Bool} {budget : Nat}
    {r : List Value × Nat}, values items ended budget = .ok r → ∀ v ∈ r.1, v.Ordered
  | [], ended, budget, r, h => by
    rw [values] at h
    split at h
    · cases h
      exact fun v hv => absurd hv List.not_mem_nil
    · cases h
  | item :: rest, ended, budget, r, h => by
    rw [values] at h
    obtain ⟨q, hq, h⟩ := except_bind_ok h
    obtain ⟨t, ht, h⟩ := except_bind_ok h
    cases h
    intro v hv
    rcases List.mem_cons.1 hv with rfl | hv
    · exact value_ordered hq
    · exact values_ordered ht v hv

theorem entries_ordered : ∀ {pairs : List (Bytes × Object)} {ended : Bool} {d : Dict} {budget : Nat}
    {r : Dict × Nat}, (Value.dict d).Ordered → entries pairs ended d budget = .ok r →
    (Value.dict r.1).Ordered
  | [], ended, d, budget, r, hd, h => by
    rw [entries] at h
    split at h
    · cases h
      exact hd
    · cases h
  | (k, item) :: rest, ended, d, budget, r, hd, h => by
    rw [entries] at h
    obtain ⟨q, hq, h⟩ := except_bind_ok h
    split at h
    · cases h
    · cases hd with
      | dict hkeys hvalues =>
        refine entries_ordered (.dict (insert_pairwise hkeys) (fun e he => ?_)) h
        rcases mem_insert he with rfl | he
        · exact value_ordered hq
        · exact hvalues e he

end

end BtSniffer.Info
