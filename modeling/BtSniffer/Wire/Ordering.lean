import BtSniffer.Lib.BencodeTree

/-!
# Key-order normalizers

Reference model of the reader and printer that `src/dht/udp/ordering.rs` and
`src/collection/peer/wire/extension_ordering.rs` share word for word.  They differ in the depth limit
and in the errors they report: both are parameters here.

* Bendy is a parameter `next`: what `Decoder::new(input).next_object()` reports.  `ReadsAtoms` says
  what the source relies on: it reads an atom exactly if the input starts with a canonical one.
* A failed `split_at` or slice is `Fault.panic`.  The two loops and the recursion are bounded by fuel;
  `read_settled` shows that twice the length of the input is enough.
* A `BTreeMap` is the list of its entries in key order.
-/

set_option autoImplicit false

namespace BtSniffer

open Bencode

/-- What Bendy reports as the next object. -/
inductive BendyObject where
  | bytes (content : List UInt8)
  | integer (text : List UInt8)
  | list
  | dict
  deriving DecidableEq, Repr

/-- An atom, as Bendy reports it. -/
def BendyObject.ofObject : Object → BendyObject
  | .bytes content => .bytes content
  | .integer text => .integer text

/-- `Decoder::new(input).next_object()`. -/
abbrev NextObject (β : Type) := List UInt8 → Except β (Option BendyObject)

/-- Bendy reads an atom exactly if the input starts with a canonical one. -/
def ReadsAtoms {β : Type} (next : NextObject β) : Prop :=
  ∀ input o, next input = .ok (some (.ofObject o)) ↔ o.Canonical ∧ ∃ rest, input = o.encode ++ rest

/-- How a run ends without a value. -/
inductive Fault (ε : Type) where
  | panic
  | fuel
  | refused (error : ε)
  deriving DecidableEq, Repr

/-- The errors of a normalizer. -/
structure Refusals (β ε : Type) where
  nesting : ε
  key : ε
  duplicate : ε
  start : ε
  decode : β → ε
  atom : ε

/-- `Value`. -/
inductive Value where
  | atom (encoded : List UInt8)
  | list (values : List Value)
  | dict (entries : List (List UInt8 × List UInt8 × Value))

namespace Value

mutual

/-- `Value::write`, as the bytes it appends. -/
def write : Value → List UInt8
  | .atom encoded => encoded
  | .list values => 108 :: (writeList values ++ [101])
  | .dict entries => 100 :: (writeEntries entries ++ [101])

/-- The loop over the values of a list. -/
def writeList : List Value → List UInt8
  | [] => []
  | v :: vs => v.write ++ writeList vs

/-- The loop over the entries of a dictionary. -/
def writeEntries : List (List UInt8 × List UInt8 × Value) → List UInt8
  | [] => []
  | (_, encodedKey, v) :: es => encodedKey ++ (v.write ++ writeEntries es)

end

end Value

/-- `BTreeMap::contains_key`. -/
def containsKey (entries : List (List UInt8 × List UInt8 × Value)) (key : List UInt8) : Bool :=
  entries.any (fun e => e.1 == key)

/-- `BTreeMap::insert`. -/
def insertEntry (entry : List UInt8 × List UInt8 × Value) :
    List (List UInt8 × List UInt8 × Value) → List (List UInt8 × List UInt8 × Value)
  | [] => [entry]
  | e :: rest =>
    if Tree.keyRank entry.1 < Tree.keyRank e.1 then entry :: e :: rest
    else if entry.1 = e.1 then entry :: rest
    else e :: insertEntry entry rest

/-- `checked_ilog10().unwrap_or(0)`. -/
def ilog10 (n : Nat) : Nat := Nat.log 10 n

section Reader

variable {β ε : Type} (next : NextObject β) (refusals : Refusals β ε)

/-- `input.split_at(length)`. -/
def splitAt (input : List UInt8) (length : Nat) (content : Option (List UInt8)) :
    Except (Fault ε) ((List UInt8 × Option (List UInt8)) × List UInt8) :=
  if length ≤ input.length then .ok ((input.take length, content), input.drop length)
  else .error .panic

/-- `read_atom`: the encoding, the content of a byte string, and the rest of the input. -/
def readAtom (input : List UInt8) :
    Except (Fault ε) ((List UInt8 × Option (List UInt8)) × List UInt8) :=
  if input.head?.any (fun b => b == 105 || isDigit b) then
    match next input with
    | .error e => .error (.refused (refusals.decode e))
    | .ok (some (.bytes content)) =>
      splitAt input (ilog10 content.length + 1 + 1 + content.length) (some content)
    | .ok (some (.integer text)) => splitAt input (text.length + 2) none
    | .ok _ => .error (.refused refusals.atom)
  else .error (.refused refusals.start)

/-- `&input[1..]`. -/
def skipOne (input : List UInt8) : Except (Fault ε) (List UInt8) :=
  match input with
  | [] => .error .panic
  | _ :: rest => .ok rest

variable (limit : Nat)

mutual

/-- `read_value`. -/
def readValue : Nat → List UInt8 → Nat → Except (Fault ε) (Value × List UInt8)
  | 0, _, _ => .error .fuel
  | fuel + 1, input, depth =>
    if input.head? = some 100 ∨ input.head? = some 108 then
      if depth ≥ limit then .error (.refused refusals.nesting)
      else if input.head? = some 100 then do
        let start ← skipOne input
        let (entries, rest) ← readEntries fuel start depth []
        let rest ← skipOne rest
        .ok (.dict entries, rest)
      else do
        let start ← skipOne input
        let (values, rest) ← readList fuel start depth
        let rest ← skipOne rest
        .ok (.list values, rest)
    else do
      let ((encoded, _), rest) ← readAtom next refusals input
      .ok (.atom encoded, rest)

/-- The loop over the entries of a dictionary. -/
def readEntries : Nat → List UInt8 → Nat → List (List UInt8 × List UInt8 × Value) →
    Except (Fault ε) (List (List UInt8 × List UInt8 × Value) × List UInt8)
  | 0, _, _, _ => .error .fuel
  | fuel + 1, input, depth, entries =>
    if input.head? = some 101 then .ok (entries, input)
    else do
      let ((encodedKey, content), afterKey) ← readAtom next refusals input
      match content with
      | none => .error (.refused refusals.key)
      | some key =>
        if containsKey entries key then .error (.refused refusals.duplicate)
        else do
          let (value, rest) ← readValue fuel afterKey (depth + 1)
          readEntries fuel rest depth (insertEntry (key, encodedKey, value) entries)

/-- The loop over the values of a list. -/
def readList : Nat → List UInt8 → Nat → Except (Fault ε) (List Value × List UInt8)
  | 0, _, _ => .error .fuel
  | fuel + 1, input, depth =>
    if input.head? = some 101 then .ok ([], input)
    else do
      let (value, rest) ← readValue fuel input (depth + 1)
      let (values, rest) ← readList fuel rest depth
      .ok (value :: values, rest)

end

/-- Read one value that is the whole input, and print it. -/
def normalizeWith (trailing : ε) (input : List UInt8) : Except (Fault ε) (List UInt8) := do
  let (value, remaining) ← readValue next refusals limit (2 * input.length + 1) input 0
  if remaining ≠ [] then .error (.refused trailing) else .ok value.write

end Reader

end BtSniffer
