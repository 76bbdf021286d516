import BtSniffer.Lib.SetIndex
import Mathlib

/-!
# The event buffer of the monitor

Reference model of `web/src/lib/observation/buffer.ts`.

* A sequence is the canonical decimal string of a number; `BigInt` reads it.
* What the buffer does not read of an event is of any type; the encoded size of an event is a
  parameter.
* `none` is a call that does not return: `get(id)!` of an entry that is absent, or a loop without end.
* `oldest` is the number that `BigInt` reads from the string.
-/

set_option autoImplicit false

namespace BtSniffer.Web

open Relational

/-! ## Events -/

/-- A canonical decimal string. -/
structure Sequence where
  text : String
  canonical : (text.toNat?.getD 0).repr = text
  deriving DecidableEq

namespace Sequence

/-- `BigInt`. -/
def bigInt (s : Sequence) : Nat := s.text.toNat?.getD 0

/-- The decimal string of a number. -/
def ofNat (n : Nat) : Sequence where
  text := n.repr
  canonical := by
    rw [Nat.toNat?_repr, Option.getD_some]

@[simp] theorem bigInt_ofNat (n : Nat) : (ofNat n).bigInt = n := by
  unfold bigInt ofNat
  rw [Nat.toNat?_repr, Option.getD_some]

theorem bigInt_injective : Function.Injective bigInt := by
  rintro ⟨a, ha⟩ ⟨b, hb⟩ h
  have htext : a = b := by
    rw [← ha, ← hb]
    exact congrArg Nat.repr h
  subst htext
  rfl

/-- The comparison of `sort`. -/
def le (a b : Sequence) : Prop := a.bigInt ≤ b.bigInt

instance : DecidableRel le := fun a b => inferInstanceAs (Decidable (a.bigInt ≤ b.bigInt))

instance : Std.Total le := ⟨fun a b => Nat.le_total a.bigInt b.bigInt⟩

instance : IsTrans Sequence le := ⟨fun _ _ _ => Nat.le_trans⟩

end Sequence

/-- The fields of `contextSchema` that the buffer reads. -/
structure Context where
  swarmKey : Option String
  observationId : Option String
  batchId : Option String
  spanId : Option String
  parentSpanId : Option String
  peerAttemptId : Option String
  rpcId : Option String
  deriving DecidableEq, Repr

/-- `ObservationEvent`. -/
structure ObservationEvent (δ : Type) where
  sequence : Sequence
  kind : String
  context : Context
  rest : δ
  deriving DecidableEq

/-- `Entry`. -/
structure Entry (δ : Type) where
  event : ObservationEvent δ
  bytes : Nat
  received : Int
  deriving DecidableEq

/-- The key of an entry. -/
def Entry.sequence {δ : Type} (e : Entry δ) : Sequence := e.event.sequence

/-- `EventFilter`. -/
structure EventFilter where
  hash : Option String
  object : Option String
  kind : Option String
  deriving DecidableEq, Repr

/-- `limits`. -/
structure Limits where
  count : Int
  bytes : Int
  age : Int
  deriving DecidableEq, Repr

/-- `EventBuffer`. -/
structure EventBuffer (δ : Type) where
  entries : Table (Entry δ) Entry.sequence
  order : List Sequence
  hashes : SetIndex String Sequence
  objects : SetIndex String Sequence
  bytes : Int
  evicted : Nat
  limits : Limits

/-- A value that is neither missing nor the empty string. -/
def given (value : Option String) : Option String := value.filter (fun s => decide (s ≠ ""))

namespace ObservationEvent

variable {δ : Type}

/-- The keys of `hashes` under which an event is found. -/
def hashKeys (event : ObservationEvent δ) : List String := (given event.context.swarmKey).toList

/-- `objectIds`. -/
def objectIds (event : ObservationEvent δ) : List String :=
  let c := event.context
  ([c.observationId, c.batchId, c.spanId, c.parentSpanId, c.peerAttemptId, c.rpcId].filterMap
    id).eraseDups

end ObservationEvent

namespace EventBuffer

variable {δ : Type}

/-- The constructor. -/
def new (limits : Limits) : EventBuffer δ where
  entries := Table.empty
  order := []
  hashes := Table.empty
  objects := Table.empty
  bytes := 0
  evicted := 0
  limits := limits

/-- `size`. -/
def size (b : EventBuffer δ) : Nat := b.entries.rows.length

/-! ## Adding and removing -/

/-- The body of the loop of `add`. -/
def addEvent (encodedBytes : ObservationEvent δ → Nat) (now : Int) (b : EventBuffer δ)
    (event : ObservationEvent δ) : EventBuffer δ :=
  if (b.entries.get? event.sequence).isSome then b
  else
    let bytes := encodedBytes event
    { b with
      entries := b.entries.insert ⟨event, bytes, now⟩
      order := b.order ++ [event.sequence]
      bytes := b.bytes + bytes
      hashes := b.hashes.addAll event.hashKeys event.sequence
      objects := b.objects.addAll event.objectIds event.sequence }

/-- `remove`. -/
def remove (b : EventBuffer δ) (id : Sequence) : EventBuffer δ :=
  match b.entries.get? id with
  | none => b
  | some entry =>
    { b with
      entries := b.entries.erase id
      bytes := b.bytes - entry.bytes
      evicted := b.evicted + 1
      hashes := b.hashes.removeAll entry.event.hashKeys id
      objects := b.objects.removeAll entry.event.objectIds id }

/-- The filter of `prune`: what it keeps of the order, and the buffer without the rest. -/
def sweep (now : Int) (oldest : Option Int) : List Sequence → EventBuffer δ →
    Option (List Sequence × EventBuffer δ)
  | [], b => some ([], b)
  | id :: rest, b => do
    let entry ← b.entries.get? id
    if b.limits.age ≤ now - entry.received ∨ ∃ o ∈ oldest, (id.bigInt : Int) < o then
      sweep now oldest rest (b.remove id)
    else
      let (kept, b) ← sweep now oldest rest b
      some (id :: kept, b)

/-- The condition of the loop of `prune`. -/
def overfull (b : EventBuffer δ) : Bool :=
  decide (b.limits.count < b.size) || decide (b.limits.bytes < b.bytes)

/-- The loop of `prune`, which takes entries from the front of the order. -/
def shrink : List Sequence → EventBuffer δ → Option (EventBuffer δ)
  | [], b => if b.overfull then none else some { b with order := [] }
  | id :: rest, b => if b.overfull then shrink rest (b.remove id) else some { b with order := id :: rest }

/-- `prune`. -/
def prune (b : EventBuffer δ) (now : Int) (oldest : Option Int) : Option (EventBuffer δ) := do
  let (order, b) ← b.sweep now oldest b.order
  b.shrink order

/-- `add`. -/
def add (encodedBytes : ObservationEvent δ → Nat) (b : EventBuffer δ)
    (events : List (ObservationEvent δ)) (now : Int) : Option (EventBuffer δ) :=
  let b := events.foldl (addEvent encodedBytes now) b
  let b := { b with order := b.order.insertionSort Sequence.le }
  b.prune now none

/-- `clear`. -/
def clear (b : EventBuffer δ) : EventBuffer δ := new b.limits

/-! ## Selecting -/

/-- `allowed` of `select`; `some none` when the index holds nothing for a given value. -/
def allowed (b : EventBuffer δ) (filter : EventFilter) : Option (Option (Finset Sequence)) :=
  match given filter.hash, given filter.object with
  | some hash, _ => some ((b.hashes.get? hash).map Posting.ids)
  | none, some object => some ((b.objects.get? object).map Posting.ids)
  | none, none => none

/-- The two tests on an event in the loop of `select`. -/
def passes (filter : EventFilter) (event : ObservationEvent δ) : Bool :=
  (match given filter.object with
    | some object => decide (object ∈ event.objectIds)
    | none => true) &&
  (match given filter.kind with
    | some kind => decide (event.kind = kind)
    | none => true)

/-- The loop of `select` over the order from its end, with the room that is left. -/
def collect (b : EventBuffer δ) (allowed : Option (Finset Sequence)) (filter : EventFilter) :
    Nat → List Sequence → Option (List (ObservationEvent δ))
  | 0, _ => some []
  | _, [] => some []
  | room + 1, id :: rest =>
    if ∃ ids ∈ allowed, id ∉ ids then b.collect allowed filter (room + 1) rest
    else do
      let entry ← b.entries.get? id
      if passes filter entry.event then
        let result ← b.collect allowed filter room rest
        some (entry.event :: result)
      else b.collect allowed filter (room + 1) rest

/-- `select`. -/
def select (b : EventBuffer δ) (filter : EventFilter) (limit : Int) :
    Option (List (ObservationEvent δ)) :=
  match b.allowed filter with
  | some none => some []
  | some (some ids) => (b.collect (some ids) filter limit.toNat b.order.reverse).map List.reverse
  | none => (b.collect none filter limit.toNat b.order.reverse).map List.reverse

end EventBuffer

end BtSniffer.Web
