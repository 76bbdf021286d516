import BtSniffer.Dht.NodeId
import BtSniffer.Lib.KeyMap
import Mathlib.Data.List.Sort
import Mathlib.Data.Prod.Lex

/-!
# Transactions

Reference model of `src/dht/transaction/mod.rs`.

* A `TransactionId` is the big-endian word of its four bytes, so their lexicographic order is the
  order of the words.
* `pending` is a map that holds its keys in its values; the order in which the source iterates over
  it is not observable, because `expire` sorts by a key that contains the id.
-/

set_option autoImplicit false

namespace BtSniffer

open Relational

/-- `TransactionId`. -/
abbrev TransactionId := BitVec 32

/-- `TransactionId::to_byte_buf`. -/
def TransactionId.toByteBuf (id : TransactionId) : List UInt8 :=
  [⟨id.extractLsb' 24 8⟩, ⟨id.extractLsb' 16 8⟩, ⟨id.extractLsb' 8 8⟩, ⟨id.extractLsb' 0 8⟩]

/-- `TransactionId::from_counter`. -/
def TransactionId.fromCounter (counter : BitVec 32) : TransactionId := counter

/-- `QueryMethod`. -/
inductive QueryMethod where
  | ping
  | findNode
  | getPeers
  | announcePeer
  | sampleInfohashes
  | unknown (name : String)
  deriving DecidableEq, Repr

/-- `PendingTransaction`. -/
structure PendingTransaction where
  id : TransactionId
  destination : SocketAddr
  method : QueryMethod
  startedAt : Instant
  deadline : Instant
  deriving DecidableEq, Repr

/-- `CompletedTransaction`. -/
structure CompletedTransaction where
  transaction : PendingTransaction
  completedAt : Instant
  deriving DecidableEq, Repr

/-- `TransactionError`. -/
inductive TransactionError where
  | atCapacity (limit : Nat)
  | invalidTransactionIdLength (actual : Nat)
  | unknownTransaction (id : TransactionId)
  | sourceMismatch (id : TransactionId) (expected actual : SocketAddr)
  | expired (transaction : PendingTransaction)
  | idSpaceExhausted
  deriving DecidableEq, Repr

/-- `TransactionId::try_from`. -/
def TransactionId.tryFrom : List UInt8 → Except TransactionError TransactionId
  | [a, b, c, d] => .ok (a.toBitVec ++ b.toBitVec ++ c.toBitVec ++ d.toBitVec)
  | bytes => .error (.invalidTransactionIdLength bytes.length)

/-- `TransactionManager`. -/
structure TransactionManager where
  timeout : Duration
  maxPending : Nat
  nextCounter : BitVec 32
  pending : Table PendingTransaction PendingTransaction.id

namespace TransactionManager

/-- `TransactionManager::with_initial_counter`. -/
def withInitialCounter (timeout : Duration) (maxPending : Nat) (initialCounter : BitVec 32) :
    TransactionManager :=
  ⟨timeout, maxPending, initialCounter, .empty⟩

/-- `TransactionManager::new`. -/
def new (timeout : Duration) (maxPending : Nat) : TransactionManager :=
  withInitialCounter timeout maxPending 0

/-- `TransactionManager::len`. -/
def len (m : TransactionManager) : Nat := m.pending.rows.length

/-- The loop of `register`, with the number of turns it has left. -/
def registerLoop (destination : SocketAddr) (method : QueryMethod) (now : Instant) :
    Nat → TransactionManager → Except TransactionError TransactionId × TransactionManager
  | 0, m => (.error .idSpaceExhausted, m)
  | turns + 1, m =>
    let id := TransactionId.fromCounter m.nextCounter
    let advanced := { m with nextCounter := m.nextCounter + 1 }
    if (m.pending.get? id).isSome then registerLoop destination method now turns advanced
    else
      (.ok id, { advanced with
        pending := m.pending.insert ⟨id, destination, method, now, now + m.timeout⟩ })

/-- `TransactionManager::register`. -/
def register (m : TransactionManager) (destination : SocketAddr) (method : QueryMethod)
    (now : Instant) : Except TransactionError TransactionId × TransactionManager :=
  if m.len ≥ m.maxPending then (.error (.atCapacity m.maxPending), m)
  else registerLoop destination method now (m.maxPending + 1) m

/-- `TransactionManager::complete`. -/
def complete (m : TransactionManager) (transactionId : List UInt8) (source : SocketAddr)
    (now : Instant) : Except TransactionError CompletedTransaction × TransactionManager :=
  match TransactionId.tryFrom transactionId with
  | .error e => (.error e, m)
  | .ok id =>
    match m.pending.get? id with
    | none => (.error (.unknownTransaction id), m)
    | some transaction =>
      if transaction.destination ≠ source then
        (.error (.sourceMismatch id transaction.destination source), m)
      else
        let removed := { m with pending := m.pending.erase id }
        if now ≥ transaction.deadline then (.error (.expired transaction), removed)
        else (.ok ⟨transaction, now⟩, removed)

/-- `TransactionManager::cancel`. -/
def cancel (m : TransactionManager) (id : TransactionId) :
    Option PendingTransaction × TransactionManager :=
  (m.pending.get? id, { m with pending := m.pending.erase id })

/-- The sort key of `expire`; ids compare as the big-endian words they are. -/
def expiryKey (transaction : PendingTransaction) : Instant ×ₗ Nat :=
  toLex (transaction.deadline, transaction.id.toNat)

/-- `TransactionManager::expire`. -/
def expire (m : TransactionManager) (now : Instant) :
    List PendingTransaction × TransactionManager :=
  let due := fun transaction : PendingTransaction => decide (now ≥ transaction.deadline)
  ((m.pending.rows.filter due).insertionSort (Table.orderBy expiryKey),
    { m with pending := m.pending.delete due })

/-- `TransactionManager::next_deadline`. -/
def nextDeadline (m : TransactionManager) : Option Instant :=
  (m.pending.rows.map PendingTransaction.deadline).min?

end TransactionManager

end BtSniffer
