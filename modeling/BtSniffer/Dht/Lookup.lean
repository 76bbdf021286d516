import BtSniffer.Dht.Shortlist
import BtSniffer.Dht.Security
import BtSniffer.Lib.KeyMap

/-!
# The iterative lookup

Reference model of `IterativeLookup` in `src/dht/dispatcher/maintenance.rs`.

* The candidates are a table keyed by Node ID, the addresses that were tried a set.
* `takeNext` tries the chosen candidates one after the other, as the source does: an address that was
  tried before makes the candidate fail.
* `complete_success` reads whether the identifier of the candidate is trusted for its address.
-/

set_option autoImplicit false

namespace BtSniffer

open Relational

/-- The fields of `MaintenanceConfig` that a lookup reads. -/
structure MaintenanceConfig where
  lookupParallelism : Nat
  shortlistSize : Nat
  maxQueries : Nat
  deriving DecidableEq, Repr

/-- `LookupKind`. -/
inductive LookupKind where
  | startup
  | refresh
  deriving DecidableEq, Repr

/-- `LookupCandidate`. -/
structure LookupCandidate where
  node : NodeContact
  state : CandidateState
  verified : Bool
  deriving DecidableEq, Repr

/-- A row of `candidates`. -/
abbrev LookupRow := NodeId × LookupCandidate

/-- `IterativeLookup`. -/
structure IterativeLookup where
  kind : LookupKind
  target : NodeId
  candidates : Table LookupRow Prod.fst
  attemptedAddresses : Table SocketAddr id
  inFlight : Nat
  queriesStarted : Nat
  successfulResponses : Nat

namespace IterativeLookup

/-- `IterativeLookup::new`; of seeds with one Node ID the last is kept. -/
def new (kind : LookupKind) (target : NodeId) (seeds : List NodeContact) : IterativeLookup :=
  { kind := kind
    target := target
    candidates := seeds.foldl (fun t node => t.insert (node.id, ⟨node, .unqueried, true⟩)) .empty
    attemptedAddresses := .empty
    inFlight := 0
    queriesStarted := 0
    successfulResponses := 0 }

/-- The states of the candidates. -/
def states (l : IterativeLookup) : List (NodeId × CandidateState) :=
  l.candidates.rows.map (fun row => (row.1, row.2.state))

/-- The state of a candidate. -/
def stateOf (l : IterativeLookup) (id : NodeId) : Option CandidateState :=
  (l.candidates.get? id).map (fun row => row.2.state)

/-- A candidate changes its state. -/
def setState (l : IterativeLookup) (id : NodeId) (state : CandidateState) : IterativeLookup :=
  { l with
    candidates := l.candidates.update (fun row => decide (row.1 = id))
      (fun row => (row.1, { row.2 with state := state })) (fun _ => rfl) }

/-! ## The next candidates -/

/-- The closest candidates that did not fail. -/
def shortlist (l : IterativeLookup) (config : MaintenanceConfig) : List NodeId :=
  closestValid l.states l.target config.shortlistSize

/-- How many candidates `take_next` may choose. -/
def room (l : IterativeLookup) (config : MaintenanceConfig) (capacity : Nat) : Nat :=
  min (min capacity (config.lookupParallelism - l.inFlight)) (config.maxQueries - l.queriesStarted)

/-- The candidates that `take_next` chooses. -/
def chosen (l : IterativeLookup) (config : MaintenanceConfig) (capacity : Nat) : List NodeId :=
  ((l.shortlist config).filter (fun id => decide (l.stateOf id = some .unqueried))).take
    (l.room config capacity)

/-- One chosen candidate is tried. -/
def attempt (l : IterativeLookup) (id : NodeId) : IterativeLookup × Option NodeContact :=
  match l.candidates.get? id with
  | none => (l, none)
  | some row =>
    if (l.attemptedAddresses.get? row.2.node.address).isSome then (l.setState id .failed, none)
    else
      ({ l.setState id .inFlight with
          attemptedAddresses := l.attemptedAddresses.insertNew row.2.node.address
          inFlight := l.inFlight + 1
          queriesStarted := l.queriesStarted + 1 }, some row.2.node)

/-- The chosen candidates are tried in their order. -/
def attemptAll : List NodeId → IterativeLookup → IterativeLookup × List NodeContact
  | [], l => (l, [])
  | id :: rest, l =>
    let first := l.attempt id
    let others := attemptAll rest first.1
    (others.1, first.2.toList ++ others.2)

/-- `take_next`. -/
def takeNext (l : IterativeLookup) (config : MaintenanceConfig) (capacity : Nat) :
    IterativeLookup × List NodeContact :=
  if l.room config capacity = 0 then (l, [])
  else attemptAll (l.chosen config capacity) l

/-! ## Answers -/

/-- `finish_candidate`. -/
def finishCandidate (l : IterativeLookup) (id : NodeId) (success : Bool) : IterativeLookup :=
  if l.stateOf id = some .inFlight then
    { l.setState id (if success then .succeeded else .failed) with
      inFlight := l.inFlight - 1
      successfulResponses := l.successfulResponses + (if success then 1 else 0) }
  else l

/-- One discovered node. -/
def discover (localId : NodeId) (candidates : Table LookupRow Prod.fst)
    (found : NodeContact × Bool) : Table LookupRow Prod.fst :=
  if found.1.id = localId then candidates
  else
    match candidates.get? found.1.id with
    | none => candidates.insert (found.1.id, ⟨found.1, .unqueried, found.2⟩)
    | some row =>
      if found.2 && !row.2.verified && decide (row.2.state = .unqueried) then
        candidates.insert (found.1.id, { row.2 with node := found.1, verified := true })
      else candidates

/-- The order in which candidates are kept: those that were tried first, then by distance. -/
def keepRank (target : NodeId) (row : LookupRow) : Nat ×ₗ Nat :=
  toLex (if row.2.state = .unqueried then 1 else 0, distance row.1 target)

/-- No more than 256 candidates are kept. -/
def prune (target : NodeId) (candidates : Table LookupRow Prod.fst) : Table LookupRow Prod.fst :=
  if candidates.rows.length > 256 then
    let keep := ((candidates.rows.insertionSort (Table.orderBy (keepRank target))).take 256).map
      Prod.fst
    candidates.delete (fun row => decide (row.1 ∉ keep))
  else candidates

/-- `complete_success`. -/
def completeSuccess (l : IterativeLookup) (id : NodeId) (discovered : List (NodeContact × Bool))
    (localId : NodeId) : IterativeLookup :=
  let trusted := (l.candidates.get? id).any (fun row => trustedId id row.2.node.address.ip)
  let l := l.finishCandidate id trusted
  { l with candidates := prune l.target (discovered.foldl (discover localId) l.candidates) }

/-- `complete_failure`. -/
def completeFailure (l : IterativeLookup) (id : NodeId) : IterativeLookup :=
  l.finishCandidate id false

/-- `defer`. -/
def defer (l : IterativeLookup) (id : NodeId) : IterativeLookup :=
  match l.candidates.get? id with
  | none => l
  | some row =>
    if row.2.state = .inFlight then
      { l.setState id .unqueried with
        inFlight := l.inFlight - 1
        queriesStarted := l.queriesStarted - 1
        attemptedAddresses := l.attemptedAddresses.erase row.2.node.address }
    else l

/-- `is_complete`. -/
def isComplete (l : IterativeLookup) (config : MaintenanceConfig) : Bool :=
  if l.inFlight ≠ 0 then false
  else if l.queriesStarted ≥ config.maxQueries then true
  else (l.shortlist config).all (fun id => decide (l.stateOf id = some .succeeded))

/-- `succeeded`. -/
def succeeded (l : IterativeLookup) : Bool := decide (l.successfulResponses > 0)

end IterativeLookup

end BtSniffer
