import BtSniffer.Dht.SamplerOps
import BtSniffer.Dht.Security
import BtSniffer.Dht.Shortlist
import BtSniffer.Lib.KeyMap

/-!
# The search for peers

Reference model of `search` in `src/collection/lookup.rs`.

* `turn` is one turn of the loop; the order in which queries finish and the peers that the other address
  family adds are its argument `SearchMove`.
* `answer` is the result of the query of each node.
* `started` and `taken` record the nodes that were queried and those whose result was taken.
* The notification of each peer and the metrics are left out.
-/

set_option autoImplicit false

namespace BtSniffer

open Relational

/-- `GetPeersResponse`. -/
structure GetPeersResponse where
  nodes : List DiscoveredNode
  peers : List SocketAddr
  deriving DecidableEq, Repr

/-- The local variables of `search`. -/
structure Search where
  candidates : Table DiscoveredNode DiscoveredNode.id
  states : Table (NodeId × CandidateState) Prod.fst
  addresses : Table SocketAddr id
  pending : List DiscoveredNode
  queries : Nat
  peers : List SocketAddr
  started : List DiscoveredNode
  taken : List DiscoveredNode

/-- What happens around one turn: peers of the other family before it, the query that finishes, and
peers of the other family before its result is read. -/
structure SearchMove where
  before : List SocketAddr
  choice : Nat
  during : List SocketAddr

/-- The state of the loop. -/
inductive SearchTurn where
  | running (s : Search)
  | finished (s : Search) (result : Except QueryError Unit)

/-- The errors that end a search. -/
def QueryError.isControl : QueryError → Bool
  | .identityChanged | .dispatcherClosed | .shuttingDown | .transaction _ => true
  | _ => false

/-- Peers are collected, at most 32 and none twice. -/
def collectPeers (peers found : List SocketAddr) : List SocketAddr :=
  found.foldl (fun collected peer =>
    if collected.length < 32 ∧ peer ∉ collected then collected ++ [peer] else collected) peers

namespace Search

/-- The start of `search`; of seeds with one Node ID the last is kept. -/
def start (seeds : List DiscoveredNode) : Search :=
  ⟨seeds.foldl (fun t node => t.insert node) .empty, .empty, .empty, [], 0, [], [], []⟩

/-- A candidate has a state. -/
def known (s : Search) (id : NodeId) : Bool := (s.states.get? id).isSome

/-- The state of a candidate. -/
def stateOf (s : Search) (id : NodeId) : CandidateState :=
  ((s.states.get? id).map Prod.snd).getD .unqueried

/-- The shortlist. -/
def closest (s : Search) (hash : SwarmKey) : List NodeId :=
  closestValid (s.candidates.rows.map (fun node => (node.id, s.stateOf node.id))) hash 8

/-- One candidate of the shortlist is visited. -/
def visit (s : Search) (id : NodeId) : Search :=
  if s.known id then s
  else
    match s.candidates.get? id with
    | none => s
    | some node =>
      if (s.addresses.get? node.address).isSome then
        { s with states := s.states.insert (id, .failed) }
      else
        { s with
          addresses := s.addresses.insertNew node.address
          states := s.states.insert (id, .inFlight)
          queries := s.queries + 1
          pending := s.pending ++ [node]
          started := node :: s.started }

/-- The inner loop: the shortlist is visited while there is room for a query. -/
def launch : List NodeId → Search → Search
  | [], s => s
  | id :: rest, s =>
    if s.pending.length ≥ 3 ∨ s.queries ≥ 32 then s else launch rest (s.visit id)

/-- No more than 256 candidates are kept, whatever their state. -/
def prune (hash : SwarmKey) (candidates : Table DiscoveredNode DiscoveredNode.id) :
    Table DiscoveredNode DiscoveredNode.id :=
  if candidates.rows.length > 256 then
    let keep := ((candidates.rows.insertionSort
      (Table.orderBy (fun node => distance node.id hash))).take 256).map DiscoveredNode.id
    candidates.delete (fun node => decide (node.id ∉ keep))
  else candidates

/-- The result of a query is taken. -/
def accept (hash : SwarmKey) (s : Search) (node : DiscoveredNode)
    (result : Except QueryError GetPeersResponse) (during : List SocketAddr) : Search :=
  match result with
  | .ok response =>
    { s with
      states := s.states.insert (node.id,
        if trustedId node.id node.address.ip then .succeeded else .failed)
      candidates := prune hash
        (response.nodes.foldl (fun candidates node => candidates.insertNew node) s.candidates)
      peers := collectPeers (collectPeers s.peers during) response.peers }
  | .error _ => { s with states := s.states.insert (node.id, .failed) }

section Runs

variable (hash : SwarmKey) (answer : DiscoveredNode → Except QueryError GetPeersResponse)

/-- A query has finished. -/
def finish (s : Search) (node : DiscoveredNode) (during : List SocketAddr) : SearchTurn :=
  let s := { s with pending := s.pending.erase node, taken := node :: s.taken }
  match answer node with
  | .error e =>
    if e.isControl then .finished s (.error e)
    else .running (s.accept hash node (.error e) during)
  | .ok response => .running (s.accept hash node (.ok response) during)

/-- One turn of the loop. -/
def turn (s : Search) (move : SearchMove) : SearchTurn :=
  let s := { s with peers := collectPeers s.peers move.before }
  if s.peers.length ≥ 32 then .finished s (.ok ())
  else
    let s := launch (s.closest hash) s
    match s.pending[move.choice % s.pending.length]? with
    | none =>
      if s.queries < 32 ∧ (s.closest hash).any (fun id => !s.known id) then .running s
      else .finished s (.ok ())
    | some node => s.finish hash answer node move.during

/-- The loop after some turns. -/
def after (moves : Nat → SearchMove) (s : Search) : Nat → SearchTurn
  | 0 => .running s
  | n + 1 =>
    match after moves s n with
    | .running s => s.turn hash answer (moves n)
    | .finished s result => .finished s result

end Runs

end Search

end BtSniffer
