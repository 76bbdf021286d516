import BtSniffer.Address
import BtSniffer.Lib.KeyMap
import BtSniffer.Lib.OrdSet
import BtSniffer.Storage.Schema
import Mathlib.Data.Prod.Lex

/-!
# Peer addresses

Reference model of `src/dht/peer_store/mod.rs`.

* A group holds its hash and a peer its address, so that both maps are `Table`s.
* `none` is a panic: every `expect` and every index of the source is a match with that case.
* Instants are nanoseconds; `checkedAdd` fails when the seconds leave an `i64`.
* The random choice of `sample` and `sample_infohashes` is left out; what they choose from is
  `activePeers` and `activeInfohashes`.
-/

set_option autoImplicit false

namespace BtSniffer

open Relational

/-! ## Orders of the two indexes -/

/-- The derived order of `SocketAddr`. -/
def SocketAddr.rank : SocketAddr → List Nat
  | .v4 ip port => [0, ip.toNat, port.toNat]
  | .v6 ip port flowinfo scopeId => [1, ip.toNat, port.toNat, flowinfo.toNat, scopeId.toNat]

theorem SocketAddr.rank_injective : Function.Injective SocketAddr.rank := by
  intro a b h
  cases a <;> cases b <;> simp [SocketAddr.rank, BitVec.toNat_inj] at h
  · obtain ⟨rfl, rfl⟩ := h
    rfl
  · obtain ⟨rfl, rfl, rfl, rfl⟩ := h
    rfl

/-- An entry of `expiry`. -/
structure ExpiryEntry where
  deadline : Nat
  hash : SwarmKey
  address : SocketAddr
  deriving DecidableEq, Repr

/-- The order of the tuple. -/
def ExpiryEntry.rank (e : ExpiryEntry) : Nat ×ₗ Nat ×ₗ List Nat :=
  toLex (e.deadline, toLex (e.hash.toNat, e.address.rank))

theorem ExpiryEntry.rank_injective : Function.Injective ExpiryEntry.rank := by
  intro a b h
  obtain ⟨d, x, s⟩ := a
  obtain ⟨d', x', s'⟩ := b
  have hd : d = d' := congrArg (fun k => (ofLex k).1) h
  have hx : x.toNat = x'.toNat := congrArg (fun k => (ofLex (ofLex k).2).1) h
  have hs : s.rank = s'.rank := congrArg (fun k => (ofLex (ofLex k).2).2) h
  rw [hd, BitVec.eq_of_toNat_eq hx, SocketAddr.rank_injective hs]

instance : LinearOrder ExpiryEntry := LinearOrder.lift' ExpiryEntry.rank ExpiryEntry.rank_injective

/-- An entry of `hashes`. -/
structure HashEntry where
  deadline : Nat
  hash : SwarmKey
  deriving DecidableEq, Repr

/-- The order of the pair. -/
def HashEntry.rank (e : HashEntry) : Nat ×ₗ Nat := toLex (e.deadline, e.hash.toNat)

theorem HashEntry.rank_injective : Function.Injective HashEntry.rank := by
  intro a b h
  obtain ⟨d, x⟩ := a
  obtain ⟨d', x'⟩ := b
  have hd : d = d' := congrArg (fun k => (ofLex k).1) h
  have hx : x.toNat = x'.toNat := congrArg (fun k => (ofLex k).2) h
  rw [hd, BitVec.eq_of_toNat_eq hx]

instance : LinearOrder HashEntry := LinearOrder.lift' HashEntry.rank HashEntry.rank_injective

/-! ## The store -/

/-- `PeerStoreConfig`. -/
structure PeerStoreConfig where
  ttl : Nat
  maxHashes : Nat
  maxPeers : Nat
  maxPeersPerHash : Nat
  responsePeers : Nat
  addressPolicy : AddressPolicy
  deriving DecidableEq, Repr

/-- A peer of a group. -/
structure Peer where
  address : SocketAddr
  deadline : Nat
  deriving DecidableEq, Repr

/-- The peers of a hash. -/
structure Group where
  hash : SwarmKey
  members : Table Peer Peer.address

/-- `group.values().max()`. -/
def Group.latest (g : Group) : Option Nat := (g.members.rows.map Peer.deadline).max?

/-- The key of `min_by_key` in `announce`. -/
def Peer.age (p : Peer) : Nat ×ₗ List Nat := toLex (p.deadline, p.address.rank)

/-- `PeerStore`. -/
structure PeerStore where
  config : PeerStoreConfig
  family : AddressFamily
  peers : Table Group Group.hash
  expiry : OrdSet ExpiryEntry
  hashes : OrdSet HashEntry

/-- The errors of `new` and `announce`. -/
inductive PeerStoreError where
  | config
  | address
  | overflow
  deriving DecidableEq, Repr

/-- `Instant::checked_add`. -/
def checkedAdd (now ttl : Nat) : Option Nat :=
  if now + ttl < 2 ^ 63 * 1000000000 then some (now + ttl) else none

namespace PeerStore

/-- `active_infohashes`. -/
def activeInfohashes (s : PeerStore) (now : Nat) : List SwarmKey :=
  (s.hashes.elems.filter (fun e => decide (e.deadline > now))).map HashEntry.hash

/-- `active_infohash_count`. -/
def activeInfohashCount (s : PeerStore) (now : Nat) : Nat := (s.activeInfohashes now).length

/-- `contains_active_infohash`. -/
def containsActiveInfohash (s : PeerStore) (hash : SwarmKey) (now : Nat) : Bool :=
  (s.peers.get? hash).any (fun g => g.members.rows.any (fun p => decide (p.deadline > now)))

/-- The parameters `new` refuses. -/
def refusesConfig (config : PeerStoreConfig) (now : Nat) : Bool :=
  config.ttl == 0 || (checkedAdd now config.ttl).isNone || config.maxHashes == 0 ||
    config.maxPeersPerHash == 0 || config.responsePeers == 0 ||
    decide (config.maxHashes > config.maxPeers) ||
    decide (config.maxPeersPerHash > config.maxPeers) ||
    decide (config.responsePeers > config.maxPeersPerHash)

/-- `PeerStore::new`. -/
def new (config : PeerStoreConfig) (family : AddressFamily) (now : Nat) :
    Except PeerStoreError PeerStore :=
  if refusesConfig config now then .error .config
  else .ok ⟨config, family, .empty, .empty, .empty⟩

/-- `PeerStore::accepts`. -/
def accepts (s : PeerStore) (address : SocketAddr) : Bool :=
  s.family.accepts address && s.config.addressPolicy.accepts address

/-- `expiry` without the peer that `remove` takes out of its group. -/
def dropExpiry (s : PeerStore) (group : Group) (address : SocketAddr) : OrdSet ExpiryEntry :=
  match group.members.get? address with
  | some peer => s.expiry.remove ⟨peer.deadline, group.hash, address⟩
  | none => s.expiry

/-- `PeerStore::remove`. -/
def remove (s : PeerStore) (hash : SwarmKey) (address : SocketAddr) : Option PeerStore :=
  match s.peers.get? hash with
  | none => some s
  | some group =>
    match group.latest with
    | none => none
    | some latest =>
      let hashes := s.hashes.remove ⟨latest, hash⟩
      let expiry := s.dropExpiry group address
      let rest : Group := ⟨group.hash, group.members.erase address⟩
      match rest.latest with
      | some latest =>
        some { s with
          peers := s.peers.insert rest
          hashes := hashes.insert ⟨latest, hash⟩
          expiry := expiry }
      | none => some { s with peers := s.peers.erase hash, hashes := hashes, expiry := expiry }

/-- `PeerStore::expire`. -/
def expire (s : PeerStore) (now : Nat) : Nat → Option PeerStore
  | 0 => some s
  | budget + 1 =>
    match s.expiry.first with
    | none => some s
    | some e =>
      if e.deadline > now then some s
      else (s.remove e.hash e.address).bind (fun s => expire s now budget)

/-- Remove a list of addresses of one group. -/
def removeAll (s : PeerStore) (hash : SwarmKey) : List SocketAddr → Option PeerStore
  | [] => some s
  | address :: rest => (s.remove hash address).bind (fun s => removeAll s hash rest)

/-- The first eviction of `announce`: the group whose last peer expires first. -/
def evictGroup (s : PeerStore) (hash : SwarmKey) : Option PeerStore :=
  if (s.peers.get? hash).isNone && decide (s.peers.rows.length ≥ s.config.maxHashes) then
    match s.hashes.first with
    | none => none
    | some oldest =>
      match s.peers.get? oldest.hash with
      | none => none
      | some group => s.removeAll oldest.hash (group.members.rows.map Peer.address)
  else some s

/-- The second eviction: the oldest peer of a full group. -/
def evictMember (s : PeerStore) (hash : SwarmKey) : Option PeerStore :=
  match s.peers.get? hash with
  | none => some s
  | some group =>
    if group.members.rows.length ≥ s.config.maxPeersPerHash then
      match (group.members.select (fun _ => true) (Table.orderBy Peer.age) 1).head? with
      | none => none
      | some oldest => s.remove hash oldest.address
    else some s

/-- The third eviction: the oldest peer of a full store. -/
def evictOldest (s : PeerStore) : Option PeerStore :=
  if s.expiry.len ≥ s.config.maxPeers then
    match s.expiry.first with
    | none => none
    | some oldest => s.remove oldest.hash oldest.address
  else some s

/-- The end of `announce`: the new peer and its index entries. -/
def insertPeer (s : PeerStore) (hash : SwarmKey) (address : SocketAddr) (deadline : Nat) :
    Option PeerStore :=
  let group := (s.peers.get? hash).getD ⟨hash, .empty⟩
  let hashes :=
    match group.latest with
    | some latest => s.hashes.remove ⟨latest, hash⟩
    | none => s.hashes
  let grown : Group := ⟨group.hash, group.members.insert ⟨address, deadline⟩⟩
  match grown.latest with
  | none => none
  | some latest =>
    some { s with
      peers := s.peers.insert grown
      hashes := hashes.insert ⟨latest, hash⟩
      expiry := s.expiry.insert ⟨deadline, hash, address⟩ }

/-- The record of a peer. -/
def deadline? (s : PeerStore) (hash : SwarmKey) (address : SocketAddr) : Option Nat :=
  (s.peers.get? hash).bind (fun g => (g.members.get? address).map Peer.deadline)

/-- The renewal of `announce`: the old record of the peer goes first. -/
def dropRecord (s : PeerStore) (hash : SwarmKey) (address : SocketAddr) : Option PeerStore :=
  if (s.deadline? hash address).isSome then s.remove hash address else some s

/-- `PeerStore::announce`. -/
def announce (s : PeerStore) (hash : SwarmKey) (address : SocketAddr) (now : Nat) :
    Option (Except PeerStoreError Unit × PeerStore) :=
  if !s.accepts address then some (.error .address, s)
  else
    match checkedAdd now s.config.ttl with
    | none => some (.error .overflow, s)
    | some deadline => do
      let s ← s.expire now 256
      let s ← s.dropRecord hash address
      let s ← s.evictGroup hash
      let s ← s.evictMember hash
      let s ← s.evictOldest
      let s ← s.insertPeer hash address deadline
      pure (.ok (), s)

/-- What `sample` chooses from. -/
def activePeers (s : PeerStore) (hash : SwarmKey) (now : Nat) : List SocketAddr :=
  ((s.peers.get? hash).toList.flatMap (fun g => g.members.rows)).filter
    (fun p => decide (p.deadline > now)) |>.map Peer.address

/-- `PeerStore::next_deadline`. -/
def nextDeadline (s : PeerStore) : Option Nat := s.expiry.first.map ExpiryEntry.deadline

end PeerStore

end BtSniffer
