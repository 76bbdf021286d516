import BtSniffer.Address
import BtSniffer.Dht.PeerStore
import BtSniffer.Dht.RoutingInv

/-!
# Node IDs and external addresses

Reference model of `src/dht/security.rs`: the restriction of Node IDs by IP and the consensus on the
external address.

* An octet is a natural number below 256; a vote keeps the leading octets of its source.
* Time is counted in nanoseconds.
-/

set_option autoImplicit false

namespace BtSniffer

/-! ## Restricted identifiers -/

/-- One bit of `crc32c`. -/
def crcBit (crc : BitVec 32) : BitVec 32 :=
  (crc >>> 1) ^^^ (if crc.getLsbD 0 then 0x82f63b78#32 else 0#32)

/-- `crc32c`. -/
def crc32c (bytes : List Nat) : BitVec 32 :=
  ~~~(bytes.foldl (fun crc byte => crcBit^[8] (crc ^^^ BitVec.ofNat 32 byte)) (~~~0#32))

/-- `u32::to_be_bytes` and `u64::to_be_bytes`: the `n` low octets, the most significant first. -/
def toBeBytes (n value : Nat) : List Nat :=
  (List.range n).map (fun i => value / 2 ^ (8 * (n - 1 - i)) % 256)

/-- `prefix`: the checksum that restricts the identifiers of an address. -/
def idChecksum (ip : IpAddr) (r : Nat) : BitVec 32 :=
  match ip with
  | .v4 ip => crc32c (toBeBytes 4 ((ip.toNat &&& 0x030f3fff) ||| ((r &&& 7) <<< 29)))
  | .v6 ip =>
    crc32c (toBeBytes 8 (((ip.toNat / 2 ^ 64) &&& 0x0103070f1f3f7fff) ||| ((r &&& 7) <<< 61)))

/-- Octet `i` of a Node ID. -/
def NodeId.octet (id : NodeId) (i : Nat) : Nat := id.toNat / 2 ^ (8 * (19 - i)) % 256

/-- `valid`. -/
def validId (id : NodeId) (ip : IpAddr) : Bool :=
  let crc := toBeBytes 4 (idChecksum ip (id.octet 19)).toNat
  crc[0]? == some (id.octet 0) && crc[1]? == some (id.octet 1) &&
    crc[2]?.map (· &&& 0xf8) == some (id.octet 2 &&& 0xf8)

/-- `public`. -/
def isPublic (ip : IpAddr) : Bool := AddressPolicy.publicOnly.accepts (.new ip 1)

/-- The answers of `class`. -/
inductive IdClass where
  | localExempt
  | compliant
  | compatible
  deriving DecidableEq, Repr

/-- `class`: private, loopback and link-local addresses are exempt. -/
def idClass (id : NodeId) (ip : IpAddr) : IdClass :=
  let exempt :=
    match ip with
    | .v4 ip =>
      let a := octet4 ip 0
      let b := octet4 ip 1
      isPrivate a b || a == 127 || (a == 169 && b == 254)
    | .v6 ip =>
      ip == 1 || (segment6 ip 0 &&& 0xfe00) == 0xfc00 || (segment6 ip 0 &&& 0xffc0) == 0xfe80
  if exempt then .localExempt
  else if validId id ip then .compliant
  else .compatible

/-- `trusted`. -/
def trustedId (id : NodeId) (ip : IpAddr) : Bool := decide (idClass id ip ≠ .compatible)

/-! ## The consensus -/

/-- `Vote`; `network` is its `prefix`. -/
structure Vote where
  network : List Nat
  ip : IpAddr
  at_ : Nat
  deriving DecidableEq, Repr

/-- `AddressConsensus`. -/
structure AddressConsensus where
  votes : List Vote
  external : Option IpAddr
  confirmed : Bool
  fixed : Bool
  switchAfter : Option Nat
  deriving DecidableEq, Repr

/-- 600 seconds. -/
def VOTE_FOR : Nat := 600 * 1000000000

/-- 1800 seconds. -/
def SWITCH_PAUSE : Nat := 1800 * 1000000000

/-- `is_ipv4`. -/
def IpAddr.isV4 : IpAddr → Bool
  | .v4 _ => true
  | .v6 _ => false

/-- The leading octets of a source: 24 bits for IPv4, 48 bits for IPv6. -/
def IpAddr.network : IpAddr → List Nat
  | .v4 ip => (List.range 3).map (octet4 ip)
  | .v6 ip => (List.range 6).map (octet6 ip)

namespace AddressConsensus

/-- `AddressConsensus::new`. -/
def new (fixed cached : Option IpAddr) : AddressConsensus :=
  ⟨[], fixed.or cached, fixed.isSome, fixed.isSome, none⟩

/-- `observe` ignores the message. -/
def ignores (c : AddressConsensus) (source ip : IpAddr) : Bool :=
  c.fixed || source.isV4 != ip.isV4 || !isPublic source || !isPublic ip

/-- A vote is live: younger than 600 seconds. -/
def Vote.live (now : Nat) (v : Vote) : Bool := decide (now - v.at_ < VOTE_FOR)

/-- The votes after a message: one for each network, and no more than 64. -/
def record (votes : List Vote) (source ip : IpAddr) (now : Nat) : List Vote :=
  let votes := votes.filter (Vote.live now)
  match updateFirst (fun v => v.network == source.network)
      (fun v => { v with ip := ip, at_ := now }) votes with
  | some votes => votes
  | none => if votes.length < 64 then votes ++ [⟨source.network, ip, now⟩] else votes

/-- The number of votes for an address. -/
def support (votes : List Vote) (ip : IpAddr) : Nat := votes.countP (fun v => decide (v.ip = ip))

/-- `observe`. -/
def observe (c : AddressConsensus) (source ip : IpAddr) (now : Nat) :
    Option IpAddr × AddressConsensus :=
  if c.ignores source ip then (none, c)
  else
    let c := { c with votes := record c.votes source ip now }
    let count := support c.votes ip
    if count < 3 ∨ count * 3 < c.votes.length * 2 then (none, c)
    else if c.external = some ip then (none, { c with confirmed := true })
    else if c.switchAfter.any (fun at_ => decide (now < at_)) then (none, c)
    else (some ip, c)

/-- `restore_cooldown`. -/
def restoreCooldown (c : AddressConsensus) (remaining now : Nat) : AddressConsensus :=
  { c with switchAfter := checkedAdd now remaining }

/-- `committed`. -/
def committed (c : AddressConsensus) (ip : IpAddr) (now : Nat) : AddressConsensus :=
  { c with external := some ip, confirmed := true, switchAfter := some (now + SWITCH_PAUSE) }

end AddressConsensus

end BtSniffer
