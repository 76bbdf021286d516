import Mathlib.Data.List.Basic
import Mathlib.Tactic.Ring

/-!
# Node identifiers and socket addresses

Reference model of `NodeId`, `bit_value`, `set_bit`, `xor_distance` (`src/dht/routing/mod.rs`)
and of the address types of `std::net` the routing table, the sampler and the store use.

The 20 bytes of a `NodeId` are read as one big-endian 160-bit word, so bit `0` is the most
significant bit of the first byte (`bit_value` masks `1 << (7 - bit % 8)` of byte `bit / 8`) and
the byte-wise comparison of distances is the numeric one.

`Instant` and `Duration` are natural numbers of nanoseconds; `saturating_duration_since` is
truncated subtraction.
-/

set_option autoImplicit false

namespace BtSniffer

/-- A monotonic instant, in nanoseconds from an arbitrary origin. -/
abbrev Instant := Nat

/-- A duration in nanoseconds. -/
abbrev Duration := Nat

/-- `Duration::from_secs`. -/
def Duration.fromSecs (s : Nat) : Duration := s * 1000000000

/-- `Duration::from_millis`. -/
def Duration.fromMillis (ms : Nat) : Duration := ms * 1000000

/-- `NodeId([u8; 20])`. -/
abbrev NodeId := BitVec 160

instance : LawfulBEq NodeId := inferInstance

/-- `IpAddr`. -/
inductive IpAddr where
  | v4 (octets : BitVec 32)
  | v6 (octets : BitVec 128)
  deriving DecidableEq, Repr

/-- `SocketAddr`; only the IPv6 form carries flow information and a scope id. -/
inductive SocketAddr where
  | v4 (ip : BitVec 32) (port : BitVec 16)
  | v6 (ip : BitVec 128) (port : BitVec 16) (flowinfo scopeId : BitVec 32)
  deriving DecidableEq, Repr

/-- `SocketAddr::ip`. -/
def SocketAddr.ip : SocketAddr → IpAddr
  | .v4 ip _ => .v4 ip
  | .v6 ip _ _ _ => .v6 ip

/-- `SocketAddr::port`. -/
def SocketAddr.port : SocketAddr → BitVec 16
  | .v4 _ port => port
  | .v6 _ port _ _ => port

/-- `SocketAddr::new`. -/
def SocketAddr.new : IpAddr → BitVec 16 → SocketAddr
  | .v4 ip, port => .v4 ip port
  | .v6 ip, port => .v6 ip port 0 0

/-- `AddressFamily`. -/
inductive AddressFamily where
  | ipv4
  | ipv6
  deriving DecidableEq, Repr

/-- `AddressFamily::accepts`. -/
def AddressFamily.accepts : AddressFamily → SocketAddr → Bool
  | .ipv4, .v4 .. => true
  | .ipv6, .v6 .. => true
  | _, _ => false

/-! ## Bits of an identifier -/

/-- `bit_value`. -/
def bitValue (id : NodeId) (bit : Nat) : Bool := id.getMsbD bit

/-- `set_bit`. -/
def setBit (id : NodeId) (bit : Nat) (value : Bool) : NodeId :=
  let mask := BitVec.twoPow 160 (159 - bit)
  if value then id ||| mask else id &&& ~~~mask

/-- `xor_distance`. -/
def xorDistance (left right : NodeId) : NodeId := left ^^^ right

/-- The distance of two identifiers as a number. -/
def distance (left right : NodeId) : Nat := (xorDistance left right).toNat

theorem distance_injective {left right target : NodeId}
    (h : distance left target = distance right target) : left = right := by
  have hxor : left ^^^ target = right ^^^ target := BitVec.eq_of_toNat_eq h
  exact (BitVec.xor_left_inj target).1 hxor

theorem bitValue_setBit {id : NodeId} {bit i : Nat} {value : Bool} (hb : bit < 160) (hi : i < 160) :
    bitValue (setBit id bit value) i = if i = bit then value else bitValue id i := by
  have hpow : (BitVec.twoPow 160 (159 - bit)).getMsbD i = decide (i = bit) := by
    simp only [BitVec.getMsbD, BitVec.getLsbD_twoPow]
    by_cases h : i = bit
    · subst h; simp [hi]; omega
    · have : ¬ (159 - bit = 160 - 1 - i) := by omega
      simp [h]; omega
  unfold bitValue setBit
  by_cases h : i = bit
  · subst h
    cases value <;> simp [hpow, hi]
  · cases value <;> simp [hpow, h, hi]

theorem bitValue_zero (bit : Nat) : bitValue 0 bit = false := by
  simp [bitValue]

end BtSniffer
