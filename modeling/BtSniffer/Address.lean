import BtSniffer.Dht.NodeId
import Mathlib.Data.List.Lex

/-!
# Address policy and address encoding

Reference model of `AddressPolicy::accepts` (`src/address.rs`) and of `ip_bytes`
(`src/storage/address.rs`).  An address is a big-endian word, so octet `0` is its most significant
byte and segment `0` its most significant 16 bits.
-/

set_option autoImplicit false

namespace BtSniffer

/-- Octet `i` of `Ipv4Addr::octets`. -/
def octet4 (ip : BitVec 32) (i : Nat) : Nat := ip.toNat / 2 ^ (8 * (3 - i)) % 256

/-- Octet `i` of `Ipv6Addr::octets`. -/
def octet6 (ip : BitVec 128) (i : Nat) : Nat := ip.toNat / 2 ^ (8 * (15 - i)) % 256

/-- Segment `i` of `Ipv6Addr::segments`. -/
def segment6 (ip : BitVec 128) (i : Nat) : Nat := ip.toNat / 2 ^ (16 * (7 - i)) % 65536

/-- `Ipv4Addr::is_private`: 10/8, 172.16/12 and 192.168/16. -/
def isPrivate (a b : Nat) : Bool :=
  a == 10 || (a == 172 && decide (16 ≤ b ∧ b ≤ 31)) || (a == 192 && b == 168)

/-- `Ipv4Addr::is_documentation`: the three TEST-NET blocks. -/
def isDocumentation (a b c : Nat) : Bool :=
  (a == 192 && b == 0 && c == 2) || (a == 198 && b == 51 && c == 100) ||
    (a == 203 && b == 0 && c == 113)

/-- `AddressPolicy`. -/
inductive AddressPolicy where
  | publicOnly
  | localUnicast
  deriving DecidableEq, Repr

namespace AddressPolicy

/-- The `IpAddr::V4` arm of `AddressPolicy::accepts`. -/
def acceptsV4 (policy : AddressPolicy) (ip : BitVec 32) : Bool :=
  let a := octet4 ip 0
  let b := octet4 ip 1
  let c := octet4 ip 2
  if a == 0 || decide (a ≥ 224) || ip == 0xffffffff then false
  else if policy == .localUnicast then true
  else
    !(isPrivate a b || a == 127 || (a == 169 && b == 254) || isDocumentation a b c ||
      (a == 100 && decide (64 ≤ b ∧ b ≤ 127)) || (a == 198 && decide (18 ≤ b ∧ b ≤ 19)) ||
      (a == 192 && b == 0 && c == 0) || (a == 192 && b == 88 && c == 99))

/-- The `IpAddr::V6` arm of `AddressPolicy::accepts`; an IPv4-mapped address is `::ffff:a.b.c.d`. -/
def acceptsV6 (policy : AddressPolicy) (ip : BitVec 128) : Bool :=
  let s0 := segment6 ip 0
  let s1 := segment6 ip 1
  if ip == 0 || octet6 ip 0 == 0xff || ip.toNat / 2 ^ 32 == 0xffff then false
  else if policy == .localUnicast then true
  else
    (s0 &&& 0xe000) == 0x2000 &&
      !(s0 == 0x2001 && (decide (s1 < 0x200) || s1 == 0xdb8)) &&
      s0 != 0x2002 && (s0 &&& 0xfff0) != 0x3ff0

/-- `AddressPolicy::accepts`. -/
def accepts (policy : AddressPolicy) (address : SocketAddr) : Bool :=
  if address.port == 0 then false
  else
    match address.ip with
    | .v4 ip => policy.acceptsV4 ip
    | .v6 ip => policy.acceptsV6 ip

end AddressPolicy

/-- `ip_bytes`: 4 or 16 octets.  SQLite compares them octet by octet, a proper initial segment
being smaller, which is the order of lists. -/
def ipBytes : IpAddr → List Nat
  | .v4 ip => (List.range 4).map (octet4 ip)
  | .v6 ip => (List.range 16).map (octet6 ip)

end BtSniffer
