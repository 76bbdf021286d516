import BtSniffer.Dht.PeerStore
import BtSniffer.Dht.Token
import BtSniffer.Dht.Transaction
import BtSniffer.Lib.BencodeTree
import BtSniffer.Lib.Octets

/-!
# KRPC messages

Reference model of `src/dht/krpc/message.rs` and `src/dht/krpc/compact.rs`.

* A message is written as a dictionary with sorted keys, a field without a value is left out.
* `none` is an error of a serializer: an IPv6 address with flow information or a scope id has no
  compact form.
* Unsigned integers are natural numbers; byte strings are lists of octets.
-/

set_option autoImplicit false

namespace BtSniffer

open Bencode

/-! ## Compact records -/

/-- `SocketAddrV4`. -/
structure SocketAddrV4 where
  ip : BitVec 32
  port : BitVec 16
  deriving DecidableEq, Repr

/-- `SocketAddrV6`. -/
structure SocketAddrV6 where
  ip : BitVec 128
  port : BitVec 16
  flowinfo : BitVec 32
  scopeId : BitVec 32
  deriving DecidableEq, Repr

/-- `SocketAddr::V4`. -/
def SocketAddrV4.address (a : SocketAddrV4) : SocketAddr := .v4 a.ip a.port

/-- `SocketAddr::V6`. -/
def SocketAddrV6.address (a : SocketAddrV6) : SocketAddr := .v6 a.ip a.port a.flowinfo a.scopeId

/-- `CompactNodeV4`. -/
structure CompactNodeV4 where
  id : NodeId
  address : SocketAddrV4
  deriving DecidableEq, Repr

/-- `CompactNodeV6`. -/
structure CompactNodeV6 where
  id : NodeId
  address : SocketAddrV6
  deriving DecidableEq, Repr

/-- `CompactPeerAddress`. -/
inductive CompactPeerAddress where
  | v4 (address : SocketAddrV4)
  | v6 (address : SocketAddrV6)
  deriving DecidableEq, Repr

/-- `ensure_plain_ipv6_address`. -/
def ensurePlainIpv6Address (a : SocketAddrV6) : Bool := a.flowinfo == 0 && a.scopeId == 0

/-- The address and the port of a record. -/
def SocketAddrV4.record (a : SocketAddrV4) : List UInt8 :=
  Octets.ofWord 4 a.ip ++ Octets.ofWord 2 a.port

def SocketAddrV6.record (a : SocketAddrV6) : List UInt8 :=
  Octets.ofWord 16 a.ip ++ Octets.ofWord 2 a.port

def CompactNodeV4.record (n : CompactNodeV4) : List UInt8 :=
  Octets.ofWord 20 n.id ++ n.address.record

def CompactNodeV6.record (n : CompactNodeV6) : List UInt8 :=
  Octets.ofWord 20 n.id ++ n.address.record

/-- `CompactNodesV4::serialize`. -/
def CompactNodesV4.serialize (nodes : List CompactNodeV4) : List UInt8 :=
  nodes.flatMap CompactNodeV4.record

/-- `CompactNodesV6::serialize`. -/
def CompactNodesV6.serialize (nodes : List CompactNodeV6) : Option (List UInt8) :=
  if nodes.all (fun node => ensurePlainIpv6Address node.address) then
    some (nodes.flatMap CompactNodeV6.record)
  else none

/-- `CompactPeerAddress::serialize`. -/
def CompactPeerAddress.serialize : CompactPeerAddress → Option (List UInt8)
  | .v4 address => some address.record
  | .v6 address => if ensurePlainIpv6Address address then some address.record else none

/-- `InfoHashSamples::serialize`. -/
def InfoHashSamples.serialize (samples : List SwarmKey) : List UInt8 :=
  samples.flatMap (Octets.ofWord 20)

/-- The address of a record. -/
def SocketAddrV4.read (bytes : List UInt8) : SocketAddrV4 :=
  ⟨Octets.toWord 32 (bytes.take 4), Octets.toWord 16 (bytes.drop 4)⟩

def SocketAddrV6.read (bytes : List UInt8) : SocketAddrV6 :=
  ⟨Octets.toWord 128 (bytes.take 16), Octets.toWord 16 (bytes.drop 16), 0, 0⟩

/-- `CompactNodesV4::deserialize`. -/
def CompactNodesV4.deserialize (bytes : List UInt8) : Option (List CompactNodeV4) :=
  Octets.readRecords 26
    (fun record => ⟨Octets.toWord 160 (record.take 20), .read (record.drop 20)⟩) bytes

/-- `CompactNodesV6::deserialize`. -/
def CompactNodesV6.deserialize (bytes : List UInt8) : Option (List CompactNodeV6) :=
  Octets.readRecords 38
    (fun record => ⟨Octets.toWord 160 (record.take 20), .read (record.drop 20)⟩) bytes

/-- `CompactPeerAddress::deserialize`. -/
def CompactPeerAddress.deserialize (bytes : List UInt8) : Option CompactPeerAddress :=
  if bytes.length = 6 then some (.v4 (.read bytes))
  else if bytes.length = 18 then some (.v6 (.read bytes))
  else none

/-- `InfoHashSamples::deserialize`. -/
def InfoHashSamples.deserialize (bytes : List UInt8) : Option (List SwarmKey) :=
  Octets.readRecords 20 (Octets.toWord 160) bytes

/-! ## Messages -/

/-- `MessageType`. -/
inductive MessageType where
  | query
  | response
  | error
  deriving DecidableEq, Repr

/-- `QueryMethod::as_str`. -/
def QueryMethod.asStr : QueryMethod → String
  | .ping => "ping"
  | .findNode => "find_node"
  | .getPeers => "get_peers"
  | .announcePeer => "announce_peer"
  | .sampleInfohashes => "sample_infohashes"
  | .unknown name => name

/-- `QueryArgs`. -/
structure QueryArgs where
  id : NodeId
  target : Option NodeId
  infoHash : Option SwarmKey
  port : Option Nat
  token : Option TokenBytes
  impliedPort : Option Nat
  want : List String
  deriving DecidableEq, Repr

/-- `ResponseArgs`. -/
structure ResponseArgs where
  id : NodeId
  token : Option TokenBytes
  nodes : Option (List CompactNodeV4)
  nodes6 : Option (List CompactNodeV6)
  values : Option (List CompactPeerAddress)
  samples : Option (List SwarmKey)
  interval : Option Nat
  num : Option Nat
  deriving DecidableEq, Repr

/-- `KrpcMessage`. -/
structure KrpcMessage where
  t : List UInt8
  y : MessageType
  q : Option QueryMethod
  a : Option QueryArgs
  r : Option ResponseArgs
  e : Option (Int × List UInt8)
  ro : Option Nat
  ip : Option (List UInt8)
  deriving DecidableEq, Repr

/-! ## Encoding -/

namespace Krpc

/-- The octets of an ASCII text. -/
def ascii (s : String) : List UInt8 := s.toList.map (fun c => UInt8.ofNat c.toNat)

/-- A byte string. -/
def byteString (bytes : List UInt8) : Tree := .atom (.bytes bytes)

/-- A natural number. -/
def natural (n : Nat) : Tree := .atom (.integer (decimal n))

/-- An integer. -/
def integer (n : Int) : Tree :=
  .atom (.integer (if n < 0 then 45 :: decimal n.natAbs else decimal n.natAbs))

/-- A field that is left out when it has no value (`skip_serializing_if`). -/
def field (key : String) (value : Option Tree) : List (List UInt8 × Tree) :=
  value.toList.map (fun tree => (ascii key, tree))

end Krpc

open Krpc

/-- The letter of a message. -/
def MessageType.letter : MessageType → String
  | .query => "q"
  | .response => "r"
  | .error => "e"

/-- The dictionary of `QueryArgs`. -/
def QueryArgs.tree (a : QueryArgs) : Tree :=
  .dict (field "id" (some (byteString (Octets.ofWord 20 a.id))) ++
    field "implied_port" (a.impliedPort.map natural) ++
    field "info_hash" (a.infoHash.map (fun hash => byteString (Octets.ofWord 20 hash))) ++
    field "port" (a.port.map natural) ++
    field "target" (a.target.map (fun target => byteString (Octets.ofWord 20 target))) ++
    field "token" (a.token.map byteString) ++
    field "want" (if a.want.isEmpty then none
      else some (.list (a.want.map (fun s => byteString s.toUTF8.toList)))))

/-- The fields of `ResponseArgs`, with the compact forms of its IPv6 nodes and of its peers. -/
def ResponseArgs.entries (r : ResponseArgs) (nodes6 : Option (List UInt8))
    (values : Option (List (List UInt8))) : List (List UInt8 × Tree) :=
  field "id" (some (byteString (Octets.ofWord 20 r.id))) ++
    field "interval" (r.interval.map natural) ++
    field "nodes" (r.nodes.map (fun nodes => byteString (CompactNodesV4.serialize nodes))) ++
    field "nodes6" (nodes6.map byteString) ++
    field "num" (r.num.map natural) ++
    field "samples" (r.samples.map (fun samples => byteString (InfoHashSamples.serialize samples))) ++
    field "token" (r.token.map byteString) ++
    field "values" (values.map (fun peers => .list (peers.map byteString)))

/-- The dictionary of `ResponseArgs`. -/
def ResponseArgs.tree (r : ResponseArgs) : Option Tree := do
  let nodes6 ← r.nodes6.mapM CompactNodesV6.serialize
  let values ← r.values.mapM (fun peers => peers.mapM CompactPeerAddress.serialize)
  pure (.dict (r.entries nodes6 values))

/-- The dictionary of `KrpcMessage`, given that of its response. -/
def KrpcMessage.dict (m : KrpcMessage) (response : Option Tree) : Tree :=
  .dict (field "a" (m.a.map QueryArgs.tree) ++
    field "e" (m.e.map (fun e => .list [integer e.1, byteString e.2])) ++
    field "ip" (m.ip.map byteString) ++
    field "q" (m.q.map (fun q => byteString q.asStr.toUTF8.toList)) ++
    field "r" response ++
    field "ro" (m.ro.map natural) ++
    field "t" (some (byteString m.t)) ++
    field "y" (some (byteString (ascii m.y.letter))))

/-- The dictionary of `KrpcMessage`. -/
def KrpcMessage.tree (m : KrpcMessage) : Option Tree := do
  let response ← m.r.mapM ResponseArgs.tree
  pure (m.dict response)

/-- `bendy::serde::to_bytes`. -/
def KrpcMessage.toBytes (m : KrpcMessage) : Option (List UInt8) := m.tree.map Tree.encode

end BtSniffer
