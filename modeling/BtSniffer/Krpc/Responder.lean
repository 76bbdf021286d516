import BtSniffer.Dht.PeerStoreRun
import BtSniffer.Dht.RoutingRun
import BtSniffer.Dht.SamplerOps
import BtSniffer.Krpc.FitResponse

/-!
# Replies to queries

Reference model of the replies of a node: `src/dht/dispatcher/query.rs`, `peer_queries/mod.rs` and
`sampling/mod.rs`, and of the checks of the node that has asked: `response/validation.rs`, `fetch.rs`
and `sampler/protocol.rs`.

* The random choices are an argument of each call: any choice without repetition, in any order.
* `hmac` is HMAC-SHA256; a call that issues a token takes the key that the source would draw.
* What is sent is a message or nothing; the budget and the socket are left out.
-/

set_option autoImplicit false

namespace BtSniffer

open Bencode Krpc Relational

/-! ## Random choices -/

/-- The random number generator of one call: `IteratorRandom::sample` and `SliceRandom::shuffle`. -/
structure Rng where
  sample : {α : Type} → List α → Nat → List α
  shuffle : {α : Type} → List α → List α
  sample_subperm : ∀ {α : Type} (xs : List α) (n : Nat), (sample xs n).Subperm xs
  length_sample : ∀ {α : Type} (xs : List α) (n : Nat), (sample xs n).length = min n xs.length
  shuffle_perm : ∀ {α : Type} (xs : List α), (shuffle xs).Perm xs

/-- `PeerStore::sample_infohashes`. -/
def PeerStore.sampleInfohashes (s : PeerStore) (limit now : Nat) (rng : Rng) : List SwarmKey :=
  rng.sample (s.activeInfohashes now) (min limit s.config.maxHashes)

/-- `PeerStore::sample`. -/
def PeerStore.sample (s : PeerStore) (hash : SwarmKey) (limit now : Nat) (rng : Rng) :
    List SocketAddr :=
  rng.sample (s.activePeers hash now) (min limit s.config.responsePeers)

/-- `SAMPLE_INTERVAL`, in seconds. -/
def SAMPLE_INTERVAL : Nat := 300

/-- `MAX_SAMPLES`. -/
def MAX_SAMPLES : Nat := 32

/-- `SampleCache`. -/
structure SampleCache where
  generatedAt : Option Nat
  hashes : List SwarmKey
  deriving DecidableEq, Repr

/-- The samples are drawn again. -/
def SampleCache.due (c : SampleCache) (now : Nat) : Bool :=
  c.generatedAt.all (fun generated => decide (SAMPLE_INTERVAL * 1000000000 ≤ now - generated))

/-- `SampleCache::sample`. -/
def SampleCache.sample (c : SampleCache) (peers : PeerStore) (now : Nat) (rng : Rng) :
    SampleCache × List SwarmKey :=
  let c :=
    if c.due now then
      ⟨some now, rng.shuffle (peers.sampleInfohashes MAX_SAMPLES now rng)⟩
    else { c with hashes := c.hashes.filter (fun hash => peers.containsActiveInfohash hash now) }
  (c, c.hashes)

/-! ## Nodes of a reply -/

/-- `RoutingTable::closest_good`. -/
def RoutingTable.closestGood (t : RoutingTable) (target : NodeId) (limit now : Nat) :
    List NodeContact :=
  ((t.contacts.filter (fun contact => decide (contact.status now = .good))).insertionSort
    (Table.orderBy (fun contact => distance contact.id target))).take limit

/-- A contact as an IPv4 record. -/
def NodeContact.compactV4 (c : NodeContact) : Option CompactNodeV4 :=
  match c.address with
  | .v4 ip port => some ⟨c.id, ⟨ip, port⟩⟩
  | .v6 .. => none

/-- A contact as an IPv6 record. -/
def NodeContact.compactV6 (c : NodeContact) : Option CompactNodeV6 :=
  match c.address with
  | .v4 .. => none
  | .v6 ip port flowinfo scopeId => some ⟨c.id, ⟨ip, port, flowinfo, scopeId⟩⟩

/-- `empty_response`. -/
def emptyResponse (id : NodeId) : ResponseArgs := ⟨id, none, none, none, none, none, none, none⟩

/-- The address families that a query wants; without one it is that of the table. -/
def wanted (family : AddressFamily) (want : List String) : Bool × Bool :=
  let v4 := want.any (fun s => s == "n4")
  let v6 := want.any (fun s => s == "n6")
  if !v4 && !v6 then (family == .ipv4, !(family == .ipv4)) else (v4, v6)

/-- `node_response`. -/
def nodeResponse (routing : RoutingTable) (target : NodeId) (want : List String) (now : Nat) :
    ResponseArgs :=
  let families := wanted routing.addressFamily want
  let contacts := routing.closestGood target BUCKET_SIZE now
  { emptyResponse routing.localId with
    nodes := if families.1 then some (contacts.filterMap NodeContact.compactV4) else none
    nodes6 := if families.2 then some (contacts.filterMap NodeContact.compactV6) else none }

/-! ## Messages that are sent -/

/-- `security::compact`. -/
def compactAddress (address : SocketAddr) : List UInt8 :=
  (match address.ip with
  | .v4 ip => Octets.ofWord 4 ip
  | .v6 ip => Octets.ofWord 16 ip) ++ Octets.ofWord 2 address.port

/-- The message of `send_response`. -/
def responseMessage (destination : SocketAddr) (t : List UInt8) (response : ResponseArgs) :
    KrpcMessage :=
  ⟨t, .response, none, none, some response, none, none, some (compactAddress destination)⟩

/-- `send_response`: the message that is handed to the socket; `maxMessageSize` is the limit of the
transport. -/
def sendResponse (maxMessageSize : Nat) (destination : SocketAddr) (t : List UInt8)
    (response : ResponseArgs) : Option KrpcMessage :=
  match fitResponse (responseMessage destination t response) (min maxMessageSize 1024) with
  | some (true, m) => some m
  | _ => none

/-- `KrpcErrorCode`. -/
inductive KrpcErrorCode where
  | server
  | protocol
  deriving DecidableEq, Repr

/-- `KrpcErrorCode::as_i64`. -/
def KrpcErrorCode.asI64 : KrpcErrorCode → Int
  | .server => 202
  | .protocol => 203

/-- `send_error`. -/
def sendError (maxMessageSize : Nat) (destination : SocketAddr) (t : List UInt8)
    (code : KrpcErrorCode) (explanation : String) : Option KrpcMessage :=
  let m : KrpcMessage := ⟨t, .error, none, none, none, some (code.asI64, explanation.toUTF8.toList),
    none, some (compactAddress destination)⟩
  if m.toBytes.any (fun bytes => decide (bytes.length ≤ min maxMessageSize 1024)) then some m else none

/-! ## Handlers -/

/-- The parts of `DhtDispatcher` that replies read. -/
structure Responder where
  routing : RoutingTable
  peers : PeerStore
  samples : SampleCache
  tokens : TokenManager
  maxMessageSize : Nat

namespace Responder

/-- A query has a port, a token or an implied port. -/
def announces (args : QueryArgs) : Bool :=
  args.port.isSome || args.token.isSome || args.impliedPort.isSome

/-- The `FindNode` branch of `handle_query`. -/
def handleFindNode (s : Responder) (source : SocketAddr) (t : List UInt8) (args : QueryArgs)
    (now : Nat) : Option KrpcMessage :=
  match args.target with
  | none => sendError s.maxMessageSize source t .protocol "find_node 缺少 target 参数"
  | some target =>
    if args.infoHash.isSome || announces args then
      sendError s.maxMessageSize source t .protocol "find_node 包含不属于该方法的参数"
    else sendResponse s.maxMessageSize source t (nodeResponse s.routing target args.want now)

/-- A peer as a record. -/
def compactPeer : SocketAddr → CompactPeerAddress
  | .v4 ip port => .v4 ⟨ip, port⟩
  | .v6 ip port flowinfo scopeId => .v6 ⟨ip, port, flowinfo, scopeId⟩

/-- The response of `handle_get_peers`. -/
def peersResponse (s : Responder) (hash : SwarmKey) (want : List String) (token : TokenBytes)
    (now : Nat) (rng : Rng) : ResponseArgs :=
  let peers := s.peers.sample hash s.peers.config.responsePeers now rng
  { nodeResponse s.routing hash want now with
    token := some token
    values := if peers.isEmpty then none else some (peers.map compactPeer) }

/-- `handle_get_peers`. -/
def handleGetPeers (hmac : Secret → List UInt8 → TokenBytes) (s : Responder) (source : SocketAddr)
    (t : List UInt8) (args : QueryArgs) (now : Nat) (drawn : Except TokenError Secret) (rng : Rng) :
    Responder × Option KrpcMessage :=
  match args.infoHash with
  | none => (s, sendError s.maxMessageSize source t .protocol "get_peers 缺少 info_hash")
  | some hash =>
    if args.target.isSome || announces args then
      (s, sendError s.maxMessageSize source t .protocol "get_peers 包含其他方法的参数")
    else
      match s.tokens.issue hmac source.ip now drawn with
      | (.error _, tokens) =>
        ({ s with tokens := tokens },
          sendError s.maxMessageSize source t .server "暂时无法生成写令牌")
      | (.ok token, tokens) =>
        ({ s with tokens := tokens },
          sendResponse s.maxMessageSize source t (s.peersResponse hash args.want token now rng))

/-- The response of `handle_sample_infohashes`. -/
def sampleResponse (s : Responder) (target : NodeId) (want : List String) (samples : List SwarmKey)
    (now : Nat) : ResponseArgs :=
  { nodeResponse s.routing target want now with
    samples := some samples
    interval := some SAMPLE_INTERVAL
    num := some (s.peers.activeInfohashCount now) }

/-- `handle_sample_infohashes`. -/
def handleSampleInfohashes (s : Responder) (source : SocketAddr) (t : List UInt8) (args : QueryArgs)
    (now : Nat) (rng : Rng) : Responder × Option KrpcMessage :=
  match args.target with
  | none => (s, sendError s.maxMessageSize source t .protocol "sample_infohashes 缺少 target")
  | some target =>
    if args.infoHash.isSome || announces args then
      (s, sendError s.maxMessageSize source t .protocol "sample_infohashes 包含其他方法的参数")
    else
      let sampled := s.samples.sample s.peers now rng
      ({ s with samples := sampled.1 },
        sendResponse s.maxMessageSize source t (s.sampleResponse target args.want sampled.2 now))

end Responder

/-! ## The node that has asked -/

/-- An IPv4 record as a node. -/
def CompactNodeV4.discovered (n : CompactNodeV4) : DiscoveredNode := ⟨n.id, n.address.address⟩

/-- An IPv6 record as a node. -/
def CompactNodeV6.discovered (n : CompactNodeV6) : DiscoveredNode := ⟨n.id, n.address.address⟩

/-- `decode_find_node_response`: the nodes of the response; its Node ID is that of the responder. -/
def decodeFindNodeResponse (family : AddressFamily) (response : ResponseArgs) :
    Except QueryError (NodeId × List DiscoveredNode) :=
  match family with
  | .ipv4 =>
    match response.nodes with
    | none => .error (.invalidResponse "IPv4 find_node 响应缺少 nodes 字段")
    | some nodes => .ok (response.id, nodes.map CompactNodeV4.discovered)
  | .ipv6 =>
    match response.nodes6 with
    | none => .error (.invalidResponse "IPv6 find_node 响应缺少 nodes6 字段")
    | some nodes => .ok (response.id, nodes.map CompactNodeV6.discovered)

/-- `filter(|x| seen.insert(*x))`: the first of equal elements. -/
def firstSeen {α : Type} [DecidableEq α] : List α → List α → List α
  | _, [] => []
  | seen, x :: xs => if x ∈ seen then firstSeen seen xs else x :: firstSeen (x :: seen) xs

/-- A record as an address. -/
def CompactPeerAddress.address : CompactPeerAddress → SocketAddr
  | .v4 address => address.address
  | .v6 address => address.address

/-- `decode_peers`: the nodes and the peers of the response. -/
def decodePeers (family : AddressFamily) (policy : AddressPolicy) (localId : NodeId)
    (response : ResponseArgs) : Except QueryError (List DiscoveredNode × List SocketAddr) :=
  if response.token.all (fun token => token.isEmpty || decide (token.length > 256)) then
    .error (.invalidResponse "get_peers 缺少有效 token")
  else if response.values.isNone && response.nodes.isNone && response.nodes6.isNone then
    .error (.invalidResponse "get_peers 缺少 peers/nodes")
  else
    let nodes := (response.nodes.getD []).map CompactNodeV4.discovered ++
      (response.nodes6.getD []).map CompactNodeV6.discovered
    let nodes := firstSeen [] (nodes.filter (fun n => family.accepts n.address &&
      policy.accepts n.address && decide (n.id ≠ localId)))
    let peers := firstSeen [] (((response.values.getD []).map CompactPeerAddress.address).filter
      (fun a => policy.accepts a))
    .ok (nodes.take 256, peers.take 32)

namespace Krpc

/-- `SampleResponse`. -/
structure SampleResponse where
  nodes : List DiscoveredNode
  interval : Nat
  num : Nat
  samples : List SwarmKey
  deriving DecidableEq, Repr

/-- `decode_sample`. -/
def decodeSample (response : ResponseArgs) (nodes : List DiscoveredNode) (encodedLen : Nat) :
    Except QueryError (Option SampleResponse) :=
  if encodedLen > 1024 then .error (.invalidResponse "BEP 51 响应超过 1024 字节")
  else
    match response.samples with
    | none => .ok none
    | some samples =>
      match response.interval.filter (fun n => decide (n ≤ 21600)) with
      | none => .error (.invalidResponse "采样响应缺少合法 interval")
      | some interval =>
        match response.num with
        | none => .error (.invalidResponse "采样响应缺少 num")
        | some num =>
          let samples := firstSeen [] samples
          if num < samples.length then .error (.invalidResponse "num 小于不同样本数量")
          else .ok (some ⟨nodes, interval, num, samples⟩)

end Krpc

/-- The response as the other node reads it from its compact forms. -/
def ResponseArgs.received (r : ResponseArgs) : Option ResponseArgs := do
  let nodes ← r.nodes.mapM (fun nodes => CompactNodesV4.deserialize (CompactNodesV4.serialize nodes))
  let nodes6 ← r.nodes6.mapM
    (fun nodes => (CompactNodesV6.serialize nodes).bind CompactNodesV6.deserialize)
  let values ← r.values.mapM (fun peers =>
    peers.mapM (fun p => p.serialize.bind CompactPeerAddress.deserialize))
  let samples ← r.samples.mapM
    (fun samples => InfoHashSamples.deserialize (InfoHashSamples.serialize samples))
  pure { r with
    id := Octets.toWord 160 (Octets.ofWord 20 r.id)
    nodes := nodes, nodes6 := nodes6, values := values, samples := samples }

end BtSniffer
