import BtSniffer.Krpc.ResponderRun

/-!
# Queries without a reply

The compact form of an IPv6 address has no place for flow information and a scope id, and a response
with such an address is not written at all.

* `sendResponse_iff` — a response that fits without its records is sent if and only if all its
  addresses have a compact form.
* `plain_run` — the peers of a store have compact forms, in every run.
* `reply_sent` — a query is answered exactly when no contact of its reply has such an address.
-/

set_option autoImplicit false

namespace BtSniffer

open Bencode Krpc Relational ResponseArgs

/-! ## What decides -/

/-- **A response is sent if and only if its addresses have compact forms**, when the response fits
without its records. -/
theorem sendResponse_iff {maxMessageSize : Nat} {destination : SocketAddr} {t : List UInt8}
    {response : ResponseArgs}
    (hroom : (responseMessage destination t response).frame + response.stripped.size ≤
      min maxMessageSize 1024) :
    (sendResponse maxMessageSize destination t response).isSome = true ↔ response.plain = true := by
  constructor
  · intro h
    obtain ⟨m, hm⟩ := Option.isSome_iff_exists.1 h
    by_contra hno
    have hself : responseMessage destination t response =
        { responseMessage destination t response with r := some response } := rfl
    unfold sendResponse fitResponse at hm
    rw [hself] at hm
    simp only [fitLoop, KrpcMessage.toBytes_eq, if_neg hno] at hm
    cases hm
  · intro hplain
    obtain ⟨verdict, r, heq, hpass, -, -, hfalse⟩ :=
      fitLoop_spec (responseMessage destination t response) (min maxMessageSize 1024)
        (response.removals + 1) response (Nat.lt_succ_self _) hplain
    have hempty : response.stripped.plain = true := by
      cases hn : response.nodes6 <;> simp [plain, stripped, hn]
    have hverdict : verdict = true := by
      by_contra hno
      obtain ⟨hunfit, hzero⟩ := hfalse (by simpa using hno)
      rw [← stripped_of_none hzero, hpass.stripped_eq] at hunfit
      exact hunfit ((fits_iff hempty).2 hroom)
    have hfit : fitResponse (responseMessage destination t response) (min maxMessageSize 1024) =
        some (true, { responseMessage destination t response with r := some r }) := by
      rw [← hverdict]
      exact heq
    unfold sendResponse
    rw [hfit]
    rfl

/-- The address has a compact form. -/
def SocketAddr.plain : SocketAddr → Bool
  | .v4 .. => true
  | .v6 _ _ flowinfo scopeId => flowinfo == 0 && scopeId == 0

/-- No contact of the reply has flow information or a scope id, if the reply has IPv6 nodes. -/
def repliesPlain (routing : RoutingTable) (target : NodeId) (want : List String) (now : Nat) : Bool :=
  !(wanted routing.addressFamily want).2 ||
    (routing.closestGood target BUCKET_SIZE now).all (fun contact => contact.address.plain)

theorem all_compactV6 (contacts : List NodeContact) :
    (contacts.filterMap NodeContact.compactV6).all
        (fun node => ensurePlainIpv6Address node.address) =
      contacts.all (fun contact => contact.address.plain) := by
  induction contacts with
  | nil => rfl
  | cons c contacts ih =>
    cases ha : c.address with
    | v4 ip port =>
      have hnode : c.compactV6 = none := by simp only [NodeContact.compactV6, ha]
      rw [List.filterMap_cons_none hnode, List.all_cons, ih, ha]
      rfl
    | v6 ip port flowinfo scopeId =>
      have hnode : c.compactV6 = some ⟨c.id, ⟨ip, port, flowinfo, scopeId⟩⟩ := by
        simp only [NodeContact.compactV6, ha]
      rw [List.filterMap_cons_some hnode, List.all_cons, List.all_cons, ih, ha]
      rfl

/-- The IPv6 nodes of a response have compact forms. -/
theorem nodes6_plain (routing : RoutingTable) (target : NodeId) (want : List String) (now : Nat) :
    (nodeResponse routing target want now).nodes6.all (fun nodes =>
        nodes.all (fun node => ensurePlainIpv6Address node.address)) =
      repliesPlain routing target want now := by
  unfold nodeResponse repliesPlain
  simp only
  split
  · rename_i hwanted
    rw [Option.all_some, all_compactV6, hwanted, Bool.not_true, Bool.false_or]
  · rename_i hwanted
    rw [Option.all_none, Bool.eq_false_iff.2 hwanted]
    rfl

/-! ## The size without records -/

theorem length_field_le {key : String} {value : Option Tree} {n : Nat}
    (h : ∀ tree, value = some tree → (encodeBytes (ascii key)).length + tree.encode.length ≤ n) :
    (Tree.encodeEntries (field key value)).length ≤ n := by
  rw [length_field]
  cases value with
  | none => exact Nat.zero_le n
  | some tree => exact h tree rfl

theorem length_byteString_le (content : List UInt8) :
    (byteString content).encode.length ≤ 2 * content.length + 2 := by
  have hlog := Nat.log_le_self 10 content.length
  rw [length_byteString]
  omega

theorem length_natural (n : Nat) : (natural n).encode.length = Nat.log 10 n + 3 := by
  simp [natural, Tree.encode, Object.encode, length_decimal]

theorem length_natural_le {n : Nat} (h : n < 2 ^ 64) : (natural n).encode.length ≤ 67 := by
  have hlog : Nat.log 10 n < 64 :=
    Nat.log_lt_of_lt_pow' (by decide) (h.trans_le (Nat.pow_le_pow_left (by decide) 64))
  rw [length_natural]
  omega

theorem length_compactAddress_le (address : SocketAddr) : (compactAddress address).length ≤ 18 := by
  unfold compactAddress
  rw [List.length_append, Octets.length_ofWord]
  cases address.ip with
  | v4 ip => simp
  | v6 ip => simp

/-- The other fields of a reply, with a transaction ID of at most 64 octets. -/
theorem frame_le (destination : SocketAddr) {t : List UInt8} (r : ResponseArgs)
    (ht : t.length ≤ 64) : (responseMessage destination t r).frame ≤ 200 := by
  have hip : (encodeBytes (ascii "ip")).length = 4 := by decide
  have ht' : (encodeBytes (ascii "t")).length = 3 := by decide
  have hy : (encodeBytes (ascii "y")).length = 3 := by decide
  have hletter : (byteString (ascii "r")).encode.length = 3 := by decide
  have hcompact := length_byteString_le (compactAddress destination)
  have hshort := length_compactAddress_le destination
  have hid := length_byteString_le t
  unfold KrpcMessage.frame KrpcMessage.dict responseMessage
  simp only [length_encode_dict, length_encodeEntries_append, length_field, Option.map_none,
    Option.map_some, Option.elim, MessageType.letter, hip, ht', hy, hletter]
  omega

/-- A response without records, with a token of 32 octets. -/
theorem size_stripped_small (r : ResponseArgs)
    (htoken : ∀ token, r.token = some token → token.length ≤ 32)
    (hinterval : ∀ n, r.interval = some n → n < 2 ^ 64)
    (hnum : ∀ n, r.num = some n → n < 2 ^ 64) : r.stripped.size ≤ 400 := by
  have hnone : ∀ {α : Type} (key : String) (xs : Option (List α)) (write : List α → List UInt8),
      write [] = [] → (encodeBytes (ascii key)).length ≤ 9 → (Tree.encodeEntries (field key
        ((xs.map (fun _ => ([] : List α))).map (fun ys => byteString (write ys))))).length ≤ 11 := by
    intro α key xs write hwrite hkey
    refine length_field_le ?_
    intro tree htree
    obtain ⟨ys, hys, rfl⟩ := Option.map_eq_some_iff.1 htree
    obtain ⟨xs, -, rfl⟩ := Option.map_eq_some_iff.1 hys
    rw [hwrite, length_byteString]
    simp only [List.length_nil, Nat.log_zero_right]
    omega
  have hsamples := hnone "samples" r.samples InfoHashSamples.serialize rfl (by decide)
  have hnodes := hnone "nodes" r.nodes CompactNodesV4.serialize rfl (by decide)
  have hnodes6 := hnone "nodes6" r.nodes6 (fun nodes => nodes.flatMap CompactNodeV6.record) rfl
    (by decide)
  have hid : (Tree.encodeEntries (field "id" (some (byteString (Octets.ofWord 20 r.id))))).length ≤
      46 := by
    have hkey : (encodeBytes (ascii "id")).length = 4 := by decide
    have hlen := length_byteString_le (Octets.ofWord 20 r.id)
    rw [Octets.length_ofWord] at hlen
    rw [length_field, Option.elim, hkey]
    omega
  have hinterval' : (Tree.encodeEntries (field "interval" (r.interval.map natural))).length ≤ 77 := by
    have hkey : (encodeBytes (ascii "interval")).length = 10 := by decide
    refine length_field_le ?_
    intro tree htree
    obtain ⟨n, hn, rfl⟩ := Option.map_eq_some_iff.1 htree
    have hlen := length_natural_le (hinterval n hn)
    omega
  have hnum' : (Tree.encodeEntries (field "num" (r.num.map natural))).length ≤ 72 := by
    have hkey : (encodeBytes (ascii "num")).length = 5 := by decide
    refine length_field_le ?_
    intro tree htree
    obtain ⟨n, hn, rfl⟩ := Option.map_eq_some_iff.1 htree
    have hlen := length_natural_le (hnum n hn)
    omega
  have htoken' : (Tree.encodeEntries (field "token" (r.token.map byteString))).length ≤ 73 := by
    have hkey : (encodeBytes (ascii "token")).length = 7 := by decide
    refine length_field_le ?_
    intro tree htree
    obtain ⟨token, hsome, rfl⟩ := Option.map_eq_some_iff.1 htree
    have hlen := length_byteString_le token
    have hshort := htoken token hsome
    omega
  rw [size_eq]
  simp only [stripped, Option.map_none, length_field "values", Option.elim]
  omega

/-! ## Runs -/

namespace Responder

variable {hmac : Secret → List UInt8 → TokenBytes} {s s' : Responder} {family : AddressFamily}
  {config : PeerStoreConfig}

/-- The peers of the store have compact forms. -/
def PlainPeers (s : Responder) : Prop :=
  ∀ hash address deadline, s.peers.deadline? hash address = some deadline → address.plain = true

theorem plain_new (ip : IpAddr) (port : BitVec 16) : (SocketAddr.new ip port).plain = true := by
  cases ip with
  | v4 ip => rfl
  | v6 ip => rfl

/-- **An event keeps the compact forms of the peers and the limit.** -/
theorem plain_step (hsized : PeerStore.Sized config) (hvalid : s.Valid family config)
    (h : s.PlainPeers) {event : ResponderEvent} (hs : s.step hmac event = some s') :
    s'.PlainPeers ∧ s'.maxMessageSize = s.maxMessageSize := by
  cases event with
  | routing op now =>
    obtain ⟨out, -, rfl⟩ := Option.map_eq_some_iff.1 hs
    exact ⟨h, rfl⟩
  | announce ip port hash now =>
    obtain ⟨out, heq, rfl⟩ := Option.map_eq_some_iff.1 hs
    obtain ⟨result, peers, hpeers, -, -, -, hok, herror⟩ :=
      hvalid.peers.consistent.announce hvalid.peers.bounded
        (hvalid.peers.config_eq ▸ hsized) hash (.new ip port) now
    rw [heq] at hpeers
    cases hpeers
    refine ⟨?_, rfl⟩
    cases hresult : result with
    | error e =>
      have hsame := herror e hresult
      intro x a d hd
      refine h x a d ?_
      rw [← hsame]
      exact hd
    | ok u =>
      have hsub := (hok hresult).sub
      intro x a d hd
      by_cases hself : x = hash ∧ a = .new ip port
      · rw [hself.2]
        exact plain_new ip port
      · exact h x a d (hsub x a d hself hd)
  | expire now budget =>
    obtain ⟨peers, heq, rfl⟩ := Option.map_eq_some_iff.1 hs
    obtain ⟨peers', hpeers, hdrops⟩ := hvalid.peers.consistent.expire now budget
    rw [heq] at hpeers
    cases hpeers
    exact ⟨fun x a d hd => h x a d (hdrops.sub x a d hd), rfl⟩
  | validate ip token now drawn =>
    cases hs
    exact ⟨h, rfl⟩
  | getPeers source t args now drawn rng =>
    cases hs
    rw [getPeers_fields]
    exact ⟨h, rfl⟩
  | sampleInfohashes source t args now rng =>
    cases hs
    rcases sampleInfohashes_fields s source t args now rng with heq | heq
    · rw [heq]
      exact ⟨h, rfl⟩
    · rw [heq]
      exact ⟨h, rfl⟩

/-- **The peers have compact forms in every run.** -/
theorem plain_run (hsized : PeerStore.Sized config) : ∀ (events : List ResponderEvent)
    {s s' : Responder}, s.Valid family config → s.PlainPeers → s.run hmac events = some s' →
      s'.PlainPeers ∧ s'.maxMessageSize = s.maxMessageSize
  | [], _, _, _, h, hs => by
    cases hs
    exact ⟨h, rfl⟩
  | event :: rest, s, s', hvalid, h, hs => by
    obtain ⟨s₁, hstep, hrest⟩ := Option.bind_eq_some_iff.1 hs
    obtain ⟨hplain, hlimit⟩ := plain_step hsized hvalid h hstep
    obtain ⟨hplain', hlimit'⟩ := plain_run hsized rest (hvalid.step hsized event hstep) hplain hrest
    exact ⟨hplain', hlimit'.trans hlimit⟩

theorem plain_start {localId : NodeId} {begun : Nat} {peers : PeerStore} {tokens : TokenManager}
    {maxMessageSize : Nat} (h : PeerStore.new config family begun = .ok peers) :
    (start localId family begun peers tokens maxMessageSize).PlainPeers := by
  unfold PeerStore.new at h
  split at h
  · cases h
  · cases h
    intro hash address deadline hd
    cases hd

/-- The peers of a reply have compact forms. -/
theorem values_plain (h : s.PlainPeers) (hash : SwarmKey) (want : List String) (token : TokenBytes)
    (now : Nat) (rng : Rng) : (s.peersResponse hash want token now rng).values.all
      (fun peers => peers.all CompactPeerAddress.plain) = true := by
  have hall : ∀ a ∈ s.peers.sample hash s.peers.config.responsePeers now rng, a.plain = true := by
    intro a ha
    have hactive := (rng.sample_subperm (s.peers.activePeers hash now) _).subset ha
    unfold PeerStore.activePeers at hactive
    obtain ⟨p, hp, rfl⟩ := List.mem_map.1 hactive
    obtain ⟨g, hg, hmem⟩ := List.mem_flatMap.1 (List.mem_filter.1 hp).1
    refine h hash p.address p.deadline (PeerStore.deadline?_eq_some.2 ⟨g, ?_, Table.get?_key hmem⟩)
    exact Option.mem_toList.1 hg
  unfold peersResponse
  simp only
  split
  · rfl
  · rw [Option.all_some, List.all_map, List.all_eq_true]
    intro a ha
    have hplain := hall a ha
    cases a with
    | v4 ip port => rfl
    | v6 ip port flowinfo scopeId => exact hplain

theorem activeInfohashCount_lt (h : s.Valid family config) (hsize : config.maxHashes < 2 ^ 64)
    (now : Nat) : s.peers.activeInfohashCount now < 2 ^ 64 := by
  have hgroups := h.peers.bounded.groups
  rw [h.peers.config_eq] at hgroups
  rw [h.peers.consistent.active_count now]
  exact ((List.length_filter_le _ _).trans hgroups).trans_lt hsize

/-- **When a query is answered.** In every run, with a limit of 1024 octets and a transaction ID of at
most 64 octets, the response to `find_node`, to `get_peers` and to `sample_infohashes` is sent if and
only if it has no IPv6 nodes or no contact among them has flow information or a scope id. -/
theorem reply_sent (hmac : Secret → List UInt8 → TokenBytes)
    (hhmac : ∀ key message, (hmac key message).length = 32) (config : PeerStoreConfig)
    (hsize : config.maxHashes < 2 ^ 64) (family : AddressFamily) (localId : NodeId) (begun : Nat)
    (peers : PeerStore) (tokens : TokenManager) (maxMessageSize : Nat)
    (hnew : PeerStore.new config family begun = .ok peers) (hlimit : 1024 ≤ maxMessageSize)
    (events : List ResponderEvent) (s : Responder)
    (hrun : (start localId family begun peers tokens maxMessageSize).run hmac events = some s)
    (source : SocketAddr) (t : List UInt8) (ht : t.length ≤ 64) (target : NodeId)
    (want : List String) (now : Nat) :
    ((sendResponse s.maxMessageSize source t
        (nodeResponse s.routing target want now)).isSome = true ↔
      repliesPlain s.routing target want now = true) ∧
    (∀ key rng, (sendResponse s.maxMessageSize source t (s.peersResponse target want
        (TokenManager.mac hmac key source.ip) now rng)).isSome = true ↔
      repliesPlain s.routing target want now = true) ∧
    (∀ rng, (sendResponse s.maxMessageSize source t (s.sampleResponse target want
        (s.samples.sample s.peers now rng).2 now)).isSome = true ↔
      repliesPlain s.routing target want now = true) := by
  obtain ⟨hsized, hsound⟩ := PeerStore.sound_new hnew
  have hstart : (start localId family begun peers tokens maxMessageSize).Valid family config :=
    start_valid hsound
  have hvalid : s.Valid family config := Valid.run hsized events hstart hrun
  obtain ⟨hpeers, hmax⟩ := plain_run hsized events hstart (plain_start hnew) hrun
  have hroom : ∀ response : ResponseArgs, response.stripped.size ≤ 400 →
      (responseMessage source t response).frame + response.stripped.size ≤
        min s.maxMessageSize 1024 := by
    intro response hsmall
    have hframe := frame_le source response ht
    have hmax' : s.maxMessageSize = maxMessageSize := hmax
    omega
  have hnodes6 := nodes6_plain s.routing target want now
  refine ⟨?_, ?_, ?_⟩
  · rw [sendResponse_iff (hroom _ (size_stripped_small _ (by simp [nodeResponse, emptyResponse])
      (by simp [nodeResponse, emptyResponse]) (by simp [nodeResponse, emptyResponse]))), plain,
      hnodes6]
    simp [nodeResponse, emptyResponse]
  · intro key rng
    have hvalues := values_plain hpeers target want (TokenManager.mac hmac key source.ip) now rng
    have hsame : (s.peersResponse target want (TokenManager.mac hmac key source.ip) now rng).nodes6 =
        (nodeResponse s.routing target want now).nodes6 := rfl
    have htoken : ∀ token, (s.peersResponse target want (TokenManager.mac hmac key source.ip) now
        rng).token = some token → token.length ≤ 32 := by
      intro token htoken
      cases htoken
      exact (hhmac key _).le
    rw [sendResponse_iff (hroom _ (size_stripped_small _ htoken
      (by simp [peersResponse, nodeResponse, emptyResponse])
      (by simp [peersResponse, nodeResponse, emptyResponse]))), plain, hvalues, hsame, hnodes6,
      Bool.and_true]
  · intro rng
    have hsame : (s.sampleResponse target want (s.samples.sample s.peers now rng).2 now).nodes6 =
        (nodeResponse s.routing target want now).nodes6 := rfl
    have hcount := activeInfohashCount_lt hvalid hsize now
    rw [sendResponse_iff (hroom _ (size_stripped_small _
      (by simp [sampleResponse, nodeResponse, emptyResponse])
      (by simp [sampleResponse, SAMPLE_INTERVAL])
      (by simpa [sampleResponse] using hcount))), plain, hsame, hnodes6]
    simp [sampleResponse, nodeResponse, emptyResponse]

/-- A node at a link-local address with a scope id, and one at a global address. -/
def linkLocalAnswer : ResponderEvent :=
  .routing (.observeResponse 9 (.v6 0xfe800000000000000000000000000001 6881 0 3)) 1000

def globalAnswer : ResponderEvent :=
  .routing (.observeResponse 9 (.v6 0x20010db8000000000000000000000001 6881 0 0)) 1000

/-- An IPv6 node after one answer. -/
def answered (event : ResponderEvent) : Option Responder :=
  (start 1 .ipv6 0 ⟨smallStore, .ipv6, .empty, .empty, .empty⟩ ⟨0, none, 0⟩ 1400).run
    (fun _ _ => List.replicate 32 0) [event]

/-- After the answer of a node at a global address, queries are answered. -/
theorem reply_sent_global : ∃ s, answered globalAnswer = some s ∧
    (sendResponse s.maxMessageSize (.v6 1 6881 0 0) [97]
      (nodeResponse s.routing 3 [] 2000)).isSome = true := by
  have hall : (answered globalAnswer).any (fun s => repliesPlain s.routing 3 [] 2000) = true := by
    decide +kernel
  obtain ⟨s, hs, hplain⟩ := (Option.any_eq_true _ _).1 hall
  exact ⟨s, hs, (reply_sent (fun _ _ => List.replicate 32 0) (fun _ _ => List.length_replicate)
    smallStore (by decide) .ipv6 1 0 _ ⟨0, none, 0⟩ 1400 rfl (by decide) [globalAnswer] s hs
    (.v6 1 6881 0 0) [97] (by decide) 3 [] 2000).1.2 hplain⟩

/-- **One contact silences the node**: after the answer of a node with a scope id, `find_node` has no
reply. -/
theorem silent_after_scope_id : ∃ s, answered linkLocalAnswer = some s ∧
    s.handleFindNode (.v6 1 6881 0 0) [97] askSamples 2000 = none ∧
    sendResponse s.maxMessageSize (.v6 1 6881 0 0) [97] (nodeResponse s.routing 3 [] 2000) = none := by
  have hall : (answered linkLocalAnswer).any (fun s =>
      decide (s.handleFindNode (.v6 1 6881 0 0) [97] askSamples 2000 = none ∧
        sendResponse s.maxMessageSize (.v6 1 6881 0 0) [97]
          (nodeResponse s.routing 3 [] 2000) = none)) = true := by
    decide +kernel
  obtain ⟨s, hs, hnone⟩ := (Option.any_eq_true _ _).1 hall
  exact ⟨s, hs, of_decide_eq_true hnone⟩

end Responder

end BtSniffer
