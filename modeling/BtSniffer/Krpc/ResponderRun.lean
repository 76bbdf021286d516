import BtSniffer.Krpc.Replies

/-!
# A node accepts its own replies

Announces, expirations, routing updates and queries in any order.

* `Sampled` — what holds of the samples of a call.
* `Responder.Valid` — what holds in every run.
* `own_replies_accepted` — what is sent in any run passes the checks of the node that has asked.
-/

set_option autoImplicit false

namespace BtSniffer

open Bencode Krpc Relational ResponseArgs

/-! ## Samples -/

/-- The samples that may be sent now. -/
structure Sampled (peers : PeerStore) (now : Nat) (samples : List SwarmKey) : Prop where
  distinct : samples.Nodup
  active : ∀ hash ∈ samples, peers.containsActiveInfohash hash now = true
  few : samples.length ≤ MAX_SAMPLES
  counted : samples.length ≤ peers.activeInfohashCount now

/-- Distinct active hashes are counted. -/
theorem counted_of_active {peers : PeerStore} (hc : peers.Consistent) {now : Nat}
    {samples : List SwarmKey} (hnodup : samples.Nodup)
    (hactive : ∀ hash ∈ samples, peers.containsActiveInfohash hash now = true) :
    samples.length ≤ peers.activeInfohashCount now := by
  have hsub : samples ⊆ peers.activeInfohashes now :=
    fun hash hhash => hc.mem_active.2 (hactive hash hhash)
  exact (hnodup.subperm hsub).length_le

/-- **`sample` returns what may be sent**, and keeps it as it is. -/
theorem sample_sampled {c : SampleCache} {peers : PeerStore} (hc : peers.Consistent)
    (hnodup : c.hashes.Nodup) (hfew : c.hashes.length ≤ MAX_SAMPLES) (now : Nat) (rng : Rng) :
    Sampled peers now (c.sample peers now rng).2 ∧
      (c.sample peers now rng).1.hashes = (c.sample peers now rng).2 := by
  refine ⟨?_, rfl⟩
  have hfields : (c.sample peers now rng).2.Nodup ∧
      (∀ hash ∈ (c.sample peers now rng).2, peers.containsActiveInfohash hash now = true) ∧
      (c.sample peers now rng).2.length ≤ MAX_SAMPLES := by
    unfold SampleCache.sample
    simp only
    split
    · have hperm := rng.shuffle_perm (peers.sampleInfohashes MAX_SAMPLES now rng)
      have hsub := rng.sample_subperm (peers.activeInfohashes now)
        (min MAX_SAMPLES peers.config.maxHashes)
      have hchosen : (peers.sampleInfohashes MAX_SAMPLES now rng).Nodup := by
        obtain ⟨l, hl, hsublist⟩ := hsub
        exact hl.nodup_iff.1 (hsublist.nodup (hc.nodup_active now))
      refine ⟨hperm.nodup_iff.2 hchosen, ?_, ?_⟩
      · intro hash hhash
        exact hc.mem_active.1 (hsub.subset (hperm.mem_iff.1 hhash))
      · rw [hperm.length_eq, PeerStore.sampleInfohashes, rng.length_sample]
        omega
    · refine ⟨hnodup.filter _, ?_, (List.length_filter_le _ _).trans hfew⟩
      intro hash hhash
      exact (List.mem_filter.1 hhash).2
  obtain ⟨hdistinct, hactive, hlen⟩ := hfields
  exact ⟨hdistinct, hactive, hlen, counted_of_active hc hdistinct hactive⟩

/-- **Within a period the samples only lose elements.** -/
theorem sample_sublist (c : SampleCache) (peers : PeerStore) (now : Nat) (rng : Rng) :
    ((c.sample peers now rng).1.generatedAt = c.generatedAt ∧
      ((c.sample peers now rng).1.hashes).Sublist c.hashes) ∨
    (c.due now = true ∧ (c.sample peers now rng).1.generatedAt = some now) := by
  unfold SampleCache.sample
  simp only
  split
  · rename_i hdue
    exact .inr ⟨hdue, rfl⟩
  · exact .inl ⟨rfl, List.filter_sublist⟩

/-! ## Checks of the node that has asked -/

theorem CutTo.isSome {α : Type} {xs xs' : Option (List α)} (h : CutTo xs xs')
    (hsome : xs.isSome = true) : xs'.isSome = true := by
  rcases h with ⟨rfl, rfl⟩ | ⟨l, l', rfl, rfl, -⟩
  · exact hsome
  · rfl

/-- The response has the nodes of a family. -/
def HasNodes (family : AddressFamily) (r : ResponseArgs) : Prop :=
  match family with
  | .ipv4 => r.nodes.isSome = true
  | .ipv6 => r.nodes6.isSome = true

/-- Without `want` the nodes are those of the family of the table. -/
theorem hasNodes_nodeResponse (routing : RoutingTable) (target : NodeId) (now : Nat) :
    HasNodes routing.addressFamily (nodeResponse routing target [] now) := by
  unfold nodeResponse
  cases hfamily : routing.addressFamily with
  | ipv4 => simp [HasNodes, wanted]
  | ipv6 => simp [HasNodes, wanted]

theorem HasNodes.trimmed {family : AddressFamily} {r r' : ResponseArgs} (h : HasNodes family r)
    (ht : Trimmed r r') : HasNodes family r' := by
  cases family with
  | ipv4 => exact CutTo.isSome ht.nodes h
  | ipv6 => exact CutTo.isSome ht.nodes6 h

theorem HasNodes.decodes {family : AddressFamily} {r : ResponseArgs} (h : HasNodes family r) :
    ∃ answer, decodeFindNodeResponse family r = .ok answer := by
  cases family with
  | ipv4 =>
    obtain ⟨nodes, hnodes⟩ := Option.isSome_iff_exists.1 h
    refine ⟨(r.id, nodes.map CompactNodeV4.discovered), ?_⟩
    simp only [decodeFindNodeResponse, hnodes]
  | ipv6 =>
    obtain ⟨nodes, hnodes⟩ := Option.isSome_iff_exists.1 h
    refine ⟨(r.id, nodes.map CompactNodeV6.discovered), ?_⟩
    simp only [decodeFindNodeResponse, hnodes]

/-- A response with a token and nodes passes the checks of `get_peers`. -/
theorem HasNodes.decodesPeers {family : AddressFamily} {r : ResponseArgs} (h : HasNodes family r)
    {token : TokenBytes} (htoken : r.token = some token) (hlen : token.length = 32)
    (policy : AddressPolicy) (localId : NodeId) :
    ∃ answer, decodePeers family policy localId r = .ok answer := by
  have hvalid : r.token.all (fun token => token.isEmpty || decide (token.length > 256)) = false := by
    have hne : token ≠ [] := by
      rintro rfl
      cases hlen
    simp [htoken, hlen, hne]
  have hnodes : (r.values.isNone && r.nodes.isNone && r.nodes6.isNone) = false := by
    cases family with
    | ipv4 =>
      obtain ⟨nodes, hn⟩ := Option.isSome_iff_exists.1 h
      simp [hn]
    | ipv6 =>
      obtain ⟨nodes, hn⟩ := Option.isSome_iff_exists.1 h
      simp [hn]
  unfold decodePeers
  rw [hvalid, hnodes]
  exact ⟨_, rfl⟩

theorem firstSeen_nodup {α : Type} [DecidableEq α] : ∀ (xs seen : List α), xs.Nodup →
    (∀ x ∈ xs, x ∉ seen) → firstSeen seen xs = xs
  | [], _, _, _ => rfl
  | x :: xs, seen, hnodup, hnew => by
    obtain ⟨hx, hxs⟩ := List.nodup_cons.1 hnodup
    have hrest : firstSeen (x :: seen) xs = xs := by
      refine firstSeen_nodup xs (x :: seen) hxs ?_
      intro y hy hmem
      rcases List.mem_cons.1 hmem with rfl | hmem
      · exact hx hy
      · exact hnew y (List.mem_cons_of_mem _ hy) hmem
    rw [firstSeen, if_neg (hnew x (List.mem_cons_self ..)), hrest]

/-- Distinct samples that are counted pass the checks of `sample_infohashes`. -/
theorem decodeSample_ok {r : ResponseArgs} {samples : List SwarmKey} {num encodedLen : Nat}
    (nodes : List DiscoveredNode) (hsamples : r.samples = some samples)
    (hinterval : r.interval = some SAMPLE_INTERVAL) (hnum : r.num = some num)
    (hdistinct : samples.Nodup) (hcounted : samples.length ≤ num) (hlen : encodedLen ≤ 1024) :
    decodeSample r nodes encodedLen = .ok (some ⟨nodes, SAMPLE_INTERVAL, num, samples⟩) := by
  have hall : firstSeen [] samples = samples := firstSeen_nodup samples [] hdistinct (by simp)
  have hfilter : r.interval.filter (fun n => decide (n ≤ 21600)) = some SAMPLE_INTERVAL := by
    rw [hinterval]
    rfl
  unfold decodeSample
  rw [if_neg (Nat.not_lt.2 hlen), hsamples, hfilter, hnum]
  simp only [hall]
  rw [if_neg (Nat.not_lt.2 hcounted)]

/-! ## Runs -/

/-- What happens to a node. -/
inductive ResponderEvent where
  | routing (op : RoutingTable.Op) (now : Nat)
  | announce (ip : IpAddr) (port : BitVec 16) (hash : SwarmKey) (now : Nat)
  | expire (now budget : Nat)
  | validate (ip : IpAddr) (token : TokenBytes) (now : Nat) (drawn : Except TokenError Secret)
  | getPeers (source : SocketAddr) (t : List UInt8) (args : QueryArgs) (now : Nat)
      (drawn : Except TokenError Secret) (rng : Rng)
  | sampleInfohashes (source : SocketAddr) (t : List UInt8) (args : QueryArgs) (now : Nat) (rng : Rng)

namespace Responder

/-- A node that starts. -/
def start (localId : NodeId) (family : AddressFamily) (now : Nat) (peers : PeerStore)
    (tokens : TokenManager) (maxMessageSize : Nat) : Responder :=
  ⟨.new localId family now, peers, ⟨none, []⟩, tokens, maxMessageSize⟩

section Runs

variable (hmac : Secret → List UInt8 → TokenBytes)

/-- The node after an event; `none` is a panic. -/
def step (s : Responder) : ResponderEvent → Option Responder
  | .routing op now => (s.routing.apply op now).map (fun out => { s with routing := out.2 })
  | .announce ip port hash now =>
    (s.peers.announce hash (.new ip port) now).map (fun out => { s with peers := out.2 })
  | .expire now budget => (s.peers.expire now budget).map (fun peers => { s with peers := peers })
  | .validate ip token now drawn =>
    some { s with tokens := (s.tokens.validate hmac ip token now drawn).2 }
  | .getPeers source t args now drawn rng =>
    some (s.handleGetPeers hmac source t args now drawn rng).1
  | .sampleInfohashes source t args now rng =>
    some (s.handleSampleInfohashes source t args now rng).1

/-- The node after some events. -/
def run (s : Responder) : List ResponderEvent → Option Responder
  | [] => some s
  | event :: rest => (s.step hmac event).bind (fun s => run s rest)

end Runs

variable {hmac : Secret → List UInt8 → TokenBytes} {s s' : Responder} {family : AddressFamily}
  {config : PeerStoreConfig}

/-- What holds of a node in every run. -/
structure Valid (family : AddressFamily) (config : PeerStoreConfig) (s : Responder) : Prop where
  shape : s.routing.Shape
  family_eq : s.routing.addressFamily = family
  peers : s.peers.Sound config
  distinct : s.samples.hashes.Nodup
  few : s.samples.hashes.length ≤ MAX_SAMPLES

theorem getPeers_fields (s : Responder) (source : SocketAddr) (t : List UInt8) (args : QueryArgs)
    (now : Nat) (drawn : Except TokenError Secret) (rng : Rng) :
    (s.handleGetPeers hmac source t args now drawn rng).1 =
      { s with tokens := (s.handleGetPeers hmac source t args now drawn rng).1.tokens } := by
  unfold handleGetPeers
  split
  · rfl
  · split
    · rfl
    · split
      · rfl
      · rfl

/-- A query for samples changes the samples only, as `sample` does. -/
theorem sampleInfohashes_fields (s : Responder) (source : SocketAddr) (t : List UInt8)
    (args : QueryArgs) (now : Nat) (rng : Rng) :
    (s.handleSampleInfohashes source t args now rng).1 = s ∨
      (s.handleSampleInfohashes source t args now rng).1 =
        { s with samples := (s.samples.sample s.peers now rng).1 } := by
  unfold handleSampleInfohashes
  split
  · exact .inl rfl
  · split
    · exact .inl rfl
    · exact .inr rfl

/-- **Every event keeps the invariant.** -/
theorem Valid.step (hsized : PeerStore.Sized config) (h : s.Valid family config)
    (event : ResponderEvent) (hs : s.step hmac event = some s') : s'.Valid family config := by
  cases event with
  | routing op now =>
    obtain ⟨⟨issued, table⟩, heq, rfl⟩ := Option.map_eq_some_iff.1 hs
    exact { h with
      shape := RoutingTable.apply_shape h.shape heq
      family_eq := (RoutingTable.apply_fields h.shape heq).2.trans h.family_eq }
  | announce ip port hash now =>
    obtain ⟨out, heq, rfl⟩ := Option.map_eq_some_iff.1 hs
    obtain ⟨peers, hpeers, hsound⟩ := h.peers.step hsized (.announce hash (.new ip port) now)
    simp only [PeerStore.step, heq, Option.map_some, Option.some.injEq] at hpeers
    subst hpeers
    exact { h with peers := hsound }
  | expire now budget =>
    obtain ⟨peers, heq, rfl⟩ := Option.map_eq_some_iff.1 hs
    obtain ⟨peers', hpeers, hsound⟩ := h.peers.step hsized (.expire now budget)
    simp only [PeerStore.step, heq, Option.some.injEq] at hpeers
    subst hpeers
    exact { h with peers := hsound }
  | validate ip token now drawn =>
    cases hs
    exact { h with }
  | getPeers source t args now drawn rng =>
    cases hs
    rw [getPeers_fields]
    exact { h with }
  | sampleInfohashes source t args now rng =>
    cases hs
    rcases sampleInfohashes_fields s source t args now rng with heq | heq
    · rw [heq]
      exact h
    · obtain ⟨hsampled, hkept⟩ := sample_sampled h.peers.consistent h.distinct h.few now rng
      rw [heq]
      exact { h with
        distinct := hkept ▸ hsampled.distinct
        few := hkept ▸ hsampled.few }

theorem Valid.run (hsized : PeerStore.Sized config) : ∀ (events : List ResponderEvent)
    {s s' : Responder}, s.Valid family config → s.run hmac events = some s' →
      s'.Valid family config
  | [], _, _, h, hs => by
    cases hs
    exact h
  | event :: rest, s, s', h, hs => by
    obtain ⟨s₁, hstep, hrest⟩ := Option.bind_eq_some_iff.1 hs
    exact Valid.run hsized rest (h.step hsized event hstep) hrest

theorem start_valid {localId : NodeId} {now : Nat} {peers : PeerStore} {tokens : TokenManager}
    {maxMessageSize : Nat} (h : peers.Sound config) :
    (start localId family now peers tokens maxMessageSize).Valid family config :=
  ⟨RoutingTable.new_shape _ _ _, rfl, h, List.nodup_nil, Nat.zero_le _⟩

/-! ## Periods of the samples -/

/-- The samples of one state and of a later one: in the same period, or drawn again. -/
def Later (c c' : SampleCache) : Prop :=
  (c'.generatedAt = c.generatedAt ∧ c'.hashes.Sublist c.hashes) ∨
    ∃ drawn, c'.generatedAt = some drawn ∧
      ∀ generated, c.generatedAt = some generated → generated < drawn

theorem Later.refl (c : SampleCache) : Later c c := .inl ⟨rfl, List.Sublist.refl _⟩

theorem Later.trans {c c' c'' : SampleCache} (h : Later c c') (h' : Later c' c'') : Later c c'' := by
  rcases h with ⟨hsame, hsub⟩ | ⟨drawn, hdrawn, hlt⟩
  · rcases h' with ⟨hsame', hsub'⟩ | ⟨drawn', hdrawn', hlt'⟩
    · exact .inl ⟨hsame'.trans hsame, hsub'.trans hsub⟩
    · exact .inr ⟨drawn', hdrawn', fun g hg => hlt' g (hsame.trans hg)⟩
  · rcases h' with ⟨hsame', -⟩ | ⟨drawn', hdrawn', hlt'⟩
    · exact .inr ⟨drawn, hsame'.trans hdrawn, hlt⟩
    · exact .inr ⟨drawn', hdrawn', fun g hg => (hlt g hg).trans (hlt' drawn hdrawn)⟩

/-- A later state of the same period has lost elements only. -/
theorem Later.sublist {c c' : SampleCache} (h : Later c c') (hsame : c'.generatedAt = c.generatedAt) :
    c'.hashes.Sublist c.hashes := by
  rcases h with ⟨-, hsub⟩ | ⟨drawn, hdrawn, hlt⟩
  · exact hsub
  · exact absurd (hlt drawn (hsame.symm.trans hdrawn)) (Nat.lt_irrefl drawn)

theorem later_sample (c : SampleCache) (peers : PeerStore) (now : Nat) (rng : Rng) :
    Later c (c.sample peers now rng).1 := by
  rcases sample_sublist c peers now rng with hsame | ⟨hdue, hdrawn⟩
  · exact .inl hsame
  · refine .inr ⟨now, hdrawn, ?_⟩
    intro generated hgenerated
    unfold SampleCache.due at hdue
    rw [hgenerated, Option.all_some, decide_eq_true_eq] at hdue
    unfold SAMPLE_INTERVAL at hdue
    omega

theorem later_step {event : ResponderEvent} (hs : s.step hmac event = some s') :
    Later s.samples s'.samples := by
  cases event with
  | routing op now =>
    obtain ⟨out, -, rfl⟩ := Option.map_eq_some_iff.1 hs
    exact .refl _
  | announce ip port hash now =>
    obtain ⟨out, -, rfl⟩ := Option.map_eq_some_iff.1 hs
    exact .refl _
  | expire now budget =>
    obtain ⟨out, -, rfl⟩ := Option.map_eq_some_iff.1 hs
    exact .refl _
  | validate ip token now drawn =>
    cases hs
    exact .refl _
  | getPeers source t args now drawn rng =>
    cases hs
    rw [getPeers_fields]
    exact .refl _
  | sampleInfohashes source t args now rng =>
    cases hs
    rcases sampleInfohashes_fields s source t args now rng with heq | heq
    · rw [heq]
      exact .refl _
    · rw [heq]
      exact later_sample s.samples s.peers now rng

theorem later_run : ∀ (events : List ResponderEvent) {s s' : Responder},
    s.run hmac events = some s' → Later s.samples s'.samples
  | [], _, _, hs => by
    cases hs
    exact .refl _
  | event :: rest, s, s', hs => by
    obtain ⟨s₁, hstep, hrest⟩ := Option.bind_eq_some_iff.1 hs
    exact (later_step hstep).trans (later_run rest hrest)

/-! ## Replies -/

theorem sendError_response {maxMessageSize : Nat} {destination : SocketAddr} {t : List UInt8}
    {code : KrpcErrorCode} {explanation : String} {m : KrpcMessage}
    (h : sendError maxMessageSize destination t code explanation = some m) : m.r = none := by
  unfold sendError at h
  simp only at h
  split at h
  · cases h
    rfl
  · cases h

/-- A response to `find_node` was sent by `send_response`. -/
theorem findNode_sent {source : SocketAddr} {t : List UInt8} {args : QueryArgs} {now : Nat}
    {m : KrpcMessage} {r : ResponseArgs} (h : s.handleFindNode source t args now = some m)
    (hr : m.r = some r) : ∃ target,
      sendResponse s.maxMessageSize source t (nodeResponse s.routing target args.want now) = some m := by
  unfold handleFindNode at h
  split at h
  · rw [sendError_response h] at hr
    cases hr
  · rename_i target _
    split at h
    · rw [sendError_response h] at hr
      cases hr
    · exact ⟨target, h⟩

/-- A response to `get_peers` was sent by `send_response`, with a token. -/
theorem getPeers_sent {source : SocketAddr} {t : List UInt8} {args : QueryArgs} {now : Nat}
    {drawn : Except TokenError Secret} {rng : Rng} {m : KrpcMessage} {r : ResponseArgs}
    (h : (s.handleGetPeers hmac source t args now drawn rng).2 = some m) (hr : m.r = some r) :
    ∃ hash key, sendResponse s.maxMessageSize source t
      (s.peersResponse hash args.want (TokenManager.mac hmac key source.ip) now rng) = some m := by
  unfold handleGetPeers at h
  split at h
  · rw [sendError_response h] at hr
    cases hr
  · rename_i hash _
    split at h
    · rw [sendError_response h] at hr
      cases hr
    · split at h
      · rw [sendError_response h] at hr
        cases hr
      · rename_i token tokens hissue
        unfold TokenManager.issue at hissue
        split at hissue
        · cases hissue
        · cases hissue
          exact ⟨hash, tokens.current, h⟩

/-- A response to `sample_infohashes` was sent by `send_response`, and the cache is as `sample` has
left it. -/
theorem sampleInfohashes_sent {source : SocketAddr} {t : List UInt8} {args : QueryArgs} {now : Nat}
    {rng : Rng} {m : KrpcMessage} {r : ResponseArgs}
    (h : (s.handleSampleInfohashes source t args now rng).2 = some m) (hr : m.r = some r) :
    ∃ target, sendResponse s.maxMessageSize source t (s.sampleResponse target args.want
        (s.samples.sample s.peers now rng).2 now) = some m ∧
      (s.handleSampleInfohashes source t args now rng).1.samples =
        (s.samples.sample s.peers now rng).1 := by
  unfold handleSampleInfohashes at h ⊢
  split at h
  · rw [sendError_response h] at hr
    cases hr
  · rename_i target htarget
    split at h
    · rw [sendError_response h] at hr
      cases hr
    · rename_i hargs
      refine ⟨target, h, ?_⟩
      simp only [if_neg hargs]

/-- **A node accepts its own replies.** In every run a response to a query without `want` that is sent
passes the checks of a node of the same family. The samples that are sent are distinct, active and few,
they are counted, and they are the first of the cached ones, which a reply does not shorten; within a
period the cached ones only lose elements. -/
theorem own_replies_accepted (hmac : Secret → List UInt8 → TokenBytes)
    (hhmac : ∀ key message, (hmac key message).length = 32) (config : PeerStoreConfig)
    (family : AddressFamily) (localId : NodeId) (begun : Nat) (peers : PeerStore)
    (tokens : TokenManager) (maxMessageSize : Nat)
    (hnew : PeerStore.new config family begun = .ok peers) (events : List ResponderEvent)
    (s : Responder)
    (hrun : (start localId family begun peers tokens maxMessageSize).run hmac events = some s)
    (now : Nat) (source : SocketAddr) (t : List UInt8) (args : QueryArgs) (hwant : args.want = [])
    (drawn : Except TokenError Secret) (rng : Rng) :
    (∀ m r, s.handleFindNode source t args now = some m → m.r = some r →
      ∃ answer, r.received.map (decodeFindNodeResponse family) = some (.ok answer)) ∧
    (∀ m r, (s.handleGetPeers hmac source t args now drawn rng).2 = some m → m.r = some r →
      ∀ policy otherId, ∃ answer,
        r.received.map (decodePeers family policy otherId) = some (.ok answer)) ∧
    (∀ m r, (s.handleSampleInfohashes source t args now rng).2 = some m → m.r = some r →
      ∃ answer samples num bytes, r.samples = some samples ∧ r.num = some num ∧
        m.toBytes = some bytes ∧
        r.received.map (decodeFindNodeResponse family) = some (.ok answer) ∧
        r.received.map (fun r => decodeSample r answer.2 bytes.length) =
          some (.ok (some ⟨answer.2, SAMPLE_INTERVAL, num, samples⟩)) ∧
        samples.Nodup ∧ (∀ hash ∈ samples, s.peers.containsActiveInfohash hash now = true) ∧
        samples.length ≤ 32 ∧ samples.length ≤ num ∧
        samples <+: (s.handleSampleInfohashes source t args now rng).1.samples.hashes ∧
        (s.handleSampleInfohashes source t args now rng).1.samples.hashes =
          (s.samples.sample s.peers now rng).2) ∧
    (∀ events' s', s.run hmac events' = some s' → s'.samples.generatedAt = s.samples.generatedAt →
      s'.samples.hashes.Sublist s.samples.hashes) := by
  obtain ⟨hsized, hsound⟩ := PeerStore.sound_new hnew
  have hvalid : s.Valid family config := Valid.run hsized events (start_valid hsound) hrun
  have hnodes : ∀ target, HasNodes family (nodeResponse s.routing target args.want now) := by
    intro target
    rw [hwant, ← hvalid.family_eq]
    exact hasNodes_nodeResponse s.routing target now
  refine ⟨?_, ?_, ?_, ?_⟩
  · intro m r hm hr
    obtain ⟨target, hsent⟩ := findNode_sent hm hr
    obtain ⟨r', bytes, rfl, htrimmed, hplain, -, -⟩ := sendResponse_spec hsent
    cases hr
    obtain ⟨answer, hanswer⟩ := ((hnodes target).trimmed htrimmed).decodes
    exact ⟨answer, by rw [received_eq hplain, Option.map_some, hanswer]⟩
  · intro m r hm hr policy otherId
    obtain ⟨hash, key, hsent⟩ := getPeers_sent hm hr
    obtain ⟨r', bytes, rfl, htrimmed, hplain, -, -⟩ := sendResponse_spec hsent
    cases hr
    have hhas : HasNodes family (s.peersResponse hash args.want
        (TokenManager.mac hmac key source.ip) now rng) := by
      have hbase := hnodes hash
      cases family with
      | ipv4 => exact hbase
      | ipv6 => exact hbase
    obtain ⟨answer, hanswer⟩ := (hhas.trimmed htrimmed).decodesPeers htrimmed.token
      (hhmac key (macMessage source.ip)) policy otherId
    exact ⟨answer, by rw [received_eq hplain, Option.map_some, hanswer]⟩
  · intro m r hm hr
    obtain ⟨target, hsent, hcache⟩ := sampleInfohashes_sent hm hr
    obtain ⟨r', bytes, rfl, htrimmed, hplain, hbytes, hlen⟩ := sendResponse_spec hsent
    cases hr
    have hhas : HasNodes family (s.sampleResponse target args.want
        (s.samples.sample s.peers now rng).2 now) := by
      have hbase := hnodes target
      cases family with
      | ipv4 => exact hbase
      | ipv6 => exact hbase
    obtain ⟨answer, hanswer⟩ := (hhas.trimmed htrimmed).decodes
    obtain ⟨hsampled, hkept⟩ :=
      sample_sampled hvalid.peers.consistent hvalid.distinct hvalid.few now rng
    obtain ⟨samples, hsamples, hfirst⟩ : ∃ samples, r.samples = some samples ∧
        samples <+: (s.samples.sample s.peers now rng).2 := by
      rcases htrimmed.samples with ⟨hnone, -⟩ | ⟨l, l', hl, hl', hfirst⟩
      · cases hnone
      · cases hl
        exact ⟨l', hl', hfirst⟩
    have hdistinct : samples.Nodup := hfirst.sublist.nodup hsampled.distinct
    have hactive : ∀ hash ∈ samples, s.peers.containsActiveInfohash hash now = true :=
      fun hash hhash => hsampled.active hash (hfirst.subset hhash)
    have hcounted := counted_of_active hvalid.peers.consistent hdistinct hactive
    have hfew : samples.length ≤ 32 := hfirst.length_le.trans hsampled.few
    refine ⟨answer, samples, s.peers.activeInfohashCount now, bytes, hsamples, htrimmed.num, hbytes,
      ?_, ?_, hdistinct, hactive, hfew, hcounted, ?_, ?_⟩
    · rw [received_eq hplain, Option.map_some, hanswer]
    · rw [received_eq hplain, Option.map_some]
      exact congrArg some (decodeSample_ok answer.2 hsamples htrimmed.interval htrimmed.num hdistinct
        hcounted (by omega))
    · rw [hcache, hkept]
      exact hfirst
    · rw [hcache, hkept]
  · intro events' s' hrun' hsame
    exact (later_run events' hrun').sublist hsame

/-- The choice of the first elements in their order. -/
def firstChoice : Rng where
  sample := fun xs n => xs.take n
  shuffle := fun xs => xs
  sample_subperm := fun xs n => (List.take_sublist n xs).subperm
  length_sample := fun _ _ => List.length_take
  shuffle_perm := fun xs => .refl xs

/-- A query for samples. -/
def askSamples : QueryArgs := ⟨7, some 3, none, none, none, none, []⟩

def smallStore : PeerStoreConfig := ⟨1800000000000, 4, 8, 4, 4, .publicOnly⟩

/-- The state after one announce. -/
def announced : Option Responder :=
  (start 1 .ipv4 0 ⟨smallStore, .ipv4, .empty, .empty, .empty⟩ ⟨0, none, 0⟩ 1400).run
    (fun _ _ => List.replicate 32 0) [.announce (.v4 0x08080808) 6881 5 1000]

/-- The hash of an announce is sent as a sample, and the sample is accepted. -/
theorem own_replies_accepted_announce : ∃ s m r, announced = some s ∧
    (s.handleSampleInfohashes (.v4 0x01010101 6881) [97] askSamples 2000 firstChoice).2 = some m ∧
    m.r = some r ∧ ∃ answer bytes, r.samples = some [5] ∧ m.toBytes = some bytes ∧
      r.received.map (fun r => decodeSample r answer bytes.length) =
        some (.ok (some ⟨answer, 300, 1, [5]⟩)) := by
  have hall : announced.any (fun s =>
      (s.handleSampleInfohashes (.v4 0x01010101 6881) [97] askSamples 2000 firstChoice).2.any
        (fun m => m.r.any (fun r => decide (r.samples = some [5] ∧ r.num = some 1)))) = true := by
    decide +kernel
  obtain ⟨s, hs, hall⟩ := (Option.any_eq_true _ _).1 hall
  obtain ⟨m, hm, hall⟩ := (Option.any_eq_true _ _).1 hall
  obtain ⟨r, hr, hall⟩ := (Option.any_eq_true _ _).1 hall
  obtain ⟨hsamples, hnum⟩ := of_decide_eq_true hall
  obtain ⟨-, -, haccepted, -⟩ := own_replies_accepted (fun _ _ => List.replicate 32 0)
    (fun _ _ => List.length_replicate) smallStore .ipv4 1 0 _ ⟨0, none, 0⟩ 1400 rfl
    [.announce (.v4 0x08080808) 6881 5 1000] s hs 2000 (.v4 0x01010101 6881) [97] askSamples rfl
    (.ok 0) firstChoice
  obtain ⟨answer, samples, num, bytes, hsamples', hnum', hbytes, -, hdecode, -⟩ :=
    haccepted m r hm hr
  rw [hsamples] at hsamples'
  rw [hnum] at hnum'
  cases hsamples'
  cases hnum'
  exact ⟨s, m, r, hs, hm, hr, answer.2, bytes, hsamples, hbytes, hdecode⟩

end Responder

end BtSniffer
