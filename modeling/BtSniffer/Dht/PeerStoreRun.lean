import BtSniffer.Dht.PeerStoreAnnounce

/-!
# Runs of the peer store

* `Sound.run` — every run keeps the indexes and the capacities, and none panics.
* `sum_sizes` — `expiry` has as many entries as the groups have peers.
* `peer_store_invariant` — the store after every run.
-/

set_option autoImplicit false

namespace BtSniffer

open Relational

namespace PeerStore

variable {s s' t : PeerStore}

/-! ## Runs -/

/-- A call. -/
inductive PeerOp where
  | announce (hash : SwarmKey) (address : SocketAddr) (now : Nat)
  | expire (now : Nat) (budget : Nat)

/-- The store after a call; `none` is a panic. -/
def step (s : PeerStore) : PeerOp → Option PeerStore
  | .announce hash address now => (s.announce hash address now).map Prod.snd
  | .expire now budget => s.expire now budget

/-- The store after a list of calls. -/
def run (s : PeerStore) : List PeerOp → Option PeerStore
  | [] => some s
  | op :: rest => (s.step op).bind (fun s => run s rest)

/-- What holds of every store a run reaches. -/
structure Sound (config : PeerStoreConfig) (s : PeerStore) : Prop where
  config_eq : s.config = config
  consistent : s.Consistent
  bounded : s.Bounded

variable {config : PeerStoreConfig}

/-- **One call** does not panic and keeps the invariant. -/
theorem Sound.step (hsized : Sized config) (h : s.Sound config) (op : PeerOp) :
    ∃ s', s.step op = some s' ∧ s'.Sound config := by
  cases op with
  | announce hash address now =>
    obtain ⟨result, s', hs', hc, hb, hconfig, -⟩ :=
      h.consistent.announce h.bounded (h.config_eq ▸ hsized) hash address now
    exact ⟨s', by simp [PeerStore.step, hs'], hconfig.trans h.config_eq, hc, hb⟩
  | expire now budget =>
    obtain ⟨s', hs', hdrops⟩ := h.consistent.expire now budget
    exact ⟨s', hs', hdrops.config.trans h.config_eq, hdrops.consistent,
      hdrops.bounded h.consistent h.bounded⟩

/-- **Every run** does not panic and keeps the invariant. -/
theorem Sound.run (hsized : Sized config) : ∀ (ops : List PeerOp) {s : PeerStore},
    s.Sound config → ∃ s', s.run ops = some s' ∧ s'.Sound config
  | [], s, h => ⟨s, rfl, h⟩
  | op :: rest, s, h => by
    obtain ⟨s', hs', h'⟩ := h.step hsized op
    obtain ⟨t, ht, h''⟩ := Sound.run hsized rest h'
    exact ⟨t, by simp [PeerStore.run, hs', ht], h''⟩

theorem sound_new {family : AddressFamily} {now : Nat}
    (h : PeerStore.new config family now = .ok s) : Sized config ∧ s.Sound config := by
  unfold PeerStore.new at h
  split at h
  · cases h
  · rename_i hvalid
    cases h
    simp only [refusesConfig, Bool.or_eq_true, beq_iff_eq, decide_eq_true_eq, not_or] at hvalid
    refine ⟨⟨by omega, by omega, by omega⟩, rfl, ⟨?_, ?_, ?_⟩, ⟨Nat.zero_le _, ?_, Nat.zero_le _⟩⟩
    · intro d x a
      simp [deadline?]
    · intro x g hg
      cases hg
    · intro d x
      simp
    · intro x
      exact Nat.zero_le _

/-! ## Counting -/

/-- The entries of `expiry`, read off the groups. -/
def entries (s : PeerStore) : List ExpiryEntry :=
  s.peers.rows.flatMap (fun g => g.members.rows.map (fun p => ⟨p.deadline, g.hash, p.address⟩))

theorem mem_entries {e : ExpiryEntry} :
    e ∈ s.entries ↔ s.deadline? e.hash e.address = some e.deadline := by
  unfold entries
  rw [List.mem_flatMap, deadline?_eq_some]
  constructor
  · rintro ⟨g, hg, he⟩
    obtain ⟨p, hp, rfl⟩ := List.mem_map.1 he
    exact ⟨g, Table.get?_key hg, Table.get?_key hp⟩
  · rintro ⟨g, hg, hp⟩
    obtain ⟨hmem, hhash⟩ := Table.get?_eq_some.1 hg
    exact ⟨g, hmem, List.mem_map.2 ⟨_, (Table.get?_eq_some.1 hp).1, by rw [hhash]⟩⟩

theorem nodup_entries (s : PeerStore) : s.entries.Nodup := by
  unfold entries
  rw [List.nodup_flatMap]
  refine ⟨fun g _ => ?_, ?_⟩
  · refine List.Nodup.map_on ?_ g.members.nodup_rows
    intro p hp q hq he
    exact Table.eq_of_key hp hq (congrArg ExpiryEntry.address he)
  · have hhash : s.peers.rows.Pairwise (fun a b => a.hash ≠ b.hash) := List.pairwise_map.1 s.peers.nodup
    refine hhash.imp ?_
    intro a b hab e ha hb
    obtain ⟨p, -, rfl⟩ := List.mem_map.1 ha
    obtain ⟨q, -, he⟩ := List.mem_map.1 hb
    exact hab (congrArg ExpiryEntry.hash he).symm

/-- The index has as many entries as the groups have peers. -/
theorem Consistent.sum_sizes (h : s.Consistent) :
    (s.peers.rows.map (fun g => g.members.rows.length)).sum = s.expiry.len := by
  have hperm : s.entries.Perm s.expiry.elems := by
    rw [List.perm_ext_iff_of_nodup s.nodup_entries s.expiry.nodup]
    exact fun e => mem_entries.trans (h.expiry e.deadline e.hash e.address).symm
  unfold OrdSet.len
  rw [← hperm.length_eq, entries, List.length_flatMap]
  simp only [List.length_map]

theorem Consistent.mem_active (h : s.Consistent) {hash : SwarmKey} {now : Nat} :
    hash ∈ s.activeInfohashes now ↔ s.containsActiveInfohash hash now = true := by
  unfold activeInfohashes containsActiveInfohash
  simp only [List.mem_map, List.mem_filter, decide_eq_true_eq, Option.any_eq_true, List.any_eq_true]
  constructor
  · rintro ⟨⟨d, x⟩, ⟨he, hd⟩, rfl⟩
    obtain ⟨g, hg, hlatest⟩ := (h.hashes d x).1 he
    obtain ⟨⟨p, hp, rfl⟩, -⟩ := Group.latest_eq_some.1 hlatest
    exact ⟨g, hg, p, hp, hd⟩
  · rintro ⟨g, hg, p, hp, hd⟩
    obtain ⟨d, hlatest⟩ := Group.latest_of_nonempty (h.nonempty hash g hg)
    have hle := (Group.latest_eq_some.1 hlatest).2 p hp
    have hlate : d > now := by omega
    exact ⟨⟨d, hash⟩, ⟨(h.hashes d hash).2 ⟨g, hg, hlatest⟩, hlate⟩, rfl⟩

/-- A hash is listed once. -/
theorem Consistent.nodup_active (h : s.Consistent) (now : Nat) : (s.activeInfohashes now).Nodup := by
  unfold activeInfohashes
  refine List.Nodup.map_on ?_ (s.hashes.nodup.filter _)
  rintro ⟨d, x⟩ he ⟨d', x'⟩ he' rfl
  obtain ⟨g, hg, hd⟩ := (h.hashes d x).1 (List.mem_filter.1 he).1
  obtain ⟨g', hg', hd'⟩ := (h.hashes d' x).1 (List.mem_filter.1 he').1
  rw [hg] at hg'
  cases hg'
  rw [hd] at hd'
  cases hd'
  rfl

theorem Consistent.active_count (h : s.Consistent) (now : Nat) : s.activeInfohashCount now =
    (s.peers.rows.filter (fun g => g.members.rows.any (fun p => decide (now < p.deadline)))).length := by
  have hnodup : ((s.peers.rows.filter (fun g =>
      g.members.rows.any (fun p => decide (now < p.deadline)))).map Group.hash).Nodup :=
    s.peers.nodup.sublist (List.Sublist.map _ List.filter_sublist)
  have hperm : (s.activeInfohashes now).Perm ((s.peers.rows.filter (fun g =>
      g.members.rows.any (fun p => decide (now < p.deadline)))).map Group.hash) := by
    rw [List.perm_ext_iff_of_nodup (h.nodup_active now) hnodup]
    intro x
    rw [h.mem_active, List.mem_map]
    unfold containsActiveInfohash
    rw [Option.any_eq_true]
    constructor
    · rintro ⟨g, hg, hactive⟩
      obtain ⟨hmem, hhash⟩ := Table.get?_eq_some.1 hg
      exact ⟨g, List.mem_filter.2 ⟨hmem, hactive⟩, hhash⟩
    · rintro ⟨g, hg, rfl⟩
      obtain ⟨hmem, hactive⟩ := List.mem_filter.1 hg
      exact ⟨g, Table.get?_key hmem, hactive⟩
  unfold activeInfohashCount
  rw [hperm.length_eq, List.length_map]

/-- **The peer store.**  For every configuration `new` accepts and every sequence of announcements and
expirations at any times and with any budgets, no call panics, and of the store they lead to:

* `expiry` holds exactly the peers, and `hashes` exactly the latest deadline of each group;
* no group is empty, and the three capacities hold;
* a further announcement that succeeds stores its peer until `now + ttl` and evicts, besides expired
  peers, nothing, one other group (if the hash is new and `max_hashes` groups are there), the oldest
  peer of the group (if it is full) or the oldest peer of all (if the store is full); a renewal evicts
  nothing; one that fails changes nothing;
* at every time the active hashes are the groups with a peer whose time has not come. -/
theorem peer_store_invariant (config : PeerStoreConfig) (family : AddressFamily) (start : Nat)
    (s₀ : PeerStore) (hnew : PeerStore.new config family start = .ok s₀) (ops : List PeerOp) :
    ∃ s, s₀.run ops = some s ∧
      (∀ d h a, ⟨d, h, a⟩ ∈ s.expiry ↔
        ∃ g, s.peers.get? h = some g ∧ g.members.get? a = some ⟨a, d⟩) ∧
      (∀ g ∈ s.peers.rows, g.members.rows ≠ []) ∧
      (∀ d h, ⟨d, h⟩ ∈ s.hashes ↔ ∃ g, s.peers.get? h = some g ∧
        (∃ p ∈ g.members.rows, p.deadline = d) ∧ ∀ p ∈ g.members.rows, p.deadline ≤ d) ∧
      (s.peers.rows.length ≤ config.maxHashes ∧
        (s.peers.rows.map (fun g => g.members.rows.length)).sum ≤ config.maxPeers ∧
        ∀ g ∈ s.peers.rows, g.members.rows.length ≤ config.maxPeersPerHash) ∧
      (∀ hash address now, ∃ result s', s.announce hash address now = some (result, s') ∧
        (result = .ok () → s'.deadline? hash address = some (now + config.ttl) ∧
          (∀ x a d, ¬ (x = hash ∧ a = address) → s'.deadline? x a = some d →
            s.deadline? x a = some d) ∧
          (∃ X, Eviction s hash address X ∧ ∀ x a d, ¬ (x = hash ∧ a = address) →
            s.deadline? x a = some d → now < d → ¬ X x a → s'.deadline? x a = some d) ∧
          ((s.deadline? hash address).isSome → ∀ x a d, ¬ (x = hash ∧ a = address) →
            s.deadline? x a = some d → now < d → s'.deadline? x a = some d)) ∧
        ∀ e, result = .error e → s' = s) ∧
      (∀ now, s.activeInfohashCount now = (s.peers.rows.filter (fun g =>
          g.members.rows.any (fun p => decide (now < p.deadline)))).length ∧
        (s.activeInfohashes now).Nodup ∧
        ∀ hash, hash ∈ s.activeInfohashes now ↔ s.containsActiveInfohash hash now = true) := by
  obtain ⟨hsized, hsound⟩ := sound_new hnew
  obtain ⟨s, hs, hconfig, hc, hb⟩ := hsound.run hsized ops
  refine ⟨s, hs, ?_, ?_, ?_, ⟨?_, ?_, ?_⟩, ?_, ?_⟩
  · exact fun d h a => (hc.expiry d h a).trans deadline?_eq_some
  · exact fun g hg => hc.nonempty g.hash g (Table.get?_key hg)
  · intro d h
    rw [hc.hashes]
    simp only [Group.latest_eq_some]
  · exact hconfig ▸ hb.groups
  · rw [hc.sum_sizes, ← hconfig]
    exact hb.total
  · intro g hg
    rw [← hconfig, ← size_eq (Table.get?_key hg)]
    exact hb.size g.hash
  · intro hash address now
    obtain ⟨result, s', hs', -, -, -, hok, herror⟩ :=
      hc.announce hb (hconfig ▸ hsized) hash address now
    refine ⟨result, s', hs', fun hresult => ?_, herror⟩
    obtain ⟨hstored, hsub, X, heviction, hkept⟩ := hok hresult
    refine ⟨hconfig ▸ hstored, hsub, ⟨X, heviction, hkept⟩, ?_⟩
    intro hrenewal x a d hne hd hnow
    exact hkept x a d hne hd hnow (heviction.renewal hrenewal x a)
  · exact fun now => ⟨hc.active_count now, hc.nodup_active now, fun hash => hc.mem_active⟩

/-- The default configuration, with one announcement. -/
theorem peer_store_invariant_default :
    ∃ s, (⟨⟨1800000000000, 10000, 50000, 100, 32, .publicOnly⟩, .ipv4, .empty, .empty, .empty⟩ :
        PeerStore).run [.announce 1 (.v4 0x08080808 6881) 5] = some s ∧
      ∀ g ∈ s.peers.rows, g.members.rows ≠ [] := by
  obtain ⟨s, hs, -, hne, -⟩ := peer_store_invariant
    ⟨1800000000000, 10000, 50000, 100, 32, .publicOnly⟩ .ipv4 0 _ rfl
    [.announce 1 (.v4 0x08080808 6881) 5]
  exact ⟨s, hs, hne⟩

end PeerStore

end BtSniffer
