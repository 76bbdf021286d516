import BtSniffer.Dht.PeerStoreInv

/-!
# Announcements

* `Consistent.insertPeer` and the specifications of the three evictions.
* `Bounded` — the three capacities.
* `Eviction` — what an announcement may evict besides expired peers, and what it takes.
* `Consistent.announce` — what an announcement changes.
-/

set_option autoImplicit false

namespace BtSniffer

open Relational

namespace PeerStore

variable {s s' t : PeerStore}

/-! ## The new peer -/

/-- The indexes after the new peer was stored. -/
theorem Consistent.insertPeer (h : s.Consistent) {hash : SwarmKey} {address : SocketAddr}
    (habsent : s.deadline? hash address = none) (deadline : Nat) :
    ∃ s', s.insertPeer hash address deadline = some s' ∧ s'.Consistent ∧ s'.config = s.config ∧
      s'.family = s.family ∧
      (∀ x a, s'.deadline? x a =
        if x = hash ∧ a = address then some deadline else s.deadline? x a) ∧
      s'.expiry.len = s.expiry.len + 1 ∧ s'.size hash = s.size hash + 1 ∧
      (∀ x, x ≠ hash → s'.size x = s.size x) ∧
      s'.peers.rows.length = s.peers.rows.length + if (s.peers.get? hash).isSome then 0 else 1 := by
  -- the group before: as stored, or a new empty one
  obtain ⟨g, hg, hhash, hmembers⟩ : ∃ g : Group, (s.peers.get? hash).getD ⟨hash, .empty⟩ = g ∧
      g.hash = hash ∧ ∀ a, (g.members.get? a).map Peer.deadline = s.deadline? hash a := by
    cases hget : s.peers.get? hash with
    | none => exact ⟨_, rfl, rfl, fun a => by simp [deadline?, hget]⟩
    | some g =>
      exact ⟨g, rfl, (Table.get?_eq_some.1 hget).2, fun a => by simp [deadline?, hget]⟩
  have hsize : s.size hash = g.members.rows.length := by
    rw [← hg]
    unfold size
    cases s.peers.get? hash <;> rfl
  have hfree : g.members.get? address = none := by
    have := hmembers address
    rw [habsent] at this
    exact Option.map_eq_none_iff.1 this
  have hgrown : (g.members.insert ⟨address, deadline⟩).rows =
      g.members.rows ++ [⟨address, deadline⟩] := Table.insert_of_none hfree
  obtain ⟨latest, hlatest⟩ : ∃ latest,
      Group.latest ⟨g.hash, g.members.insert ⟨address, deadline⟩⟩ = some latest := by
    refine Group.latest_of_nonempty ?_
    rw [show (⟨g.hash, g.members.insert ⟨address, deadline⟩⟩ : Group).members.rows = _ from hgrown]
    simp
  have hold : ∀ d, ⟨d, hash⟩ ∈ s.hashes ↔ g.latest = some d := by
    intro d
    rw [h.hashes, ← hg]
    cases hget : s.peers.get? hash with
    | none =>
      simp only [reduceCtorEq, false_and, exists_false, Option.getD_none, false_iff]
      rw [Group.latest_eq_none.2 rfl]
      simp
    | some g' => simp
  -- the entry of the group is dropped from the hashes, if there was one
  obtain ⟨dropped, hafter, hdrop⟩ : ∃ dropped, s.insertPeer hash address deadline = some { s with
        peers := s.peers.insert ⟨g.hash, g.members.insert ⟨address, deadline⟩⟩
        hashes := OrdSet.insert dropped ⟨latest, hash⟩
        expiry := s.expiry.insert ⟨deadline, hash, address⟩ } ∧
      ∀ d x, ⟨d, x⟩ ∈ dropped ↔ ⟨d, x⟩ ∈ s.hashes ∧ x ≠ hash := by
    cases hgl : g.latest with
    | none =>
      refine ⟨s.hashes, ?_, fun d x => ⟨fun hm => ⟨hm, ?_⟩, fun hm => hm.1⟩⟩
      · unfold PeerStore.insertPeer
        simp only [hg, hgl, hlatest]
      · rintro rfl
        rw [hold, hgl] at hm
        cases hm
    | some l =>
      refine ⟨s.hashes.remove ⟨l, hash⟩, ?_, fun d x => ?_⟩
      · unfold PeerStore.insertPeer
        simp only [hg, hgl, hlatest]
      · simp only [OrdSet.mem_remove, ne_eq, HashEntry.mk.injEq, not_and]
        refine and_congr_right (fun hm => ⟨?_, fun hne _ => hne⟩)
        rintro himp rfl
        rw [hold, hgl] at hm
        cases hm
        exact himp rfl rfl
  let after : PeerStore := { s with
    peers := s.peers.insert ⟨g.hash, g.members.insert ⟨address, deadline⟩⟩
    hashes := OrdSet.insert dropped ⟨latest, hash⟩
    expiry := s.expiry.insert ⟨deadline, hash, address⟩ }
  have hpeers : ∀ x, after.peers.get? x =
      if x = hash then some ⟨g.hash, g.members.insert ⟨address, deadline⟩⟩
      else s.peers.get? x := by
    intro x
    simp only [after, Table.get?_insert, hhash, eq_comm (a := hash)]
  have hdead : ∀ x a, after.deadline? x a =
      if x = hash ∧ a = address then some deadline else s.deadline? x a := by
    intro x a
    by_cases hx : x = hash
    · subst hx
      have hgroup : after.deadline? x a =
          ((g.members.insert ⟨address, deadline⟩).get? a).map Peer.deadline := by
        rw [deadline?, hpeers, if_pos rfl]
        rfl
      rw [hgroup, Table.get?_insert]
      by_cases ha : address = a
      · simp [ha]
      · simp [ha, Ne.symm ha, hmembers]
    · rw [deadline?, hpeers, if_neg hx, if_neg (fun hc => hx hc.1)]
      rfl
  refine ⟨after, hafter, ?_, rfl, rfl, hdead, ?_, ?_, ?_, ?_⟩
  · refine h.replace hpeers ?_ ?_ ?_
    · intro g' hg' hnil
      cases hg'
      rw [Group.latest_eq_none.2 hnil] at hlatest
      cases hlatest
    · intro d x
      simp only [after, OrdSet.mem_insert, HashEntry.mk.injEq]
      rw [hdrop]
      by_cases hx : x = hash
      · simp [hx, hlatest, eq_comm]
      · simp [hx]
    · intro d x a
      rw [hdead]
      simp only [after, OrdSet.mem_insert, ExpiryEntry.mk.injEq, h.expiry]
      by_cases hxa : x = hash ∧ a = address
      · obtain ⟨rfl, rfl⟩ := hxa
        simp [habsent, eq_comm]
      · rw [if_neg hxa]
        exact ⟨fun hc => hc.resolve_left (fun hc => hxa ⟨hc.2.1, hc.2.2⟩), .inr⟩
  · refine OrdSet.len_insert ?_
    rw [h.expiry, habsent]
    simp
  · rw [hsize, size_eq (by rw [hpeers, if_pos rfl])]
    simp [hgrown]
  · intro x hx
    unfold size
    rw [hpeers, if_neg hx]
  · cases hget : s.peers.get? hash with
    | none =>
      have hnone : s.peers.get? (Group.hash ⟨g.hash, g.members.insert ⟨address, deadline⟩⟩) = none := by
        rw [show Group.hash ⟨g.hash, _⟩ = hash from hhash, hget]
      simp [after, Table.insert_of_none hnone]
    | some g' =>
      have hsome : s.peers.get? (Group.hash ⟨g.hash, g.members.insert ⟨address, deadline⟩⟩) =
          some g' := by
        rw [show Group.hash ⟨g.hash, _⟩ = hash from hhash, hget]
      simp [after, Table.length_insert_some hsome]

theorem Consistent.dropRecord (h : s.Consistent) (hash : SwarmKey) (address : SocketAddr) :
    ∃ s', s.dropRecord hash address = some s' ∧
      Drops s s' (fun x a _ => x = hash ∧ a = address) ∧ s'.deadline? hash address = none := by
  unfold PeerStore.dropRecord
  by_cases hsome : (s.deadline? hash address).isSome
  · rw [if_pos hsome]
    exact h.remove_drops hash address
  · rw [if_neg hsome]
    exact ⟨s, rfl, Drops.refl h, Option.not_isSome_iff_eq_none.1 hsome⟩

/-! ## Evictions -/

/-- The group eviction: of the group whose last peer expires first, if the hash is new and there is
no room for another. -/
theorem Consistent.evictGroup (h : s.Consistent) (hmax : 0 < s.config.maxHashes) (hash : SwarmKey) :
    ∃ s', s.evictGroup hash = some s' ∧
      ((s' = s ∧ ((s.peers.get? hash).isSome ∨ s.peers.rows.length < s.config.maxHashes)) ∨
        ∃ old, old ≠ hash ∧ s.peers.get? hash = none ∧ s.config.maxHashes ≤ s.peers.rows.length ∧
          (s.peers.get? old).isSome ∧ Drops s s' (fun x _ _ => x = old) ∧
          s'.peers.get? old = none) := by
  unfold PeerStore.evictGroup
  by_cases hfull : s.peers.get? hash = none ∧ s.config.maxHashes ≤ s.peers.rows.length
  · obtain ⟨hnone, hlen⟩ := hfull
    obtain ⟨g, hg⟩ := List.exists_mem_of_length_pos (show 0 < s.peers.rows.length by omega)
    obtain ⟨d, hd⟩ := Group.latest_of_nonempty (h.nonempty g.hash g (Table.get?_key hg))
    have hin : ⟨d, g.hash⟩ ∈ s.hashes := (h.hashes _ _).2 ⟨g, Table.get?_key hg, hd⟩
    cases hfirst : s.hashes.first with
    | none => exact absurd hin (OrdSet.first_eq_none.1 hfirst _)
    | some e =>
      obtain ⟨old, hold, -⟩ := (h.hashes e.deadline e.hash).1 (OrdSet.first_mem hfirst)
      obtain ⟨s', hs', hdrops, hgone⟩ :=
        h.removeAll e.hash (old.members.rows.map Peer.address)
      refine ⟨s', by simp [hnone, hlen, hold, hs'], .inr ⟨e.hash, ?_, hnone, hlen, by simp [hold],
        hdrops, ?_⟩⟩
      · rintro he
        rw [he, hnone] at hold
        cases hold
      · rw [← Option.not_isSome_iff_eq_none, hdrops.consistent.present_iff]
        rintro ⟨a, d', hd'⟩
        obtain ⟨g', hg', hp⟩ := deadline?_eq_some.1 (hdrops.sub _ _ _ hd')
        rw [hold] at hg'
        cases hg'
        rw [hgone a (List.mem_map.2 ⟨_, (Table.get?_eq_some.1 hp).1, rfl⟩)] at hd'
        cases hd'
  · have hroom : (s.peers.get? hash).isSome ∨ s.peers.rows.length < s.config.maxHashes := by
      rw [not_and_or, not_le] at hfull
      exact hfull.imp_left Option.ne_none_iff_isSome.1
    refine ⟨s, ?_, .inl ⟨rfl, hroom⟩⟩
    rw [if_neg]
    simpa using hfull

/-- The member eviction: of the oldest peer of the group, if the group is full. -/
theorem Consistent.evictMember (h : s.Consistent) (hmax : 0 < s.config.maxPeersPerHash)
    (hash : SwarmKey) : ∃ s', s.evictMember hash = some s' ∧
      ((s' = s ∧ s.size hash < s.config.maxPeersPerHash) ∨
        ∃ a₀ d₀, s.deadline? hash a₀ = some d₀ ∧ s.config.maxPeersPerHash ≤ s.size hash ∧
          (∀ a d, s.deadline? hash a = some d → d₀ ≤ d) ∧
          Drops s s' (fun x a _ => x = hash ∧ a = a₀) ∧ s'.deadline? hash a₀ = none) := by
  unfold PeerStore.evictMember
  cases hget : s.peers.get? hash with
  | none => exact ⟨s, rfl, .inl ⟨rfl, by simpa [size, hget] using hmax⟩⟩
  | some g =>
    have hsize := size_eq hget
    by_cases hfull : g.members.rows.length ≥ s.config.maxPeersPerHash
    · obtain ⟨p, hp⟩ := List.exists_mem_of_length_pos (show 0 < g.members.rows.length by omega)
      cases hsel : (g.members.select (fun _ => true) (Table.orderBy Peer.age) 1).head? with
      | none => exact absurd (Table.select_one_none hsel p hp) (by simp)
      | some q =>
        obtain ⟨hq, -, hleast⟩ := Table.select_one hsel
        obtain ⟨s', hs', hdrops, hgone⟩ := h.remove_drops hash q.address
        refine ⟨s', by simp [hfull, hsel, hs'], .inr ⟨q.address, q.deadline,
          deadline?_eq_some.2 ⟨g, hget, Table.get?_key hq⟩, by omega, ?_, hdrops, hgone⟩⟩
        intro a d hd
        obtain ⟨g', hg', hp'⟩ := deadline?_eq_some.1 hd
        rw [hget] at hg'
        cases hg'
        rcases hleast _ (Table.get?_eq_some.1 hp').1 rfl with heq | hle
        · rw [← heq]
        · have hlex : Peer.age q ≤ Peer.age ⟨a, d⟩ := hle
          unfold Peer.age at hlex
          rw [Prod.Lex.toLex_le_toLex] at hlex
          rcases hlex with hlt | ⟨heq, -⟩
          · exact Nat.le_of_lt hlt
          · exact Nat.le_of_eq heq
    · exact ⟨s, by simp [hfull], .inl ⟨rfl, by omega⟩⟩

/-- The last eviction: of the oldest peer, if the store is full. -/
theorem Consistent.evictOldest (h : s.Consistent) (hmax : 0 < s.config.maxPeers) :
    ∃ s', s.evictOldest = some s' ∧
      ((s' = s ∧ s.expiry.len < s.config.maxPeers) ∨
        ∃ x₀ a₀ d₀, s.deadline? x₀ a₀ = some d₀ ∧ s.config.maxPeers ≤ s.expiry.len ∧
          (∀ x a d, s.deadline? x a = some d → d₀ ≤ d) ∧
          Drops s s' (fun x a _ => x = x₀ ∧ a = a₀) ∧ s'.deadline? x₀ a₀ = none) := by
  unfold PeerStore.evictOldest
  by_cases hfull : s.expiry.len ≥ s.config.maxPeers
  · obtain ⟨e, hfirst⟩ := OrdSet.first_of_len (show 0 < s.expiry.len by omega)
    obtain ⟨s', hs', hdrops, hgone⟩ := h.remove_drops e.hash e.address
    refine ⟨s', by simp [hfull, hfirst, hs'], .inr ⟨e.hash, e.address, e.deadline,
      (h.expiry _ _ _).1 (OrdSet.first_mem hfirst), hfull, ?_, hdrops, hgone⟩⟩
    intro x a d hd
    have hfirstLe : e ≤ ⟨d, x, a⟩ := OrdSet.first_le hfirst ((h.expiry _ _ _).2 hd)
    have hle : e.rank ≤ ExpiryEntry.rank ⟨d, x, a⟩ := hfirstLe
    unfold ExpiryEntry.rank at hle
    rw [Prod.Lex.toLex_le_toLex] at hle
    rcases hle with hlt | ⟨heq, -⟩
    · exact Nat.le_of_lt hlt
    · exact Nat.le_of_eq heq
  · exact ⟨s, by simp [hfull], .inl ⟨rfl, by omega⟩⟩

/-! ## Announcements -/

/-- The capacities a configuration must have. -/
structure Sized (config : PeerStoreConfig) : Prop where
  hashes : 0 < config.maxHashes
  perHash : 0 < config.maxPeersPerHash
  peers : 0 < config.maxPeers

/-- The three capacities. -/
structure Bounded (s : PeerStore) : Prop where
  groups : s.peers.rows.length ≤ s.config.maxHashes
  size : ∀ x, s.size x ≤ s.config.maxPeersPerHash
  total : s.expiry.len ≤ s.config.maxPeers

theorem Drops.bounded {P : SwarmKey → SocketAddr → Nat → Prop} (h : Drops s s' P)
    (hs : s.Consistent) (hb : s.Bounded) : s'.Bounded where
  groups := h.config ▸ (h.groups_le hs).trans hb.groups
  size := fun x => h.config ▸ (h.size_le hs x).trans (hb.size x)
  total := h.config ▸ (h.total_le hs).trans hb.total

/-- What an announcement may evict, besides expired peers: nothing, one other group, the oldest peer
of the group, or the oldest peer of all.  Each needs the capacity it makes room for to be used up,
and the announced peer to be new. -/
inductive Eviction (s : PeerStore) (hash : SwarmKey) (address : SocketAddr) :
    (SwarmKey → SocketAddr → Prop) → Prop
  | nothing : Eviction s hash address (fun _ _ => False)
  | group (old : SwarmKey) (hne : old ≠ hash) (absent : s.peers.get? hash = none)
      (full : s.peers.rows.length = s.config.maxHashes) :
      Eviction s hash address (fun x _ => x = old)
  | member (a₀ : SocketAddr) (d₀ : Nat) (stored : s.deadline? hash a₀ = some d₀)
      (oldest : ∀ a d, s.deadline? hash a = some d → d₀ ≤ d)
      (fresh : s.deadline? hash address = none) (full : s.size hash = s.config.maxPeersPerHash) :
      Eviction s hash address (fun x a => x = hash ∧ a = a₀)
  | oldest (x₀ : SwarmKey) (a₀ : SocketAddr) (d₀ : Nat) (stored : s.deadline? x₀ a₀ = some d₀)
      (oldest : ∀ x a d, s.deadline? x a = some d → d₀ ≤ d)
      (fresh : s.deadline? hash address = none) (full : s.expiry.len = s.config.maxPeers) :
      Eviction s hash address (fun x a => x = x₀ ∧ a = a₀)

/-- A renewal evicts nothing. -/
theorem Eviction.renewal {hash : SwarmKey} {address : SocketAddr}
    {X : SwarmKey → SocketAddr → Prop} (h : Eviction s hash address X)
    (hstored : (s.deadline? hash address).isSome) : ∀ x a, ¬ X x a := by
  cases h with
  | nothing => exact fun x a hx => hx
  | group old hne absent full => simp [deadline?, absent] at hstored
  | member a₀ d₀ stored oldest fresh full => simp [fresh] at hstored
  | oldest x₀ a₀ d₀ stored oldest fresh full => simp [fresh] at hstored

/-- Nothing was dropped if the store is as large as before. -/
theorem Drops.same_total {P : SwarmKey → SocketAddr → Nat → Prop} (h : Drops s s' P)
    (hs : s.Consistent) (hlen : s.expiry.len ≤ s'.expiry.len) {x : SwarmKey} {a : SocketAddr}
    {d : Nat} (hd : s.deadline? x a = some d) : s'.deadline? x a = some d := by
  cases hd' : s'.deadline? x a with
  | none => exact absurd (h.total_lt hs hd hd') (by omega)
  | some d' => rw [← hd, h.sub x a d' hd']

theorem Drops.same_size {P : SwarmKey → SocketAddr → Nat → Prop} (h : Drops s s' P)
    {x : SwarmKey} (hlen : s.size x ≤ s'.size x) {a : SocketAddr} {d : Nat}
    (hd : s.deadline? x a = some d) : s'.deadline? x a = some d := by
  cases hd' : s'.deadline? x a with
  | none => exact absurd (h.size_lt hd hd') (by omega)
  | some d' => rw [← hd, h.sub x a d' hd']

/-- The three evictions, for a peer that is not stored. -/
theorem Consistent.evict (h : s.Consistent) (hb : s.Bounded) (hsized : Sized s.config)
    {hash : SwarmKey} {address : SocketAddr} (hfresh : s.deadline? hash address = none) :
    ∃ s₁ s₂ s₃ X, s.evictGroup hash = some s₁ ∧ s₁.evictMember hash = some s₂ ∧
      s₂.evictOldest = some s₃ ∧ Drops s s₃ (fun x a _ => X x a) ∧ Eviction s hash address X ∧
      s₃.expiry.len < s.config.maxPeers ∧ s₃.size hash < s.config.maxPeersPerHash ∧
      ((s₃.peers.get? hash).isSome ∨ s₃.peers.rows.length < s.config.maxHashes) := by
  obtain ⟨s₁, hs₁, hgroup⟩ := h.evictGroup hsized.hashes hash
  rcases hgroup with ⟨rfl, hroom⟩ | ⟨old, hne, habsent, hfull, hold, hdrops, hgone⟩
  · obtain ⟨s₂, hs₂, hmember⟩ := h.evictMember hsized.perHash hash
    rcases hmember with ⟨rfl, hsize⟩ | ⟨a₀, d₀, hstored, hfull, hleast, hdrops, hgone⟩
    · obtain ⟨s₃, hs₃, holdest⟩ := h.evictOldest hsized.peers
      rcases holdest with ⟨rfl, htotal⟩ | ⟨x₀, a₀, d₀, hstored, hfull, hleast, hdrops, hgone⟩
      · exact ⟨s₃, s₃, s₃, _, hs₁, hs₂, hs₃, Drops.refl h, .nothing, htotal, hsize, hroom⟩
      · have hlt := hdrops.total_lt h hstored hgone
        have htotal := hb.total
        refine ⟨s₂, s₂, s₃, _, hs₁, hs₂, hs₃, hdrops,
          .oldest x₀ a₀ d₀ hstored hleast hfresh (le_antisymm hb.total hfull), by omega,
          lt_of_le_of_lt (hdrops.size_le h hash) hsize, ?_⟩
        -- the evicted peer may have been the last of the group
        by_cases hsome : (s₃.peers.get? hash).isSome
        · exact .inl hsome
        · refine .inr ?_
          rcases hroom with hpresent | hroom
          · exact lt_of_lt_of_le
              (hdrops.groups_lt h hpresent (Option.not_isSome_iff_eq_none.1 hsome)) hb.groups
          · exact lt_of_le_of_lt (hdrops.groups_le h) hroom
    · have hlt := hdrops.total_lt h hstored hgone
      have hsizelt := hdrops.size_lt hstored hgone
      have htotal := hb.total
      have hsizeb := hb.size hash
      obtain ⟨s₃, hs₃, holdest⟩ := hdrops.consistent.evictOldest (hdrops.config ▸ hsized.peers)
      rcases holdest with ⟨rfl, htotal'⟩ | ⟨_, _, _, -, hfull', -⟩
      · refine ⟨s₁, s₃, s₃, _, hs₁, hs₂, hs₃, hdrops,
          .member a₀ d₀ hstored hleast hfresh (le_antisymm hsizeb hfull), by omega, by omega, ?_⟩
        by_cases hsome : (s₃.peers.get? hash).isSome
        · exact .inl hsome
        · have hpresent : (s₁.peers.get? hash).isSome := h.present_iff.2 ⟨a₀, d₀, hstored⟩
          exact .inr (lt_of_lt_of_le
            (hdrops.groups_lt h hpresent (Option.not_isSome_iff_eq_none.1 hsome)) hb.groups)
      · rw [hdrops.config] at hfull'
        omega
  · -- another group made room: neither of the other two evictions is due
    have hnone : s₁.peers.get? hash = none := by
      rw [← Option.not_isSome_iff_eq_none]
      intro hsome
      rw [Option.isSome_iff_ne_none] at hsome
      have := hdrops.present h (Option.isSome_iff_ne_none.2 hsome)
      rw [habsent] at this
      cases this
    have hzero : s₁.size hash = 0 := by simp [size, hnone]
    obtain ⟨a, d, hd⟩ := h.present_iff.1 hold
    have hgonePeer : s₁.deadline? old a = none := by simp [deadline?, hgone]
    have hlt := hdrops.total_lt h hd hgonePeer
    have htotal := hb.total
    have hpos := hsized.perHash
    obtain ⟨s₂, hs₂, hmember⟩ := hdrops.consistent.evictMember (hdrops.config ▸ hsized.perHash) hash
    rcases hmember with ⟨rfl, hsize⟩ | ⟨_, _, -, hfull', -⟩
    · obtain ⟨s₃, hs₃, holdest⟩ := hdrops.consistent.evictOldest (hdrops.config ▸ hsized.peers)
      rcases holdest with ⟨rfl, htotal'⟩ | ⟨_, _, _, -, hfull', -⟩
      · have hgroups := hdrops.groups_lt h hold hgone
        have hgroupsb := hb.groups
        exact ⟨s₃, s₃, s₃, _, hs₁, hs₂, hs₃, hdrops,
          .group old hne habsent (le_antisymm hb.groups hfull), by omega, by omega, .inr (by omega)⟩
      · rw [hdrops.config] at hfull'
        omega
    · rw [hdrops.config] at hfull'
      omega

/-- An eviction that is due after other peers were dropped was due before: a capacity that is used up
afterwards was used up by the same peers. -/
theorem Eviction.before {P : SwarmKey → SocketAddr → Nat → Prop} {hash : SwarmKey}
    {address : SocketAddr} {X : SwarmKey → SocketAddr → Prop} (h : Eviction s' hash address X)
    (hdrops : Drops s s' P) (hs : s.Consistent) (hb : s.Bounded) : Eviction s hash address X := by
  have hconfig := hdrops.config
  cases h with
  | nothing => exact .nothing
  | group old hne absent full =>
    rw [hconfig] at full
    have hgroups := hb.groups
    refine .group old hne ?_ (le_antisymm hgroups (full ▸ hdrops.groups_le hs))
    rw [← Option.not_isSome_iff_eq_none]
    intro hsome
    have := hdrops.groups_lt hs hsome absent
    omega
  | member a₀ d₀ stored oldest fresh full =>
    rw [hconfig] at full
    have hsize := hb.size hash
    have hsame : s.size hash ≤ s'.size hash := by omega
    refine .member a₀ d₀ (hdrops.sub _ _ _ stored) ?_ ?_
      (le_antisymm hsize (full ▸ hdrops.size_le hs hash))
    · exact fun a d hd => oldest a d (hdrops.same_size hsame hd)
    · rw [Option.eq_none_iff_forall_ne_some]
      intro d hd
      rw [hdrops.same_size hsame hd] at fresh
      cases fresh
  | oldest x₀ a₀ d₀ stored oldest fresh full =>
    rw [hconfig] at full
    have htotal := hb.total
    have hsame : s.expiry.len ≤ s'.expiry.len := by omega
    refine .oldest x₀ a₀ d₀ (hdrops.sub _ _ _ stored) ?_ ?_
      (le_antisymm htotal (full ▸ hdrops.total_le hs))
    · exact fun x a d hd => oldest x a d (hdrops.same_total hs hsame hd)
    · rw [Option.eq_none_iff_forall_ne_some]
      intro d hd
      rw [hdrops.same_total hs hsame hd] at fresh
      cases fresh

/-- What a successful announcement does to the other peers. -/
structure Announced (s s' : PeerStore) (hash : SwarmKey) (address : SocketAddr) (now : Nat) :
    Prop where
  stored : s'.deadline? hash address = some (now + s.config.ttl)
  /-- No other peer is new or renewed. -/
  sub : ∀ x a d, ¬ (x = hash ∧ a = address) → s'.deadline? x a = some d → s.deadline? x a = some d
  /-- Besides expired peers, at most one eviction. -/
  evicted : ∃ X, Eviction s hash address X ∧ ∀ x a d, ¬ (x = hash ∧ a = address) →
    s.deadline? x a = some d → now < d → ¬ X x a → s'.deadline? x a = some d

/-- **An announcement** does not panic, keeps the indexes and the capacities, and evicts at most what
it needs. -/
theorem Consistent.announce (h : s.Consistent) (hb : s.Bounded) (hsized : Sized s.config)
    (hash : SwarmKey) (address : SocketAddr) (now : Nat) :
    ∃ result s', s.announce hash address now = some (result, s') ∧ s'.Consistent ∧ s'.Bounded ∧
      s'.config = s.config ∧ (result = .ok () → Announced s s' hash address now) ∧
      (∀ e, result = .error e → s' = s) := by
  unfold PeerStore.announce
  by_cases haccepts : s.accepts address = true
  · simp only [haccepts, Bool.not_true, Bool.false_eq_true, if_false]
    cases hdeadline : checkedAdd now s.config.ttl with
    | none =>
      exact ⟨_, s, rfl, h, hb, rfl, fun hok => (by cases hok), fun _ _ => rfl⟩
    | some deadline =>
      have hadd : deadline = now + s.config.ttl := by
        unfold checkedAdd at hdeadline
        split at hdeadline
        · cases hdeadline
          rfl
        · cases hdeadline
      obtain ⟨s₁, hs₁, hexpired⟩ := h.expire now 256
      obtain ⟨s₂, hs₂, hrenewed, hfresh⟩ := hexpired.consistent.dropRecord hash address
      have hdrops := hexpired.trans hrenewed
      have hb₂ := hdrops.bounded h hb
      have hconfig₂ := hdrops.config
      obtain ⟨s₃, s₄, s₅, X, hs₃, hs₄, hs₅, hevicted, heviction, htotal, hsize, hgroups⟩ :=
        hdrops.consistent.evict hb₂ (hconfig₂ ▸ hsized) hfresh
      have hfresh₅ : s₅.deadline? hash address = none := by
        rw [Option.eq_none_iff_forall_ne_some]
        intro d hd
        rw [hevicted.sub _ _ _ hd] at hfresh
        cases hfresh
      obtain ⟨s₆, hs₆, hc₆, hconfig₆, -, hdead₆, htotal₆, hsize₆, hother₆, hgroups₆⟩ :=
        hevicted.consistent.insertPeer hfresh₅ deadline
      have hconfig : s₆.config = s.config := hconfig₆.trans (hevicted.config.trans hconfig₂)
      have hb₅ := hevicted.bounded hdrops.consistent hb₂
      rw [hconfig₂] at htotal hsize hgroups
      refine ⟨.ok (), s₆, ?_, hc₆, ?_, hconfig, fun _ => ?_, fun e he => (by cases he)⟩
      · simp only [Option.bind_eq_bind, hs₁, Option.bind_some, hs₂, hs₃, hs₄, hs₅, hs₆]
        rfl
      · have hb₅g := hb₅.groups
        have hconfig₅ : s₅.config = s.config := hevicted.config.trans hconfig₂
        refine ⟨?_, fun x => ?_, ?_⟩
        · rw [hconfig, hgroups₆]
          rw [hconfig₅] at hb₅g
          split
          · omega
          · rename_i hnone
            have := hgroups.resolve_left hnone
            omega
        · rw [hconfig]
          by_cases hx : x = hash
          · subst hx
            omega
          · rw [hother₆ x hx, ← hconfig₅]
            exact hb₅.size x
        · rw [hconfig]
          omega
      · refine ⟨by rw [hdead₆, if_pos ⟨rfl, rfl⟩, hadd], ?_, X, heviction.before hdrops h hb, ?_⟩
        · intro x a d hne hd
          rw [hdead₆, if_neg hne] at hd
          exact hdrops.sub _ _ _ (hevicted.sub _ _ _ hd)
        · intro x a d hne hd hnow hX
          rw [hdead₆, if_neg hne]
          refine hevicted.kept x a d (hdrops.kept x a d hd ?_) hX
          rintro (hle | hxa)
          · omega
          · exact hne hxa
  · simp only [Bool.not_eq_true] at haccepts
    exact ⟨.error .address, s, by simp [haccepts], h, hb, rfl, fun hok => (by cases hok),
      fun _ _ => rfl⟩

end PeerStore

end BtSniffer
